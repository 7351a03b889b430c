import Lookahead.Main
import Lookahead.Proofs.Analysis
import Lookahead.Proofs.CommandLine.Answers
import Lookahead.Proofs.Definition.ReadBack
import Lookahead.Proofs.Definition.Spelling
import Lookahead.Proofs.ExplicitEpsilon
import Lookahead.Proofs.Extension
import Lookahead.Proofs.FirstSets.Calls
import Lookahead.Proofs.FirstSets.CycleGuard
import Lookahead.Proofs.FirstSets.Passes
import Lookahead.Proofs.FollowSets.Growths
import Lookahead.Proofs.Grammar.Defects
import Lookahead.Proofs.Locality
import Lookahead.Proofs.Rebuild
import Lookahead.Proofs.Renaming
import Lookahead.Proofs.Report.Canonical
import Lookahead.Proofs.Report.Foreign
import Lookahead.Proofs.Report.PlainProductions
import Lookahead.Proofs.Report.PlainSets
import Lookahead.Proofs.Report.Tex
import Lookahead.Proofs.StartSymbol
