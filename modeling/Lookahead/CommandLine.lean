import Lookahead.Analysis
import Lookahead.Report.Productions

/-!
The command line: what its words ask for, and what is printed then. Nothing is printed on the
standard output before everything has been computed.
-/

namespace Lookahead.CommandLine

inductive Output where
  | productions
  | sets
deriving DecidableEq

inductive Format where
  | plain
  | tex
  | json
deriving DecidableEq

inductive Command where
  | help
  /-- Without a file, the built-in grammar is used. -/
  | print (outputs : List Output) (format : Format) (file : Option String)
deriving DecidableEq

def takeOutputs : List String → List Output × List String
  | [] => ([], [])
  | word :: rest =>
    if word = "prod" then
      let (outputs, rest) := takeOutputs rest
      (.productions :: outputs, rest)
    else if word = "ff" then
      let (outputs, rest) := takeOutputs rest
      (.sets :: outputs, rest)
    else ([], word :: rest)

/-- The last format wins. Nothing is left of a line that asks for help. -/
def takeOptions (format : Format) : List String → Option (Format × List String)
  | [] => some (format, [])
  | word :: rest =>
    if word = "-h" ∨ word = "--help" then none
    else if word = "-l" then takeOptions .tex rest
    else if word = "-j" then takeOptions .json rest
    else some (format, word :: rest)

def parse (words : List String) : Command :=
  let (outputs, rest) := takeOutputs words
  let outputs := if outputs.isEmpty then [.sets] else outputs
  match takeOptions .plain rest with
  | none => .help
  | some (format, []) => .print outputs format none
  | some (format, [file]) => .print outputs format (some file)
  | some (_, _ :: _ :: _) => .help

def helpLines : List String :=
  ["Usage: first-follow [outputs] [options] [grammar definition]",
    "outputs:",
    "  prod: Productions",
    "  ff: FIRST and FOLLOW sets (default)",
    "options:",
    "  -h: Print this help",
    "  -l: Print in LaTeX format",
    "  -j: Print in JSON format",
    "grammar definition:",
    "  a JSON file such as",
    "  \x7b\"rules\": [\x7b\"lhs\": \"S\", \"rhs\": [[\"A\", \"B\"]]\x7d, ...]\x7d",
    "  without one, the grammar S -> A B, A -> a | ε, B -> b | c is used"]

/-- Every text is followed by the end of its line. -/
def printed (texts : List String) : String := String.join (texts.map (· ++ "\n"))

def builtIn : Definition :=
  ((∅ : Definition).addRule "S" [["A", "B"]]).addRule "A" [["a"], ["ε"]]
    |>.addRule "B" [["b"], ["c"]]

/-- Why the text of a file is not to be had. -/
inductive ReadFailure where
  | noSuchFile
  | isDirectory
  /-- The path goes on below a file. -/
  | notDirectory
  | nameTooLong
  | notText
  | other (reason : String)
deriving DecidableEq

def ReadFailure.reason : ReadFailure → String
  | noSuchFile => "No such file or directory (os error 2)"
  | isDirectory => "Is a directory (os error 21)"
  | notDirectory => "Not a directory (os error 20)"
  | nameTooLong => "File name too long (os error 36)"
  | notText => "stream did not contain valid UTF-8"
  | other reason => reason

inductive LoadFailure where
  | unreadable (file : String) (failure : ReadFailure)
  | rejected (rejection : Rejection)
deriving DecidableEq

def LoadFailure.message : LoadFailure → String
  | unreadable file failure => "cannot read " ++ file ++ ": " ++ failure.reason
  | rejected rejection => rejection.message

/-- The grammar to print, where `readFile` gives the texts of files. -/
def load (readFile : String → Except ReadFailure String) (file : Option String) :
    Except LoadFailure Grammar := do
  let definition ← match file with
    | none => pure builtIn
    | some path =>
      let document ← (readFile path).mapError (.unreadable path)
      (Definition.read document).mapError .rejected
  definition.build.mapError .rejected

def render? (g : Grammar) (format : Format) : Output → Option String
  | .productions => do
    let report ← g.productionsReport?
    match format with
    | .plain => return report.plain
    | .tex => return report.tex
    | .json => return report.json
  | .sets => do
    let report ← g.ownReport?
    match format with
    | .plain => return report.plain
    | .tex => return report.tex
    | .json => return report.json

structure Outcome where
  status : Nat
  stdout : String
  stderr : String
deriving DecidableEq

def execute? (readFile : String → Except ReadFailure String) : Command → Option Outcome
  | .help => some ⟨0, printed helpLines, ""⟩
  | .print outputs format file =>
    match load readFile file with
    | .error failure => some ⟨1, "", printed [failure.message]⟩
    | .ok g => do
      let texts ← outputs.mapM (render? g format)
      return ⟨0, printed texts, ""⟩

def run? (words : List String) (readFile : String → Except ReadFailure String) : Option Outcome :=
  execute? readFile (parse words)

end Lookahead.CommandLine
