import Lookahead.FirstSets.Evaluation
import Lookahead.Proofs.FirstSets.Meaning
import Lookahead.Proofs.Grammar.Accepted
import Lookahead.Proofs.LeftRecursion

/-!
What one request answers. The answer holds nothing but what the meaning of FIRST allows, also inside
cycles, and as long as no symbol has been requested for its own set it holds all of it. A symbol that
is requested for its own set is left-recursive.
-/

namespace Lookahead

namespace Evaluation

/-- No symbol has been requested for its own set. -/
def Quiet (s : Evaluation) : Prop := ∀ symbol, Event.reentered symbol ∉ s.log

structure Extends (s later : Evaluation) : Prop where
  cached : ∀ symbol, (s.cache.get? symbol).isSome → (later.cache.get? symbol).isSome
  logged : s.log <:+ later.log

theorem Extends.refl (s : Evaluation) : s.Extends s := ⟨fun _ known => known, List.suffix_refl _⟩

theorem Extends.trans {s middle later : Evaluation} (first : s.Extends middle)
    (second : middle.Extends later) : s.Extends later :=
  ⟨fun symbol known => second.cached symbol (first.cached symbol known),
    first.logged.trans second.logged⟩

theorem Extends.quiet {s later : Evaluation} (extends_s : s.Extends later) (quiet : later.Quiet) :
    s.Quiet :=
  fun symbol member => quiet symbol (extends_s.logged.subset member)

theorem extends_store (s : Evaluation) (symbol : Nat) (first : IndexSet) :
    s.Extends (s.store symbol first) := by
  refine ⟨?_, List.suffix_refl _⟩
  intro other known
  rw [store, IndexMap.get?_insert]
  split
  · rfl
  · exact known

theorem extends_note (s : Evaluation) (event : Event) : s.Extends (s.note event) :=
  ⟨fun _ known => known, List.suffix_cons event s.log⟩

end Evaluation

open Evaluation

section Scans

variable {σ : Type} {request : Nat → StateM σ IndexSet}

theorem firstOfSequence_cons (symbol : Nat) (rest : List Nat) (s : σ) :
    firstOfSequence request (symbol :: rest) s =
      if epsilonIndex ∈ (request symbol s).1 then
        ((request symbol s).1.erase epsilonIndex ∪
            (firstOfSequence request rest (request symbol s).2).1,
          (firstOfSequence request rest (request symbol s).2).2)
      else request symbol s := by
  rw [firstOfSequence]
  change (if epsilonIndex ∈ (request symbol s).1 then _ else _ : StateM σ IndexSet)
    (request symbol s).2 = _
  split <;> rfl

theorem firstOfAlternatives_nil (s : σ) : firstOfAlternatives request [] s = (∅, s) := rfl

theorem firstOfAlternatives_cons (sequence : List Nat) (rest : List (List Nat)) (s : σ) :
    firstOfAlternatives request (sequence :: rest) s =
      ((firstOfSequence request sequence s).1 ∪
          (firstOfAlternatives request rest (firstOfSequence request sequence s).2).1,
        (firstOfAlternatives request rest (firstOfSequence request sequence s).2).2) := rfl

theorem firstOfSequence_keeps {motive : σ → Prop}
    (kept : ∀ symbol s, motive s → motive (request symbol s).2) (sequence : List Nat)
    {s : σ} (first : motive s) : motive (firstOfSequence request sequence s).2 := by
  induction sequence generalizing s with
  | nil => exact first
  | cons symbol rest ih =>
    rw [firstOfSequence_cons]
    split
    · exact ih (kept symbol s first)
    · exact kept symbol s first

theorem firstOfAlternatives_keeps {motive : σ → Prop}
    (kept : ∀ symbol s, motive s → motive (request symbol s).2) (alternatives : List (List Nat))
    {s : σ} (first : motive s) : motive (firstOfAlternatives request alternatives s).2 := by
  induction alternatives generalizing s with
  | nil => exact first
  | cons sequence rest ih =>
    rw [firstOfAlternatives_cons]
    exact ih (firstOfSequence_keeps kept sequence first)

end Scans

section Growing

variable {request : Nat → StateM Evaluation IndexSet}

theorem extends_firstOfSequence (each : ∀ symbol s, Extends s (request symbol s).2)
    (sequence : List Nat) (s : Evaluation) : s.Extends (firstOfSequence request sequence s).2 :=
  firstOfSequence_keeps (motive := s.Extends)
    (fun symbol middle grown => grown.trans (each symbol middle)) sequence (.refl s)

theorem extends_firstOfAlternatives (each : ∀ symbol s, Extends s (request symbol s).2)
    (alternatives : List (List Nat)) (s : Evaluation) :
    s.Extends (firstOfAlternatives request alternatives s).2 :=
  firstOfAlternatives_keeps (motive := s.Extends)
    (fun symbol middle grown => grown.trans (each symbol middle)) alternatives (.refl s)

end Growing

theorem extends_request (g : Grammar) (active : List Nat) (symbol : Nat) (s : Evaluation) :
    s.Extends (g.request active symbol s).2 := by
  fun_induction Grammar.request g active symbol s with
  | case1 => exact .refl _
  | case2 => exact extends_store _ _ _
  | case3 => exact extends_note _ _
  | case4 active symbol s missing productions found fresh evaluated ih =>
    exact (extends_firstOfAlternatives ih productions s).trans (extends_store _ _ _)

theorem isSome_get?_request (g : Grammar) {active : List Nat} {symbol : Nat}
    (fresh : symbol ∉ active) (s : Evaluation) :
    ((g.request active symbol s).2.cache.get? symbol).isSome := by
  rw [Grammar.request]
  split
  · rename_i first found
    rw [found]
    rfl
  · split
    · rw [store, IndexMap.get?_insert_self]
      rfl
    · rw [dif_neg fresh]
      dsimp only
      rw [store, IndexMap.get?_insert_self]
      rfl

namespace Grammar

theorem request_eq (g : Grammar) (active : List Nat) (symbol : Nat) (s : Evaluation) :
    g.request active symbol s =
      match s.cache.get? symbol with
      | some first => (first, s)
      | none =>
        match g.productions? symbol with
        | none => ({symbol}, s.store symbol {symbol})
        | some productions =>
          if symbol ∈ active then (∅, s.note (.reentered symbol))
          else
            let evaluated := firstOfAlternatives (g.request (symbol :: active)) productions s
            (evaluated.1, evaluated.2.store symbol evaluated.1) := by
  rw [request]
  cases s.cache.get? symbol with
  | some first => rfl
  | none =>
    dsimp only
    split
    · rename_i none
      rw [none]
    · rename_i productions found
      rw [found]
      rfl

/-- The set is right for the sequence: it never has too much, and in a quiet state it has all. -/
structure Answers (g : Grammar) (s : Evaluation) (sequence : List Nat) (first : IndexSet) : Prop where
  sound : ∀ i ∈ first, g.Leads sequence i
  complete : s.Quiet → ∀ i, g.Leads sequence i → i ∈ first
  grounded : s.Quiet → ∀ symbol, g.Leftmost sequence symbol → g.Grounded symbol

structure Valid (g : Grammar) (s : Evaluation) : Prop where
  known : ∀ symbol first, s.cache.get? symbol = some first →
    g.Usable symbol ∧ g.Answers s [symbol] first
  leaf : ∀ symbol first, s.cache.get? symbol = some first → ¬ g.isNonTerminal symbol →
    symbol ∈ first
  recursive : ∀ symbol, Event.reentered symbol ∈ s.log → g.LeftRecursive symbol

variable {g : Grammar}

theorem Answers.later {s later : Evaluation} {sequence : List Nat} {first : IndexSet}
    (answers : g.Answers s sequence first) (grown : s.Extends later) :
    g.Answers later sequence first :=
  ⟨answers.sound, fun quiet => answers.complete (grown.quiet quiet),
    fun quiet => answers.grounded (grown.quiet quiet)⟩

theorem valid_initial : g.Valid {} := ⟨by simp, by simp, by simp⟩

theorem Valid.store {s : Evaluation} {symbol : Nat} {first : IndexSet} (valid : g.Valid s)
    (usable : g.Usable symbol) (answers : g.Answers s [symbol] first)
    (leaf : ¬ g.isNonTerminal symbol → symbol ∈ first) : g.Valid (s.store symbol first) := by
  have grown := extends_store s symbol first
  refine ⟨?_, ?_, valid.recursive⟩
  · intro other set found
    rw [Evaluation.store, IndexMap.get?_insert] at found
    split at found
    · rename_i same
      obtain rfl := Option.some.inj found
      exact ⟨same ▸ usable, same ▸ answers.later grown⟩
    · exact ⟨(valid.known other set found).1, (valid.known other set found).2.later grown⟩
  · intro other set found
    rw [Evaluation.store, IndexMap.get?_insert] at found
    split at found
    · rename_i same
      obtain rfl := Option.some.inj found
      exact same ▸ leaf
    · exact valid.leaf other set found

theorem Valid.note {s : Evaluation} {symbol : Nat} (valid : g.Valid s)
    (recursive : g.LeftRecursive symbol) : g.Valid (s.note (.reentered symbol)) := by
  have grown := extends_note s (.reentered symbol)
  refine ⟨?_, valid.leaf, ?_⟩
  · intro other set found
    exact ⟨(valid.known other set found).1, (valid.known other set found).2.later grown⟩
  · intro other member
    rcases List.mem_cons.1 member with same | old
    · exact Event.reentered.inj same ▸ recursive
    · exact valid.recursive other old

theorem answers_nil (s : Evaluation) : g.Answers s [] {epsilonIndex} := by
  refine ⟨?_, ?_, ?_⟩
  · intro i member
    exact leads_nil.2 (IndexSet.mem_singleton.1 member)
  · intro _ i leads
    exact IndexSet.mem_singleton.2 (leads_nil.1 leads)
  · intro _ symbol leftmost
    exact absurd leftmost not_leftmost_nil

theorem leads_of_leaf {symbol i : Nat} (usable : g.Usable symbol) (other : ¬ g.isNonTerminal symbol) :
    g.Leads [symbol] i ↔ i = symbol := by
  rcases usable with rfl | nonTerminal | terminal
  · exact leads_singleton_epsilon
  · exact absurd nonTerminal other
  · simp [leads_of_not_isNonTerminal other terminal.ne_epsilon, terminal]

theorem answers_leaf {symbol : Nat} (usable : g.Usable symbol) (other : ¬ g.isNonTerminal symbol)
    (s : Evaluation) : g.Answers s [symbol] {symbol} := by
  refine ⟨?_, ?_, ?_⟩
  · intro i member
    exact (leads_of_leaf usable other).2 (IndexSet.mem_singleton.1 member)
  · intro _ i leads
    exact IndexSet.mem_singleton.2 ((leads_of_leaf usable other).1 leads)
  · intro _ first leftmost
    obtain rfl : first = symbol := by simpa using leftmost.mem
    refine ⟨first, ?_⟩
    intro next given
    obtain ⟨-, right, has, -⟩ := given
    exact absurd has.isNonTerminal other

theorem answers_reentered {sequence : List Nat} (s : Evaluation) (symbol : Nat) :
    g.Answers (s.note (.reentered symbol)) sequence ∅ := by
  have loud : ¬ (s.note (.reentered symbol)).Quiet := by
    intro quiet
    exact quiet symbol List.mem_cons_self
  exact ⟨by simp, fun quiet => absurd quiet loud, fun quiet => absurd quiet loud⟩

theorem Answers.of_solid {s : Evaluation} {symbol : Nat} {rest : List Nat} {first : IndexSet}
    (answers : g.Answers s [symbol] first) (solid : epsilonIndex ∉ first) :
    g.Answers s (symbol :: rest) first := by
  have stays (quiet : s.Quiet) : ¬ g.Vanishes [symbol] := by
    intro vanishes
    exact solid (answers.complete quiet epsilonIndex (leads_epsilon.2 vanishes))
  refine ⟨?_, ?_, ?_⟩
  · intro i member
    exact leads_cons.2 (.inl ⟨answers.sound i member, fun hidden => solid (hidden ▸ member)⟩)
  · intro quiet i leads
    rcases leads_cons.1 leads with ⟨head, -⟩ | ⟨vanishes, -⟩
    · exact answers.complete quiet i head
    · exact absurd vanishes (stays quiet)
  · intro quiet other leftmost
    rcases leftmost_cons.1 leftmost with rfl | ⟨vanishes, -⟩
    · exact answers.grounded quiet other (leftmost_cons.2 (.inl rfl))
    · exact absurd vanishes (stays quiet)

theorem Answers.of_vanishing {s : Evaluation} {symbol : Nat} {rest : List Nat}
    {first later : IndexSet} (answers : g.Answers s [symbol] first) (vanishing : epsilonIndex ∈ first)
    (tail : g.Answers s rest later) :
    g.Answers s (symbol :: rest) (first.erase epsilonIndex ∪ later) := by
  have vanishes : g.Vanishes [symbol] := leads_epsilon.1 (answers.sound epsilonIndex vanishing)
  refine ⟨?_, ?_, ?_⟩
  · intro i member
    rw [IndexSet.mem_union, IndexSet.mem_erase] at member
    rw [leads_cons]
    rcases member with ⟨head, shown⟩ | inside
    · exact .inl ⟨answers.sound i head, shown⟩
    · exact .inr ⟨vanishes, tail.sound i inside⟩
  · intro quiet i leads
    rw [IndexSet.mem_union, IndexSet.mem_erase]
    rcases leads_cons.1 leads with ⟨head, shown⟩ | ⟨-, inside⟩
    · exact .inl ⟨answers.complete quiet i head, shown⟩
    · exact .inr (tail.complete quiet i inside)
  · intro quiet other leftmost
    rcases leftmost_cons.1 leftmost with rfl | ⟨-, inside⟩
    · exact answers.grounded quiet other (leftmost_cons.2 (.inl rfl))
    · exact tail.grounded quiet other inside

section Requests

variable {request : Nat → StateM Evaluation IndexSet}

theorem answers_firstOfSequence (each : ∀ symbol s, Extends s (request symbol s).2)
    {sequence : List Nat} (requested : ∀ symbol, g.Leftmost sequence symbol → ∀ s, g.Valid s →
      g.Valid (request symbol s).2 ∧ g.Answers (request symbol s).2 [symbol] (request symbol s).1)
    {s : Evaluation} (valid : g.Valid s) :
    g.Valid (firstOfSequence request sequence s).2 ∧
      g.Answers (firstOfSequence request sequence s).2 sequence
        (firstOfSequence request sequence s).1 := by
  induction sequence generalizing s with
  | nil => exact ⟨valid, answers_nil s⟩
  | cons symbol rest ih =>
    obtain ⟨validHead, head⟩ := requested symbol (leftmost_cons.2 (.inl rfl)) s valid
    rw [firstOfSequence_cons]
    split
    · rename_i vanishing
      have vanishes : g.Vanishes [symbol] := leads_epsilon.1 (head.sound epsilonIndex vanishing)
      have requestedRest (other : Nat) (leftmost : g.Leftmost rest other) :=
        requested other (leftmost_cons.2 (.inr ⟨vanishes, leftmost⟩))
      obtain ⟨validTail, tail⟩ := ih requestedRest validHead
      have grown := extends_firstOfSequence each rest (request symbol s).2
      exact ⟨validTail, (head.later grown).of_vanishing vanishing tail⟩
    · rename_i solid
      exact ⟨validHead, head.of_solid solid⟩

theorem answers_firstOfAlternatives (each : ∀ symbol s, Extends s (request symbol s).2)
    {alternatives : List (List Nat)}
    (requested : ∀ sequence ∈ alternatives, ∀ symbol, g.Leftmost sequence symbol → ∀ s, g.Valid s →
      g.Valid (request symbol s).2 ∧ g.Answers (request symbol s).2 [symbol] (request symbol s).1)
    {s : Evaluation} (valid : g.Valid s) :
    g.Valid (firstOfAlternatives request alternatives s).2 ∧
      (∀ i ∈ (firstOfAlternatives request alternatives s).1, ∃ sequence ∈ alternatives,
        g.Leads sequence i) ∧
      ∀ sequence ∈ alternatives, ∃ first, (∀ i ∈ first,
        i ∈ (firstOfAlternatives request alternatives s).1) ∧
        g.Answers (firstOfAlternatives request alternatives s).2 sequence first := by
  induction alternatives generalizing s with
  | nil => exact ⟨valid, by simp [firstOfAlternatives_nil], by simp⟩
  | cons sequence rest ih =>
    obtain ⟨validHead, head⟩ :=
      answers_firstOfSequence each (requested sequence List.mem_cons_self) valid
    obtain ⟨validTail, tailSound, tail⟩ :=
      ih (fun other member => requested other (List.mem_cons_of_mem _ member)) validHead
    have grown := extends_firstOfAlternatives each rest (firstOfSequence request sequence s).2
    rw [firstOfAlternatives_cons]
    refine ⟨validTail, ?_, ?_⟩
    · intro i member
      rcases IndexSet.mem_union.1 member with inside | inside
      · exact ⟨sequence, List.mem_cons_self, head.sound i inside⟩
      · obtain ⟨other, listed, leads⟩ := tailSound i inside
        exact ⟨other, List.mem_cons_of_mem _ listed, leads⟩
    · intro other listed
      rcases List.mem_cons.1 listed with rfl | inside
      · exact ⟨_, fun i member => IndexSet.mem_union.2 (.inl member), head.later grown⟩
      · obtain ⟨first, included, answers⟩ := tail other inside
        exact ⟨first, fun i member => IndexSet.mem_union.2 (.inr (included i member)), answers⟩

end Requests

private theorem answers_of_alternatives {s : Evaluation} {symbol : Nat} {result : IndexSet}
    {productions : List (List Nat)} (found : g.productions? symbol = some productions)
    (sound : ∀ i ∈ result, ∃ right ∈ productions, g.Leads right i)
    (each : ∀ right ∈ productions, ∃ first, (∀ i ∈ first, i ∈ result) ∧ g.Answers s right first) :
    g.Answers s [symbol] result := by
  have nonTerminal := isNonTerminal_of_productions? found
  refine ⟨?_, ?_, ?_⟩
  · intro i member
    obtain ⟨right, listed, leads⟩ := sound i member
    exact leads_of_production ⟨productions, found, listed⟩ leads
  · intro quiet i leads
    obtain ⟨right, has, inner⟩ := (leads_of_isNonTerminal nonTerminal).1 leads
    obtain ⟨first, included, answers⟩ := each right ((hasProduction_iff found right).1 has)
    exact included i (answers.complete quiet i inner)
  · intro quiet other leftmost
    obtain rfl : other = symbol := by simpa using leftmost.mem
    refine ⟨other, ?_⟩
    intro next given
    obtain ⟨-, right, has, inner⟩ := given
    obtain ⟨first, -, answers⟩ := each right ((hasProduction_iff found right).1 has)
    exact answers.grounded quiet next inner

/-- Every symbol being evaluated left-depends, in some steps, on the one requested. A request for one
of them therefore closes a cycle. -/
theorem answers_request (wellFormed : g.WellFormed) (active : List Nat) (symbol : Nat)
    (s : Evaluation) (usable : g.Usable symbol)
    (reached : g.isNonTerminal symbol → ∀ other ∈ active,
      Relation.TransGen g.LeftDepends other symbol) (valid : g.Valid s) :
    g.Valid (g.request active symbol s).2 ∧
      g.Answers (g.request active symbol s).2 [symbol] (g.request active symbol s).1 := by
  fun_induction Grammar.request g active symbol s with
  | case1 active symbol s first found => exact ⟨valid, (valid.known symbol first found).2⟩
  | case2 active symbol s missing none =>
    have answers := answers_leaf usable ((productions?_eq_none_iff g symbol).1 none) s
    exact ⟨valid.store usable answers fun _ => IndexSet.mem_singleton.2 rfl,
      answers.later (extends_store s symbol _)⟩
  | case3 active symbol s missing productions found member =>
    have nonTerminal := isNonTerminal_of_productions? found
    exact ⟨valid.note (reached nonTerminal symbol member), answers_reentered s symbol⟩
  | case4 active symbol s missing productions found fresh evaluated ih =>
    have nonTerminal := isNonTerminal_of_productions? found
    have requested (right : List Nat) (listed : right ∈ productions) (next : Nat)
        (leftmost : g.Leftmost right next) (s : Evaluation) (valid : g.Valid s) :=
      have has : g.HasProduction symbol right := ⟨productions, found, listed⟩
      ih next s (wellFormed.usable symbol right has next leftmost.mem) (by
        intro nextNonTerminal other member
        have depends : g.LeftDepends symbol next := ⟨nextNonTerminal, right, has, leftmost⟩
        rcases List.mem_cons.1 member with rfl | older
        · exact .single depends
        · exact (reached nonTerminal other older).tail depends) valid
    obtain ⟨validAfter, sound, each⟩ := answers_firstOfAlternatives
      (extends_request g (symbol :: active)) requested valid
    have answers := answers_of_alternatives found sound each
    exact ⟨validAfter.store usable answers fun other => absurd nonTerminal other,
      answers.later (extends_store _ symbol _)⟩

end Grammar

end Lookahead
