import Lookahead.FollowSets
import Lookahead.Proofs.Grammar.Symbols
import Mathlib.Data.Set.Basic

/-!
The constraints on FOLLOW sets, one or two for each occurrence of a nonterminal in a production. A
pass goes over all occurrences and extends one set for each of them.
-/

namespace Lookahead.Grammar

def Occurs (g : Grammar) (source symbol : Nat) (after : List Nat) : Prop :=
  g.isNonTerminal symbol ∧ ∃ before, g.HasProduction source (before ++ symbol :: after)

/-- A family of sets, one for each index, that fulfils all constraints. -/
structure Solves (g : Grammar) (first : FirstSets) (family : Nat → Set Nat) : Prop where
  endMark : endMarkIndex ∈ family g.start
  ahead : ∀ source symbol after, g.Occurs source symbol after →
    ∀ i ∈ first.ofSequence after, i ≠ epsilonIndex → i ∈ family symbol
  behind : ∀ source symbol after, g.Occurs source symbol after →
    epsilonIndex ∈ first.ofSequence after → family source ⊆ family symbol

structure Occurrence where
  source : Nat
  symbol : Nat
  after : List Nat

def occurrencesIn (g : Grammar) (source : Nat) : List Nat → List Occurrence
  | [] => []
  | symbol :: after =>
    if g.isNonTerminal symbol then ⟨source, symbol, after⟩ :: g.occurrencesIn source after
    else g.occurrencesIn source after

def occurrences (g : Grammar) : List Occurrence :=
  g.indexedNonTerminals.flatMap fun n => n.1.productions.flatMap (g.occurrencesIn n.2)

variable {g : Grammar}

private theorem cons_eq_append_cons_iff {head symbol : Nat} {rest after : List Nat} :
    (∃ before, head :: rest = before ++ symbol :: after) ↔
      head = symbol ∧ rest = after ∨ ∃ before, rest = before ++ symbol :: after := by
  constructor
  · intro given
    obtain ⟨before, whole⟩ := given
    cases before with
    | nil => exact .inl (List.cons.inj whole)
    | cons _ before => exact .inr ⟨before, (List.cons.inj whole).2⟩
  · intro either
    rcases either with ⟨rfl, rfl⟩ | ⟨before, rfl⟩
    · exact ⟨[], rfl⟩
    · exact ⟨head :: before, rfl⟩

theorem mem_occurrencesIn {source symbol : Nat} {sequence after : List Nat} :
    ⟨source, symbol, after⟩ ∈ g.occurrencesIn source sequence ↔
      g.isNonTerminal symbol ∧ ∃ before, sequence = before ++ symbol :: after := by
  induction sequence with
  | nil => simp [occurrencesIn]
  | cons head rest ih =>
    rw [occurrencesIn, cons_eq_append_cons_iff]
    split
    · rename_i nonTerminal
      rw [List.mem_cons, ih, Occurrence.mk.injEq]
      constructor
      · intro either
        rcases either with ⟨-, rfl, rfl⟩ | ⟨inside, later⟩
        · exact ⟨nonTerminal, .inl ⟨rfl, rfl⟩⟩
        · exact ⟨inside, .inr later⟩
      · intro given
        rcases given with ⟨inside, ⟨rfl, rfl⟩ | later⟩
        · exact .inl ⟨rfl, rfl, rfl⟩
        · exact .inr ⟨inside, later⟩
    · rename_i other
      rw [ih]
      constructor
      · intro given
        obtain ⟨inside, later⟩ := given
        exact ⟨inside, .inr later⟩
      · intro given
        rcases given with ⟨inside, ⟨rfl, -⟩ | later⟩
        · exact absurd inside other
        · exact ⟨inside, later⟩

theorem source_of_mem_occurrencesIn {source : Nat} {sequence : List Nat} {o : Occurrence}
    (member : o ∈ g.occurrencesIn source sequence) : o.source = source := by
  induction sequence with
  | nil => simp [occurrencesIn] at member
  | cons head rest ih =>
    rw [occurrencesIn] at member
    split at member
    · rcases List.mem_cons.1 member with rfl | inside
      · rfl
      · exact ih inside
    · exact ih member

theorem mem_occurrences {source symbol : Nat} {after : List Nat} :
    ⟨source, symbol, after⟩ ∈ g.occurrences ↔ g.Occurs source symbol after := by
  simp only [occurrences, List.mem_flatMap, Occurs]
  constructor
  · intro given
    obtain ⟨n, member, right, listed, inside⟩ := given
    obtain rfl : source = n.2 := source_of_mem_occurrencesIn inside
    obtain ⟨nonTerminal, before, rfl⟩ := mem_occurrencesIn.1 inside
    exact ⟨nonTerminal, before, _, productions?_of_mem member, listed⟩
  · intro given
    obtain ⟨nonTerminal, before, has⟩ := given
    obtain ⟨n, member⟩ := (isNonTerminal_iff_mem g source).1 has.isNonTerminal
    have listed := (hasProduction_iff (productions?_of_mem member) _).1 has
    exact ⟨(n, source), member, _, listed, mem_occurrencesIn.2 ⟨nonTerminal, before, rfl⟩⟩

end Lookahead.Grammar

namespace Lookahead

def Growth.extendAt (first : FirstSets) (s : Growth) (o : Grammar.Occurrence) : Growth :=
  s.extend first o.source o.symbol o.after

theorem Grammar.extendAlong_eq_foldl (g : Grammar) (first : FirstSets) (source : Nat)
    (sequence : List Nat) (s : Growth) : g.extendAlong first source s sequence =
      (g.occurrencesIn source sequence).foldl (Growth.extendAt first) s := by
  induction sequence generalizing s with
  | nil => rfl
  | cons symbol after ih =>
    rw [extendAlong, occurrencesIn]
    split
    · exact ih _
    · exact ih _

theorem Grammar.followPass_eq_foldl (g : Grammar) (first : FirstSets) (s : Growth) :
    g.followPass first s = g.occurrences.foldl (Growth.extendAt first) s := by
  rw [followPass, occurrences, List.foldl_flatMap]
  congr 1
  funext s n
  rw [List.foldl_flatMap]
  congr 1
  funext s sequence
  exact extendAlong_eq_foldl g first n.2 sequence s

end Lookahead
