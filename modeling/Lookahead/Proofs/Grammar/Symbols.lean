import Lookahead.Grammar
import Mathlib.Order.Interval.Finset.Nat

/-!
The kinds of indices. Nonterminals and terminals are two intervals that follow the markers, so an
index is of one kind only.
-/

namespace Lookahead.Grammar

def HasProduction (g : Grammar) (symbol : Nat) (right : List Nat) : Prop :=
  ∃ productions, g.productions? symbol = some productions ∧ right ∈ productions

def IsTerminal (g : Grammar) (i : Nat) : Prop := ∃ name, g.symbol? i = some (.terminal name)

/-- The symbols that productions are made of: all but the end mark. -/
def Usable (g : Grammar) (i : Nat) : Prop := i = epsilonIndex ∨ g.isNonTerminal i ∨ g.IsTerminal i

theorem isNonTerminal_iff (g : Grammar) (i : Nat) :
    g.isNonTerminal i ↔ markerCount ≤ i ∧ i < markerCount + g.nonTerminals.length := by
  unfold isNonTerminal nonTerminal?
  split
  · simp only [Option.isSome_none, Bool.false_eq_true, false_iff]
    omega
  · rw [isSome_getElem?]
    omega

def nonTerminalIndices (g : Grammar) : Finset Nat :=
  Finset.Ico markerCount (markerCount + g.nonTerminals.length)

theorem mem_nonTerminalIndices {g : Grammar} {i : Nat} :
    i ∈ g.nonTerminalIndices ↔ g.isNonTerminal i := by
  rw [nonTerminalIndices, Finset.mem_Ico, isNonTerminal_iff]

theorem card_nonTerminalIndices (g : Grammar) :
    g.nonTerminalIndices.card = g.nonTerminals.length := by
  rw [nonTerminalIndices, Nat.card_Ico, Nat.add_sub_cancel_left]

theorem isTerminal_iff (g : Grammar) (i : Nat) :
    g.IsTerminal i ↔ markerCount + g.nonTerminals.length ≤ i ∧ i < g.size := by
  unfold IsTerminal size markerCount
  match i with
  | 0 => simp [symbol?]
  | 1 => simp [symbol?]; omega
  | i + 2 =>
    rw [symbol?]
    split
    · rename_i n found
      have bound := (List.getElem?_eq_some_iff.1 found).1
      simp only [Option.some.injEq, reduceCtorEq, exists_false, false_iff]
      omega
    · rename_i missing
      have bound := List.getElem?_eq_none_iff.1 missing
      simp only [Option.map_eq_some_iff, Symbol.terminal.injEq, exists_eq_right]
      rw [← Option.isSome_iff_exists, isSome_getElem?]
      omega

theorem IsTerminal.ne_epsilon {g : Grammar} {i : Nat} (terminal : g.IsTerminal i) :
    i ≠ epsilonIndex := by
  have bound := ((isTerminal_iff g i).1 terminal).1
  unfold markerCount at bound
  unfold epsilonIndex
  omega

theorem IsTerminal.ne_endMark {g : Grammar} {i : Nat} (terminal : g.IsTerminal i) :
    i ≠ endMarkIndex := by
  have bound := ((isTerminal_iff g i).1 terminal).1
  unfold markerCount at bound
  unfold endMarkIndex
  omega

theorem IsTerminal.not_isNonTerminal {g : Grammar} {i : Nat} (terminal : g.IsTerminal i) :
    ¬ g.isNonTerminal i := by
  intro nonTerminal
  have above := ((isTerminal_iff g i).1 terminal).1
  have below := ((isNonTerminal_iff g i).1 nonTerminal).2
  omega

theorem not_isNonTerminal_epsilon (g : Grammar) : ¬ g.isNonTerminal epsilonIndex := by
  rw [isNonTerminal_iff]
  unfold markerCount epsilonIndex
  omega

theorem Usable.lt_size {g : Grammar} {i : Nat} (usable : g.Usable i) : i < g.size := by
  rcases usable with rfl | nonTerminal | terminal
  · unfold size markerCount epsilonIndex
    omega
  · have bound := ((isNonTerminal_iff g i).1 nonTerminal).2
    unfold size
    omega
  · exact ((isTerminal_iff g i).1 terminal).2

theorem endMarkIndex_lt_size (g : Grammar) : endMarkIndex < g.size := by
  unfold endMarkIndex size markerCount
  omega

theorem Usable.ne_endMark {g : Grammar} {i : Nat} (usable : g.Usable i) : i ≠ endMarkIndex := by
  rcases usable with rfl | nonTerminal | terminal
  · decide
  · have bound := ((isNonTerminal_iff g i).1 nonTerminal).1
    unfold markerCount at bound
    unfold endMarkIndex
    omega
  · exact terminal.ne_endMark

theorem usable_iff_lt_size (g : Grammar) (i : Nat) : g.Usable i ↔ i < g.size ∧ i ≠ endMarkIndex := by
  refine ⟨fun usable => ⟨usable.lt_size, usable.ne_endMark⟩, ?_⟩
  rw [Usable, isNonTerminal_iff, isTerminal_iff]
  unfold markerCount epsilonIndex endMarkIndex
  omega

theorem productions?_eq_none_iff (g : Grammar) (i : Nat) :
    g.productions? i = none ↔ ¬ g.isNonTerminal i := by
  simp [productions?, isNonTerminal]

theorem isNonTerminal_of_productions? {g : Grammar} {symbol : Nat} {productions : List (List Nat)}
    (found : g.productions? symbol = some productions) : g.isNonTerminal symbol := by
  obtain ⟨n, inside, -⟩ := Option.map_eq_some_iff.1 found
  rw [isNonTerminal, inside]
  rfl

theorem HasProduction.isNonTerminal {g : Grammar} {symbol : Nat} {right : List Nat}
    (has : g.HasProduction symbol right) : g.isNonTerminal symbol :=
  isNonTerminal_of_productions? has.choose_spec.1

theorem hasProduction_iff {g : Grammar} {symbol : Nat} {productions : List (List Nat)}
    (found : g.productions? symbol = some productions) (right : List Nat) :
    g.HasProduction symbol right ↔ right ∈ productions := by
  simp [HasProduction, found]

theorem mem_indexedNonTerminals (g : Grammar) (n : NonTerminal) (i : Nat) :
    (n, i) ∈ g.indexedNonTerminals ↔ g.nonTerminal? i = some n := by
  rw [indexedNonTerminals, List.mk_mem_zipIdx_iff_le_and_getElem?_sub, nonTerminal?]
  split
  · simp only [reduceCtorEq, iff_false]
    omega
  · rename_i above
    simp [Nat.le_of_not_lt above]

theorem symbol?_of_nonTerminal? {g : Grammar} {i : Nat} {n : NonTerminal}
    (found : g.nonTerminal? i = some n) : g.symbol? i = some (.nonTerminal n.name) := by
  match i with
  | 0 | 1 => contradiction
  | i + 2 =>
    have place : g.nonTerminals[i]? = some n := found
    rw [symbol?, place]

theorem isNonTerminal_iff_symbol? (g : Grammar) (i : Nat) :
    g.isNonTerminal i ↔ ∃ name, g.symbol? i = some (.nonTerminal name) := by
  constructor
  · intro nonTerminal
    obtain ⟨n, found⟩ := Option.isSome_iff_exists.1 nonTerminal
    exact ⟨n.name, symbol?_of_nonTerminal? found⟩
  · intro given
    obtain ⟨name, found⟩ := given
    match i with
    | 0 | 1 => simp [symbol?] at found
    | i + 2 =>
      rw [symbol?] at found
      split at found
      · rename_i n place
        have entry : g.nonTerminal? (i + 2) = some n := place
        rw [Grammar.isNonTerminal, entry]
        rfl
      · simp at found

theorem productions?_of_mem {g : Grammar} {n : NonTerminal} {i : Nat}
    (member : (n, i) ∈ g.indexedNonTerminals) : g.productions? i = some n.productions := by
  rw [productions?, (mem_indexedNonTerminals g n i).1 member]
  rfl

theorem isNonTerminal_iff_mem (g : Grammar) (i : Nat) :
    g.isNonTerminal i ↔ ∃ n, (n, i) ∈ g.indexedNonTerminals := by
  simp only [isNonTerminal, Option.isSome_iff_exists, mem_indexedNonTerminals]

theorem mem_indexedTerminals (g : Grammar) (name : String) (i : Nat) :
    (name, i) ∈ g.indexedTerminals ↔ g.symbol? i = some (.terminal name) := by
  rw [indexedTerminals, List.mk_mem_zipIdx_iff_le_and_getElem?_sub, markerCount]
  rcases i with _ | _ | i
  · simp only [symbol?, Option.some.injEq, reduceCtorEq, iff_false]
    omega
  · simp only [symbol?, Option.some.injEq, reduceCtorEq, iff_false]
    omega
  · rw [symbol?]
    split
    · rename_i n found
      have bound := (List.getElem?_eq_some_iff.1 found).1
      simp only [Option.some.injEq, reduceCtorEq, iff_false]
      omega
    · rename_i missing
      have above := List.getElem?_eq_none_iff.1 missing
      have place : i + 2 - (2 + g.nonTerminals.length) = i - g.nonTerminals.length := by omega
      simp only [Option.map_eq_some_iff, Symbol.terminal.injEq, exists_eq_right, place,
        and_iff_right_iff_imp]
      omega

theorem isTerminal_iff_mem (g : Grammar) (i : Nat) :
    g.IsTerminal i ↔ ∃ name, (name, i) ∈ g.indexedTerminals := by
  simp only [IsTerminal, mem_indexedTerminals]

end Lookahead.Grammar
