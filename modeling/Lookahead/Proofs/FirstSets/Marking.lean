import Lookahead.FirstSets.Marking
import Lookahead.Proofs.Events
import Lookahead.Proofs.FirstSets.CycleGuard

/-!
Marks on symbols in progress. Evaluation with marks does what evaluation without them does. A nonterminal whose
evaluation has begun is marked until it has its set, and in both cases its evaluation does not begin again.
-/

namespace Lookahead

section Scans

variable {σ τ : Type} {request : Nat → StateM σ IndexSet} {request' : Nat → StateM τ IndexSet}

theorem firstOfSequence_image (image : σ → τ)
    (same : ∀ symbol s, request' symbol (image s) = ((request symbol s).1, image (request symbol s).2))
    (sequence : List Nat) (s : σ) : firstOfSequence request' sequence (image s) =
      ((firstOfSequence request sequence s).1, image (firstOfSequence request sequence s).2) := by
  induction sequence generalizing s with
  | nil => rfl
  | cons symbol rest ih =>
    rw [firstOfSequence_cons, firstOfSequence_cons, same]
    dsimp only
    split
    · rw [ih]
    · rfl

theorem firstOfAlternatives_image (image : σ → τ)
    (same : ∀ symbol s, request' symbol (image s) = ((request symbol s).1, image (request symbol s).2))
    (alternatives : List (List Nat)) (s : σ) : firstOfAlternatives request' alternatives (image s) =
      ((firstOfAlternatives request alternatives s).1, image (firstOfAlternatives request alternatives s).2) := by
  induction alternatives generalizing s with
  | nil => rfl
  | cons sequence rest ih =>
    rw [firstOfAlternatives_cons, firstOfAlternatives_cons, firstOfSequence_image image same, ih]

end Scans

namespace Grammar

variable {g : Grammar} {current : IndexSet}

/-- The marks stand for the list of the symbols being evaluated. -/
theorem request_eq_requestMarked (current : IndexSet) (symbol : Nat) (s : Marking.At current) :
    ∀ active, (∀ i, i ∈ active ↔ i ∈ current) → g.request active symbol s.evaluation =
      ((g.requestMarked current symbol s).1, (g.requestMarked current symbol s).2.evaluation) := by
  fun_induction Grammar.requestMarked g current symbol s with
  | case1 current symbol s first found =>
    intro active same
    rw [request_eq, found]
  | case2 current symbol s missing none =>
    intro active same
    rw [request_eq, missing, none]
    rfl
  | case3 current symbol s missing productions found marked =>
    intro active same
    rw [s.marked, ← same] at marked
    rw [request_eq, missing, found]
    exact if_pos marked
  | case4 current symbol s missing productions found marked fresh evaluated ih =>
    intro active same
    have body : firstOfAlternatives (g.request (symbol :: active)) productions s.evaluation =
        (evaluated.1, evaluated.2.evaluation) :=
      firstOfAlternatives_image (fun s => s.evaluation)
        (fun next s => ih next s (symbol :: active) (by simp [same])) productions (s.mark symbol)
    rw [← same] at fresh
    rw [request_eq, missing, found]
    simp only [if_neg fresh, body]
    rfl

theorem firstOfAlternatives_eq_requestMarked (alternatives : List (List Nat)) (s : Marking.At ∅) :
    firstOfAlternatives (g.request []) alternatives s.evaluation =
      ((firstOfAlternatives (g.requestMarked ∅) alternatives s).1,
        (firstOfAlternatives (g.requestMarked ∅) alternatives s).2.evaluation) :=
  firstOfAlternatives_image (fun s => s.evaluation)
    (fun symbol s => request_eq_requestMarked ∅ symbol s [] (by simp)) alternatives s

theorem evaluation_evaluateMarked (g : Grammar) : g.evaluateMarked.evaluation = g.evaluate := by
  have requested (s : Marking.At ∅) (symbol : Nat) :
      (g.request [] symbol s.evaluation).2 = (g.requestMarked ∅ symbol s).2.evaluation := by
    rw [request_eq_requestMarked ∅ symbol s [] (by simp)]
  rw [evaluate, evaluateMarked]
  exact (List.foldl_hom (fun s : Marking.At ∅ => s.evaluation) requested).symm

theorem evaluation_refineSymbolMarked (g : Grammar) (s : Marking.At ∅) (n : NonTerminal × Nat) :
    (g.refineSymbolMarked s n).evaluation = g.refineSymbol s.evaluation n := by
  rw [refineSymbol, firstOfAlternatives_eq_requestMarked]
  rfl

theorem evaluation_refineMarked (g : Grammar) (s : Marking.At ∅) :
    (g.refineMarked s).evaluation = g.refine s.evaluation := by
  rw [refine, refineMarked]
  exact (List.foldl_hom (fun s : Marking.At ∅ => s.evaluation)
    fun s n => (evaluation_refineSymbolMarked g s n).symm).symm

theorem evaluation_markedRun (g : Grammar) : g.markedRun.evaluation = (g.settle g.evaluate).result := by
  rw [settle, ← evaluation_evaluateMarked,
    Saturation.eq_image (fun s : Marking.At ∅ => s.evaluation) (evaluation_refineMarked g) fun _ => rfl]
  rfl

end Grammar

section Orderly

open Grammar

variable {g : Grammar} {current : IndexSet}

/-- The evaluation of a nonterminal has begun just where the symbol is marked or has its set, and has begun once. -/
structure Marking.Orderly (g : Grammar) (s : Marking) : Prop where
  begun : ∀ i, i ∈ s.begun ↔ i ∈ s.marks ∨ g.isNonTerminal i ∧ (s.evaluation.cache.get? i).isSome
  once : s.begun.Nodup

namespace Marking

theorem orderly_initial : ({} : Marking).Orderly g := ⟨by simp, .nil⟩

theorem Orderly.congr {s later : Marking} (orderly : s.Orderly g) (marks : later.marks = s.marks)
    (begun : later.begun = s.begun) (cached : ∀ i, g.isNonTerminal i →
      ((later.evaluation.cache.get? i).isSome ↔ (s.evaluation.cache.get? i).isSome)) : later.Orderly g := by
  refine ⟨?_, begun ▸ orderly.once⟩
  intro i
  rw [begun, marks, orderly.begun]
  exact or_congr_right (and_congr_right fun nonTerminal => (cached i nonTerminal).symm)

theorem Orderly.mark {s : At current} {symbol : Nat} (orderly : s.Orderly g)
    (missing : s.evaluation.cache.get? symbol = none) (fresh : symbol ∉ s.marks) : (s.mark symbol).Orderly g := by
  have new : symbol ∉ s.begun := by simp [orderly.begun, missing, fresh]
  refine ⟨?_, List.nodup_cons.2 ⟨new, orderly.once⟩⟩
  intro i
  change i ∈ symbol :: s.begun ↔ i ∈ (insert symbol s.marks : IndexSet) ∨ _
  rw [List.mem_cons, orderly.begun, IndexSet.mem_insert, or_assoc]
  rfl

/-- The symbol gets its set when its mark is removed. -/
theorem Orderly.unmark {symbol : Nat} {s : At (insert symbol current)} (orderly : s.Orderly g)
    (nonTerminal : g.isNonTerminal symbol) (fresh : symbol ∉ current) (first : IndexSet) :
    ((s.unmark fresh).store symbol first).Orderly g := by
  refine ⟨?_, orderly.once⟩
  intro i
  change i ∈ s.begun ↔ i ∈ s.marks.erase symbol ∨
    g.isNonTerminal i ∧ ((s.evaluation.cache.insert symbol first).get? i).isSome
  rw [orderly.begun, IndexSet.mem_erase, IndexMap.get?_insert]
  split
  · rename_i here
    subst here
    simp [s.marked, nonTerminal]
  · rename_i other
    simp [Ne.symm other]

end Marking

open Marking

theorem orderly_requestMarked (current : IndexSet) (symbol : Nat) (s : At current) (orderly : s.Orderly g) :
    (g.requestMarked current symbol s).2.Orderly g := by
  fun_induction Grammar.requestMarked g current symbol s with
  | case1 => exact orderly
  | case2 current symbol s missing none =>
    refine orderly.congr rfl rfl ?_
    intro i nonTerminal
    have other : symbol ≠ i := by
      rintro rfl
      exact (productions?_eq_none_iff g symbol).1 none nonTerminal
    change ((s.evaluation.cache.insert symbol _).get? i).isSome ↔ _
    rw [IndexMap.get?_insert, if_neg other]
  | case3 => exact orderly.congr rfl rfl fun _ _ => .rfl
  | case4 current symbol s missing productions found marked fresh evaluated ih =>
    have body := firstOfAlternatives_keeps (motive := fun s : At (insert symbol current) => s.Orderly g) ih
      productions (orderly.mark missing marked)
    exact body.unmark (isNonTerminal_of_productions? found) fresh _

theorem orderly_evaluateMarked (g : Grammar) : g.evaluateMarked.Orderly g :=
  foldl_keeps (motive := fun s : At ∅ => s.Orderly g)
    (fun s symbol _ orderly => orderly_requestMarked ∅ symbol s orderly) orderly_initial

/-- Refinement replaces sets of nonterminals that have one. -/
theorem orderly_refineSymbolMarked {s : At ∅} (orderly : s.Orderly g) (primed : g.Primed s.evaluation)
    {n : NonTerminal × Nat} (member : n ∈ g.indexedNonTerminals) : (g.refineSymbolMarked s n).Orderly g := by
  have scanned := firstOfAlternatives_keeps (motive := fun s : At ∅ => s.Orderly g) (orderly_requestMarked ∅)
    n.1.productions orderly
  have grown := extends_firstOfAlternatives (extends_request g []) n.1.productions s.evaluation
  rw [firstOfAlternatives_eq_requestMarked] at grown
  have known := grown.cached n.2 ((primed.cached n.2).2 (usable_of_mem member))
  refine scanned.congr rfl rfl ?_
  intro i _
  change (IndexMap.get? (IndexMap.insert _ n.2 _) i).isSome ↔ _
  rw [IndexMap.get?_insert]
  split
  · rename_i here
    exact iff_of_true rfl (here ▸ known)
  · rfl

/-- Once all sets are there and no mark is left, all nonterminals have begun. -/
theorem Marking.Orderly.mem_begun_iff {s : Marking} (orderly : s.Orderly g) (unmarked : s.marks = ∅)
    (primed : g.Primed s.evaluation) (i : Nat) : i ∈ s.begun ↔ g.isNonTerminal i := by
  rw [orderly.begun, unmarked, primed.cached]
  constructor
  · rintro (marked | ⟨nonTerminal, -⟩)
    · exact absurd marked (IndexSet.not_mem_empty i)
    · exact nonTerminal
  · intro nonTerminal
    exact .inr ⟨nonTerminal, .inr (.inl nonTerminal)⟩

theorem orderly_markedRun (wellFormed : g.WellFormed) : g.markedRun.Orderly g := by
  have refined (s : At ∅) (both : s.Orderly g ∧ g.Primed s.evaluation) :
      (g.refineMarked s).Orderly g ∧ g.Primed (g.refineMarked s).evaluation := by
    refine foldl_keeps (motive := fun s : At ∅ => s.Orderly g ∧ g.Primed s.evaluation) ?_ both
    intro s n member both
    refine ⟨orderly_refineSymbolMarked both.1 both.2 member, ?_⟩
    rw [evaluation_refineSymbolMarked]
    exact both.2.refineSymbol wellFormed member
  refine (Saturation.keeps refined ⟨orderly_evaluateMarked g, ?_⟩).1
  rw [evaluation_evaluateMarked]
  exact (ready_evaluate wellFormed).primed

end Orderly

end Lookahead
