import Lookahead.Proofs.FirstSets.Request
import Lookahead.Proofs.FollowSets.LeastSolution

/-!
What logs hold: the events of each stage and the nonterminals that they are about. All symbols of events have
names, so a line of a log never stands for a symbol that the grammar does not have.
-/

namespace Lookahead

namespace Event

def symbols : Event → List Nat
  | built _ _ start => [start]
  | reentered symbol => [symbol]
  | settled _ _ => []
  | grew symbol _ source => [symbol, source]
  | saturated _ => []

theorem lineBy_congr {nameOf nameOf' : Nat → String} {event : Event}
    (same : ∀ i ∈ event.symbols, nameOf i = nameOf' i) : event.lineBy nameOf = event.lineBy nameOf' := by
  -- `text` is opened without its equations, which take too long to generate
  delta lineBy text
  cases event with
  | built _ _ start => simp only [same start (by simp [symbols])]
  | reentered symbol => simp only [same symbol (by simp [symbols])]
  | settled _ _ => rfl
  | grew symbol _ source =>
    simp only [same symbol (by simp [symbols]), same source (by simp [symbols])]
  | saturated _ => rfl

end Event

namespace Grammar

def NamesAll (g : Grammar) (log : List Event) : Prop :=
  ∀ event ∈ log, ∀ i ∈ event.symbols, (g.name? i).isSome

variable {g : Grammar}

theorem isSome_name?_of_isNonTerminal {i : Nat} (nonTerminal : g.isNonTerminal i) :
    (g.name? i).isSome :=
  (isSome_name?_iff g i).2 (Usable.lt_size (.inr (.inl nonTerminal)))

section First

variable {P : Event → Prop}

theorem forall_mem_log_request (reentered : ∀ symbol, g.isNonTerminal symbol → P (.reentered symbol))
    (active : List Nat) (symbol : Nat) (s : Evaluation) (all : ∀ event ∈ s.log, P event) :
    ∀ event ∈ (g.request active symbol s).2.log, P event := by
  fun_induction Grammar.request g active symbol s with
  | case1 => exact all
  | case2 => exact all
  | case3 active symbol s missing productions found member =>
    exact List.forall_mem_cons.2 ⟨reentered symbol (isNonTerminal_of_productions? found), all⟩
  | case4 active symbol s missing productions found fresh evaluated ih =>
    exact firstOfAlternatives_keeps (motive := fun s : Evaluation => ∀ event ∈ s.log, P event) ih productions all

theorem forall_mem_log_evaluate (reentered : ∀ symbol, g.isNonTerminal symbol → P (.reentered symbol)) :
    ∀ event ∈ g.evaluate.log, P event :=
  foldl_keeps (motive := fun s : Evaluation => ∀ event ∈ s.log, P event)
    (fun s symbol _ => forall_mem_log_request reentered [] symbol s) fun _ member => absurd member List.not_mem_nil

theorem forall_mem_firstLog (reentered : ∀ symbol, g.isNonTerminal symbol → P (.reentered symbol))
    (settled : ∀ passes symbols, P (.settled passes symbols)) : ∀ event ∈ g.firstLog, P event := by
  have refined (s : Evaluation) (all : ∀ event ∈ s.log, P event) : ∀ event ∈ (g.refine s).log, P event :=
    foldl_keeps (motive := fun s : Evaluation => ∀ event ∈ s.log, P event)
      (fun _ n _ => firstOfAlternatives_keeps (motive := fun s : Evaluation => ∀ event ∈ s.log, P event)
        (forall_mem_log_request reentered []) n.1.productions) all
  have whole : ∀ event ∈ (g.settle g.evaluate).result.log, P event :=
    Saturation.keeps (motive := fun s : Evaluation => ∀ event ∈ s.log, P event) refined
      (forall_mem_log_evaluate reentered)
  intro event member
  rw [firstLog, evaluateFirst, List.mem_reverse] at member
  exact List.forall_mem_cons.2 ⟨settled _ _, whole⟩ event member

theorem namesAll_firstLog (g : Grammar) : g.NamesAll g.firstLog := by
  refine forall_mem_firstLog ?_ fun _ _ _ member => absurd member List.not_mem_nil
  intro symbol nonTerminal
  exact List.forall_mem_singleton.2 (isSome_name?_of_isNonTerminal nonTerminal)

end First

section Follow

variable {P : Event → Prop} {first : FirstSets}

theorem forall_mem_log_followPass {s : Growth}
    (grew : ∀ symbol size source after, g.Occurs source symbol after → P (.grew symbol size source))
    (all : ∀ event ∈ s.log, P event) : ∀ event ∈ (g.followPass first s).log, P event := by
  rw [followPass_eq_foldl]
  refine foldl_keeps (motive := fun s : Growth => ∀ event ∈ s.log, P event) ?_ all
  intro s o member all
  rw [Growth.extendAt, Growth.extend_eq]
  split
  · exact all
  · exact List.forall_mem_cons.2 ⟨grew _ _ _ _ (mem_occurrences.1 member), all⟩

theorem forall_mem_log_saturateFollow
    (grew : ∀ symbol size source after, g.Occurs source symbol after → P (.grew symbol size source)) :
    ∀ event ∈ (g.saturateFollow first).result.log, P event :=
  Saturation.keeps (motive := fun s : Growth => ∀ event ∈ s.log, P event)
    (fun _ => forall_mem_log_followPass grew) fun _ member => absurd member List.not_mem_nil

theorem forall_mem_followLog
    (grew : ∀ symbol size source after, g.Occurs source symbol after → P (.grew symbol size source))
    (saturated : P (.saturated (g.saturateFollow first).passes)) :
    ∀ event ∈ g.followLog first, P event := by
  intro event member
  rw [followLog, List.mem_reverse] at member
  exact List.forall_mem_cons.2 ⟨saturated, forall_mem_log_saturateFollow grew⟩ event member

theorem forall_mem_log (built : P g.builtEvent)
    (reentered : ∀ symbol, g.isNonTerminal symbol → P (.reentered symbol))
    (settled : ∀ passes symbols, P (.settled passes symbols))
    (grew : ∀ symbol size source after, g.Occurs source symbol after → P (.grew symbol size source))
    (saturated : P (.saturated (g.saturateFollow g.firstSets).passes)) : ∀ event ∈ g.log, P event := by
  refine List.forall_mem_cons.2 ⟨built, List.forall_mem_append.2 ⟨?_, ?_⟩⟩
  · exact forall_mem_firstLog reentered settled
  · exact forall_mem_followLog grew saturated

theorem Occurs.isSome_name? {source symbol : Nat} {after : List Nat}
    (occurs : g.Occurs source symbol after) : (g.name? symbol).isSome ∧ (g.name? source).isSome := by
  obtain ⟨nonTerminal, _, has⟩ := occurs
  exact ⟨isSome_name?_of_isNonTerminal nonTerminal, isSome_name?_of_isNonTerminal has.isNonTerminal⟩

theorem namesAll_followLog (g : Grammar) (first : FirstSets) : g.NamesAll (g.followLog first) := by
  refine forall_mem_followLog ?_ fun _ member => absurd member List.not_mem_nil
  intro symbol size source after occurs
  simp only [Event.symbols, List.forall_mem_cons]
  exact ⟨occurs.isSome_name?.1, occurs.isSome_name?.2, by simp⟩

end Follow

theorem namesAll_log (start : g.isNonTerminal g.start) : g.NamesAll g.log := by
  refine List.forall_mem_cons.2 ⟨List.forall_mem_singleton.2 (isSome_name?_of_isNonTerminal start), ?_⟩
  exact List.forall_mem_append.2 ⟨namesAll_firstLog g, namesAll_followLog g _⟩

end Grammar

end Lookahead
