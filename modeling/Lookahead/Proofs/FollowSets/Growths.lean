import Lookahead.Proofs.Events
import Lookahead.Proofs.FollowSets.Passes

/-!
What the log tells of FOLLOW sets. It has every size that a set has had, in order, so nothing grows in
silence and no line is spurious, and a pass that leaves no line is the last one.
-/

namespace Lookahead

namespace Event

/-- The size that the set of the symbol has reached, if the event is about that. -/
def grownTo (symbol : Nat) : Event → Option Nat
  | grew other size _ => if other = symbol then some size else none
  | _ => none

def isGrowth : Event → Bool
  | grew .. => true
  | _ => false

theorem filterMap_grownTo_cons (symbol other size source : Nat) (log : List Event) :
    (grew other size source :: log).filterMap (grownTo symbol) =
      if other = symbol then size :: log.filterMap (grownTo symbol) else log.filterMap (grownTo symbol) := by
  by_cases same : other = symbol <;> simp [grownTo, same]

theorem grownTo_eq_none {event : Event} (other : event.isGrowth = false) (symbol : Nat) :
    event.grownTo symbol = none := by
  cases event with
  | grew => contradiction
  | _ => rfl

end Event

/-- The end mark is in the start symbol's set to begin with, and nothing else is in any set. -/
def Grammar.initialSize (g : Grammar) (symbol : Nat) : Nat := if symbol = g.start then 1 else 0

namespace Growth

/-- The sizes that the log has for the set of the symbol, the latest one first. -/
def sizes (s : Growth) (symbol : Nat) : List Nat := s.log.filterMap (Event.grownTo symbol)

theorem size_lt_extension {first : FirstSets} {source symbol : Nat} {after : List Nat} {s : Growth}
    (different : ¬ (s.get symbol ∪ s.addition first source after).size = (s.get symbol).size) :
    (s.get symbol).size < (s.get symbol ∪ s.addition first source after).size := by
  by_contra small
  have same := IndexSet.eq_of_subset_of_size_le
    (fun i inside => IndexSet.mem_union.2 (.inl inside)) (Nat.le_of_not_lt small)
  exact different (congrArg IndexSet.size same).symm

end Growth

namespace Grammar

variable {g : Grammar} {first : FirstSets} {s : Growth}

/-- The log has all sizes that sets have had, down from their present one. -/
structure Accounts (g : Grammar) (s : Growth) : Prop where
  decreasing : ∀ symbol, (s.sizes symbol ++ [g.initialSize symbol]).Pairwise (· > ·)
  latest : ∀ symbol, (s.sizes symbol).headD (g.initialSize symbol) = (s.get symbol).size

theorem accounts_initialGrowth (g : Grammar) : g.Accounts g.initialGrowth := by
  constructor
  · intro symbol
    exact List.pairwise_singleton _ _
  · intro symbol
    change g.initialSize symbol = _
    rw [initialSize, Growth.get, get?_initialGrowth]
    split
    · rename_i here
      rw [if_pos here.symm]
      rfl
    · rename_i elsewhere
      rw [if_neg (Ne.symm elsewhere)]
      split <;> rfl

theorem Accounts.le_latest (accounts : g.Accounts s) {symbol size : Nat}
    (member : size ∈ s.sizes symbol ++ [g.initialSize symbol]) : size ≤ (s.get symbol).size := by
  have decreasing := accounts.decreasing symbol
  rw [← accounts.latest]
  cases sizes : s.sizes symbol with
  | nil =>
    rw [sizes] at member
    exact Nat.le_of_eq (List.mem_singleton.1 member)
  | cons head rest =>
    rw [sizes, List.cons_append] at member decreasing
    rcases List.mem_cons.1 member with rfl | later
    · exact Nat.le_refl _
    · exact Nat.le_of_lt ((List.pairwise_cons.1 decreasing).1 size later)

theorem Accounts.extendAt (accounts : g.Accounts s) (o : Occurrence) :
    g.Accounts (s.extendAt first o) := by
  rw [Growth.extendAt, Growth.extend_eq]
  split
  · exact accounts
  · rename_i different
    have larger := Growth.size_lt_extension different
    generalize s.get o.symbol ∪ s.addition first o.source o.after = extension at larger
    have sizes (symbol : Nat) : Growth.sizes ⟨s.sets.insert o.symbol extension,
        .grew o.symbol extension.size o.source :: s.log⟩ symbol =
          if o.symbol = symbol then extension.size :: s.sizes symbol else s.sizes symbol :=
      Event.filterMap_grownTo_cons ..
    have get (symbol : Nat) : Growth.get ⟨s.sets.insert o.symbol extension,
        .grew o.symbol extension.size o.source :: s.log⟩ symbol =
          if o.symbol = symbol then extension else s.get symbol := IndexMap.setOf_insert ..
    constructor
    · intro symbol
      rw [sizes]
      split
      · rename_i here
        rw [List.cons_append, List.pairwise_cons]
        refine ⟨?_, accounts.decreasing symbol⟩
        intro size member
        exact Nat.lt_of_le_of_lt (accounts.le_latest member) (here ▸ larger)
      · exact accounts.decreasing symbol
    · intro symbol
      rw [sizes, get]
      split
      · rfl
      · exact accounts.latest symbol

theorem Accounts.followPass (accounts : g.Accounts s) : g.Accounts (g.followPass first s) := by
  rw [followPass_eq_foldl]
  exact foldl_keeps (motive := g.Accounts) (fun _ o _ accounts => accounts.extendAt o) accounts

theorem accounts_saturateFollow (g : Grammar) (first : FirstSets) :
    g.Accounts (g.saturateFollow first).result :=
  Saturation.keeps (motive := g.Accounts) (fun _ accounts => accounts.followPass)
    g.accounts_initialGrowth

theorem length_log_le_extendAt (s : Growth) (o : Occurrence) :
    s.log.length ≤ (s.extendAt first o).log.length := by
  rw [Growth.extendAt, Growth.extend_eq]
  split
  · exact Nat.le_refl _
  · exact Nat.le_succ _

theorem extendAt_eq_self_of_log {o : Occurrence}
    (short : (s.extendAt first o).log.length ≤ s.log.length) : s.extendAt first o = s := by
  rw [Growth.extendAt, Growth.extend_eq] at short ⊢
  split at short
  · rename_i same
    rw [if_pos same]
  · exact absurd short (Nat.not_succ_le_self _)

theorem followPass_eq_self_of_log (short : (g.followPass first s).log.length ≤ s.log.length) :
    g.followPass first s = s := by
  rw [followPass_eq_foldl] at short ⊢
  have still := foldl_eq_self_of_size_le (motive := fun _ => True) (fun s : Growth => s.log.length)
    (fun _ _ _ _ => trivial) (fun s o _ _ => length_log_le_extendAt s o)
    (fun _ _ _ _ short => extendAt_eq_self_of_log short) trivial short
  exact still.1

/-- A pass that makes a set larger leaves an event. -/
theorem le_length_log_iterate {n : Nat} (grows : ∀ k < n, ((g.followPass first)^[k] s).size <
    ((g.followPass first)^[k + 1] s).size) : n ≤ ((g.followPass first)^[n] s).log.length := by
  induction n with
  | zero => exact Nat.zero_le _
  | succ n ih =>
    have before := ih fun k early => grows k (Nat.lt_succ_of_lt early)
    have larger := grows n (Nat.lt_succ_self n)
    rw [Function.iterate_succ_apply'] at larger ⊢
    generalize (g.followPass first)^[n] s = t at before larger ⊢
    by_contra short
    have silent : (g.followPass first t).log.length ≤ t.log.length :=
      Nat.le_trans (Nat.le_of_lt_succ (Nat.lt_of_not_le short)) before
    rw [followPass_eq_self_of_log silent] at larger
    exact Nat.lt_irrefl _ larger

/-- The sizes that the log has for the set of the symbol, in order. -/
def growths (g : Grammar) (symbol : Nat) : List Nat := g.log.filterMap (Event.grownTo symbol)

theorem log_eq (g : Grammar) : g.log = g.builtEvent :: g.firstLog ++
    ((g.saturateFollow g.firstSets).result.log.reverse ++
      [.saturated (g.saturateFollow g.firstSets).passes]) := by
  rw [← List.reverse_cons]
  rfl

theorem isGrowth_firstLog : ∀ event ∈ g.firstLog, event.isGrowth = false :=
  forall_mem_firstLog (fun _ _ => rfl) fun _ _ => rfl

theorem isGrowth_saturateFollow : ∀ event ∈ (g.saturateFollow first).result.log, event.isGrowth :=
  forall_mem_log_saturateFollow fun _ _ _ _ _ => rfl

theorem growths_eq (g : Grammar) (symbol : Nat) :
    g.growths symbol = ((g.saturateFollow g.firstSets).result.sizes symbol).reverse := by
  have none : g.firstLog.filterMap (Event.grownTo symbol) = [] :=
    List.filterMap_eq_nil_iff.2 fun event member =>
      Event.grownTo_eq_none (isGrowth_firstLog event member) symbol
  simp only [growths, log_eq, List.cons_append, List.filterMap_cons, List.filterMap_append, none,
    List.filterMap_reverse, builtEvent, Event.grownTo, List.filterMap_nil, List.append_nil,
    List.nil_append]
  rfl

theorem countP_isGrowth_log (g : Grammar) :
    g.log.countP Event.isGrowth = (g.saturateFollow g.firstSets).result.log.length := by
  have none : g.firstLog.countP Event.isGrowth = 0 :=
    List.countP_eq_zero.2 fun event member => by simp [isGrowth_firstLog event member]
  have all : (g.saturateFollow g.firstSets).result.log.countP Event.isGrowth = _ :=
    List.countP_eq_length.2 isGrowth_saturateFollow
  simp [log_eq, builtEvent, Event.isGrowth, none, all]

theorem pairwise_growths (g : Grammar) (symbol : Nat) :
    (g.initialSize symbol :: g.growths symbol).Pairwise (· < ·) := by
  have decreasing := (g.accounts_saturateFollow g.firstSets).decreasing symbol
  rw [growths_eq, ← List.singleton_append, ← List.reverse_singleton, ← List.reverse_append]
  exact List.pairwise_reverse.2 decreasing

theorem getLastD_growths {symbol : Nat} {follow : IndexSet}
    (found : (g.followSets g.firstSets).get? symbol = some follow) :
    (g.growths symbol).getLastD (g.initialSize symbol) = follow.size := by
  have latest := (g.accounts_saturateFollow g.firstSets).latest symbol
  have get : (g.saturateFollow g.firstSets).result.get symbol = follow :=
    congrArg (Option.getD · ∅) found
  rw [growths_eq, List.getLastD_eq_getLast?, List.getLast?_reverse, ← List.headD_eq_head?_getD, latest,
    get]

/-- What has to be the case for an event to be in the log. -/
def Justifies (g : Grammar) : Event → Prop
  | .grew symbol _ source => ∃ after, g.Occurs source symbol after
  | .saturated passes => passes = (g.saturateFollow g.firstSets).passes
  | _ => True

theorem justifies_log (g : Grammar) : ∀ event ∈ g.log, g.Justifies event := by
  refine forall_mem_log trivial (fun _ _ => trivial) (fun _ _ => trivial) ?_ rfl
  intro symbol size source after occurs
  exact ⟨after, occurs⟩

theorem saturated_mem_log {passes : Nat} :
    .saturated passes ∈ g.log ↔ passes = (g.saturateFollow g.firstSets).passes := by
  refine ⟨g.justifies_log _, ?_⟩
  rintro rfl
  exact List.mem_of_getLast? g.getLast?_log

theorem followPasses_le_growths (start : g.isNonTerminal g.start) :
    1 ≤ (g.saturateFollow g.firstSets).passes ∧
      (g.saturateFollow g.firstSets).passes ≤ g.log.countP Event.isGrowth + 1 ∧
      ((g.saturateFollow g.firstSets).passes = 1 ↔ g.log.countP Event.isGrowth = 0) := by
  obtain ⟨n, -, run, -, grows⟩ := exists_linear_followPass start g.firstSets
  have enough := le_length_log_iterate grows
  rw [countP_isGrowth_log, run]
  refine ⟨Nat.le_add_left 1 n, Nat.succ_le_succ enough, ?_, ?_⟩
  · intro once
    rw [Nat.succ.inj once]
    rfl
  · intro silent
    rw [silent] at enough
    rw [Nat.le_zero.1 enough]

/-- The sizes in the log for a set start above the one that it has to begin with, increase, and end with
the one that it has at last. Every growth comes from a production that the symbol occurs in, and there
are enough of them for all passes but the last one. -/
theorem growths_accounted {rules : List Rule} {start epsilon : String} {g : Grammar}
    (accepted : build rules start epsilon = .ok g) :
    (∀ symbol, g.isNonTerminal symbol →
      ∃ follow, (g.followSets g.firstSets).get? symbol = some follow ∧
        (g.initialSize symbol :: g.growths symbol).Pairwise (· < ·) ∧
        (g.growths symbol).getLastD (g.initialSize symbol) = follow.size) ∧
    (∀ symbol size source, .grew symbol size source ∈ g.log →
      g.isNonTerminal symbol ∧ g.isNonTerminal source ∧
        ∃ right, g.HasProduction source right ∧ symbol ∈ right) ∧
    ∃ passes, (∀ reported, .saturated reported ∈ g.log ↔ reported = passes) ∧
      1 ≤ passes ∧ passes ≤ g.log.countP Event.isGrowth + 1 ∧
      (passes = 1 ↔ g.log.countP Event.isGrowth = 0) := by
  have nonTerminal := (wellFormed_of_build accepted).start
  refine ⟨?_, ?_, ?_⟩
  · intro symbol known
    obtain ⟨follow, found⟩ := Option.isSome_iff_exists.1
      ((isSome_get?_followSets nonTerminal g.firstSets symbol).2 known)
    exact ⟨follow, found, g.pairwise_growths symbol, getLastD_growths found⟩
  · intro symbol size source logged
    obtain ⟨after, known, before, has⟩ := g.justifies_log _ logged
    exact ⟨known, has.isNonTerminal, _, has, by simp⟩
  · exact ⟨_, fun _ => saturated_mem_log, followPasses_le_growths nonTerminal⟩

/-- In `S → A b | A c` and `A → S A | A S | a` the set of `A` is extended three times within the first
pass, at last in a production of `A` itself. -/
theorem growths_accounted_own_production :
    ∃ g, build [⟨"S", [["A", "b"], ["A", "c"]]⟩, ⟨"A", [["S", "A"], ["A", "S"], ["a"]]⟩] "S" "ε" = .ok g ∧
      g.growths 3 = [1, 2, 3] ∧ .saturated 2 ∈ g.log ∧
      ∃ follow, (g.followSets g.firstSets).get? 3 = some follow ∧
        (g.initialSize 3 :: g.growths 3).Pairwise (· < ·) ∧
        (g.growths 3).getLastD (g.initialSize 3) = follow.size := by
  have accepted :
      build [⟨"S", [["A", "b"], ["A", "c"]]⟩, ⟨"A", [["S", "A"], ["A", "S"], ["a"]]⟩] "S" "ε" =
        .ok ⟨"ε", [⟨"S", [[3, 4], [3, 5]]⟩, ⟨"A", [[2, 3], [3, 2], [6]]⟩], ["b", "c", "a"], 2⟩ := rfl
  refine ⟨_, accepted, by decide +kernel, by decide +kernel, ?_⟩
  exact (growths_accounted accepted).1 3 rfl

end Grammar

end Lookahead
