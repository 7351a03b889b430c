import Lookahead.Proofs.FirstSets.Refinement
import Lookahead.Proofs.FollowSets.LeastSolution

/-!
What the computation of lookahead sets reads of a grammar: the productions without epsilon, the number of
terminals and the start symbol. Two grammars that agree in these are computed in step, so that they have
the same sets and the same events.
-/

namespace Lookahead

namespace Grammar

/-- A grammar without its names, and without epsilon in productions. -/
structure Skeleton where
  productions : List (List (List Nat))
  terminals : Nat
  start : Nat

def skeleton (g : Grammar) : Skeleton where
  productions := g.nonTerminals.map fun n => n.productions.map visible
  terminals := g.terminals.length
  start := g.start

variable {g g' : Grammar}

section Layout

def SameBody (n n' : NonTerminal × Nat) : Prop :=
  n.2 = n'.2 ∧ n.1.productions.map visible = n'.1.productions.map visible

theorem productions?_map_visible (g : Grammar) (i : Nat) : (g.productions? i).map (·.map visible) =
    if i < markerCount then none else g.skeleton.productions[i - markerCount]? := by
  rw [productions?, nonTerminal?, skeleton]
  split
  · rfl
  · rw [List.getElem?_map, Option.map_map]
    rfl

theorem productions?_of_skeleton (same : g.skeleton = g'.skeleton) (i : Nat) :
    (g.productions? i).map (·.map visible) = (g'.productions? i).map (·.map visible) := by
  rw [productions?_map_visible, productions?_map_visible, same]

theorem isNonTerminal_of_skeleton (same : g.skeleton = g'.skeleton) (i : Nat) :
    g.isNonTerminal i = g'.isNonTerminal i := by
  have found := congrArg Option.isSome (productions?_of_skeleton same i)
  rwa [productions?, productions?, Option.isSome_map, Option.isSome_map, Option.isSome_map,
    Option.isSome_map] at found

theorem length_nonTerminals_of_skeleton (same : g.skeleton = g'.skeleton) :
    g.nonTerminals.length = g'.nonTerminals.length := by
  simpa [skeleton] using congrArg (·.productions.length) same

theorem forall₂_sameBody (same : g.skeleton = g'.skeleton) :
    List.Forall₂ SameBody g.indexedNonTerminals g'.indexedNonTerminals := by
  have bodies (g : Grammar) : g.skeleton.productions.zipIdx markerCount =
      g.indexedNonTerminals.map fun n => (n.1.productions.map visible, n.2) := List.zipIdx_map ..
  have lists := (bodies g).symm.trans (same ▸ bodies g')
  rw [← List.forall₂_eq_eq_eq, List.forall₂_map_left_iff, List.forall₂_map_right_iff] at lists
  exact lists.imp fun _ _ equal => (Prod.mk.inj equal).symm

theorem indices_of_skeleton (same : g.skeleton = g'.skeleton) :
    g.indexedNonTerminals.map (·.2) = g'.indexedNonTerminals.map (·.2) ∧
      g.indexedTerminals.map (·.2) = g'.indexedTerminals.map (·.2) := by
  have length := length_nonTerminals_of_skeleton same
  have terminals : g.terminals.length = g'.terminals.length := congrArg (·.terminals) same
  have places {α : Type} (l : List α) (k : Nat) : (l.zipIdx k).map (·.2) = List.range' k l.length :=
    List.zipIdx_map_snd k l
  simp only [indexedNonTerminals, indexedTerminals, places, length, terminals, and_self]

end Layout

end Grammar

/-- Epsilon has its set already. It is the first symbol that is evaluated. -/
def Evaluation.Prepared (s : Evaluation) : Prop := s.cache.get? epsilonIndex = some {epsilonIndex}

/-- Requests that give the same answers in prepared states, which they keep, and that find epsilon. -/
structure InStep (request request' : Nat → StateM Evaluation IndexSet) : Prop where
  hidden : ∀ s : Evaluation, s.Prepared → request epsilonIndex s = ({epsilonIndex}, s)
  kept : ∀ symbol s, s.Prepared → (request symbol s).2.Prepared
  same : ∀ symbol s, s.Prepared → request symbol s = request' symbol s

theorem IndexSet.erase_singleton_union (i : Nat) (s : IndexSet) : ({i} : IndexSet).erase i ∪ s = s := by
  ext j
  simp

section Scans

variable {request request' : Nat → StateM Evaluation IndexSet}

theorem InStep.refl_right (inStep : InStep request request') : InStep request' request' where
  hidden s prepared := (inStep.same epsilonIndex s prepared).symm.trans (inStep.hidden s prepared)
  kept symbol s prepared := inStep.same symbol s prepared ▸ inStep.kept symbol s prepared
  same _ _ _ := rfl

theorem InStep.firstOfSequence_visible (inStep : InStep request request') (sequence : List Nat)
    {s : Evaluation} (prepared : s.Prepared) :
    firstOfSequence request sequence s = firstOfSequence request' (Grammar.visible sequence) s := by
  induction sequence generalizing s with
  | nil => rfl
  | cons symbol rest ih =>
    rw [firstOfSequence_cons]
    by_cases hidden : symbol = epsilonIndex
    · subst hidden
      rw [inStep.hidden s prepared, if_pos (IndexSet.mem_singleton.2 rfl),
        IndexSet.erase_singleton_union]
      exact ih prepared
    · rw [Grammar.visible_cons, Grammar.visible_singleton hidden, List.singleton_append,
        firstOfSequence_cons, ← inStep.same symbol s prepared, ih (inStep.kept symbol s prepared)]

theorem InStep.firstOfAlternatives_visible (inStep : InStep request request')
    (alternatives : List (List Nat)) {s : Evaluation} (prepared : s.Prepared) :
    firstOfAlternatives request alternatives s =
      firstOfAlternatives request' (alternatives.map Grammar.visible) s := by
  induction alternatives generalizing s with
  | nil => rfl
  | cons sequence rest ih =>
    have later := ih (firstOfSequence_keeps inStep.kept sequence prepared)
    rw [List.map_cons, firstOfAlternatives_cons, firstOfAlternatives_cons, later,
      inStep.firstOfSequence_visible sequence prepared]

theorem InStep.firstOfAlternatives_eq (inStep : InStep request request')
    {alternatives alternatives' : List (List Nat)}
    (bodies : alternatives.map Grammar.visible = alternatives'.map Grammar.visible) {s : Evaluation}
    (prepared : s.Prepared) :
    firstOfAlternatives request alternatives s = firstOfAlternatives request' alternatives' s := by
  rw [inStep.firstOfAlternatives_visible alternatives prepared, bodies,
    inStep.refl_right.firstOfAlternatives_visible alternatives' prepared]

end Scans

namespace Grammar

variable {g g' : Grammar}

section First

theorem prepared_store {s : Evaluation} (prepared : s.Prepared) {symbol : Nat}
    (shown : symbol ≠ epsilonIndex) (first : IndexSet) : (s.store symbol first).Prepared := by
  rw [Evaluation.Prepared, Evaluation.store, IndexMap.get?_insert, if_neg shown]
  exact prepared

theorem prepared_request (g : Grammar) (active : List Nat) (symbol : Nat) (s : Evaluation)
    (prepared : s.Prepared) : (g.request active symbol s).2.Prepared := by
  fun_induction Grammar.request g active symbol s with
  | case1 => exact prepared
  | case2 active symbol s missing =>
    refine prepared_store prepared ?_ _
    intro hidden
    rw [hidden, prepared] at missing
    contradiction
  | case3 => exact prepared
  | case4 active symbol s missing productions found fresh evaluated ih =>
    refine prepared_store (firstOfAlternatives_keeps ih productions prepared) ?_ _
    intro hidden
    rw [hidden, prepared] at missing
    contradiction

theorem request_epsilon (g : Grammar) (active : List Nat) {s : Evaluation} (prepared : s.Prepared) :
    g.request active epsilonIndex s = ({epsilonIndex}, s) := by
  rw [request, prepared]

/-- Each request of one grammar is answered as in the other one, whatever is being evaluated. -/
theorem request_of_skeleton (same : g.skeleton = g'.skeleton) (active : List Nat) (symbol : Nat)
    (s : Evaluation) (prepared : s.Prepared) :
    g.request active symbol s = g'.request active symbol s := by
  have bodies := productions?_of_skeleton same symbol
  fun_induction Grammar.request g active symbol s with
  | case1 active symbol s first found => rw [request, found]
  | case2 active symbol s missing none =>
    rw [none, Option.map_none, eq_comm, Option.map_eq_none_iff] at bodies
    rw [request_eq, missing, bodies]
  | case3 active symbol s missing productions found member =>
    rw [found, Option.map_some, eq_comm, Option.map_eq_some_iff] at bodies
    obtain ⟨productions', found', -⟩ := bodies
    rw [request_eq, missing, found']
    exact (if_pos member).symm
  | case4 active symbol s missing productions found fresh evaluated ih =>
    rw [found, Option.map_some, eq_comm, Option.map_eq_some_iff] at bodies
    obtain ⟨productions', found', equal⟩ := bodies
    have inStep : InStep (g.request (symbol :: active)) (g'.request (symbol :: active)) :=
      ⟨fun s => request_epsilon g (symbol :: active), prepared_request g (symbol :: active),
        fun next s prepared => ih next s prepared (productions?_of_skeleton same next)⟩
    have whole := inStep.firstOfAlternatives_eq equal.symm prepared
    rw [request_eq, missing, found']
    simp only [if_neg fresh, ← whole]
    rfl

theorem inStep_request (same : g.skeleton = g'.skeleton) (active : List Nat) :
    InStep (g.request active) (g'.request active) :=
  ⟨fun _ => request_epsilon g active, prepared_request g active, request_of_skeleton same active⟩

theorem evaluate_eq (g : Grammar) : g.evaluate =
    (g.indexedNonTerminals.map (·.2) ++ g.indexedTerminals.map (·.2)).foldl
      (fun s symbol => (g.request [] symbol s).2) (Evaluation.store {} epsilonIndex {epsilonIndex}) := by
  have first : (g.request [] epsilonIndex {}).2 = Evaluation.store {} epsilonIndex {epsilonIndex} := by
    rw [request_eq, (productions?_eq_none_iff g _).2 (not_isNonTerminal_epsilon g)]
    rfl
  rw [evaluate, List.cons_append, List.foldl_cons, first]

theorem prepared_initial : (Evaluation.store {} epsilonIndex {epsilonIndex}).Prepared :=
  IndexMap.get?_insert_self ..

theorem prepared_evaluate (g : Grammar) : g.evaluate.Prepared := by
  rw [evaluate_eq]
  exact foldl_keeps (motive := Evaluation.Prepared)
    (fun s symbol _ => prepared_request g [] symbol s) prepared_initial

theorem evaluate_of_skeleton (same : g.skeleton = g'.skeleton) : g.evaluate = g'.evaluate := by
  obtain ⟨nonTerminals, terminals⟩ := indices_of_skeleton same
  rw [evaluate_eq, evaluate_eq, ← nonTerminals, ← terminals]
  refine foldl_eq_of_forall₂ (motive := Evaluation.Prepared)
    (List.forall₂_refl _ : List.Forall₂ Eq _ _) ?_ ?_ prepared_initial
  · exact fun s symbol _ => prepared_request g [] symbol s
  · rintro s symbol _ rfl prepared
    rw [request_of_skeleton same [] symbol s prepared]

theorem prepared_refineSymbol {s : Evaluation} (prepared : s.Prepared) {n : NonTerminal × Nat}
    (member : n ∈ g.indexedNonTerminals) : (g.refineSymbol s n).Prepared := by
  refine prepared_store (firstOfAlternatives_keeps (prepared_request g []) _ prepared) ?_ _
  intro hidden
  exact not_isNonTerminal_epsilon g ((isNonTerminal_iff_mem g _).2 ⟨n.1, hidden ▸ member⟩)

theorem prepared_refine {s : Evaluation} (prepared : s.Prepared) : (g.refine s).Prepared :=
  foldl_keeps (motive := Evaluation.Prepared)
    (fun _ _ member prepared => prepared_refineSymbol prepared member) prepared

theorem refineSymbol_of_sameBody (same : g.skeleton = g'.skeleton) {s : Evaluation} (prepared : s.Prepared)
    {n n' : NonTerminal × Nat} (body : SameBody n n') : g.refineSymbol s n = g'.refineSymbol s n' := by
  rw [refineSymbol, refineSymbol, (inStep_request same []).firstOfAlternatives_eq body.2 prepared, body.1]

theorem refine_of_skeleton (same : g.skeleton = g'.skeleton) {s : Evaluation} (prepared : s.Prepared) :
    g.refine s = g'.refine s :=
  foldl_eq_of_forall₂ (motive := Evaluation.Prepared) (forall₂_sameBody same)
    (fun _ _ member prepared => prepared_refineSymbol prepared member)
    (fun _ _ _ body prepared => refineSymbol_of_sameBody same prepared body) prepared

theorem size_of_skeleton (same : g.skeleton = g'.skeleton) : g.size = g'.size := by
  have terminals : g.terminals.length = g'.terminals.length := congrArg (·.terminals) same
  rw [size, size, length_nonTerminals_of_skeleton same, terminals]

theorem evaluateFirst_of_skeleton (same : g.skeleton = g'.skeleton) :
    g.evaluateFirst = g'.evaluateFirst := by
  have settled : g.settle g.evaluate = g'.settle g'.evaluate := by
    rw [settle, settle, ← evaluate_of_skeleton same, ← size_of_skeleton same]
    exact Saturation.congr_of_keeps (motive := Evaluation.Prepared) (fun _ => prepared_refine)
      (fun _ => refine_of_skeleton same) (prepared_evaluate g)
  rw [evaluateFirst, evaluateFirst, settled]

end First

section Follow

theorem get?_firstSets_epsilon (g : Grammar) : g.firstSets.get? epsilonIndex = some {epsilonIndex} := by
  have prepared : (g.settle g.evaluate).result.Prepared :=
    Saturation.keeps (motive := Evaluation.Prepared) (fun _ => prepared_refine) (prepared_evaluate g)
  exact prepared

theorem ofSequence_visible {first : FirstSets} (found : first.get? epsilonIndex = some {epsilonIndex})
    (sequence : List Nat) : first.ofSequence sequence = first.ofSequence (visible sequence) := by
  induction sequence with
  | nil => rfl
  | cons symbol rest ih =>
    rw [FirstSets.ofSequence_cons]
    by_cases hidden : symbol = epsilonIndex
    · subst hidden
      rw [FirstSets.get, found, Option.getD_some, if_pos (IndexSet.mem_singleton.2 rfl),
        IndexSet.erase_singleton_union]
      exact ih
    · rw [visible_cons, visible_singleton hidden, List.singleton_append, FirstSets.ofSequence_cons, ih]

theorem extendAlong_visible (g : Grammar) {first : FirstSets}
    (found : first.get? epsilonIndex = some {epsilonIndex}) (source : Nat) (sequence : List Nat)
    (s : Growth) :
    g.extendAlong first source s sequence = g.extendAlong first source s (visible sequence) := by
  induction sequence generalizing s with
  | nil => rfl
  | cons symbol after ih =>
    rw [extendAlong]
    by_cases hidden : symbol = epsilonIndex
    · subst hidden
      rw [if_neg (not_isNonTerminal_epsilon g)]
      exact ih s
    · have same : s.addition first source after = s.addition first source (visible after) := by
        rw [Growth.addition, Growth.addition, ofSequence_visible found after]
      rw [visible_cons, visible_singleton hidden, List.singleton_append, extendAlong, ih,
        Growth.extend_eq, Growth.extend_eq, same]

theorem extendAlong_of_skeleton (same : g.skeleton = g'.skeleton) (first : FirstSets) (source : Nat)
    (s : Growth) (sequence : List Nat) :
    g.extendAlong first source s sequence = g'.extendAlong first source s sequence := by
  induction sequence generalizing s with
  | nil => rfl
  | cons symbol after ih => rw [extendAlong, extendAlong, isNonTerminal_of_skeleton same, ih]

theorem followPass_of_skeleton (same : g.skeleton = g'.skeleton) {first : FirstSets}
    (found : first.get? epsilonIndex = some {epsilonIndex}) (s : Growth) :
    g.followPass first s = g'.followPass first s := by
  have along (g : Grammar) (source : Nat) (productions : List (List Nat)) (s : Growth) :
      productions.foldl (g.extendAlong first source) s =
        (productions.map visible).foldl (g.extendAlong first source) s := by
    simp only [List.foldl_map, ← extendAlong_visible g found]
  refine foldl_eq_of_forall₂ (motive := fun _ => True) (forall₂_sameBody same) (fun _ _ _ _ => trivial)
    ?_ trivial
  intro s n n' body _
  have step : g.extendAlong first n'.2 = g'.extendAlong first n'.2 :=
    funext₂ (extendAlong_of_skeleton same first n'.2)
  rw [along g, body.1, body.2, step, ← along g']

theorem initialGrowth_of_skeleton (same : g.skeleton = g'.skeleton) :
    g.initialGrowth = g'.initialGrowth := by
  have sets : g.initialGrowth.sets = g'.initialGrowth.sets := by
    ext symbol : 1
    have start : g.start = g'.start := congrArg (·.start) same
    rw [get?_initialGrowth, get?_initialGrowth, isNonTerminal_of_skeleton same, start]
  exact congrArg (Growth.mk · []) sets

theorem saturateFollow_of_skeleton (same : g.skeleton = g'.skeleton) {first : FirstSets}
    (found : first.get? epsilonIndex = some {epsilonIndex}) :
    g.saturateFollow first = g'.saturateFollow first := by
  rw [saturateFollow, saturateFollow, initialGrowth_of_skeleton same,
    length_nonTerminals_of_skeleton same, funext (followPass_of_skeleton same found)]

end Follow

theorem firstSets_of_skeleton (same : g.skeleton = g'.skeleton) : g.firstSets = g'.firstSets :=
  congrArg Prod.fst (evaluateFirst_of_skeleton same)

theorem followSets_of_skeleton (same : g.skeleton = g'.skeleton) :
    g.followSets g.firstSets = g'.followSets g'.firstSets := by
  rw [followSets, followSets, ← firstSets_of_skeleton same,
    saturateFollow_of_skeleton same (get?_firstSets_epsilon g)]

theorem log_of_skeleton (same : g.skeleton = g'.skeleton) : g.log = g'.log := by
  have built : g.builtEvent = g'.builtEvent := by
    rw [builtEvent, builtEvent, length_nonTerminals_of_skeleton same]
    exact congrArg (fun k : Skeleton => Event.built _ k.terminals k.start) same
  have follow : g.followLog g.firstSets = g'.followLog g.firstSets := by
    rw [followLog, followLog, saturateFollow_of_skeleton same (get?_firstSets_epsilon g)]
  rw [log, log, built, ← evaluateFirst_of_skeleton same]
  exact congrArg (g'.builtEvent :: g.evaluateFirst.2 ++ ·) follow

end Grammar

end Lookahead
