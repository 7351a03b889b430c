import Lookahead.Grammar.Tables
import Lookahead.Proofs.Grammar.Names

/-!
The tables of a build are kept in step: after each of its steps they mirror one grammar, so no look-up
misses, and building with tables accepts and rejects what building without them does.
-/

namespace Lookahead

/-- The tables hold what the grammar says, each in its way. -/
structure Tables.Mirrors (t : Tables) (g : Grammar) : Prop where
  epsilon : t.epsilon = g.epsilon
  symbols : t.symbols = g.symbols
  indices : ∀ name, t.indexOf? name = g.indexOf? name
  nonTerminals : t.nonTerminals = g.indexedNonTerminals
  places : ∀ i, t.places.get? i = if g.isNonTerminal i then some (i - markerCount) else none
  start : t.start = g.start

namespace Tables

/-- Two runs that end in the same way, with related results. -/
inductive Agrees {α β : Type} (related : α → β → Prop) : Except Rejection α → Except Stop β → Prop
  | ok {a : α} {b : β} (holds : related a b) : Agrees related (.ok a) (.ok b)
  | error (rejection : Rejection) : Agrees related (.error rejection) (.error (.rejected rejection))

section Agreement

variable {α β γ δ : Type} {related : α → β → Prop} {next : γ → δ → Prop}

theorem Agrees.bind {x : Except Rejection α} {y : Except Stop β} {f : α → Except Rejection γ}
    {h : β → Except Stop δ} (first : Agrees related x y)
    (later : ∀ a b, x = .ok a → related a b → Agrees next (f a) (h b)) :
    Agrees next (x >>= f) (y >>= h) := by
  cases first with
  | ok holds => exact later _ _ rfl holds
  | error rejection => exact .error rejection

theorem Agrees.map {x : Except Rejection α} {y : Except Stop β} {f : α → γ} {weaker : γ → β → Prop}
    (agrees : Agrees related x y) (implies : ∀ a b, related a b → weaker (f a) b) :
    Agrees weaker (x >>= fun a => .ok (f a)) y := by
  cases agrees with
  | ok holds => exact .ok (implies _ _ holds)
  | error rejection => exact .error rejection

theorem Agrees.imp {x : Except Rejection α} {y : Except Stop β} {weaker : α → β → Prop}
    (agrees : Agrees related x y) (implies : ∀ a b, x = .ok a → related a b → weaker a b) :
    Agrees weaker x y := by
  cases agrees with
  | ok holds => exact .ok (implies _ _ rfl holds)
  | error rejection => exact .error rejection

end Agreement

variable {t : Tables} {g : Grammar}

theorem indexOf?_of_names {g g' : Grammar} {name : String} (names : g'.names = g.names ++ [name])
    (fresh : g.indexOf? name = none) (other : String) :
    g'.indexOf? other = if name = other then some g.size else g.indexOf? other := by
  rw [Grammar.indexOf?_eq_idxOf?] at fresh
  rw [Grammar.indexOf?_eq_idxOf?, Grammar.indexOf?_eq_idxOf?, names, List.idxOf?, List.findIdx?_append]
  split
  · rename_i same
    subst same
    rw [show List.findIdx? (· == name) g.names = none from fresh, Option.none_or]
    simp [Grammar.length_names]
  · rename_i different
    simp [different]

theorem lookup_cons_eq {name other : String} {i : Nat} {indices : List (String × Nat)} :
    ((name, i) :: indices).lookup other = if name = other then some i else indices.lookup other := by
  rw [List.lookup_cons]
  by_cases same : name = other
  · simp [same]
  · have other_key : (other == name) = false := by simpa using Ne.symm same
    simp [same, other_key]

theorem mirrors_initial {epsilon : String} (free : epsilon ≠ endMark) :
    (initial epsilon).Mirrors ⟨epsilon, [], [], epsilonIndex⟩ := by
  refine ⟨rfl, rfl, ?_, rfl, ?_, rfl⟩
  · intro name
    rw [indexOf?, initial, lookup_cons_eq, lookup_cons_eq, Grammar.indexOf?]
    by_cases last : name = endMark
    · simp [last, Ne.symm free]
    · simp [last, Ne.symm last, eq_comm]
  · intro i
    have none : Grammar.isNonTerminal ⟨epsilon, [], [], epsilonIndex⟩ i = false := by
      simp [Grammar.isNonTerminal, Grammar.nonTerminal?]
    simp [initial, none]

theorem Mirrors.addNonTerminal (mirrors : t.Mirrors g) (empty : g.terminals = []) {name : String}
    (fresh : g.indexOf? name = none) :
    (t.addNonTerminal name).Mirrors { g with nonTerminals := g.nonTerminals ++ [⟨name, []⟩] } := by
  have count : t.symbols.length = g.size := by rw [mirrors.symbols, Grammar.length_symbols]
  have size : g.size = markerCount + g.nonTerminals.length := by simp [Grammar.size, empty]
  refine ⟨mirrors.epsilon, ?_, ?_, ?_, ?_, mirrors.start⟩
  · simp [Tables.addNonTerminal, mirrors.symbols, Grammar.symbols, empty]
  · intro other
    have names : Grammar.names { g with nonTerminals := g.nonTerminals ++ [⟨name, []⟩] } =
        g.names ++ [name] := by
      simp [Grammar.names_eq, empty]
    rw [indexOf?_of_names names fresh, indexOf?, Tables.addNonTerminal, lookup_cons_eq, count]
    simp only [← mirrors.indices other, indexOf?]
  · simp only [Tables.addNonTerminal, mirrors.nonTerminals, count, size, Grammar.indexedNonTerminals,
      List.zipIdx_append]
    rfl
  · intro i
    have length : t.nonTerminals.length = g.nonTerminals.length := by
      rw [mirrors.nonTerminals, Grammar.indexedNonTerminals, List.length_zipIdx]
    simp only [Tables.addNonTerminal, IndexMap.get?_insert, mirrors.places, count, size, length,
      Grammar.isNonTerminal_iff, List.length_append, List.length_singleton]
    split
    · rename_i here
      rw [if_pos (by omega)]
      congr 1
      omega
    · congr 1
      simp only [eq_iff_iff]
      omega

theorem Mirrors.addTerminal (mirrors : t.Mirrors g) {name : String} (fresh : g.indexOf? name = none) :
    (t.addTerminal name).Mirrors { g with terminals := g.terminals ++ [name] } := by
  refine ⟨mirrors.epsilon, ?_, ?_, mirrors.nonTerminals, mirrors.places, mirrors.start⟩
  · simp [Tables.addTerminal, mirrors.symbols, Grammar.symbols]
  · intro other
    have names : Grammar.names { g with terminals := g.terminals ++ [name] } = g.names ++ [name] := by
      simp [Grammar.names_eq]
    rw [indexOf?_of_names names fresh, indexOf?, Tables.addTerminal, lookup_cons_eq, mirrors.symbols,
      Grammar.length_symbols]
    simp only [← mirrors.indices other, indexOf?]

theorem Mirrors.name? (mirrors : t.Mirrors g) (i : Nat) : t.name? i = g.name? i := by
  rw [Tables.name?, mirrors.symbols, mirrors.epsilon, ← Grammar.symbol?_eq_getElem?]
  rfl

theorem Mirrors.isNonTerminal (mirrors : t.Mirrors g) (i : Nat) :
    t.isNonTerminal i = g.isNonTerminal i := by
  rw [Tables.isNonTerminal, mirrors.places]
  split <;> simp [*]

theorem Mirrors.nonTerminal? (mirrors : t.Mirrors g) (i : Nat) :
    t.nonTerminal? i = (g.nonTerminal? i).map fun n => (n, i) := by
  rw [Tables.nonTerminal?, mirrors.places, mirrors.nonTerminals, Grammar.indexedNonTerminals]
  split
  · rename_i nonTerminal
    obtain ⟨above, -⟩ := (Grammar.isNonTerminal_iff g i).1 nonTerminal
    rw [Option.bind_some, List.getElem?_zipIdx, Nat.add_sub_cancel' above, Grammar.nonTerminal?,
      if_neg (Nat.not_lt.2 above)]
  · rename_i other
    have missing : g.nonTerminal? i = none := by simpa [Grammar.isNonTerminal] using other
    rw [missing]
    rfl

section Scans

variable {v : Vocabulary} {declared terminals : List String} {numbered : List (String × List (List Nat))}

/-- The grammar that the scans have come to: some entries are numbered and some terminals known. -/
def stage (epsilon : String) (declared : List String) (numbered : List (String × List (List Nat)))
    (terminals : List String) : Grammar :=
  ⟨epsilon, declared.map (Grammar.collect numbered), terminals, epsilonIndex⟩

theorem indexOf?_stage (declared : List String) (numbered : List (String × List (List Nat)))
    (terminals : List String) {epsilon name : String} (shown : name ≠ epsilon) (free : name ≠ endMark) :
    (stage epsilon declared numbered terminals).indexOf? name =
      if name ∈ declared then some (markerCount + declared.idxOf name)
      else (terminals.idxOf? name).map (markerCount + declared.length + ·) := by
  have places : (declared.map (Grammar.collect numbered)).findIdx? (fun n => decide (n.name = name)) =
      declared.idxOf? name := by
    rw [List.findIdx?_map]
    rfl
  rw [Grammar.indexOf?, stage, if_neg shown, if_neg free, places, List.length_map]
  by_cases member : name ∈ declared
  · rw [if_pos member]
    cases found : declared.idxOf? name with
    | none => exact absurd member (List.idxOf?_eq_none_iff.1 found)
    | some i => simp [List.idxOf_eq_getD_idxOf?, found]
  · rw [if_neg member, List.idxOf?_eq_none_iff.2 member]

theorem agrees_declare {rules : List Rule} (mirrors : t.Mirrors (stage v.epsilon declared [] [])) :
    Agrees (fun declared t => t.Mirrors (stage v.epsilon declared [] []))
      (Grammar.declare v declared rules) (declare v t rules) := by
  induction rules generalizing t declared with
  | nil => exact .ok mirrors
  | cons rule rest ih =>
    rw [Grammar.declare, declare]
    by_cases reserved : v.isReserved rule.left
    · rw [if_pos reserved, if_pos reserved]
      exact .error _
    by_cases blank : Text.isBlank rule.left
    · rw [if_neg reserved, if_neg reserved, if_pos blank, if_pos blank]
      exact .error _
    rw [if_neg reserved, if_neg reserved, if_neg blank, if_neg blank]
    apply ih
    have distinct : rule.left ≠ v.epsilon ∧ rule.left ≠ endMark := by
      simpa [Vocabulary.isReserved] using reserved
    have index := indexOf?_stage declared [] [] distinct.1 distinct.2
    rw [mirrors.indices, index]
    by_cases member : rule.left ∈ declared
    · simpa [member] using mirrors
    · rw [if_neg member] at index
      have added := mirrors.addNonTerminal rfl index
      simpa [member, stage, Grammar.collect] using added

theorem classifyIn_eq_ok {v : Vocabulary} {left token : String} {symbol : Symbol}
    (done : v.classifyIn left token = .ok symbol) : v.classify token = some symbol := by
  unfold Vocabulary.classifyIn at done
  split at done
  · rename_i found
    rw [found, Except.ok.inj done]
  · contradiction

theorem agrees_numberToken (complete : ∀ name, name ∈ declared ↔ name ∈ v.nonTerminals)
    (left token : String) (mirrors : t.Mirrors (stage v.epsilon declared numbered terminals)) :
    Agrees (fun a b => a.1 = b.1 ∧ b.2.Mirrors (stage v.epsilon declared numbered a.2))
      (Grammar.numberToken v declared left terminals token) (numberToken v left t token) := by
  unfold Grammar.numberToken numberToken
  cases classified : v.classifyIn left token with
  | error rejection => exact .error rejection
  | ok symbol =>
    have found := classifyIn_eq_ok classified
    cases symbol with
    | epsilon => exact .ok ⟨rfl, mirrors⟩
    | endMark => exact .error _
    | nonTerminal name =>
      have kind : name ≠ v.epsilon ∧ name ≠ endMark ∧ name ∈ v.nonTerminals := by
        grind [Vocabulary.classify]
      have index := indexOf?_stage declared numbered terminals kind.1 kind.2.1
      rw [if_pos ((complete name).2 kind.2.2), ← mirrors.indices] at index
      simp only [index]
      exact .ok ⟨rfl, mirrors⟩
    | terminal name =>
      have kind : name ≠ v.epsilon ∧ name ≠ endMark ∧ name ∉ v.nonTerminals := by
        grind [Vocabulary.classify]
      have index := indexOf?_stage declared numbered terminals kind.1 kind.2.1
      rw [if_neg fun member => kind.2.2 ((complete name).1 member)] at index
      simp only [mirrors.indices, index]
      cases place : terminals.idxOf? name with
      | some i => exact .ok ⟨rfl, mirrors⟩
      | none =>
        rw [place] at index
        refine .ok ⟨?_, mirrors.addTerminal index⟩
        simp [mirrors.symbols, Grammar.length_symbols, Grammar.size, stage]

theorem thread_cons {α β σ ε : Type} (step : σ → α → Except ε (β × σ)) (state : σ) (a : α)
    (rest : List α) : Grammar.thread step state (a :: rest) =
      step state a >>= fun x => Grammar.thread step x.2 rest >>= fun y => .ok (x.1 :: y.1, y.2) := by
  rw [Grammar.thread]
  cases step state a with
  | error fault => rfl
  | ok x =>
    simp only [bind, Except.bind]
    cases Grammar.thread step x.2 rest <;> rfl

theorem agrees_thread {α β σ τ : Type} {related : σ → τ → Prop}
    {step : σ → α → Except Rejection (β × σ)} {step' : τ → α → Except Stop (β × τ)}
    (each : ∀ a s s', related s s' →
      Agrees (fun x y => x.1 = y.1 ∧ related x.2 y.2) (step s a) (step' s' a))
    (l : List α) {s : σ} {s' : τ} (first : related s s') :
    Agrees (fun x y => x.1 = y.1 ∧ related x.2 y.2) (Grammar.thread step s l)
      (Grammar.thread step' s' l) := by
  induction l generalizing s s' with
  | nil => exact .ok ⟨rfl, first⟩
  | cons a rest ih =>
    rw [thread_cons, thread_cons]
    refine (each a s s' first).bind ?_
    intro x y _ head
    refine (ih head.2).bind ?_
    intro xs ys _ tail
    exact .ok ⟨by rw [head.1, tail.1], tail.2⟩

/-- Productions are told by neither names nor places. -/
theorem Mirrors.withProductions (mirrors : t.Mirrors g) {nonTerminals : List NonTerminal}
    (kept : nonTerminals.map (·.name) = g.nonTerminals.map (·.name)) :
    Mirrors { t with nonTerminals := nonTerminals.zipIdx markerCount }
      { g with nonTerminals := nonTerminals } := by
  have symbols := congrArg (List.map Symbol.nonTerminal) kept
  rw [List.map_map, List.map_map] at symbols
  have length : nonTerminals.length = g.nonTerminals.length := by
    simpa using congrArg List.length kept
  refine ⟨mirrors.epsilon, ?_, ?_, rfl, ?_, mirrors.start⟩
  · rw [mirrors.symbols, Grammar.symbols, Grammar.symbols]
    exact congrArg (fun l => Symbol.epsilon :: .endMark :: (l ++ g.terminals.map .terminal)) symbols.symm
  · intro name
    have names : Grammar.names { g with nonTerminals := nonTerminals } = g.names := by
      rw [Grammar.names_eq, Grammar.names_eq, kept]
    rw [Grammar.indexOf?_eq_idxOf?, names, ← Grammar.indexOf?_eq_idxOf?]
    exact mirrors.indices name
  · intro i
    rw [show Tables.places _ = t.places from rfl, mirrors.places]
    simp only [Grammar.isNonTerminal_iff, length]

theorem Mirrors.addProduction (mirrors : t.Mirrors g) {place : Nat}
    (inside : place < g.nonTerminals.length) (right : List Nat) :
    ∃ t', t.addProduction (markerCount + place) right = .ok t' ∧ t'.Mirrors
      { g with nonTerminals := g.nonTerminals.modify place (·.addProduction right) } := by
  have here : t.places.get? (markerCount + place) = some place := by
    rw [mirrors.places, if_pos ((Grammar.isNonTerminal_iff g _).2 (by omega)), Nat.add_sub_cancel_left]
  have entry : t.nonTerminals[place]? = some (g.nonTerminals[place], markerCount + place) := by
    rw [mirrors.nonTerminals, Grammar.indexedNonTerminals, List.getElem?_zipIdx,
      List.getElem?_eq_getElem inside]
    rfl
  have kept : (g.nonTerminals.modify place (·.addProduction right)).map (·.name) =
      g.nonTerminals.map (·.name) := by
    refine List.ext_getElem (by simp) fun i _ _ => ?_
    rw [List.getElem_map, List.getElem_map, List.getElem_modify]
    split <;> rfl
  have extended :
      t.nonTerminals.set place (g.nonTerminals[place].addProduction right, markerCount + place) =
      (g.nonTerminals.modify place (·.addProduction right)).zipIdx markerCount := by
    simp only [mirrors.nonTerminals, Grammar.indexedNonTerminals]
    refine List.ext_getElem (by simp) fun i _ _ => ?_
    rw [List.getElem_set, List.getElem_zipIdx, List.getElem_zipIdx, List.getElem_modify]
    split
    · rename_i same
      subst same
      rfl
    · rfl
  refine ⟨_, by simp only [Tables.addProduction, here, entry]; rfl, ?_⟩
  rw [extended]
  exact mirrors.withProductions kept

theorem collect_extend (numbered : List (String × List (List Nat))) (left : String)
    (done : List (List Nat)) (right : List Nat) (name : String) :
    Grammar.collect (numbered ++ [(left, done ++ [right])]) name =
      if left = name then (Grammar.collect (numbered ++ [(left, done)]) name).addProduction right
      else Grammar.collect (numbered ++ [(left, done)]) name := by
  unfold Grammar.collect NonTerminal.addProduction
  by_cases same : left = name <;> simp [same]

theorem modify_collect (numbered : List (String × List (List Nat))) (distinct : declared.Nodup)
    (left : String) (done : List (List Nat)) (right : List Nat) :
    (declared.map (Grammar.collect (numbered ++ [(left, done)]))).modify (declared.idxOf left)
        (·.addProduction right) =
      declared.map (Grammar.collect (numbered ++ [(left, done ++ [right])])) := by
  refine List.ext_getElem (by simp) fun i _ _ => ?_
  rw [List.getElem_modify, List.getElem_map, List.getElem_map, collect_extend]
  congr 1
  rw [eq_iff_iff]
  constructor
  · intro place
    subst place
    exact (List.getElem_idxOf _).symm
  · intro same
    rw [same]
    exact distinct.idxOf_getElem _ _

theorem Mirrors.addRight (distinct : declared.Nodup) {left : String} (member : left ∈ declared)
    {done : List (List Nat)}
    (mirrors : t.Mirrors (stage v.epsilon declared (numbered ++ [(left, done)]) terminals))
    (right : List Nat) :
    ∃ t', t.addProduction (markerCount + declared.idxOf left) right = .ok t' ∧
      t'.Mirrors (stage v.epsilon declared (numbered ++ [(left, done ++ [right])]) terminals) := by
  have inside : declared.idxOf left <
      (declared.map (Grammar.collect (numbered ++ [(left, done)]))).length := by
    rw [List.length_map]
    exact List.idxOf_lt_length_of_mem member
  obtain ⟨t', added, extended⟩ := mirrors.addProduction inside right
  refine ⟨t', added, ?_⟩
  rw [stage, ← modify_collect numbered distinct left done right]
  exact extended

theorem agrees_rights (complete : ∀ name, name ∈ declared ↔ name ∈ v.nonTerminals)
    (distinct : declared.Nodup) {left : String} (member : left ∈ declared) (rights : List (List String))
    {done : List (List Nat)}
    (mirrors : t.Mirrors (stage v.epsilon declared (numbered ++ [(left, done)]) terminals)) :
    Agrees (fun a b => b.Mirrors (stage v.epsilon declared (numbered ++ [(left, done ++ a.1)]) a.2))
      (Grammar.thread (Grammar.thread (Grammar.numberToken v declared left)) terminals rights)
      (rights.foldlM (addRight v left (markerCount + declared.idxOf left)) t) := by
  induction rights generalizing t terminals done with
  | nil => exact .ok (by simpa using mirrors)
  | cons right rest ih =>
    have each (token : String) (terminals : List String) (t : Tables)
        (mirrors : t.Mirrors (stage v.epsilon declared (numbered ++ [(left, done)]) terminals)) :=
      agrees_numberToken complete left token mirrors
    have tokens := agrees_thread each right mirrors
    rw [thread_cons, List.foldlM_cons, addRight, bind_assoc]
    refine tokens.bind fun x y _ numbers => ?_
    obtain ⟨same, next⟩ := numbers
    obtain ⟨t', added, extended⟩ := next.addRight distinct member y.1
    simp only [added]
    refine (ih extended).map fun a b holds => ?_
    simpa [same] using holds

theorem numberRule_eq_bind (v : Vocabulary) (declared terminals : List String) (rule : Rule) :
    Grammar.numberRule v declared terminals rule =
      Grammar.thread (Grammar.thread (Grammar.numberToken v declared rule.left)) terminals rule.rights >>=
        fun x => .ok ((rule.left, x.1), x.2) := by
  rw [Grammar.numberRule]
  cases Grammar.thread (Grammar.thread (Grammar.numberToken v declared rule.left)) terminals
    rule.rights <;> rfl

theorem collect_empty (numbered : List (String × List (List Nat))) (left : String) :
    Grammar.collect (numbered ++ [(left, [])]) = Grammar.collect numbered := by
  funext name
  by_cases same : left = name <;> simp [Grammar.collect, same]

theorem agrees_rules (complete : ∀ name, name ∈ declared ↔ name ∈ v.nonTerminals)
    (distinct : declared.Nodup) {rules : List Rule}
    (free : ∀ rule ∈ rules, (rule.left ≠ v.epsilon ∧ rule.left ≠ endMark) ∧ rule.left ∈ declared)
    (mirrors : t.Mirrors (stage v.epsilon declared numbered terminals)) :
    Agrees (fun a b => b.Mirrors (stage v.epsilon declared (numbered ++ a.1) a.2))
      (Grammar.thread (Grammar.numberRule v declared) terminals rules) (rules.foldlM (addRule v) t) := by
  induction rules generalizing t terminals numbered with
  | nil => exact .ok (by simpa using mirrors)
  | cons rule rest ih =>
    obtain ⟨⟨shown, unreserved⟩, member⟩ := free rule List.mem_cons_self
    have index := indexOf?_stage declared numbered terminals shown unreserved
    rw [if_pos member, ← mirrors.indices] at index
    have empty : t.Mirrors (stage v.epsilon declared (numbered ++ [(rule.left, [])]) terminals) := by
      rw [stage, collect_empty]
      exact mirrors
    have rights := agrees_rights complete distinct member rule.rights empty
    rw [thread_cons, List.foldlM_cons, addRule, index, numberRule_eq_bind, bind_assoc]
    refine rights.bind fun x t _ holds => ?_
    rw [List.nil_append] at holds
    refine (ih (fun other inside => free other (List.mem_cons_of_mem _ inside)) holds).map ?_
    intro a b later
    simpa using later

theorem agrees_checkStart (free : ∀ name ∈ declared, name ≠ v.epsilon ∧ name ≠ endMark) (start : String)
    (mirrors : t.Mirrors (stage v.epsilon declared numbered terminals)) :
    Agrees (fun i t => t.Mirrors { stage v.epsilon declared numbered terminals with start := i })
      (if start ∈ declared then .ok (markerCount + declared.idxOf start)
        else .error (.missingStart start))
      (t.checkStart start) := by
  unfold checkStart
  split
  · rename_i member
    obtain ⟨shown, unreserved⟩ := free start member
    have nonTerminal : t.isNonTerminal (markerCount + declared.idxOf start) := by
      have inside := List.idxOf_lt_length_of_mem member
      rw [mirrors.isNonTerminal, Grammar.isNonTerminal_iff, stage, List.length_map]
      omega
    rw [mirrors.indices, indexOf?_stage declared numbered terminals shown unreserved, if_pos member]
    simp only [nonTerminal, if_true]
    exact .ok ⟨mirrors.epsilon, mirrors.symbols, mirrors.indices, mirrors.nonTerminals, mirrors.places,
      rfl⟩
  · rename_i undeclared
    split
    · rename_i i found
      have other : ¬ t.isNonTerminal i := by
        intro nonTerminal
        rw [mirrors.isNonTerminal] at nonTerminal
        rw [mirrors.indices] at found
        apply undeclared
        simpa [stage, Grammar.collect] using Grammar.mem_of_indexOf? found nonTerminal
      rw [if_neg other]
      exact .error _
    · exact .error _

theorem agrees_checkProductions (distinct : declared.Nodup) {start : String}
    (mirrors : t.Mirrors { stage v.epsilon declared numbered terminals with
      start := markerCount + declared.idxOf start }) :
    Agrees (fun _ t => t.Mirrors { stage v.epsilon declared numbered terminals with
        start := markerCount + declared.idxOf start })
      (Grammar.checkProductions start (declared.map (Grammar.collect numbered))) t.checkProductions := by
  have listed : t.nonTerminals = (declared.map (Grammar.collect numbered)).zipIdx markerCount :=
    mirrors.nonTerminals
  have entries : (declared.map (Grammar.collect numbered)).find? (·.productions.isEmpty) =
      (t.nonTerminals.find? (·.1.productions.isEmpty)).map (·.1) := by
    have firsts : declared.map (Grammar.collect numbered) = t.nonTerminals.map (·.1) := by
      rw [listed, List.zipIdx_map_fst]
    rw [firsts, List.find?_map]
    rfl
  unfold Grammar.checkProductions checkProductions
  rw [entries]
  cases found : t.nonTerminals.find? (·.1.productions.isEmpty) with
  | none => exact .ok mirrors
  | some entry =>
    obtain ⟨n, i⟩ := entry
    have present := List.mem_of_find?_eq_some found
    rw [listed, List.mk_mem_zipIdx_iff_le_and_getElem?_sub, List.getElem?_map] at present
    obtain ⟨above, place⟩ := present
    obtain ⟨name, at_name, rfl⟩ := Option.map_eq_some_iff.1 place
    obtain ⟨inside, same⟩ := List.getElem?_eq_some_iff.1 at_name
    have index : declared.idxOf name = i - markerCount := by
      rw [← same]
      exact distinct.idxOf_getElem _ _
    have first : i = t.start ↔ name = start := by
      have places := List.idxOf_inj (y := start) (same ▸ List.getElem_mem inside : name ∈ declared)
      rw [mirrors.start, ← places, index]
      show i = markerCount + declared.idxOf start ↔ _
      omega
    simp only [Option.map_some, first]
    exact .error _

/-- Building with tables ends as building without them does, and the tables are in step. -/
theorem agrees_build (rules : List Rule) (start epsilon : String) :
    Agrees (fun g t => t.Mirrors g) (Grammar.build rules start epsilon) (build rules start epsilon) := by
  unfold Grammar.build build
  by_cases empty : rules.isEmpty
  · simp only [empty, if_true]
    exact .error _
  by_cases blank : Text.isBlank epsilon
  · simp only [empty, blank, if_true]
    exact .error _
  by_cases reserved : epsilon = endMark
  · rw [if_neg empty, if_neg empty, if_neg blank, if_neg blank, if_pos reserved, if_pos reserved]
    exact .error _
  simp only [empty, blank, reserved, if_false]
  let v : Vocabulary := ⟨epsilon, rules.map (·.left)⟩
  have first : (initial epsilon).Mirrors (stage v.epsilon [] [] []) := mirrors_initial reserved
  refine (agrees_declare first).bind ?_
  intro declared t declares mirrors
  have free := Grammar.free_of_declare declares
  obtain rfl := Grammar.eq_leftSides_of_declare declares
  have complete (name : String) : name ∈ Grammar.leftSides rules ↔ name ∈ v.nonTerminals :=
    List.mem_eraseDups
  have distinct := Grammar.nodup_leftSides rules
  have unreserved (rule : Rule) (listed : rule ∈ rules) :
      (rule.left ≠ v.epsilon ∧ rule.left ≠ endMark) ∧ rule.left ∈ Grammar.leftSides rules := by
    refine ⟨?_, Grammar.mem_leftSides.2 ⟨rule, listed, rfl⟩⟩
    simpa [Vocabulary.isReserved] using (free rule listed).1
  refine (agrees_rules complete distinct unreserved mirrors).bind ?_
  intro x t _ mirrors
  have started := agrees_checkStart (fun name member => ?_) start mirrors
  · generalize t.checkStart start = outcome at started ⊢
    split
    · rename_i member
      rw [if_pos member] at started
      cases started with
      | ok mirrors => exact (agrees_checkProductions distinct mirrors).map fun _ _ holds => holds
    · rename_i undeclared
      rw [if_neg undeclared] at started
      cases started with
      | error => exact .error _
  · obtain ⟨rule, listed, rfl⟩ := Grammar.mem_leftSides.1 member
    exact (unreserved rule listed).1

end Scans

end Tables

end Lookahead
