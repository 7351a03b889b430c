import Lookahead.Proofs.Reordering
import Lookahead.Proofs.Report.Productions

/-!
Grammars built back from the report of their productions. The rows of the report are the rules again, with
all right sides of a left side in one place, so they say the same by name. Only terminals may get other
indices, and only if a left side has more than one rule.
-/

namespace Lookahead.Grammar

variable {rules rules' : List Rule} {start epsilon name : String}

section Merging

theorem filter_eq_singleton {α : Type} [DecidableEq α] {l : List α} {a : α} (distinct : l.Nodup)
    (member : a ∈ l) : l.filter (· = a) = [a] := by
  rw [List.filter_eq, List.count_eq_one_of_mem distinct member]
  rfl

theorem leftSides_merged (rules : List Rule) :
    leftSides ((merged rules).map ProductionsRow.toRule) = leftSides rules := by
  rw [leftSides, merged, List.map_map, List.map_map]
  exact (congrArg List.eraseDups (List.map_id _)).trans (eraseDups_eq_self (nodup_leftSides rules))

theorem rightsOf_merged (rules : List Rule) (name : String) :
    rightsOf ((merged rules).map ProductionsRow.toRule) name = rightsOf rules name := by
  have rows : rightsOf ((merged rules).map ProductionsRow.toRule) name =
      ((leftSides rules).filter (· = name)).flatMap (rightsOf rules) := by
    rw [rightsOf, merged, List.map_map, List.filter_map, List.flatMap_map]
    rfl
  rw [rows]
  by_cases declared : name ∈ leftSides rules
  · rw [filter_eq_singleton (nodup_leftSides rules) declared, List.flatMap_singleton]
  · have none : rightsOf rules name = [] := List.eq_nil_iff_forall_not_mem.2 fun right listed =>
      declared (mem_leftSides_of_mem_rightsOf listed)
    have absent : (leftSides rules).filter (· = name) = [] := List.filter_eq_nil_iff.2 fun other member => by
      simpa using fun same : other = name => declared (same ▸ member)
    rw [none, absent, List.flatMap_nil]

theorem merged_merged (rules : List Rule) :
    merged ((merged rules).map ProductionsRow.toRule) = merged rules := by
  rw [merged, leftSides_merged, funext (rightsOf_merged rules)]
  rfl

theorem sameRules_merged (rules : List Rule) :
    SameRules rules ((merged rules).map ProductionsRow.toRule) where
  lefts name := by rw [← mem_leftSides, ← mem_leftSides, leftSides_merged]
  rights name right := by rw [← mem_rightsOf, ← mem_rightsOf, rightsOf_merged]

theorem rightsOf_left (distinct : (rules.map (·.left)).Nodup) {rule : Rule} (listed : rule ∈ rules) :
    rightsOf rules rule.left = rule.rights := by
  have same (other : Rule) (member : other ∈ rules) :
      decide (other.left = rule.left) = decide (other = rule) :=
    decide_eq_decide.2 ⟨List.inj_on_of_nodup_map distinct member listed, congrArg Rule.left⟩
  rw [rightsOf, List.filter_congr same, filter_eq_singleton distinct.of_map listed,
    List.flatMap_singleton]

/-- Where every left side has one rule, there is nothing to merge. -/
theorem merged_of_nodup (distinct : (rules.map (·.left)).Nodup) :
    (merged rules).map ProductionsRow.toRule = rules := by
  rw [merged, leftSides, eraseDups_eq_self distinct, List.map_map, List.map_map]
  refine (List.map_congr_left fun rule listed => ?_).trans (List.map_id rules)
  exact congrArg (Rule.mk rule.left) (rightsOf_left distinct listed)

end Merging

namespace SameRules

variable (same : SameRules rules rules')
include same

theorem mem_terminalTokens :
    name ∈ terminalTokens rules epsilon ↔ name ∈ terminalTokens rules' epsilon :=
  ⟨fun terminal => (same.keeps epsilon).terminal name terminal trivial,
    fun terminal => (same.symm.keeps epsilon).terminal name terminal trivial⟩

theorem isSpelled : IsSpelled rules epsilon name ↔ IsSpelled rules' epsilon name :=
  or_congr_right (or_congr same.mem_leftSides same.mem_terminalTokens)

theorem firstNames?_of_declared (acceptable : Acceptable rules start epsilon)
    (declared : name ∈ leftSides rules) :
    ((ofRules rules start epsilon).firstNames? name).isSome ∧
      (ofRules rules start epsilon).firstNames? name = (ofRules rules' start epsilon).firstNames? name :=
  firstNames?_congr acceptable (same.acceptable acceptable) (same.keeps epsilon) (same.symm.keeps epsilon)
    declared trivial

theorem followNames?_of_declared (acceptable : Acceptable rules start epsilon)
    (declared : name ∈ leftSides rules) :
    ((ofRules rules start epsilon).followNames? name).isSome ∧
      (ofRules rules start epsilon).followNames? name =
        (ofRules rules' start epsilon).followNames? name :=
  followNames?_congr acceptable (same.acceptable acceptable) (same.keeps epsilon) (same.symm.keeps epsilon)
    declared

/-- All names have the same FIRST sets, also those that no rule declares. -/
theorem firstNames?_eq (acceptable : Acceptable rules start epsilon) (name : String) :
    (ofRules rules' start epsilon).firstNames? name = (ofRules rules start epsilon).firstNames? name := by
  have acceptable' := same.acceptable acceptable
  have leaf (leaf : name = epsilon ∨ name ∈ terminalTokens rules epsilon) :
      (ofRules rules' start epsilon).firstNames? name =
        (ofRules rules start epsilon).firstNames? name := by
    rw [firstNames?_of_leaf acceptable leaf,
      firstNames?_of_leaf acceptable' (leaf.imp_right same.mem_terminalTokens.1)]
  by_cases spelled : IsSpelled rules epsilon name
  · rcases spelled with hidden | declared | terminal
    · exact leaf (.inl hidden)
    · exact (same.firstNames?_of_declared acceptable declared).2.symm
    · exact leaf (.inr terminal)
  · rw [firstNames?_eq_none acceptable spelled,
      firstNames?_eq_none acceptable' fun other => spelled (same.isSpelled.2 other)]

theorem followNames?_eq (acceptable : Acceptable rules start epsilon) (name : String) :
    (ofRules rules' start epsilon).followNames? name = (ofRules rules start epsilon).followNames? name := by
  have acceptable' := same.acceptable acceptable
  by_cases declared : name ∈ leftSides rules
  · exact (same.followNames?_of_declared acceptable declared).2.symm
  · have undeclared : name ∉ leftSides rules' := fun member => declared (same.mem_leftSides.2 member)
    rw [followNames?_eq_none acceptable declared, followNames?_eq_none acceptable' undeclared]

end SameRules

/-- A grammar has the productions that were written, and the report of them is a definition of it. -/
theorem productions_round_trip {g : Grammar} (accepted : build rules start epsilon = .ok g) :
    (∀ i name, g.symbol? i = some (.nonTerminal name) →
      (g.productions? i).bind g.spell? = some ((rules.filter (·.left = name)).flatMap (·.rights))) ∧
    ∃ report rows g', g.productionsReport? = some report ∧
      ProductionsReport.readRows? report.json = some rows ∧
      build (rows.map ProductionsRow.toRule) start epsilon = .ok g' ∧
      g'.nonTerminals.map (·.name) = g.nonTerminals.map (·.name) ∧
      (∀ i, (g'.productions? i).bind g'.spell? = (g.productions? i).bind g.spell?) ∧
      g'.productionsReport? = some report ∧
      (∀ name ∈ rules.map (·.left), (g.firstNames? name).isSome ∧ (g.followNames? name).isSome) ∧
      (∀ name, g'.firstNames? name = g.firstNames? name ∧ g'.followNames? name = g.followNames? name) ∧
      ((rules.map (·.left)).Nodup →
        g'.symbols = g.symbols ∧ ∀ i, g'.productions? i = g.productions? i) := by
  obtain ⟨acceptable, rfl⟩ := build_eq_ok_iff.1 accepted
  have same := sameRules_merged rules
  have report := productionsReport?_ofRules rules start epsilon
  have report' := productionsReport?_ofRules ((merged rules).map ProductionsRow.toRule) start epsilon
  rw [merged_merged] at report'
  refine ⟨fun i name => spell?_productions, _, _, _, report, ProductionsReport.readRows?_json _,
    build_of_acceptable (same.acceptable acceptable), ?_, ?_, report', ?_, ?_, ?_⟩
  · rw [map_name_nonTerminals, map_name_nonTerminals, leftSides_merged]
  · intro i
    rw [productions?_bind_spell?, productions?_bind_spell?, leftSides_merged,
      funext (rightsOf_merged rules)]
  · intro name member
    have declared : name ∈ leftSides rules := List.mem_eraseDups.2 member
    exact ⟨(same.firstNames?_of_declared acceptable declared).1,
      (same.followNames?_of_declared acceptable declared).1⟩
  · exact fun name => ⟨same.firstNames?_eq acceptable name, same.followNames?_eq acceptable name⟩
  · intro distinct
    rw [merged_of_nodup distinct]
    exact ⟨rfl, fun _ => rfl⟩

/-- `S → a A`, `A → b | ε` and again `S → ε ε | | c`, where the report has all of `S` first and `c` comes
before `b`. -/
theorem productions_round_trip_scattered : ∃ g g' report,
    build [⟨"S", [["a", "A"]]⟩, ⟨"A", [["b"], ["ε"]]⟩, ⟨"S", [["ε", "ε"], [], ["c"]]⟩] "S" "ε" = .ok g ∧
    build [⟨"S", [["a", "A"], ["ε", "ε"], [], ["c"]]⟩, ⟨"A", [["b"], ["ε"]]⟩] "S" "ε" = .ok g' ∧
    g.productionsReport? = some report ∧ g'.productionsReport? = some report ∧
    g.indexOf? "c" = some 6 ∧ g'.indexOf? "c" = some 5 ∧
    (g.productions? 2).bind g.spell? = some [["a", "A"], ["ε", "ε"], [], ["c"]] ∧
    g.followNames? "A" = some ["$"] ∧ g'.followNames? "A" = some ["$"] := by
  have accepted : build [⟨"S", [["a", "A"]]⟩, ⟨"A", [["b"], ["ε"]]⟩, ⟨"S", [["ε", "ε"], [], ["c"]]⟩] "S"
      "ε" = .ok ⟨"ε", [⟨"S", [[4, 3], [0, 0], [], [6]]⟩, ⟨"A", [[5], [0]]⟩], ["a", "b", "c"], 2⟩ := rfl
  have accepted' : build [⟨"S", [["a", "A"], ["ε", "ε"], [], ["c"]]⟩, ⟨"A", [["b"], ["ε"]]⟩] "S" "ε" =
      .ok ⟨"ε", [⟨"S", [[4, 3], [0, 0], [], [5]]⟩, ⟨"A", [[6], [0]]⟩], ["a", "c", "b"], 2⟩ := rfl
  obtain ⟨spelled, report, rows, g', shown, read, rebuilt, -, -, shown', -, sets, -⟩ :=
    productions_round_trip accepted
  obtain rfl := Option.some.inj shown
  rw [ProductionsReport.readRows?_json, Option.some.injEq] at read
  subst read
  obtain rfl := Except.ok.inj (accepted'.symm.trans rebuilt)
  have follow : followNames? ⟨"ε", [⟨"S", [[4, 3], [0, 0], [], [6]]⟩, ⟨"A", [[5], [0]]⟩],
      ["a", "b", "c"], 2⟩ "A" = some ["$"] := by decide +kernel
  exact ⟨_, _, _, accepted, accepted', rfl, shown', by decide, by decide, spelled 2 "S" rfl, follow,
    (sets "A").2.trans follow⟩

end Lookahead.Grammar
