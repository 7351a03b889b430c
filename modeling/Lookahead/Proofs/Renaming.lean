import Lookahead.Proofs.Events
import Lookahead.Proofs.Grammar.Accepted
import Lookahead.Proofs.Skeleton

/-!
Definitions that are spelled in another way. As long as different texts stay different, spelling carries no
meaning: all symbols keep their indices, and the computation runs in step.
-/

namespace Lookahead

def Rule.respell (spell : String → String) (rule : Rule) : Rule :=
  ⟨spell rule.left, rule.rights.map (·.map spell)⟩

def Symbol.respell (spell : String → String) : Symbol → Symbol
  | terminal name => terminal (spell name)
  | nonTerminal name => nonTerminal (spell name)
  | epsilon => epsilon
  | endMark => endMark

namespace Grammar

def respell (spell : String → String) (g : Grammar) : Grammar where
  epsilon := spell g.epsilon
  nonTerminals := g.nonTerminals.map fun n => { n with name := spell n.name }
  terminals := g.terminals.map spell
  start := g.start

/-- The texts of a definition, and the end mark. -/
def texts (rules : List Rule) (start epsilon : String) : List String :=
  endMark :: epsilon :: start :: (rules.map (·.left) ++ tokens rules)

/-- A spelling that keeps the texts of a definition apart and visible, and that does not touch the end mark. -/
structure Respells (spell : String → String) (rules : List Rule) (start epsilon : String) : Prop where
  injective : ∀ text ∈ texts rules start epsilon, ∀ other ∈ texts rules start epsilon,
    spell text = spell other → text = other
  endMark : spell endMark = endMark
  visible : ∀ text ∈ texts rules start epsilon, Text.isBlank (spell text) = false

section FirstOccurrences

variable {α β : Type} {f : α → β} {l : List α} {a : α}

theorem mem_map_of_injOn (injective : ∀ b ∈ l, f b = f a → b = a) : f a ∈ l.map f ↔ a ∈ l := by
  constructor
  · intro member
    obtain ⟨b, inside, same⟩ := List.mem_map.1 member
    exact injective b inside same ▸ inside
  · exact List.mem_map_of_mem

variable [DecidableEq α] [DecidableEq β]

theorem idxOf_map_of_injOn (injective : ∀ b ∈ l, f b = f a → b = a) :
    (l.map f).idxOf (f a) = l.idxOf a := by
  induction l with
  | nil => rfl
  | cons b rest ih =>
    have same : (f b == f a) = (b == a) := by
      rw [Bool.eq_iff_iff, beq_iff_eq, beq_iff_eq]
      exact ⟨injective b List.mem_cons_self, congrArg f⟩
    rw [List.map_cons, List.idxOf_cons, List.idxOf_cons, same,
      ih fun c member => injective c (List.mem_cons_of_mem _ member)]

theorem eraseDups_map_of_injOn (injective : ∀ a ∈ l, ∀ b ∈ l, f a = f b → a = b) :
    (l.map f).eraseDups = l.eraseDups.map f := by
  induction l using List.reverseRecOn with
  | nil => rfl
  | append_singleton l a ih =>
    have inside {b : α} (member : b ∈ l) : b ∈ l ++ [a] := List.mem_append_left _ member
    have last : f a ∈ l.map f ↔ a ∈ l := mem_map_of_injOn fun b member =>
      injective b (inside member) a (List.mem_append_right _ (List.mem_singleton_self a))
    have before := ih fun b member c member' => injective b (inside member) c (inside member')
    rw [List.map_append, List.map_singleton, eraseDups_concat, eraseDups_concat, before]
    simp only [last]
    split
    · rfl
    · rw [List.map_append, List.map_singleton]

end FirstOccurrences

section Texts

variable {rules : List Rule} {start epsilon text : String}

theorem endMark_mem_texts : endMark ∈ texts rules start epsilon := List.mem_cons_self

theorem epsilon_mem_texts : epsilon ∈ texts rules start epsilon := by simp [texts]

theorem start_mem_texts : start ∈ texts rules start epsilon := by simp [texts]

theorem mem_texts_of_mem_leftSides (declared : text ∈ leftSides rules) :
    text ∈ texts rules start epsilon := by
  simp [texts, List.mem_eraseDups.1 declared]

theorem left_mem_texts {rule : Rule} (listed : rule ∈ rules) : rule.left ∈ texts rules start epsilon :=
  mem_texts_of_mem_leftSides (mem_leftSides.2 ⟨rule, listed, rfl⟩)

theorem mem_texts_of_mem_tokens (member : text ∈ tokens rules) : text ∈ texts rules start epsilon := by
  simp [texts, member]

theorem mem_texts_of_mem_terminalTokens (terminal : text ∈ terminalTokens rules epsilon) :
    text ∈ texts rules start epsilon :=
  mem_texts_of_mem_tokens (mem_terminalTokens.1 terminal).1

theorem mem_texts_of_mem_rightsOf {name : String} {right : List String}
    (listed : right ∈ rightsOf rules name) (present : text ∈ right) :
    text ∈ texts rules start epsilon := by
  obtain ⟨rule, given, -, among⟩ := mem_rightsOf.1 listed
  exact mem_texts_of_mem_tokens (mem_tokens.2 ⟨rule, given, right, among, present⟩)

end Texts

section Layout

variable {spell : String → String} {rules : List Rule} {start epsilon : String}

theorem tokens_respell (spell : String → String) (rules : List Rule) :
    tokens (rules.map (Rule.respell spell)) = (tokens rules).map spell := by
  rw [tokens, tokens, List.flatMap_map, List.map_flatMap]
  simp only [Rule.respell, List.map_flatten]

namespace Respells

variable (respells : Respells spell rules start epsilon)
include respells

theorem eq_iff {text other : String} (member : text ∈ texts rules start epsilon)
    (member' : other ∈ texts rules start epsilon) : spell text = spell other ↔ text = other :=
  ⟨respells.injective text member other member', congrArg spell⟩

theorem ne_endMark {text : String} (member : text ∈ texts rules start epsilon)
    (free : text ≠ Lookahead.endMark) : spell text ≠ Lookahead.endMark := by
  rw [← respells.endMark]
  exact fun same => free (respells.injective text member _ endMark_mem_texts same)

theorem mem_map_iff {l : List String} (within : ∀ text ∈ l, text ∈ texts rules start epsilon)
    {text : String} (member : text ∈ texts rules start epsilon) : spell text ∈ l.map spell ↔ text ∈ l :=
  mem_map_of_injOn fun other inside => respells.injective other (within other inside) text member

theorem idxOf_map {l : List String} (within : ∀ text ∈ l, text ∈ texts rules start epsilon)
    {text : String} (member : text ∈ texts rules start epsilon) :
    (l.map spell).idxOf (spell text) = l.idxOf text :=
  idxOf_map_of_injOn fun other inside => respells.injective other (within other inside) text member

theorem eraseDups_map {l : List String} (within : ∀ text ∈ l, text ∈ texts rules start epsilon) :
    (l.map spell).eraseDups = l.eraseDups.map spell :=
  eraseDups_map_of_injOn fun a member b member' =>
    respells.injective a (within a member) b (within b member')

theorem leftSides : leftSides (rules.map (Rule.respell spell)) = (leftSides rules).map spell := by
  have within (text : String) (listed : text ∈ rules.map (·.left)) : text ∈ texts rules start epsilon :=
    mem_texts_of_mem_leftSides (List.mem_eraseDups.2 listed)
  rw [Grammar.leftSides, Grammar.leftSides, ← respells.eraseDups_map within, List.map_map, List.map_map]
  rfl

theorem rightsOf {name : String} (member : name ∈ texts rules start epsilon) :
    rightsOf (rules.map (Rule.respell spell)) (spell name) =
      (rightsOf rules name).map (·.map spell) := by
  have same (rule : Rule) (listed : rule ∈ rules) :
      ((fun rule => decide (rule.left = spell name)) ∘ Rule.respell spell) rule =
        decide (rule.left = name) :=
    decide_eq_decide.2 (respells.eq_iff (left_mem_texts listed) member)
  rw [Grammar.rightsOf, Grammar.rightsOf, List.filter_map, List.filter_congr same, List.flatMap_map,
    List.map_flatMap]
  rfl

theorem terminalTokens : terminalTokens (rules.map (Rule.respell spell)) (spell epsilon) =
    (terminalTokens rules epsilon).map spell := by
  have same (token : String) (member : token ∈ tokens rules) :
      (isTerminalToken (spell epsilon) ((Grammar.leftSides rules).map spell) ∘ spell) token =
        isTerminalToken epsilon (Grammar.leftSides rules) token := by
    have inside : token ∈ texts rules start epsilon := mem_texts_of_mem_tokens member
    have hidden := respells.eq_iff inside epsilon_mem_texts
    have declared := respells.mem_map_iff (fun _ => mem_texts_of_mem_leftSides) inside
    simp only [isTerminalToken, Function.comp_apply, ne_eq, hidden, declared]
  rw [Grammar.terminalTokens, Grammar.terminalTokens, respells.leftSides, tokens_respell, List.filter_map,
    List.filter_congr same, respells.eraseDups_map]
  exact fun token member => mem_texts_of_mem_tokens (List.mem_of_mem_filter member)

theorem ruleIndex {token : String} (member : token ∈ texts rules start epsilon) :
    ruleIndex (rules.map (Rule.respell spell)) (spell epsilon) (spell token) =
      ruleIndex rules epsilon token := by
  have hidden := respells.eq_iff member epsilon_mem_texts
  have declared := respells.mem_map_iff (fun _ => mem_texts_of_mem_leftSides) member
  have left := respells.idxOf_map (fun _ => mem_texts_of_mem_leftSides) member
  have terminal := respells.idxOf_map (fun _ => mem_texts_of_mem_terminalTokens) member
  simp only [Grammar.ruleIndex, tokenIndex, respells.leftSides, respells.terminalTokens, hidden, declared,
    left, terminal, List.length_map]

theorem productions {name : String} (declared : name ∈ Grammar.leftSides rules) :
    (Grammar.rightsOf (rules.map (Rule.respell spell)) (spell name)).map
        (·.map (Grammar.ruleIndex (rules.map (Rule.respell spell)) (spell epsilon))) =
      (Grammar.rightsOf rules name).map (·.map (Grammar.ruleIndex rules epsilon)) := by
  rw [respells.rightsOf (mem_texts_of_mem_leftSides declared), List.map_map]
  refine List.map_congr_left fun right listed => ?_
  rw [Function.comp_apply, List.map_map]
  exact List.map_congr_left fun token present =>
    respells.ruleIndex (mem_texts_of_mem_rightsOf listed present)

theorem ofRules : ofRules (rules.map (Rule.respell spell)) (spell start) (spell epsilon) =
    (ofRules rules start epsilon).respell spell := by
  have begins := respells.idxOf_map (fun _ => mem_texts_of_mem_leftSides) start_mem_texts
  rw [Grammar.ofRules, Grammar.ofRules, respell, respells.leftSides, respells.terminalTokens, begins]
  simp only [List.map_map, Grammar.mk.injEq, true_and, and_true]
  refine List.map_congr_left fun name declared => ?_
  rw [Function.comp_apply, Function.comp_apply, respells.productions declared]

theorem acceptable (acceptable : Acceptable rules start epsilon) :
    Acceptable (rules.map (Rule.respell spell)) (spell start) (spell epsilon) where
  epsilon_visible := respells.visible epsilon epsilon_mem_texts
  epsilon_free := respells.ne_endMark epsilon_mem_texts acceptable.epsilon_free
  left_free := List.forall_mem_map.2 fun rule listed => by
    obtain ⟨shown, free⟩ := acceptable.left_free rule listed
    have member : rule.left ∈ texts rules start epsilon := left_mem_texts listed
    exact ⟨fun same => shown ((respells.eq_iff member epsilon_mem_texts).1 same),
      respells.ne_endMark member free⟩
  left_visible := List.forall_mem_map.2 fun rule listed =>
    respells.visible rule.left (left_mem_texts listed)
  token_free := by
    rw [tokens_respell]
    exact List.forall_mem_map.2 fun token member =>
      respells.ne_endMark (mem_texts_of_mem_tokens member) (acceptable.token_free token member)
  token_visible := by
    rw [tokens_respell]
    exact List.forall_mem_map.2 fun token member => respells.visible token (mem_texts_of_mem_tokens member)
  start_declared := by
    obtain ⟨rule, listed, same⟩ := List.mem_map.1 acceptable.start_declared
    rw [List.map_map]
    exact List.mem_map.2 ⟨rule, listed, congrArg spell same⟩
  productive := List.forall_mem_map.2 fun rule listed => by
    rw [Rule.respell, respells.rightsOf (left_mem_texts listed), ne_eq, List.map_eq_nil_iff]
    exact acceptable.productive rule listed

end Respells

end Layout

section Respelled

variable {spell : String → String} {g : Grammar}

theorem skeleton_respell (spell : String → String) (g : Grammar) :
    (g.respell spell).skeleton = g.skeleton := by
  simp only [skeleton, respell, List.map_map, List.length_map, Function.comp_def]

theorem symbols_respell (spell : String → String) (g : Grammar) :
    (g.respell spell).symbols = g.symbols.map (Symbol.respell spell) := by
  simp only [symbols, respell, List.map_cons, List.map_append, List.map_map]
  rfl

theorem productions?_respell (spell : String → String) (g : Grammar) (i : Nat) :
    (g.respell spell).productions? i = g.productions? i := by
  rw [productions?, productions?, nonTerminal?, nonTerminal?, respell]
  split
  · rfl
  · rw [List.getElem?_map, Option.map_map]
    rfl

theorem name?_respell (endMark : spell endMark = endMark) (i : Nat) :
    (g.respell spell).name? i = (g.name? i).map spell := by
  have each (symbol : Symbol) :
      (symbol.respell spell).name (spell g.epsilon) = spell (symbol.name g.epsilon) := by
    cases symbol with
    | endMark => exact endMark.symm
    | _ => rfl
  rw [name?, name?, symbol?_eq_getElem?, symbol?_eq_getElem?, symbols_respell, List.getElem?_map,
    Option.map_map, Option.map_map]
  exact Option.map_congr fun symbol _ => each symbol

theorem line_respell (endMark : spell endMark = endMark) {event : Event}
    (named : ∀ i ∈ event.symbols, (g.name? i).isSome) :
    event.line (g.respell spell) = event.lineBy fun i => spell (g.nameOf i) := by
  refine Event.lineBy_congr fun i member => ?_
  obtain ⟨name, found⟩ := Option.isSome_iff_exists.1 (named i member)
  rw [nameOf, nameOf, name?_respell endMark, found]
  rfl

end Respelled

/-- What a respelled definition gives is what the definition gives, with other names for its symbols. -/
theorem run_eq_of_respells {spell : String → String} {rules : List Rule} {start epsilon : String}
    {g : Grammar} (accepted : build rules start epsilon = .ok g)
    (respells : Respells spell rules start epsilon) :
    ∃ g', build (rules.map (Rule.respell spell)) (spell start) (spell epsilon) = .ok g' ∧
      g'.size = g.size ∧ g'.symbols = g.symbols.map (Symbol.respell spell) ∧
      (∀ i, g'.name? i = (g.name? i).map spell) ∧ g'.start = g.start ∧
      (∀ i, g'.productions? i = g.productions? i) ∧ g'.firstSets = g.firstSets ∧
      g'.followSets g'.firstSets = g.followSets g.firstSets ∧
      g'.log.map (·.line g') = g.log.map (·.lineBy fun i => spell (g.nameOf i)) := by
  obtain ⟨acceptable, rfl⟩ := build_eq_ok_iff.1 accepted
  have same := skeleton_respell spell (ofRules rules start epsilon)
  refine ⟨(ofRules rules start epsilon).respell spell, ?_, size_of_skeleton same,
    symbols_respell spell _, name?_respell respells.endMark, rfl, productions?_respell spell _,
    firstSets_of_skeleton same, followSets_of_skeleton same, ?_⟩
  · rw [build_of_acceptable (respells.acceptable acceptable), respells.ofRules]
  · have named := namesAll_log (wellFormed_ofRules acceptable).start
    rw [log_of_skeleton same]
    exact List.map_congr_left fun event logged => line_respell respells.endMark (named event logged)

/-- `S → A S a | b` and `A → ε`, where `ε` and `a` change places, and `S` and `b`. -/
theorem run_eq_of_respells_other_epsilon : ∃ g g',
    build [⟨"S", [["A", "S", "a"], ["b"]]⟩, ⟨"A", [["ε"]]⟩] "S" "ε" = .ok g ∧
    build [⟨"b", [["A", "b", "ε"], ["S"]]⟩, ⟨"A", [["a"]]⟩] "b" "a" = .ok g' ∧
    g'.indexOf? "ε" = g.indexOf? "a" ∧ g'.firstSets = g.firstSets ∧
    g'.followSets g'.firstSets = g.followSets g.firstSets ∧
    .reentered 2 ∈ g.log ∧
    g'.log.map (·.line g') = g.log.map (·.lineBy fun i =>
      if g.nameOf i = "ε" then "a" else if g.nameOf i = "a" then "ε"
      else if g.nameOf i = "S" then "b" else if g.nameOf i = "b" then "S" else g.nameOf i) := by
  have accepted : build [⟨"S", [["A", "S", "a"], ["b"]]⟩, ⟨"A", [["ε"]]⟩] "S" "ε" =
      .ok ⟨"ε", [⟨"S", [[3, 2, 4], [5]]⟩, ⟨"A", [[0]]⟩], ["a", "b"], 2⟩ := rfl
  have accepted' : build [⟨"b", [["A", "b", "ε"], ["S"]]⟩, ⟨"A", [["a"]]⟩] "b" "a" =
      .ok ⟨"a", [⟨"b", [[3, 2, 4], [5]]⟩, ⟨"A", [[0]]⟩], ["ε", "S"], 2⟩ := rfl
  have respells : Respells (fun text => if text = "ε" then "a" else if text = "a" then "ε"
      else if text = "S" then "b" else if text = "b" then "S" else text)
      [⟨"S", [["A", "S", "a"], ["b"]]⟩, ⟨"A", [["ε"]]⟩] "S" "ε" :=
    ⟨by decide +kernel, by decide +kernel, by decide +kernel⟩
  obtain ⟨g', found, -, -, -, -, -, first, follow, log⟩ := run_eq_of_respells accepted respells
  obtain rfl := Except.ok.inj (accepted'.symm.trans found)
  exact ⟨_, _, accepted, accepted', by decide +kernel, first, follow, by decide +kernel, log⟩

end Grammar

end Lookahead
