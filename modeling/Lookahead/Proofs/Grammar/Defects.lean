import Lookahead.Proofs.Grammar.Layout

/-!
Why a definition is turned down. The defects of a definition have an order, which does not depend on how
building goes through the rules, and the first of them is the one that is reported.
-/

namespace Lookahead.Grammar

section Defects

/-- Why a left side names no nonterminal. -/
def leftDefect? (epsilon : String) (rule : Rule) : Option Rejection :=
  if rule.left = epsilon ∨ rule.left = endMark then some (.reservedName rule.left)
  else if Text.isBlank rule.left then some (.invalidName rule.left)
  else none

/-- Why a token in a production of the left side is no symbol. -/
def tokenDefect? (left token : String) : Option Rejection :=
  if token = endMark ∨ Text.isBlank token then some (.unclassifiable left token) else none

def rightsDefect? (rule : Rule) : Option Rejection :=
  rule.rights.findSome? fun right => right.findSome? (tokenDefect? rule.left)

/-- Why a nonterminal is of no use: none of its rules has a production. -/
def productionsDefect? (rules : List Rule) (start name : String) : Option Rejection :=
  if ∀ rule ∈ rules, rule.left = name → rule.rights = [] then
    some (if name = start then .missingStart name else .emptyProductions name)
  else none

/-- All defects of a definition in the order of their importance, and among their like in the order of the
rules, so that the first one counts. -/
def firstDefect? (rules : List Rule) (start epsilon : String) : Option Rejection :=
  (if rules = [] then some .noRules else none).or <|
  (if Text.isBlank epsilon then some (.invalidName epsilon) else none).or <|
  (if epsilon = endMark then some (.reservedName epsilon) else none).or <|
  (rules.findSome? (leftDefect? epsilon)).or <|
  (rules.findSome? rightsDefect?).or <|
  (if start ∈ rules.map (·.left) then none else some (.missingStart start)).or <|
  (leftSides rules).findSome? (productionsDefect? rules start)

end Defects

section Faults

variable {α β σ ε : Type}

def fault? : Except ε α → Option ε
  | .ok _ => none
  | .error fault => some fault

theorem fault?_bind {result : Except ε α} {next : α → Except ε β} {later : Option ε}
    (each : ∀ a, result = .ok a → fault? (next a) = later) :
    fault? (result >>= next) = (fault? result).or later := by
  cases result with
  | ok a => exact each a rfl
  | error => rfl

/-- A thread fails with the first of its elements that fails, if no state matters for that. -/
theorem fault?_thread {step : σ → α → Except ε (β × σ)} {defect? : α → Option ε}
    (each : ∀ state a, fault? (step state a) = defect? a) (state : σ) (l : List α) :
    fault? (thread step state l) = l.findSome? defect? := by
  induction l generalizing state with
  | nil => rfl
  | cons a rest ih =>
    have first := each state a
    rw [thread, List.findSome?_cons, ← first]
    cases step state a with
    | error fault => rfl
    | ok result =>
      obtain ⟨b, next⟩ := result
      have later := ih next
      simp only [fault?, ← later]
      cases thread step next rest <;> rfl

end Faults

section Scans

variable {v : Vocabulary} {rules : List Rule} {start epsilon : String}

theorem fault?_declare (v : Vocabulary) (declared : List String) (rules : List Rule) :
    fault? (declare v declared rules) = rules.findSome? (leftDefect? v.epsilon) := by
  induction rules generalizing declared with
  | nil => rfl
  | cons rule rest ih =>
    rw [declare, List.findSome?_cons, leftDefect?]
    by_cases reserved : rule.left = v.epsilon ∨ rule.left = endMark
    · simp [Vocabulary.isReserved, reserved, fault?]
    by_cases blank : Text.isBlank rule.left
    · simp [Vocabulary.isReserved, reserved, blank, fault?]
    · simp [Vocabulary.isReserved, reserved, blank, ih]

/-- After the checks of the marker and of the left sides a token is at fault by itself, whatever else is
known by then. -/
theorem fault?_numberToken (visible : Text.isBlank v.epsilon = false) (free : v.epsilon ≠ endMark)
    (shown : ∀ name ∈ v.nonTerminals, Text.isBlank name = false) (declared : List String) (left : String)
    (terminals : List String) (token : String) :
    fault? (numberToken v declared left terminals token) = tokenDefect? left token := by
  rw [numberToken, Vocabulary.classifyIn, Vocabulary.classify, tokenDefect?]
  by_cases hidden : token = v.epsilon
  · simp [hidden, visible, free, fault?]
  by_cases last : token = endMark
  · simp [last, fault?, free.symm]
  by_cases nonTerminal : token ∈ v.nonTerminals
  · simp [hidden, last, nonTerminal, shown token nonTerminal, fault?]
  by_cases blank : Text.isBlank token
  · simp [hidden, last, nonTerminal, blank, fault?]
  · simp only [hidden, last, nonTerminal, blank, if_false, Bool.false_eq_true, or_self]
    cases terminals.idxOf? token <;> rfl

theorem fault?_numberRule (visible : Text.isBlank v.epsilon = false) (free : v.epsilon ≠ endMark)
    (shown : ∀ name ∈ v.nonTerminals, Text.isBlank name = false) (declared terminals : List String)
    (rule : Rule) : fault? (numberRule v declared terminals rule) = rightsDefect? rule := by
  have tokens := fault?_numberToken visible free shown declared rule.left
  have rights := fault?_thread (fault?_thread tokens) terminals rule.rights
  rw [rightsDefect?, ← rights, numberRule]
  cases thread (thread (numberToken v declared rule.left)) terminals rule.rights <;> rfl

theorem fault?_checkProductions (start : String) (nonTerminals : List NonTerminal) :
    fault? (checkProductions start nonTerminals) = nonTerminals.findSome? fun n =>
      if n.productions = [] then some (if n.name = start then .missingStart n.name else .emptyProductions n.name)
      else none := by
  rw [checkProductions]
  induction nonTerminals with
  | nil => rfl
  | cons n rest ih =>
    by_cases bare : n.productions = []
    · simp [bare, fault?]
    · simpa [bare] using ih

theorem findSome?_productionsDefect? (rules : List Rule) (start epsilon : String) :
    fault? (checkProductions start (ofRules rules start epsilon).nonTerminals) =
      (leftSides rules).findSome? (productionsDefect? rules start) := by
  rw [fault?_checkProductions, ofRules, List.findSome?_map]
  congr 1
  funext name
  simp [productionsDefect?, rightsOf]

/-- What the second scan gives where it ends: the productions of the closed form. -/
theorem nonTerminals_of_thread (start : String) {numbered : List (String × List (List Nat))}
    {terminals : List String} (visible : Text.isBlank epsilon = false) (free : epsilon ≠ endMark)
    (left_visible : ∀ rule ∈ rules, Text.isBlank rule.left = false)
    (threaded : thread (numberRule ⟨epsilon, rules.map (·.left)⟩ (leftSides rules)) [] rules =
      .ok (numbered, terminals)) :
    (leftSides rules).map (collect numbered) = (ofRules rules start epsilon).nonTerminals := by
  have tokens_visible (token : String) (listed : token ∈ tokens rules) :=
    visible_of_thread visible free left_visible threaded listed
  have again := thread_numberRule epsilon (fun token listed => (tokens_visible token listed).1)
    (fun token listed => (tokens_visible token listed).2)
  obtain ⟨rfl, -⟩ := Prod.mk.inj (Except.ok.inj (again.symm.trans threaded))
  exact nonTerminals_eq rules start epsilon

theorem fault?_build (rules : List Rule) (start epsilon : String) :
    fault? (build rules start epsilon) = firstDefect? rules start epsilon := by
  rw [firstDefect?, build]
  by_cases empty : rules = []
  · rw [if_pos empty, if_pos (by simp [empty])]
    rfl
  rw [if_neg empty, if_neg (by simp [empty]), Option.none_or]
  by_cases blank : Text.isBlank epsilon
  · rw [if_pos blank, if_pos blank]
    rfl
  rw [if_neg blank, if_neg blank, Option.none_or]
  by_cases last : epsilon = endMark
  · rw [if_pos last, if_pos last]
    rfl
  rw [if_neg last, if_neg last, Option.none_or]
  have visible : Text.isBlank epsilon = false := by simpa using blank
  -- the two scans
  rw [← fault?_declare ⟨epsilon, rules.map (·.left)⟩ [] rules]
  refine fault?_bind fun declared declares => ?_
  have lefts := free_of_declare declares
  have left_visible (rule : Rule) (listed : rule ∈ rules) := (lefts rule listed).2
  obtain rfl := eq_leftSides_of_declare declares
  have scan := fault?_thread (fault?_numberRule (v := ⟨epsilon, rules.map (·.left)⟩) visible last
    (List.forall_mem_map.2 left_visible) (leftSides rules)) [] rules
  rw [← scan]
  refine fault?_bind fun result threaded => ?_
  obtain ⟨numbered, terminals⟩ := result
  have collected := nonTerminals_of_thread start visible last left_visible threaded
  -- what is left is about the start symbol and the productions
  have declared : start ∈ leftSides rules ↔ start ∈ rules.map (·.left) := List.mem_eraseDups
  change fault? (if start ∈ leftSides rules then
    checkProductions start ((leftSides rules).map (collect numbered)) >>= fun _ => pure _ else _) = _
  by_cases known : start ∈ leftSides rules
  · rw [if_pos known, if_pos (declared.1 known), Option.none_or, collected,
      ← findSome?_productionsDefect? rules start epsilon]
    exact (fault?_bind fun _ _ => rfl).trans Option.or_none
  · rw [if_neg known, if_neg (fun given => known (declared.2 given))]
    rfl

end Scans

/-- Building reports the first defect, and gives the grammar where there is none. -/
theorem build_eq_firstDefect (rules : List Rule) (start epsilon : String) :
    build rules start epsilon =
      match firstDefect? rules start epsilon with
      | some rejection => .error rejection
      | none => .ok (ofRules rules start epsilon) := by
  rw [← fault?_build]
  cases result : build rules start epsilon with
  | error rejection => rfl
  | ok g => exact congrArg Except.ok (build_eq_ok_iff.1 result).2

end Lookahead.Grammar
