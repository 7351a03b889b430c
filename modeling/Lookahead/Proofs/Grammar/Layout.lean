import Lookahead.Grammar.Build
import Lookahead.Proofs.Grammar.Symbols
import Mathlib.Data.List.Infix
import Mathlib.Data.List.Nodup

/-!
Building in closed form: which definitions are accepted, and what their grammars are, without the
state of the scans. Names appear in the order of their first occurrences, so the closed form is also
the place where the order of rules and tokens comes in.
-/

namespace Lookahead.Grammar

/-- Left sides in the order of their first rules. -/
def leftSides (rules : List Rule) : List String := (rules.map (·.left)).eraseDups

/-- The tokens of all productions in the order of the scan. -/
def tokens (rules : List Rule) : List String := rules.flatMap fun rule => rule.rights.flatten

/-- The right sides of a name over all of its rules. -/
def rightsOf (rules : List Rule) (name : String) : List (List String) :=
  (rules.filter (·.left = name)).flatMap (·.rights)

def isTerminalToken (epsilon : String) (nonTerminals : List String) (token : String) : Bool :=
  token ≠ epsilon ∧ token ∉ nonTerminals

/-- Terminals in the order of their first occurrences. -/
def terminalTokens (rules : List Rule) (epsilon : String) : List String :=
  ((tokens rules).filter (isTerminalToken epsilon (leftSides rules))).eraseDups

def tokenIndex (epsilon : String) (nonTerminals terminals : List String) (token : String) : Nat :=
  if token = epsilon then epsilonIndex
  else if token ∈ nonTerminals then markerCount + nonTerminals.idxOf token
  else markerCount + nonTerminals.length + terminals.idxOf token

def ruleIndex (rules : List Rule) (epsilon : String) : String → Nat :=
  tokenIndex epsilon (leftSides rules) (terminalTokens rules epsilon)

def ofRules (rules : List Rule) (start epsilon : String) : Grammar where
  epsilon := epsilon
  nonTerminals := (leftSides rules).map fun name =>
    ⟨name, (rightsOf rules name).map (·.map (ruleIndex rules epsilon))⟩
  terminals := terminalTokens rules epsilon
  start := markerCount + (leftSides rules).idxOf start

/-- What a definition needs to be accepted. -/
structure Acceptable (rules : List Rule) (start epsilon : String) : Prop where
  epsilon_visible : Text.isBlank epsilon = false
  epsilon_free : epsilon ≠ endMark
  left_free : ∀ rule ∈ rules, rule.left ≠ epsilon ∧ rule.left ≠ endMark
  left_visible : ∀ rule ∈ rules, Text.isBlank rule.left = false
  token_free : ∀ token ∈ tokens rules, token ≠ endMark
  token_visible : ∀ token ∈ tokens rules, Text.isBlank token = false
  start_declared : start ∈ rules.map (·.left)
  productive : ∀ rule ∈ rules, rightsOf rules rule.left ≠ []

section FirstOccurrences

variable {α : Type} [DecidableEq α]

theorem eraseDups_concat (l : List α) (a : α) :
    (l ++ [a]).eraseDups = if a ∈ l then l.eraseDups else l.eraseDups ++ [a] := by
  rw [List.eraseDups_append, List.removeAll]
  split
  · rename_i member
    simp [member]
  · rename_i fresh
    simp [fresh, List.eraseDups_cons]

theorem eraseDups_prefix (l m : List α) : l.eraseDups <+: (l ++ m).eraseDups := by
  rw [List.eraseDups_append]
  exact List.prefix_append _ _

theorem nodup_eraseDups (l : List α) : l.eraseDups.Nodup := by
  induction l using List.reverseRecOn with
  | nil => simp
  | append_singleton l a ih =>
    rw [eraseDups_concat]
    split
    · exact ih
    · rename_i fresh
      rw [← List.concat_eq_append]
      exact ih.concat (fun member => fresh (List.mem_eraseDups.1 member))

theorem eraseDups_eq_self {l : List α} (distinct : l.Nodup) : l.eraseDups = l := by
  induction l using List.reverseRecOn with
  | nil => rfl
  | append_singleton l a ih =>
    obtain ⟨before, -, apart⟩ := List.nodup_append.1 distinct
    have fresh : a ∉ l := fun member => apart a member a (List.mem_singleton_self a) rfl
    rw [eraseDups_concat, if_neg fresh, ih before]

end FirstOccurrences

section Scans

variable {rules : List Rule} {epsilon : String}

/-- The terminals known after one more token. -/
def meet (epsilon : String) (nonTerminals known : List String) (token : String) : List String :=
  if isTerminalToken epsilon nonTerminals token ∧ token ∉ known then known ++ [token] else known

theorem prefix_meet (epsilon : String) (nonTerminals known : List String) (token : String) :
    known <+: meet epsilon nonTerminals known token := by
  unfold meet
  split
  · exact List.prefix_append _ _
  · exact List.prefix_refl _

theorem foldl_meet (epsilon : String) (nonTerminals seen tokens : List String) :
    tokens.foldl (meet epsilon nonTerminals)
        (seen.filter (isTerminalToken epsilon nonTerminals)).eraseDups =
      ((seen ++ tokens).filter (isTerminalToken epsilon nonTerminals)).eraseDups := by
  induction tokens generalizing seen with
  | nil => simp
  | cons token rest ih =>
    have step : meet epsilon nonTerminals
        (seen.filter (isTerminalToken epsilon nonTerminals)).eraseDups token =
        ((seen ++ [token]).filter (isTerminalToken epsilon nonTerminals)).eraseDups := by
      unfold meet
      by_cases terminal : isTerminalToken epsilon nonTerminals token
      · rw [List.filter_append, List.filter_singleton, terminal, cond_true, eraseDups_concat]
        by_cases old : token ∈ seen <;> simp [terminal, old, List.mem_eraseDups]
      · simp [terminal]
    rw [List.foldl_cons, step, ih, List.append_assoc, List.singleton_append]

theorem terminalTokens_eq_foldl (rules : List Rule) (epsilon : String) :
    terminalTokens rules epsilon = (tokens rules).foldl (meet epsilon (leftSides rules)) [] := by
  rw [terminalTokens]
  exact (foldl_meet epsilon (leftSides rules) [] (tokens rules)).symm

theorem prefix_foldl {α : Type} {next : List String → α → List String}
    (grows : ∀ known a, known <+: next known a) (l : List α) (known : List String) :
    known <+: l.foldl next known := by
  induction l generalizing known with
  | nil => exact List.prefix_refl _
  | cons a rest ih => exact (grows known a).trans (ih _)

/-- A thread whose state only grows: while the state stays within a last one, each step gives the
value that its element has in the last one. -/
theorem thread_of_steps {α β ε : Type} (step : List String → α → Except ε (β × List String))
    {next : List String → α → List String} (value : α → β) {last : List String} {l : List α}
    (grows : ∀ known a, known <+: next known a)
    (each : ∀ a ∈ l, ∀ known, next known a <+: last → step known a = .ok (value a, next known a))
    {known : List String} (within : l.foldl next known <+: last) :
    thread step known l = .ok (l.map value, l.foldl next known) := by
  induction l generalizing known with
  | nil => rfl
  | cons a rest ih =>
    have first := each a List.mem_cons_self known ((prefix_foldl grows rest _).trans within)
    have later := ih (fun b member => each b (List.mem_cons_of_mem _ member)) within
    rw [thread, first]
    simp only [later, List.map_cons, List.foldl_cons]

theorem thread_of_failure {α β σ ε : Type} {step : σ → α → Except ε (β × σ)} {l : List α} {a : α}
    (member : a ∈ l) (fails : ∀ state, ∃ fault, step state a = .error fault) (state : σ) :
    ∃ fault, thread step state l = .error fault := by
  induction l generalizing state with
  | nil => simp at member
  | cons b rest ih =>
    rw [thread]
    split
    · exact ⟨_, rfl⟩
    · rename_i result next stepped
      rcases List.mem_cons.1 member with rfl | inside
      · obtain ⟨fault, failed⟩ := fails state
        rw [failed] at stepped
        contradiction
      · obtain ⟨fault, failed⟩ := ih inside next
        simp only [failed]
        exact ⟨fault, rfl⟩

end Scans

theorem mem_leftSides {rules : List Rule} {name : String} :
    name ∈ leftSides rules ↔ ∃ rule ∈ rules, rule.left = name := by
  rw [leftSides, List.mem_eraseDups, List.mem_map]

theorem nodup_leftSides (rules : List Rule) : (leftSides rules).Nodup := nodup_eraseDups _

theorem mem_tokens {rules : List Rule} {token : String} :
    token ∈ tokens rules ↔ ∃ rule ∈ rules, ∃ right ∈ rule.rights, token ∈ right := by
  simp only [tokens, List.mem_flatMap, List.mem_flatten]

theorem mem_rightsOf {rules : List Rule} {name : String} {right : List String} :
    right ∈ rightsOf rules name ↔ ∃ rule ∈ rules, rule.left = name ∧ right ∈ rule.rights := by
  simp [rightsOf, and_assoc]

theorem mem_leftSides_of_mem_rightsOf {rules : List Rule} {name : String} {right : List String}
    (listed : right ∈ rightsOf rules name) : name ∈ leftSides rules := by
  obtain ⟨rule, present, same, -⟩ := mem_rightsOf.1 listed
  exact mem_leftSides.2 ⟨rule, present, same⟩

section Numbering

variable {rules : List Rule} {start epsilon : String}

theorem classify_eq {v : Vocabulary} {declared : List String}
    (complete : ∀ name, name ∈ declared ↔ name ∈ v.nonTerminals) {token : String}
    (free : token ≠ endMark) (visible : Text.isBlank token = false) :
    v.classify token = some (if token = v.epsilon then .epsilon
      else if token ∈ declared then .nonTerminal token else .terminal token) := by
  simp only [Vocabulary.classify, free, visible, complete]
  grind

theorem numberToken_of_visible {v : Vocabulary} {declared last : List String}
    (complete : ∀ name, name ∈ declared ↔ name ∈ v.nonTerminals) {token : String}
    (free : token ≠ endMark) (visible : Text.isBlank token = false) (left : String)
    (known : List String) (within : meet v.epsilon declared known token <+: last) :
    numberToken v declared left known token =
      .ok (tokenIndex v.epsilon declared last token, meet v.epsilon declared known token) := by
  have classified := classify_eq complete free visible
  unfold numberToken Vocabulary.classifyIn
  rw [classified]
  by_cases hidden : token = v.epsilon
  · simp [hidden, tokenIndex, meet, isTerminalToken]
  by_cases member : token ∈ declared
  · simp [hidden, member, tokenIndex, meet, isTerminalToken]
  -- a terminal keeps the place of its first occurrence
  have terminal : isTerminalToken v.epsilon declared token := by
    simp [isTerminalToken, hidden, member]
  simp only [hidden, member, if_false, tokenIndex]
  unfold meet at within ⊢
  by_cases old : token ∈ known
  · rw [if_neg (by simp [old])] at within ⊢
    obtain ⟨rest, rfl⟩ := within
    rw [List.idxOf_append_of_mem old]
    cases found : known.idxOf? token with
    | none => exact absurd old (List.idxOf?_eq_none_iff.1 found)
    | some i => simp [List.idxOf_eq_getD_idxOf?, found]
  · rw [if_pos ⟨terminal, old⟩] at within ⊢
    obtain ⟨rest, rfl⟩ := within
    rw [List.idxOf_append_of_mem (by simp), List.idxOf_append_of_notMem old,
      List.idxOf?_eq_none_iff.2 old]
    simp

theorem numberRule_of_visible {v : Vocabulary} {declared last : List String}
    (complete : ∀ name, name ∈ declared ↔ name ∈ v.nonTerminals) {rule : Rule}
    (free : ∀ right ∈ rule.rights, ∀ token ∈ right, token ≠ endMark)
    (visible : ∀ right ∈ rule.rights, ∀ token ∈ right, Text.isBlank token = false)
    (known : List String)
    (within : rule.rights.flatten.foldl (meet v.epsilon declared) known <+: last) :
    numberRule v declared known rule =
      .ok ((rule.left, rule.rights.map (·.map (tokenIndex v.epsilon declared last))),
        rule.rights.flatten.foldl (meet v.epsilon declared) known) := by
  have grows := prefix_meet v.epsilon declared
  rw [List.foldl_flatten] at within ⊢
  have threaded := thread_of_steps (thread (numberToken v declared rule.left))
    (·.map (tokenIndex v.epsilon declared last)) (fun known right => prefix_foldl grows right known) ?_
    within
  · rw [numberRule, threaded]
  · intro right listed known within
    refine thread_of_steps _ _ grows ?_ within
    intro token inside known within
    exact numberToken_of_visible complete (free right listed token inside)
      (visible right listed token inside) rule.left known within

theorem numberRule_of_invisible {v : Vocabulary} {declared : List String} {rule : Rule}
    {right : List String} {token : String} (listed : right ∈ rule.rights) (inside : token ∈ right)
    (fails : v.classify token = none ∨ v.classify token = some .endMark) (known : List String) :
    ∃ rejection, numberRule v declared known rule = .error rejection := by
  have step (known : List String) : ∃ rejection,
      numberToken v declared rule.left known token = .error rejection := by
    unfold numberToken Vocabulary.classifyIn
    rcases fails with missing | reserved
    · exact ⟨.unclassifiable rule.left token, by rw [missing]⟩
    · exact ⟨.unclassifiable rule.left token, by rw [reserved]⟩
  obtain ⟨rejection, failed⟩ :=
    thread_of_failure listed (thread_of_failure inside step) known
  exact ⟨rejection, by rw [numberRule, failed]⟩

theorem declare_eq {v : Vocabulary} (seen : List Rule) {rules : List Rule}
    (free : ∀ rule ∈ rules, v.isReserved rule.left = false)
    (visible : ∀ rule ∈ rules, Text.isBlank rule.left = false) :
    declare v (leftSides seen) rules = .ok (leftSides (seen ++ rules)) := by
  induction rules generalizing seen with
  | nil => rw [declare, List.append_nil]
  | cons rule rest ih =>
    have later := ih (seen ++ [rule])
      (fun other member => free other (List.mem_cons_of_mem _ member))
      (fun other member => visible other (List.mem_cons_of_mem _ member))
    have grown : (if rule.left ∈ leftSides seen then leftSides seen
        else leftSides seen ++ [rule.left]) = leftSides (seen ++ [rule]) := by
      simp only [leftSides, List.map_append, List.map_cons, List.map_nil, eraseDups_concat,
        List.mem_eraseDups]
    rw [declare, free rule List.mem_cons_self, visible rule List.mem_cons_self, grown, later]
    simp

theorem free_of_declare {v : Vocabulary} {rules : List Rule} {before declared : List String}
    (done : declare v before rules = .ok declared) :
    ∀ rule ∈ rules, v.isReserved rule.left = false ∧ Text.isBlank rule.left = false := by
  induction rules generalizing before with
  | nil => simp
  | cons rule rest ih =>
    rw [declare] at done
    split at done
    · contradiction
    rename_i free
    split at done
    · contradiction
    rename_i visible
    intro other member
    rcases List.mem_cons.1 member with rfl | inside
    · exact ⟨by simpa using free, by simpa using visible⟩
    · exact ih done other inside

theorem eq_leftSides_of_declare {v : Vocabulary} {rules : List Rule} {declared : List String}
    (done : declare v [] rules = .ok declared) : declared = leftSides rules := by
  have lefts := free_of_declare done
  have again := declare_eq [] (fun rule listed => (lefts rule listed).1)
    (fun rule listed => (lefts rule listed).2)
  exact Except.ok.inj (done.symm.trans again)

theorem collect_eq (rules : List Rule) (value : String → Nat) (name : String) :
    collect (rules.map fun rule => (rule.left, rule.rights.map (·.map value))) name =
      ⟨name, (rightsOf rules name).map (·.map value)⟩ := by
  rw [collect, rightsOf, List.filter_map, List.flatMap_map, List.map_flatMap]
  rfl

theorem checkProductions_eq_ok_iff {start : String} {nonTerminals : List NonTerminal} :
    checkProductions start nonTerminals = .ok () ↔ ∀ n ∈ nonTerminals, n.productions ≠ [] := by
  unfold checkProductions
  split
  · rename_i none
    simpa using none
  · rename_i n found
    have empty : n.productions = [] := by simpa using List.find?_some found
    simp only [reduceCtorEq, false_iff]
    intro all
    exact all n (List.mem_of_find?_eq_some found) empty

end Numbering

section Building

variable {rules : List Rule} {start epsilon : String} {g : Grammar}

theorem thread_numberRule (epsilon : String) (free : ∀ token ∈ tokens rules, token ≠ endMark)
    (visible : ∀ token ∈ tokens rules, Text.isBlank token = false) :
    thread (numberRule ⟨epsilon, rules.map (·.left)⟩ (leftSides rules)) [] rules =
      .ok (rules.map fun rule => (rule.left, rule.rights.map (·.map (ruleIndex rules epsilon))),
        terminalTokens rules epsilon) := by
  have complete : ∀ name, name ∈ leftSides rules ↔ name ∈ rules.map (·.left) := by
    simp [leftSides, List.mem_eraseDups]
  have last := terminalTokens_eq_foldl rules epsilon
  rw [tokens, List.foldl_flatMap] at last
  rw [last]
  refine thread_of_steps _ _ ?_ ?_ (by rw [← last])
  · exact fun known rule => prefix_foldl (prefix_meet epsilon _) _ known
  · intro rule listed known within
    have inside (right : List String) (member : right ∈ rule.rights) (token : String)
        (present : token ∈ right) : token ∈ tokens rules :=
      mem_tokens.2 ⟨rule, listed, right, member, present⟩
    exact numberRule_of_visible complete
      (fun right member token present => free token (inside right member token present))
      (fun right member token present => visible token (inside right member token present)) known within

theorem visible_of_thread {declared known more : List String}
    {numbered : List (String × List (List Nat))} (epsilon_visible : Text.isBlank epsilon = false)
    (epsilon_free : epsilon ≠ endMark) (left_visible : ∀ rule ∈ rules, Text.isBlank rule.left = false)
    (threaded : thread (numberRule ⟨epsilon, rules.map (·.left)⟩ declared) known rules =
      .ok (numbered, more)) {token : String} (member : token ∈ tokens rules) :
    token ≠ endMark ∧ Text.isBlank token = false := by
  obtain ⟨rule, listed, right, inside, present⟩ := mem_tokens.1 member
  have classified (fails : Vocabulary.classify ⟨epsilon, rules.map (·.left)⟩ token = none ∨
      Vocabulary.classify ⟨epsilon, rules.map (·.left)⟩ token = some .endMark) : False := by
    obtain ⟨rejection, failed⟩ :=
      thread_of_failure listed (numberRule_of_invisible inside present fails) known
    rw [failed] at threaded
    contradiction
  have free : token ≠ endMark := by
    intro reserved
    exact classified (.inr (by simp [Vocabulary.classify, reserved, epsilon_free.symm]))
  refine ⟨free, ?_⟩
  by_contra blank
  rw [Bool.not_eq_false] at blank
  have shown : token ≠ epsilon := by
    intro same
    simp [same, epsilon_visible] at blank
  have undeclared : token ∉ rules.map (·.left) := by
    intro declared
    obtain ⟨other, belongs, rfl⟩ := List.mem_map.1 declared
    simp [left_visible other belongs] at blank
  refine classified (.inl ?_)
  simp only [Vocabulary.classify, shown, free, undeclared, blank, if_true, if_false]

theorem nonTerminals_eq (rules : List Rule) (start epsilon : String) :
    (leftSides rules).map (collect
      (rules.map fun rule => (rule.left, rule.rights.map (·.map (ruleIndex rules epsilon))))) =
      (ofRules rules start epsilon).nonTerminals := by
  rw [ofRules]
  exact List.map_congr_left fun name _ => collect_eq rules _ name

theorem build_of_acceptable (acceptable : Acceptable rules start epsilon) :
    build rules start epsilon = .ok (ofRules rules start epsilon) := by
  have some_rule : rules.isEmpty = false := by
    obtain ⟨rule, member, -⟩ := List.mem_map.1 acceptable.start_declared
    cases rules with
    | nil => simp at member
    | cons _ _ => rfl
  have free : ∀ rule ∈ rules, Vocabulary.isReserved ⟨epsilon, rules.map (·.left)⟩ rule.left = false := by
    intro rule member
    have distinct := acceptable.left_free rule member
    simp [Vocabulary.isReserved, distinct]
  have declares := declare_eq [] free acceptable.left_visible
  have declared : start ∈ leftSides rules := List.mem_eraseDups.2 acceptable.start_declared
  have checked : checkProductions start (ofRules rules start epsilon).nonTerminals = .ok () := by
    rw [checkProductions_eq_ok_iff]
    intro n member
    obtain ⟨name, listed, rfl⟩ := List.mem_map.1 member
    obtain ⟨rule, present, rfl⟩ := mem_leftSides.1 listed
    simpa using acceptable.productive rule present
  rw [← nonTerminals_eq] at checked
  rw [List.nil_append] at declares
  simp only [build, some_rule, acceptable.epsilon_visible, acceptable.epsilon_free, bind, Except.bind,
    pure, Except.pure, Bool.false_eq_true, if_false]
  rw [show declare ⟨epsilon, rules.map (·.left)⟩ [] rules = .ok (leftSides rules) from declares]
  simp only [thread_numberRule epsilon acceptable.token_free acceptable.token_visible, declared, if_true,
    checked]
  rw [nonTerminals_eq rules start]
  rfl

theorem build_eq_ok (accepted : build rules start epsilon = .ok g) :
    rules.isEmpty = false ∧ Text.isBlank epsilon = false ∧ epsilon ≠ endMark ∧
    ∃ declared numbered terminals, declare ⟨epsilon, rules.map (·.left)⟩ [] rules = .ok declared ∧
      thread (numberRule ⟨epsilon, rules.map (·.left)⟩ declared) [] rules =
        .ok (numbered, terminals) ∧
      start ∈ declared ∧ checkProductions start (declared.map (collect numbered)) = .ok () ∧
      g = ⟨epsilon, declared.map (collect numbered), terminals,
        markerCount + declared.idxOf start⟩ := by
  simp only [build, bind, Except.bind, throw, throwThe, MonadExceptOf.throw, pure, Except.pure]
    at accepted
  split at accepted
  · contradiction
  rename_i some_rule
  split at accepted
  · contradiction
  rename_i visible
  split at accepted
  · contradiction
  rename_i free
  split at accepted
  · contradiction
  rename_i declared declares
  split at accepted
  · contradiction
  rename_i numbered numbers
  split at accepted
  · rename_i member
    split at accepted
    · contradiction
    · rename_i checks
      refine ⟨by simpa using some_rule, by simpa using visible, free, ?_⟩
      exact ⟨declared, numbered.1, numbered.2, declares, numbers, member, checks,
        (Except.ok.inj accepted).symm⟩
  · contradiction

theorem acceptable_of_build (accepted : build rules start epsilon = .ok g) :
    Acceptable rules start epsilon := by
  obtain ⟨-, visible, free, declared, numbered, terminals, declares, threaded, member, checks, -⟩ :=
    build_eq_ok accepted
  have lefts := free_of_declare declares
  have left_visible (rule : Rule) (listed : rule ∈ rules) := (lefts rule listed).2
  have tokens_visible (token : String) (listed : token ∈ tokens rules) :=
    visible_of_thread visible free left_visible threaded listed
  obtain rfl := eq_leftSides_of_declare declares
  have again := thread_numberRule epsilon (fun token listed => (tokens_visible token listed).1)
    (fun token listed => (tokens_visible token listed).2)
  obtain ⟨rfl, rfl⟩ := Prod.mk.inj (Except.ok.inj (again.symm.trans threaded))
  refine ⟨visible, free, ?_, left_visible, fun token listed => (tokens_visible token listed).1,
    fun token listed => (tokens_visible token listed).2, List.mem_eraseDups.1 member, ?_⟩
  · intro rule listed
    simpa [Vocabulary.isReserved] using (lefts rule listed).1
  · intro rule listed empty
    have declared : rule.left ∈ leftSides rules := mem_leftSides.2 ⟨rule, listed, rfl⟩
    refine checkProductions_eq_ok_iff.1 checks _ (List.mem_map_of_mem declared) ?_
    simp [collect_eq, empty]

theorem build_eq_ok_iff : build rules start epsilon = .ok g ↔
    Acceptable rules start epsilon ∧ g = ofRules rules start epsilon := by
  constructor
  · intro accepted
    have acceptable := acceptable_of_build accepted
    rw [build_of_acceptable acceptable] at accepted
    exact ⟨acceptable, (Except.ok.inj accepted).symm⟩
  · intro given
    obtain ⟨acceptable, rfl⟩ := given
    exact build_of_acceptable acceptable

end Building

end Lookahead.Grammar
