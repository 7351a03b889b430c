import Lookahead.Definition.Reader
import Lookahead.Proofs.Json.Consumption

/-!
A definition is read from any text that spells it: members in any order and among others, with blanks between
tokens and escapes in strings. No text is read where a known member is repeated.
-/

namespace Lookahead

open Json

section Slots

variable {α : Type}

/-- The values of a member that comes once, or not at all where it has a default. -/
inductive Gives (spells : α → List Char → Prop) (default : Option α) (a : α) : List (List Char) → Prop
  | once {text : List Char} (spelled : spells a text) : Gives spells default a [text]
  | absent (same : default = some a) : Gives spells default a []

/-- The member was read already, or the values to come give it. -/
inductive Fills (spells : α → List Char → Prop) (default : Option α) (a : α) : Option α → List (List Char) → Prop
  | held : Fills spells default a (some a) []
  | ahead {values : List (List Char)} (gives : Gives spells default a values) : Fills spells default a none values

variable {spells : α → List Char → Prop} {default slot : Option α} {a : α} {key : String} {value : List Char}
  {later : List (String × List Char)}

theorem Fills.of_same (fills : Fills spells default a slot (valuesOf key ((key, value) :: later))) :
    slot = none ∧ spells a value ∧ Fills spells default a (some a) (valuesOf key later) := by
  rw [valuesOf_cons_same] at fills
  generalize valuesOf key later = values at fills ⊢
  cases fills with
  | ahead gives =>
    cases gives with
    | once spelled => exact ⟨rfl, spelled, .held⟩

theorem Fills.of_other {other : String} (differs : other ≠ key)
    (fills : Fills spells default a slot (valuesOf key ((other, value) :: later))) :
    Fills spells default a slot (valuesOf key later) := by
  rwa [valuesOf_cons_other differs] at fills

theorem Fills.eq_some (fills : Fills spells none a slot []) : slot = some a := by
  cases fills with
  | held => rfl
  | ahead gives =>
    cases gives with
    | absent same => contradiction

theorem Fills.getD_eq {d : α} (fills : Fills spells (some d) a slot []) : slot.getD d = a := by
  cases fills with
  | held => rfl
  | ahead gives =>
    cases gives with
    | absent same => exact Option.some.inj same

/-- A slot is filled once, with what was read. -/
theorem fill_eq_ok {ε β γ : Type} {slot : Option α} {fault : ε} {result : Except ε β} {f : β → γ} {c : γ}
    (success : (if slot.isSome then .error fault else result.map f) = .ok c) :
    slot = none ∧ ∃ b, result = .ok b ∧ f b = c := by
  split at success
  · contradiction
  · rename_i free
    exact ⟨by simpa using free, map_eq_ok.1 success⟩

end Slots

namespace Rule

/-- Both members come once in the object of a rule. -/
inductive Spells (rule : Rule) : List Char → Prop
  | object {members : List (String × List Char)} {text : List Char} (spelled : SpellsObject members text)
      (left : Gives SpellsText none rule.left (valuesOf "lhs" members))
      (rights : Gives (SpellsList (SpellsList SpellsText)) none rule.rights (valuesOf "rhs" members)) :
      Spells rule text

inductive Repeats : List Char → Prop
  | object {members : List (String × List Char)} {text : List Char} (spelled : SpellsObject members text)
      (twice : 2 ≤ (valuesOf "lhs" members).length ∨ 2 ≤ (valuesOf "rhs" members).length) : Repeats text

theorem agrees_readRights : Agrees readRights := agrees_list (agrees_list agrees_string _) _

/-- A member is put where its key belongs, unless that is taken. -/
theorem Draft.read_cases {draft next : Draft} {key : String} {cs rest : List Char}
    (success : draft.read key cs = .ok (next, rest)) :
    (key = "lhs" ∧ draft.left = none ∧
      ∃ left, memberValue string cs = .ok (left, rest) ∧ next = { draft with left := some left }) ∨
    (key = "rhs" ∧ draft.rights = none ∧
      ∃ rights, memberValue readRights cs = .ok (rights, rest) ∧ next = { draft with rights := some rights }) ∨
    (key ≠ "lhs" ∧ key ≠ "rhs" ∧ memberValue skipValue cs = .ok ((), rest) ∧ next = draft) := by
  unfold Draft.read at success
  split at success
  · rename_i isLeft
    obtain ⟨free, ⟨left, after⟩, read, same⟩ := fill_eq_ok success
    obtain ⟨rfl, rfl⟩ := Prod.mk.inj same
    exact .inl ⟨isLeft, free, left, read, rfl⟩
  split at success
  · rename_i isRight
    obtain ⟨free, ⟨rights, after⟩, read, same⟩ := fill_eq_ok success
    obtain ⟨rfl, rfl⟩ := Prod.mk.inj same
    exact .inr (.inl ⟨isRight, free, rights, read, rfl⟩)
  · rename_i noLeft noRight
    obtain ⟨⟨_, after⟩, read, same⟩ := map_eq_ok.1 success
    obtain ⟨rfl, rfl⟩ := Prod.mk.inj same
    exact .inr (.inr ⟨noLeft, noRight, read, rfl⟩)

theorem memberAgrees_read : MemberAgrees Draft.read := by
  intro draft key cs next rest success
  obtain ⟨-, -, left, read, -⟩ | ⟨-, -, rights, read, -⟩ | ⟨-, -, read, -⟩ := Draft.read_cases success
  · exact agrees_string.memberValue read
  · exact agrees_readRights.memberValue read
  · exact agrees_skipValue.memberValue read

theorem agrees_read : Agrees Rule.read := by
  refine agrees_record (fun {cs rule text} success => ?_) (fun {cs rule text} success => ?_)
  · unfold ofItems at success
    split at success
    · contradiction
    · contradiction
    rename_i first
    split at success
    · contradiction
    · contradiction
    rename_i second
    obtain ⟨-, rfl⟩ := Prod.mk.inj (Except.ok.inj success)
    intro outer
    exact (advances_optionalItem agrees_string first outer).trans
      (advances_optionalItem agrees_readRights second outer)
  · unfold ofMembers at success
    split at success
    · contradiction
    rename_i read
    split at success
    · contradiction
    · contradiction
    obtain ⟨-, rfl⟩ := Prod.mk.inj (Except.ok.inj success)
    exact advances_members memberAgrees_read read

theorem Draft.read_count {draft next : Draft} {key : String} {cs rest : List Char}
    (success : draft.read key cs = .ok (next, rest)) :
    next.left.isSome.toNat = draft.left.isSome.toNat + (if key = "lhs" then 1 else 0) ∧
      next.rights.isSome.toNat = draft.rights.isSome.toNat + if key = "rhs" then 1 else 0 := by
  obtain ⟨rfl, free, _, -, rfl⟩ | ⟨rfl, free, _, -, rfl⟩ | ⟨noLeft, noRight, -, rfl⟩ := Draft.read_cases success
  · simp [free]
  · simp [free]
  · simp [noLeft, noRight]

variable {mayFail : Prop} {post : Rule → Prop} {members : List (String × List Char)} {inside text : List Char}

theorem consumes_read {complete : Draft → Prop}
    (leaves : ∀ rest, Leaves mayFail ('\x7d' :: rest) complete
      (Json.members Draft.read Draft.read_length true {} (inside ++ '\x7d' :: rest)))
    (made : ∀ draft, complete draft → ∃ rule : Rule, draft = ⟨some rule.left, some rule.rights⟩ ∧ post rule) :
    Consumes mayFail Rule.read ('\x7b' :: (inside ++ ['\x7d'])) post := by
  refine consumes_record fun rest => ?_
  have leaves := leaves rest
  rw [ofMembers]
  generalize Json.members Draft.read Draft.read_length true {} _ = result at leaves
  cases leaves with
  | failed allowed => exact .failed allowed
  | taken holds =>
    obtain ⟨rule, rfl, required⟩ := made _ holds
    exact .taken required

/-- A draft that the members to come make the rule. -/
structure Completes (rule : Rule) (members : List (String × List Char)) (draft : Draft) : Prop where
  left : Fills SpellsText none rule.left draft.left (valuesOf "lhs" members)
  rights : Fills (SpellsList (SpellsList SpellsText)) none rule.rights draft.rights (valuesOf "rhs" members)

theorem consumes_readRights {rights : List (List String)}
    (spelled : SpellsList (SpellsList SpellsText) rights text) : Consumes False readRights text (· = rights) :=
  consumes_list_eq _ (fun _ _ right => right.isValue fun _ _ _ => SpellsText.isValue)
    (fun _ _ => consumes_list_eq _ (fun _ _ => SpellsText.isValue) fun _ _ => consumes_string) spelled

theorem keeps_completes (rule : Rule) : Keeps False Draft.read (Completes rule) := by
  intro key value later draft after completes isValue blank blanks rest blank' delimited
  -- a known key finds its slot free and its value spelled, any other key changes nothing
  by_cases isLeft : key = "lhs"
  · subst isLeft
    obtain ⟨free, spelled, filled⟩ := completes.left.of_same
    have leaves := consumes_memberValue (consumes_string spelled) blank blank' delimited
    rw [Draft.read, if_pos rfl, if_neg (by simp [free])]
    refine leaves.map ?_
    rintro left rfl
    exact ⟨_, rfl, filled, completes.rights.of_other (by decide)⟩
  by_cases isRight : key = "rhs"
  · subst isRight
    obtain ⟨free, spelled, filled⟩ := completes.rights.of_same
    have leaves := consumes_memberValue (consumes_readRights spelled) blank blank' delimited
    rw [Draft.read, if_neg isLeft, if_pos rfl, if_neg (by simp [free])]
    refine leaves.map ?_
    rintro rights rfl
    exact ⟨_, rfl, completes.left.of_other (by decide), filled⟩
  · have leaves := consumes_memberValue (consumes_skipValue isValue) blank blank' delimited
    rw [Draft.read, if_neg isLeft, if_neg isRight]
    exact leaves.map fun _ _ => ⟨_, rfl, completes.left.of_other isLeft, completes.rights.of_other isRight⟩

theorem Spells.consumes {rule : Rule} (spells : rule.Spells text) : Consumes False Rule.read text (· = rule) := by
  obtain ⟨⟨commas⟩, left, rights⟩ := spells
  refine consumes_read (commas.leaves_members (keeps_completes rule) ⟨.ahead left, .ahead rights⟩) ?_
  intro draft completes
  exact ⟨rule, by rw [← completes.left.eq_some, ← completes.rights.eq_some], rfl⟩

/-- A slot holds one value, so nothing is read where its member comes twice. -/
theorem Repeats.consumes (repeats : Repeats text) : Consumes True Rule.read text fun _ => False := by
  obtain ⟨⟨commas⟩, twice | twice⟩ := repeats
  · exact consumes_read (commas.leaves_repeated memberAgrees_read (fun success => (Draft.read_count success).1)
      (fun _ => Bool.toNat_le _) twice {}) fun _ => False.elim
  · exact consumes_read (commas.leaves_repeated memberAgrees_read (fun success => (Draft.read_count success).2)
      (fun _ => Bool.toNat_le _) twice {}) fun _ => False.elim

theorem Spells.isValue {rule : Rule} (spells : rule.Spells text) : IsValue text := by
  cases spells with
  | object spelled => exact spelled.isValue

end Rule

namespace Definition

inductive SpellsStart : Option String → List Char → Prop
  | null : SpellsStart none ['n', 'u', 'l', 'l']
  | text {s : String} {text : List Char} (spelled : SpellsText s text) : SpellsStart (some s) text

/-- No start symbol may be written as null too. -/
structure Spells (d : Definition) (members : List (String × List Char)) : Prop where
  rules : Gives (SpellsList Rule.Spells) none d.rules (valuesOf "rules" members)
  start : Gives SpellsStart (some none) d.start (valuesOf "start" members)
  epsilon : Gives SpellsText (some defaultEpsilon) d.epsilon (valuesOf "epsilon" members)

/-- A known member is repeated in the object of the document, or in that of a rule. -/
inductive Repeats (members : List (String × List Char)) : Prop
  | document {key : String} (known : key ∈ ["rules", "start", "epsilon"])
      (twice : 2 ≤ (valuesOf key members).length) : Repeats members
  | rule {value item : List Char} {items : List (List Char)} (rules : value ∈ valuesOf "rules" members)
      (list : SpellsList Eq items value) (each : ∀ item ∈ items, IsValue item) (listed : item ∈ items)
      (repeats : Rule.Repeats item) : Repeats members

/-- The document is one object between blanks. -/
inductive IsDocument (members : List (String × List Char)) (document : String) : Prop
  | object {before text after : List Char} (blank : IsBlanks before) (blank' : IsBlanks after)
      (spelled : SpellsObject members text) (whole : document.toList = before ++ (text ++ after)) :
      IsDocument members document

variable {mayFail : Prop} {members : List (String × List Char)} {inside text : List Char}

theorem agrees_readRules : Agrees readRules := agrees_list Rule.agrees_read _

theorem Draft.read_cases {draft next : Draft} {key : String} {cs rest : List Char}
    (success : draft.read key cs = .ok (next, rest)) :
    (key = "rules" ∧ draft.rules = none ∧
      ∃ rules, memberValue readRules cs = .ok (rules, rest) ∧ next = { draft with rules := some rules }) ∨
    (key = "start" ∧ draft.start = none ∧
      ∃ start, memberValue optionalString cs = .ok (start, rest) ∧ next = { draft with start := some start }) ∨
    (key = "epsilon" ∧ draft.epsilon = none ∧
      ∃ epsilon, memberValue string cs = .ok (epsilon, rest) ∧ next = { draft with epsilon := some epsilon }) ∨
    (key ≠ "rules" ∧ key ≠ "start" ∧ key ≠ "epsilon" ∧ memberValue skipValue cs = .ok ((), rest) ∧
      next = draft) := by
  unfold Draft.read at success
  split at success
  · rename_i isRules
    obtain ⟨free, ⟨rules, after⟩, read, same⟩ := fill_eq_ok success
    obtain ⟨rfl, rfl⟩ := Prod.mk.inj same
    exact .inl ⟨isRules, free, rules, read, rfl⟩
  split at success
  · rename_i isStart
    obtain ⟨free, ⟨start, after⟩, read, same⟩ := fill_eq_ok success
    obtain ⟨rfl, rfl⟩ := Prod.mk.inj same
    exact .inr (.inl ⟨isStart, free, start, read, rfl⟩)
  split at success
  · rename_i isEpsilon
    obtain ⟨free, ⟨epsilon, after⟩, read, same⟩ := fill_eq_ok success
    obtain ⟨rfl, rfl⟩ := Prod.mk.inj same
    exact .inr (.inr (.inl ⟨isEpsilon, free, epsilon, read, rfl⟩))
  · rename_i noRules noStart noEpsilon
    obtain ⟨⟨_, after⟩, read, same⟩ := map_eq_ok.1 success
    obtain ⟨rfl, rfl⟩ := Prod.mk.inj same
    exact .inr (.inr (.inr ⟨noRules, noStart, noEpsilon, read, rfl⟩))

theorem memberAgrees_read : MemberAgrees Draft.read := by
  intro draft key cs next rest success
  obtain ⟨-, -, rules, read, -⟩ | ⟨-, -, start, read, -⟩ | ⟨-, -, epsilon, read, -⟩ | ⟨-, -, -, read, -⟩ :=
    Draft.read_cases success
  · exact agrees_readRules.memberValue read
  · exact agrees_optionalString.memberValue read
  · exact agrees_string.memberValue read
  · exact agrees_skipValue.memberValue read

/-- How many values the draft holds for a key. -/
def Draft.count (key : String) (draft : Draft) : Nat :=
  if key = "rules" then draft.rules.isSome.toNat
  else if key = "start" then draft.start.isSome.toNat
  else if key = "epsilon" then draft.epsilon.isSome.toNat
  else 0

theorem Draft.count_le (key : String) (draft : Draft) : draft.count key ≤ 1 := by
  unfold Draft.count
  split_ifs
  · exact Bool.toNat_le _
  · exact Bool.toNat_le _
  · exact Bool.toNat_le _
  · exact Nat.zero_le 1

theorem Draft.read_count {key : String} (known : key ∈ ["rules", "start", "epsilon"]) {draft next : Draft}
    {other : String} {cs rest : List Char} (success : draft.read other cs = .ok (next, rest)) :
    next.count key = draft.count key + if other = key then 1 else 0 := by
  simp only [List.mem_cons, List.not_mem_nil, or_false] at known
  obtain ⟨rfl, free, _, -, rfl⟩ | ⟨rfl, free, _, -, rfl⟩ | ⟨rfl, free, _, -, rfl⟩ |
    ⟨noRules, noStart, noEpsilon, -, rfl⟩ := Draft.read_cases success
  · rcases known with rfl | rfl | rfl <;> simp [Draft.count, free]
  · rcases known with rfl | rfl | rfl <;> simp [Draft.count, free]
  · rcases known with rfl | rfl | rfl <;> simp [Draft.count, free]
  · rcases known with rfl | rfl | rfl <;> simp [noRules, noStart, noEpsilon]

theorem consumes_read {complete : Draft → Prop} {post : Definition → Prop}
    (leaves : ∀ rest, Leaves mayFail ('\x7d' :: rest) complete
      (Json.members Draft.read Draft.read_length true {} (inside ++ '\x7d' :: rest)))
    (made : ∀ draft, complete draft →
      ∃ rules, draft.rules = some rules ∧ post (withDefaults rules draft.start draft.epsilon)) :
    Consumes mayFail (record recordName ofItems ofMembers) ('\x7b' :: (inside ++ ['\x7d'])) post := by
  refine consumes_record fun rest => ?_
  have leaves := leaves rest
  rw [ofMembers]
  generalize Json.members Draft.read Draft.read_length true {} _ = result at leaves
  cases leaves with
  | failed allowed => exact .failed allowed
  | taken holds =>
    obtain ⟨rules, same, required⟩ := made _ holds
    simp only [same]
    exact .taken required

structure Completes (d : Definition) (members : List (String × List Char)) (draft : Draft) : Prop where
  rules : Fills (SpellsList Rule.Spells) none d.rules draft.rules (valuesOf "rules" members)
  start : Fills SpellsStart (some none) d.start draft.start (valuesOf "start" members)
  epsilon : Fills SpellsText (some defaultEpsilon) d.epsilon draft.epsilon (valuesOf "epsilon" members)

theorem consumes_readRules {rules : List Rule} (spelled : SpellsList Rule.Spells rules text) :
    Consumes False readRules text (· = rules) :=
  consumes_list_eq _ (fun _ _ => Rule.Spells.isValue) (fun _ _ => Rule.Spells.consumes) spelled

theorem SpellsStart.consumes {start : Option String} (spelled : SpellsStart start text) :
    Consumes False optionalString text (· = start) := by
  cases spelled with
  | null => exact consumes_null
  | text spelled => exact consumes_optionalString spelled

theorem keeps_completes (d : Definition) : Keeps False Draft.read (Completes d) := by
  intro key value later draft after completes isValue blank blanks rest blank' delimited
  by_cases isRules : key = "rules"
  · subst isRules
    obtain ⟨free, spelled, filled⟩ := completes.rules.of_same
    have leaves := consumes_memberValue (consumes_readRules spelled) blank blank' delimited
    rw [Draft.read, if_pos rfl, if_neg (by simp [free])]
    refine leaves.map ?_
    rintro rules rfl
    exact ⟨_, rfl, filled, completes.start.of_other (by decide), completes.epsilon.of_other (by decide)⟩
  by_cases isStart : key = "start"
  · subst isStart
    obtain ⟨free, spelled, filled⟩ := completes.start.of_same
    have leaves := consumes_memberValue spelled.consumes blank blank' delimited
    rw [Draft.read, if_neg isRules, if_pos rfl, if_neg (by simp [free])]
    refine leaves.map ?_
    rintro start rfl
    exact ⟨_, rfl, completes.rules.of_other (by decide), filled, completes.epsilon.of_other (by decide)⟩
  by_cases isEpsilon : key = "epsilon"
  · subst isEpsilon
    obtain ⟨free, spelled, filled⟩ := completes.epsilon.of_same
    have leaves := consumes_memberValue (consumes_string spelled) blank blank' delimited
    rw [Draft.read, if_neg isRules, if_neg isStart, if_pos rfl, if_neg (by simp [free])]
    refine leaves.map ?_
    rintro epsilon rfl
    exact ⟨_, rfl, completes.rules.of_other (by decide), completes.start.of_other (by decide), filled⟩
  · have leaves := consumes_memberValue (consumes_skipValue isValue) blank blank' delimited
    rw [Draft.read, if_neg isRules, if_neg isStart, if_neg isEpsilon]
    exact leaves.map fun _ _ => ⟨_, rfl, completes.rules.of_other isRules, completes.start.of_other isStart,
      completes.epsilon.of_other isEpsilon⟩

theorem Spells.consumes {d : Definition} (spells : d.Spells members) (spelled : SpellsObject members text) :
    Consumes False (record recordName ofItems ofMembers) text (· = d) := by
  obtain ⟨commas⟩ := spelled
  have ahead : Completes d members {} := ⟨.ahead spells.rules, .ahead spells.start, .ahead spells.epsilon⟩
  refine consumes_read (commas.leaves_members (keeps_completes d) ahead) ?_
  intro draft completes
  refine ⟨d.rules, completes.rules.eq_some, ?_⟩
  rw [withDefaults, completes.start.getD_eq, completes.epsilon.getD_eq]

/-- One item that is never read is enough for a list not to be read. -/
theorem consumes_readRules_of_repeats {value item : List Char} {items : List (List Char)}
    (list : SpellsList Eq items value) (each : ∀ item ∈ items, IsValue item) (listed : item ∈ items)
    (repeats : Rule.Repeats item) : Consumes True readRules value fun _ => False := by
  have opens : ∀ a ∈ items, ∀ text, a = text → Opens text := by
    rintro a member _ rfl
    exact (each a member).opens
  have reads : ∀ a ∈ items, ∀ text, a = text → Consumes True Rule.read text fun _ => a ≠ item ∧ True := by
    rintro a member _ rfl
    -- the items before the one that fails are of any type, so they need not be read either
    by_cases same : a = item
    · subst same
      exact repeats.consumes.imp fun _ => False.elim
    · exact (Rule.agrees_read.consumes (each a member)).imp fun _ _ => ⟨same, trivial⟩
  exact (consumes_list _ opens reads list).imp fun _ all =>
    ((List.forall₂_and_left _ _).1 all).1 item listed rfl

theorem keeps_rules {value : List Char} (never : Consumes True readRules value fun _ => False) :
    Keeps True Draft.read fun members _ => value ∈ valuesOf "rules" members := by
  refine keeps_ahead memberAgrees_read fun draft {after} blank {blanks rest} blank' delimited => ?_
  have leaves := consumes_memberValue never blank blank' delimited
  change Leaves True rest _ (draft.read "rules" _)
  rw [Draft.read, if_pos rfl]
  split
  · exact .failed trivial
  · exact leaves.map fun _ => False.elim

theorem Repeats.consumes (repeats : Repeats members) (spelled : SpellsObject members text) :
    Consumes True (record recordName ofItems ofMembers) text fun _ => False := by
  obtain ⟨commas⟩ := spelled
  cases repeats with
  | document known twice =>
    refine consumes_read ?_ fun _ => False.elim
    exact commas.leaves_repeated memberAgrees_read (Draft.read_count known) (Draft.count_le _) twice {}
  | rule rules list each listed repeats =>
    have never := consumes_readRules_of_repeats list each listed repeats
    refine consumes_read (commas.leaves_members (keeps_rules never) rules) fun draft ahead => ?_
    exact absurd ahead List.not_mem_nil

theorem readDocument_of_consumes {before after : List Char} {post : Definition → Prop}
    (consumes : Consumes mayFail (record recordName ofItems ofMembers) text post) (blank : IsBlanks before)
    (blank' : IsBlanks after) :
    (∃ d, readDocument (before ++ (text ++ after)) = .ok d ∧ post d) ∨
      mayFail ∧ ∃ fault, readDocument (before ++ (text ++ after)) = .error fault := by
  have delimited := blank'.delimited delimited_nil
  have ends := skipBlanks_append blank' []
  rw [List.append_nil] at delimited ends
  have leaves := consumes blank delimited
  rw [readDocument]
  generalize record recordName ofItems ofMembers (before ++ (text ++ after)) = result at leaves
  cases leaves with
  | @taken d holds =>
    refine .inl ⟨d, ?_, holds⟩
    simp only [ends]
    rfl
  | failed allowed => exact .inr ⟨allowed, _, rfl⟩

/-- What a document spells is read, in whatever way it is spelled, and a document is malformed where a known member
is repeated. -/
theorem read_document {document : String} (isDocument : IsDocument members document) :
    (∀ d : Definition, d.Spells members → read document = .ok d) ∧
      (Repeats members → ∃ cause place, read document = .error (.malformed cause place)) := by
  obtain ⟨blank, blank', spelled, whole⟩ := isDocument
  rw [read, whole]
  constructor
  · intro d spells
    obtain ⟨_, success, rfl⟩ | ⟨never, -⟩ := readDocument_of_consumes (spells.consumes spelled) blank blank'
    · rw [success]
    · exact never.elim
  · intro repeats
    obtain ⟨_, -, never⟩ | ⟨-, fault, failed⟩ := readDocument_of_consumes (repeats.consumes spelled) blank blank'
    · exact never.elim
    · rw [failed]
      exact ⟨_, _, rfl⟩

/-- An escape in a key, members out of order, and an unknown one with a number and an object in its value. With the
left side twice, the rule is turned down. -/
theorem read_document_shuffled :
    (∃ members, IsDocument members
        ("\x7b \"\\u0065psilon\":\"eps\",\"rules\" :[\x7b\"rhs\":[[\"a\"],[]],\"x\":[-1.5e3,\x7b\x7d]," ++
          "\"lhs\":\"S\"\x7d]\x7d\n") ∧
      Spells ⟨[⟨"S", [["a"], []]⟩], none, "eps"⟩ members ∧
      read ("\x7b \"\\u0065psilon\":\"eps\",\"rules\" :[\x7b\"rhs\":[[\"a\"],[]],\"x\":[-1.5e3,\x7b\x7d]," ++
          "\"lhs\":\"S\"\x7d]\x7d\n") = .ok ⟨[⟨"S", [["a"], []]⟩], none, "eps"⟩) ∧
    ∃ members, IsDocument members "\x7b\"rules\":[\x7b\"lhs\":\"S\",\"lhs\":\"S\"\x7d]\x7d" ∧ Repeats members ∧
      ∃ cause place, read "\x7b\"rules\":[\x7b\"lhs\":\"S\",\"lhs\":\"S\"\x7d]\x7d" =
        .error (.malformed cause place) := by
  have gap := isBlanks_nil
  have blank : IsBlanks [' '] := by simp [IsBlanks]
  have line : IsBlanks ['\n'] := by simp [IsBlanks]
  have name : SpellsText "S" _ := .quoted (spellsChars_raw (by decide))
  have left : SpellsMember ("lhs", _) _ := .labelled (.quoted (spellsChars_raw (by decide))) gap gap name.isValue
  have rulesKey : SpellsText "rules" _ := .quoted (spellsChars_raw (by decide))
  constructor
  · have token : SpellsText "a" _ := .quoted (spellsChars_raw (by decide))
    have tokens : SpellsList SpellsText ["a"] _ := .bracketed (.some (.first gap) token (.none gap))
    have noTokens : SpellsList SpellsText [] _ := .bracketed (.none gap)
    have rights : SpellsList (SpellsList SpellsText) [["a"], []] _ :=
      .bracketed (.some (.first gap) tokens (.some (.later gap gap) noTokens (.none gap)))
    have right : SpellsMember ("rhs", _) _ := .labelled (.quoted (spellsChars_raw (by decide))) gap gap
      (rights.isValue fun _ _ _ right => right.isValue fun _ _ _ => SpellsText.isValue)
    have digits : IsDigits ['1'] ∧ IsDigits ['5'] ∧ IsDigits ['3'] := by simp [IsDigits]
    have number : IsUnsigned ['1', '.', '5', 'e', '3'] := .parts (.inr ⟨digits.1, by simp⟩)
      (.inr ⟨_, digits.2.1, rfl⟩) (.inr ⟨'e', [], _, .inl rfl, .inl rfl, digits.2.2, rfl⟩)
    have empty : IsValue _ := .object (by simp) (by simp) (.none gap)
    have other : SpellsMember ("x", _) _ := .labelled (.quoted (spellsChars_raw (by decide))) gap gap
      (.list (List.forall_mem_cons.2 ⟨.negative number, List.forall_mem_singleton.2 empty⟩)
        (.some (.first gap) rfl (.some (.later gap gap) rfl (.none gap))))
    have ruleObject : SpellsObject _ _ :=
      .braced (.some (.first gap) right (.some (.later gap gap) other (.some (.later gap gap) left (.none gap))))
    have rule : Rule.Spells ⟨"S", [["a"], []]⟩ _ :=
      .object ruleObject (by simpa [valuesOf] using .once name) (by simpa [valuesOf] using .once rights)
    have rules : SpellsList Rule.Spells [⟨"S", [["a"], []]⟩] _ := .bracketed (.some (.first gap) rule (.none gap))
    have rulesMember : SpellsMember ("rules", _) _ :=
      .labelled rulesKey blank gap (rules.isValue fun _ _ _ => Rule.Spells.isValue)
    have digit : IsHexDigit '0' 0 ∧ IsHexDigit '6' 6 ∧ IsHexDigit '5' 5 := by simp [IsHexDigit]
    have escaped : SpellsChar 'e' _ := .unit (.digits digit.1 digit.1 digit.2.1 digit.2.2)
    have epsilon : SpellsText "eps" _ := .quoted (spellsChars_raw (by decide))
    have later : SpellsChars ['p', 's', 'i', 'l', 'o', 'n'] _ := spellsChars_raw (by decide)
    have epsilonKey : SpellsText "epsilon" _ := .quoted (.cons escaped later)
    have epsilonMember : SpellsMember ("epsilon", _) _ := .labelled epsilonKey gap gap epsilon.isValue
    have object : SpellsObject _ _ := .braced (.some (.first blank) epsilonMember (.some (.later gap gap) rulesMember (.none gap)))
    have reads {members : List (String × List Char)} {document : String} {d : Definition}
        (isDocument : IsDocument members document) (spells : d.Spells members) :
        ∃ members, IsDocument members document ∧ d.Spells members ∧ read document = .ok d :=
      ⟨members, isDocument, spells, (read_document isDocument).1 d spells⟩
    exact reads (.object gap line object (by decide +kernel))
      ⟨by simpa [valuesOf] using .once rules, .absent rfl, by simpa [valuesOf] using .once epsilon⟩
  · have ruleObject : SpellsObject _ _ := .braced (.some (.first gap) left (.some (.later gap gap) left (.none gap)))
    have each := List.forall_mem_singleton.2 ruleObject.isValue
    have rules : SpellsMember ("rules", _) _ :=
      .labelled rulesKey gap gap (.list each (.some (.first gap) rfl (.none gap)))
    have object : SpellsObject _ _ := .braced (.some (.first gap) rules (.none gap))
    have fails {members : List (String × List Char)} {document : String}
        (isDocument : IsDocument members document) (repeats : Repeats members) :
        ∃ members, IsDocument members document ∧ Repeats members ∧
          ∃ cause place, read document = .error (.malformed cause place) :=
      ⟨members, isDocument, repeats, (read_document isDocument).2 repeats⟩
    refine fails (.object gap gap object (by decide +kernel)) ?_
    refine .rule ?_ (.bracketed (.some (.first gap) rfl (.none gap))) each (List.mem_singleton_self _)
      (.object ruleObject (.inl ?_))
    · simp [valuesOf]
    · simp [valuesOf]

end Definition

end Lookahead
