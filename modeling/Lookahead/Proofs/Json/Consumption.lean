import Lookahead.Proofs.Json.Agreement
import Lookahead.Proofs.Json.ReadBack

/-!
What readers make of texts that are spelled by the grammar, in whatever way. A reader of a type takes a text of its
type as a whole. On a text of another type it may fail, but does not stop inside the text.
-/

namespace Lookahead.Json

variable {ε α σ : Type}

/-- The rest is left after something was taken as required, unless the reader fails where it may. -/
inductive Leaves (mayFail : Prop) (rest : List Char) (post : α → Prop) : Except ε (α × List Char) → Prop
  | taken {a : α} (holds : post a) : Leaves mayFail rest post (.ok (a, rest))
  | failed {fault : ε} (allowed : mayFail) : Leaves mayFail rest post (.error fault)

variable {mayFail : Prop} {rest text : List Char} {post : α → Prop}

section Results

variable {result : Except ε (α × List Char)}

theorem Leaves.imp {post' : α → Prop} (leaves : Leaves mayFail rest post result)
    (implies : ∀ a, result = .ok (a, rest) → post a → post' a) : Leaves mayFail rest post' result := by
  cases leaves with
  | taken holds => exact .taken (implies _ rfl holds)
  | failed allowed => exact .failed allowed

theorem Leaves.map {β : Type} {f : α × List Char → β × List Char} {post' : β → Prop}
    (leaves : Leaves mayFail rest post result)
    (puts : ∀ a, post a → ∃ b, f (a, rest) = (b, rest) ∧ post' b) : Leaves mayFail rest post' (result.map f) := by
  cases leaves with
  | @taken a holds =>
    obtain ⟨b, same, holds⟩ := puts a holds
    rw [Except.map, same]
    exact .taken holds
  | failed allowed => exact .failed allowed

theorem leaves_of_rest_eq (same : ∀ {a after}, result = .ok (a, after) → after = rest) :
    Leaves True rest (fun _ => True) result := by
  cases result with
  | error fault => exact .failed trivial
  | ok pair =>
    obtain ⟨a, after⟩ := pair
    obtain rfl := same rfl
    exact .taken trivial

end Results

/-- The reader takes the text, behind blanks and before anything that may follow a value. -/
def Consumes (mayFail : Prop) (read : List Char → Except ε (α × List Char)) (text : List Char)
    (post : α → Prop) : Prop :=
  ∀ ⦃blanks rest⦄, IsBlanks blanks → Delimited rest → Leaves mayFail rest post (read (blanks ++ (text ++ rest)))

theorem Consumes.imp {read : List Char → Except ε (α × List Char)} {post' : α → Prop}
    (consumes : Consumes mayFail read text post)
    (implies : ∀ {cs a rest}, read cs = .ok (a, rest) → post a → post' a) : Consumes mayFail read text post' :=
  fun _ _ blank delimited => (consumes blank delimited).imp fun _ success holds => implies success holds

theorem Agrees.consumes {read : List Char → Except Fault (α × List Char)} (agrees : Agrees read)
    (isValue : IsValue text) : Consumes True read text fun _ => True := by
  intro blanks rest blank delimited
  refine leaves_of_rest_eq fun success => ?_
  have same := (agrees success).symm.trans (isValue.skipValue_eq blank delimited)
  exact (Prod.mk.inj (Except.ok.inj same)).2

theorem MemberAgrees.consumes {member : σ → String → List Char → Except Interruption (σ × List Char)}
    (agrees : MemberAgrees member) {after value : List Char} (blank' : IsBlanks after) (isValue : IsValue value)
    (state : σ) (key : String) :
    Consumes True (member state key) (':' :: (after ++ value)) fun _ => True := by
  intro blanks rest blank delimited
  refine leaves_of_rest_eq fun success => ?_
  obtain ⟨inside, opened, skipped⟩ := agrees success
  rw [show ':' :: (after ++ value) ++ rest = ':' :: (after ++ (value ++ rest)) by simp,
    colon_blanks blank] at opened
  obtain rfl := Except.ok.inj opened
  have same := skipped.symm.trans (isValue.skipValue_eq blank' delimited)
  exact (Prod.mk.inj (Except.ok.inj same)).2

section Strings

theorem toNat_bounds (c : Char) : c.toNat < 0xd800 ∨ 0xdfff < c.toNat ∧ c.toNat < 0x110000 := c.valid

theorem escape_unit {c : Char} {quad : List Char} (digits : IsQuad quad c.toNat) (rest : List Char) :
    escape ('u' :: (quad ++ rest)) = .ok (c, rest) := by
  have bounds := toNat_bounds c
  rw [escape, digits.hexQuad]
  simp only [bind, Except.bind]
  rw [if_neg (by omega), if_neg (by omega), Char.ofNat_toNat]

theorem escape_pair {c : Char} {high low : List Char} (wide : 0x10000 ≤ c.toNat)
    (leading : IsQuad high (0xd800 + (c.toNat - 0x10000) / 0x400))
    (trailing : IsQuad low (0xdc00 + (c.toNat - 0x10000) % 0x400)) (rest : List Char) :
    escape ('u' :: (high ++ '\\' :: 'u' :: (low ++ rest))) = .ok (c, rest) := by
  have bounds := toNat_bounds c
  rw [escape_surrogates (leading.hexQuad _) (by omega) (trailing.hexQuad rest) (by omega)]
  rw [show 0x10000 + (0xd800 + (c.toNat - 0x10000) / 0x400 - 0xd800) * 0x400 +
    (0xdc00 + (c.toNat - 0x10000) % 0x400 - 0xdc00) = c.toNat by omega, Char.ofNat_toNat]

theorem characterList_spelled {c : Char} {cs piece inner rest : List Char} (spelled : SpellsChar c piece)
    (later : characterList inner = .ok (cs, rest)) : characterList (piece ++ inner) = .ok (c :: cs, rest) := by
  cases spelled with
  | raw plain visible => exact characterList_raw (not_or.2 plain) (by omega) later
  | short known =>
    simp only [shortEscapes, List.mem_cons, Prod.mk.injEq, List.not_mem_nil, or_false] at known
    rcases known with ⟨rfl, rfl⟩ | ⟨rfl, rfl⟩ | ⟨rfl, rfl⟩ | ⟨rfl, rfl⟩ | ⟨rfl, rfl⟩ | ⟨rfl, rfl⟩ | ⟨rfl, rfl⟩ |
      ⟨rfl, rfl⟩ <;> exact characterList_escape rfl later
  | unit digits => exact characterList_escape (escape_unit digits inner) later
  | @pair _ high low wide leading trailing =>
    rw [List.cons_append, List.cons_append, List.append_assoc]
    exact characterList_escape (escape_pair wide leading trailing inner) later

theorem characterList_spelledAll {cs text : List Char} (spelled : SpellsChars cs text) (rest : List Char) :
    characterList (text ++ '\"' :: rest) = .ok (cs, rest) := by
  induction spelled with
  | nil => rw [List.nil_append, characterList]
  | cons first later ih =>
    rw [List.append_assoc]
    exact characterList_spelled first ih

theorem consumes_string {s : String} (spelled : SpellsText s text) : Consumes False string text (· = s) := by
  intro blanks rest blank delimited
  obtain ⟨inside⟩ := spelled
  rename_i characters
  have read := characterList_spelledAll inside rest
  rw [show '\"' :: (characters ++ ['\"']) ++ rest = '\"' :: (characters ++ '\"' :: rest) by simp, string,
    skipBlanks_append_cons blank (by decide)]
  change Leaves False rest (· = s) ((characterList (characters ++ '\"' :: rest)).map _)
  rw [read]
  exact .taken (String.ofList_toList ..)

theorem consumes_optionalString {s : String} (spelled : SpellsText s text) :
    Consumes False optionalString text (· = some s) := by
  intro blanks rest blank delimited
  have consumes := consumes_string spelled isBlanks_nil delimited
  obtain ⟨inside⟩ := spelled
  rename_i characters
  rw [List.cons_append, optionalString, skipBlanks_append_cons blank (by decide)]
  exact consumes.map fun _ same => ⟨_, rfl, congrArg some same⟩

theorem consumes_null : Consumes False optionalString ['n', 'u', 'l', 'l'] (· = none) := by
  intro blanks rest blank delimited
  rw [List.cons_append, optionalString, skipBlanks_append_cons blank (by decide)]
  exact .taken rfl

end Strings

section Containers

variable {ι : Type} {spells : ι → List Char → Prop} {read : List Char → Except Fault (α × List Char)}
  {posts : ι → α → Prop} {as : List ι}

theorem Commas.leaves_items {first : Bool} (commas : Commas spells first as text) (progresses : Progresses read)
    (opens : ∀ a ∈ as, ∀ text, spells a text → Opens text)
    (each : ∀ a ∈ as, ∀ text, spells a text → Consumes mayFail read text (posts a)) (rest : List Char) :
    Leaves mayFail (']' :: rest) (List.Forall₂ posts as) (items read progresses first (text ++ ']' :: rest)) := by
  induction commas with
  | none blank =>
    rw [items_end (nextItem_closing _ blank rest)]
    exact .taken .nil
  | @some first lead item others a as isLead spelled later ih =>
    have delimited := later.delimited (delimited_closing (.inl rfl) rest)
    have more := nextItem_lead isLead (opens a List.mem_cons_self item spelled) (others ++ ']' :: rest)
    have taken := each a List.mem_cons_self item spelled isBlanks_nil delimited
    rw [List.append_assoc, List.append_assoc, items_eq, more]
    rw [List.nil_append] at taken
    simp only
    generalize read (item ++ (others ++ ']' :: rest)) = result at taken
    cases taken with
    | failed allowed => exact .failed allowed
    | taken holds =>
      have leaves := ih (fun other member => opens other (List.mem_cons_of_mem _ member))
        fun other member => each other (List.mem_cons_of_mem _ member)
      exact leaves.map fun _ all => ⟨_, rfl, .cons holds all⟩

theorem consumes_list (progresses : Progresses read) (opens : ∀ a ∈ as, ∀ text, spells a text → Opens text)
    (each : ∀ a ∈ as, ∀ text, spells a text → Consumes mayFail read text (posts a))
    (spelled : SpellsList spells as text) :
    Consumes mayFail (list read progresses) text (List.Forall₂ posts as) := by
  intro blanks rest blank _
  obtain ⟨commas⟩ := spelled
  rename_i inside
  have leaves := commas.leaves_items progresses opens each rest
  rw [show '[' :: (inside ++ [']']) ++ rest = '[' :: (inside ++ ']' :: rest) by simp, list,
    skipBlanks_append_cons blank (by decide)]
  change Leaves mayFail rest _ (items read progresses true (inside ++ ']' :: rest) >>= _)
  generalize items read progresses true (inside ++ ']' :: rest) = result at leaves
  cases leaves with
  | taken holds => exact .taken holds
  | failed allowed => exact .failed allowed

theorem consumes_list_eq {as : List α} {spells : α → List Char → Prop} (progresses : Progresses read)
    (values : ∀ a text, spells a text → IsValue text)
    (each : ∀ a text, spells a text → Consumes False read text (· = a)) (spelled : SpellsList spells as text) :
    Consumes False (list read progresses) text (· = as) := by
  have opens := fun a (_ : a ∈ as) text spelled => (values a text spelled).opens
  refine (consumes_list progresses opens (fun a _ => each a) spelled).imp fun _ all => ?_
  rw [← List.forall₂_eq_eq_eq]
  exact all.flip

end Containers

section Members

variable {member : σ → String → List Char → Except Interruption (σ × List Char)}
  {length : ∀ {state key cs next rest}, member state key cs = .ok (next, rest) → rest.length ≤ cs.length}
  {invariant : List (String × List Char) → σ → Prop} {values : List (String × List Char)} {state : σ}

/-- A relation between the members that are still to come and the state, kept by every member. -/
def Keeps (mayFail : Prop) (member : σ → String → List Char → Except Interruption (σ × List Char))
    (invariant : List (String × List Char) → σ → Prop) : Prop :=
  ∀ ⦃key value later state after⦄, invariant ((key, value) :: later) state → IsValue value → IsBlanks after →
    Consumes mayFail (member state key) (':' :: (after ++ value)) (invariant later)

/-- Behind the opening quote, the key is read up to the blanks before its colon. -/
theorem SpellsMember.characterList {key : String} {value : List Char} (spelled : SpellsMember (key, value) text) :
    ∃ inside before after, text = '\"' :: inside ∧ IsBlanks before ∧ IsBlanks after ∧ IsValue value ∧
      ∀ rest, characterList (inside ++ rest) = .ok (key.toList, before ++ (':' :: (after ++ value) ++ rest)) := by
  obtain ⟨⟨inside⟩, blank, blank', isValue⟩ := spelled
  rename_i before after characters
  refine ⟨characters ++ '\"' :: (before ++ ':' :: (after ++ value)), before, after, by simp, blank, blank',
    isValue, fun rest => ?_⟩
  have read := characterList_spelledAll inside (before ++ (':' :: (after ++ value) ++ rest))
  simpa using read

theorem Commas.leaves_members {first : Bool} (commas : Commas SpellsMember first values text)
    (keeps : Keeps mayFail member invariant) (holds : invariant values state) (rest : List Char) :
    Leaves mayFail ('\x7d' :: rest) (invariant [])
      (members member length first state (text ++ '\x7d' :: rest)) := by
  induction commas generalizing state with
  | none blank =>
    rw [members_end (nextMember_closing _ blank rest)]
    exact .taken holds
  | @some first lead item others labelled values isLead spelled later ih =>
    obtain ⟨key, value⟩ := labelled
    obtain ⟨inside, before, after, rfl, blank, blank', isValue, read⟩ := spelled.characterList
    have delimited := later.delimited (delimited_closing (.inr rfl) rest)
    have more := nextMember_lead isLead (inside ++ (others ++ '\x7d' :: rest))
    have put := keeps holds isValue blank' blank delimited
    rw [List.append_assoc, List.append_assoc, List.cons_append, members_eq, more]
    simp only [read, String.ofList_toList]
    -- the state after this member is any with the relation to the later ones
    generalize member state key _ = result at put
    cases put with
    | failed allowed => exact .failed allowed
    | taken holds => exact ih holds

/-- Members with one key are counted by the state. -/
theorem keeps_count (agrees : MemberAgrees member) {count : σ → Nat} {key : String}
    (counts : ∀ {state other cs next rest}, member state other cs = .ok (next, rest) →
      count next = count state + if other = key then 1 else 0) (total : Nat) :
    Keeps True member fun members state => count state + (valuesOf key members).length = total := by
  intro other value later state after holds isValue blank
  refine (agrees.consumes blank isValue state other).imp fun success _ => ?_
  change _ + _ = total
  rw [counts success]
  by_cases same : other = key
  · subst same
    rw [valuesOf_cons_same, List.length_cons] at holds
    rw [if_pos rfl]
    omega
  · rw [valuesOf_cons_other same] at holds
    rw [if_neg same]
    omega

theorem Commas.leaves_repeated (commas : Commas SpellsMember true values text) (agrees : MemberAgrees member)
    {count : σ → Nat} {key : String} (counts : ∀ {state other cs next rest},
      member state other cs = .ok (next, rest) → count next = count state + if other = key then 1 else 0)
    (bounded : ∀ state, count state ≤ 1) (twice : 2 ≤ (valuesOf key values).length) (state : σ)
    (rest : List Char) : Leaves True ('\x7d' :: rest) (fun _ => False)
      (members member length true state (text ++ '\x7d' :: rest)) := by
  refine (commas.leaves_members (keeps_count agrees counts _) rfl rest).imp fun last _ total => ?_
  have counted : count last = count state + (valuesOf key values).length := total
  have := bounded last
  omega

/-- A value that is never read stays among those to come. -/
theorem keeps_ahead (agrees : MemberAgrees member) {key : String} {value : List Char}
    (fails : ∀ state {after}, IsBlanks after →
      Consumes True (member state key) (':' :: (after ++ value)) fun _ => False) :
    Keeps True member fun members _ => value ∈ valuesOf key members := by
  intro other value' later state after ahead isValue blank
  by_cases same : other = key
  · subst same
    rw [valuesOf_cons_same] at ahead
    obtain rfl | still := List.mem_cons.1 ahead
    · exact (fails state blank).imp fun _ => False.elim
    · exact (agrees.consumes blank isValue state other).imp fun _ _ => still
  · rw [valuesOf_cons_other same] at ahead
    exact (agrees.consumes blank isValue state other).imp fun _ _ => ahead

theorem consumes_record {name : String} {ofItems ofMembers : List Char → Except Interruption (α × List Char)}
    {inside : List Char}
    (contents : ∀ rest, Leaves mayFail ('\x7d' :: rest) post (ofMembers (inside ++ '\x7d' :: rest))) :
    Consumes mayFail (record name ofItems ofMembers) ('\x7b' :: (inside ++ ['\x7d'])) post := by
  intro blanks rest blank _
  have leaves := contents rest
  rw [show '\x7b' :: (inside ++ ['\x7d']) ++ rest = '\x7b' :: (inside ++ '\x7d' :: rest) by simp, record,
    skipBlanks_append_cons blank (by decide)]
  change Leaves mayFail rest _ (finish closeObject (ofMembers (inside ++ '\x7d' :: rest)))
  generalize ofMembers (inside ++ '\x7d' :: rest) = result at leaves
  cases leaves with
  | taken holds => exact .taken holds
  | @failed interruption allowed => cases interruption <;> exact .failed allowed

theorem consumes_skipValue (isValue : IsValue text) : Consumes False skipValue text fun _ => True := by
  intro blanks rest blank delimited
  rw [isValue.skipValue_eq blank delimited]
  exact .taken trivial

theorem consumes_memberValue {read : List Char → Except Fault (α × List Char)} {value after : List Char}
    (consumes : Consumes mayFail read value post) (blank' : IsBlanks after) :
    Consumes mayFail (memberValue read) (':' :: (after ++ value)) post := by
  intro blanks rest blank delimited
  have leaves := consumes blank' delimited
  rw [show ':' :: (after ++ value) ++ rest = ':' :: (after ++ (value ++ rest)) by simp, memberValue,
    colon_blanks blank]
  simp only
  generalize read (after ++ (value ++ rest)) = result at leaves
  cases leaves with
  | taken holds => exact .taken holds
  | failed allowed => exact .failed allowed

end Members

end Lookahead.Json
