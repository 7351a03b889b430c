import Lookahead.Json.ValueReader
import Lookahead.Proofs.Json.Tokens

/-!
What is written can be read back: strings character for character, then lists and objects with any reader for
what is in them, and then values whose containers are not nested too deep.
-/

namespace Lookahead.Json

section Strings

theorem escape_hex {c : Char} (control : c.toNat < 0x20) (rest : List Char) :
    escape ('u' :: '0' :: '0' :: Nat.digitChar (c.toNat / 16) :: Nat.digitChar (c.toNat % 16) :: rest) =
      .ok (c, rest) := by
  have quad := hexQuad_digitChar (a := c.toNat / 16) (b := c.toNat % 16) (by omega) (by omega) rest
  rw [Nat.div_add_mod'] at quad
  rw [escape, quad]
  simp only [bind, Except.bind]
  rw [if_neg (by omega), if_neg (by omega), Char.ofNat_toNat]

theorem characterList_escape {c : Char} {escape_cs cs inner rest : List Char}
    (escapes : escape escape_cs = .ok (c, inner)) (later : characterList inner = .ok (cs, rest)) :
    characterList ('\\' :: escape_cs) = .ok (c :: cs, rest) := by
  rw [characterList]
  split
  · rename_i fault failed
    rw [escapes] at failed
    contradiction
  · rename_i first next read
    obtain ⟨rfl, rfl⟩ := Prod.mk.inj (Except.ok.inj (escapes.symm.trans read))
    rw [later]
    rfl

theorem characterList_raw {c : Char} (plain : ¬ (c = '\"' ∨ c = '\\')) (visible : ¬ c.toNat < 0x20)
    {cs inner rest : List Char} (later : characterList inner = .ok (cs, rest)) :
    characterList (c :: inner) = .ok (c :: cs, rest) := by
  rw [characterList, if_neg visible, later]
  · rfl
  · exact fun quote => plain (.inl quote)
  · exact fun backslash => plain (.inr backslash)

theorem characterList_escaped (c : Char) {cs inner rest : List Char}
    (later : characterList inner = .ok (cs, rest)) :
    characterList (escaped c ++ inner) = .ok (c :: cs, rest) := by
  unfold escaped
  split
  · rename_i special
    rcases special with rfl | rfl <;> exact characterList_escape rfl later
  rename_i plain
  -- the five control characters with escapes of their own
  iterate 5
    split
    · rename_i same
      exact characterList_escape (same ▸ rfl) later
  split
  · rename_i control
    exact characterList_escape (escape_hex control inner) later
  · rename_i visible
    exact characterList_raw plain visible later

theorem characterList_flatMap_escaped (cs rest : List Char) :
    characterList (cs.flatMap escaped ++ '\"' :: rest) = .ok (cs, rest) := by
  induction cs with
  | nil => rw [List.flatMap_nil, List.nil_append, characterList]
  | cons c cs ih =>
    rw [List.flatMap_cons, List.append_assoc]
    exact characterList_escaped c ih

theorem text_characters_append (s : String) (rest : List Char) :
    (text s).characters ++ rest = '\"' :: (s.toList.flatMap escaped ++ '\"' :: rest) := by
  simp [characters, quotedText]

end Strings

section Containers

/-- Containers are nested no deeper than the limit. -/
def FitsIn : Nat → Json → Prop
  | 0, array _ | 0, object _ => False
  | limit + 1, array items => ∀ item ∈ items, FitsIn limit item
  | limit + 1, object members => ∀ member ∈ members, FitsIn limit member.2
  | _, _ => True

theorem opens_characters (value : Json) : Opens value.characters := by
  cases value with
  | null => exact ⟨'n', _, rfl, by decide, by decide⟩
  | bool value => cases value <;> exact ⟨_, _, rfl, by decide, by decide⟩
  | text s => exact ⟨'\"', _, rfl, by decide, by decide⟩
  | array items => exact ⟨'[', _, rfl, by decide, by decide⟩
  | object members => exact ⟨'\x7b', _, rfl, by decide, by decide⟩

theorem itemCharacters_cons (item : Json) (items : List Json) :
    itemCharacters (item :: items) =
      item.characters ++ items.flatMap fun other => ',' :: other.characters := by
  induction items generalizing item with
  | nil => simp [itemCharacters]
  | cons next rest ih => rw [itemCharacters, ih, List.flatMap_cons, List.cons_append]

def memberText (member : String × Json) : List Char :=
  quotedText member.1 ++ ':' :: member.2.characters

theorem memberCharacters_cons (member : String × Json) (members : List (String × Json)) :
    memberCharacters (member :: members) =
      memberText member ++ members.flatMap fun other => ',' :: memberText other := by
  induction members generalizing member with
  | nil => simp [memberCharacters, memberText]
  | cons next rest ih =>
    rw [memberCharacters, ih, List.flatMap_cons]
    simp [memberText]

variable {α σ : Type} {read : List Char → Except Fault (α × List Char)}

/-- The text of the value is read as `a`, whatever comes after it. -/
def Reads (read : List Char → Except Fault (α × List Char)) (value : Json) (a : α) : Prop :=
  ∀ rest, read (value.characters ++ rest) = .ok (a, rest)

theorem items_eq (progresses : Progresses read) (first : Bool) (cs : List Char) :
    items read progresses first cs =
      match nextItem first cs with
      | .error fault => .error fault
      | .ok (false, rest) => .ok ([], rest)
      | .ok (true, rest) =>
        match read rest with
        | .error fault => .error fault
        | .ok (a, rest) => (items read progresses false rest).map fun (as, rest) => (a :: as, rest) := by
  rw [items]
  split
  · rename_i found
    rw [found]
  · rename_i found
    rw [found]
  · rename_i text found
    simp only [found]
    split
    · rename_i failed
      rw [failed]
    · rename_i success
      rw [success]

variable {progresses : Progresses read}

theorem items_end {first : Bool} {cs rest : List Char} (none : nextItem first cs = .ok (false, rest)) :
    items read progresses first cs = .ok ([], rest) := by
  rw [items_eq, none]

theorem items_more {first : Bool} {cs text after rest : List Char} {a : α} {as : List α}
    (more : nextItem first cs = .ok (true, text)) (success : read text = .ok (a, after))
    (later : items read progresses false after = .ok (as, rest)) :
    items read progresses first cs = .ok (a :: as, rest) := by
  rw [items_eq, more]
  simp only [success, later]
  rfl

variable {spell : α → Json} {as : List α}

theorem items_later (each : ∀ a ∈ as, Reads read (spell a) a) (rest : List Char) :
    items read progresses false (((as.map spell).flatMap fun value => ',' :: value.characters) ++ ']' :: rest) =
      .ok (as, ']' :: rest) := by
  induction as with
  | nil => exact items_end (nextItem_closing false isBlanks_nil rest)
  | cons a as ih =>
    rw [List.map_cons, List.flatMap_cons, List.append_assoc, List.cons_append]
    exact items_more (nextItem_lead (.later isBlanks_nil isBlanks_nil) (opens_characters (spell a)) _)
      (each a List.mem_cons_self _) (ih fun other member => each other (List.mem_cons_of_mem _ member))

theorem items_itemCharacters (each : ∀ a ∈ as, Reads read (spell a) a) (rest : List Char) :
    items read progresses true (itemCharacters (as.map spell) ++ ']' :: rest) = .ok (as, ']' :: rest) := by
  cases as with
  | nil => exact items_end (nextItem_closing true isBlanks_nil rest)
  | cons a as =>
    rw [List.map_cons, itemCharacters_cons, List.append_assoc]
    exact items_more (nextItem_lead (.first isBlanks_nil) (opens_characters (spell a)) _) (each a List.mem_cons_self _)
      (items_later (fun other member => each other (List.mem_cons_of_mem _ member)) rest)

theorem array_characters_append (items : List Json) (rest : List Char) :
    (array items).characters ++ rest = '[' :: (itemCharacters items ++ ']' :: rest) := by
  simp [characters]

/-- Values of one type, read by the reader of that type. -/
theorem reads_list (progresses : Progresses read) (each : ∀ a ∈ as, Reads read (spell a) a) :
    Reads (list read progresses) (array (as.map spell)) as := by
  intro rest
  rw [array_characters_append]
  change (items read progresses true (itemCharacters (as.map spell) ++ ']' :: rest) >>= _) = _
  rw [items_itemCharacters each]
  rfl

theorem memberValue_characters {value : Json} {a : α} (reads : Reads read value a) (rest : List Char) :
    memberValue read (':' :: (value.characters ++ rest)) = .ok (a, rest) := by
  have opened : colon (':' :: (value.characters ++ rest)) = .ok (value.characters ++ rest) := rfl
  rw [memberValue, opened]
  simp only [reads rest]

variable {member : σ → String → List Char → Except Interruption (σ × List Char)}
  {length : ∀ {state key cs next rest}, member state key cs = .ok (next, rest) → rest.length ≤ cs.length}

theorem members_eq (length : ∀ {state key cs next rest}, member state key cs = .ok (next, rest) →
    rest.length ≤ cs.length) (first : Bool) (state : σ) (cs : List Char) :
    members member length first state cs =
      match nextMember first cs with
      | .error fault => .error (.fault fault)
      | .ok (false, rest) => .ok (state, rest)
      | .ok (true, rest) =>
        match characterList rest with
        | .error fault => .error (.fault fault)
        | .ok (key, rest) =>
          match member state (String.ofList key) rest with
          | .error interruption => .error interruption
          | .ok (state, rest) => members member length false state rest := by
  rw [members]
  split
  · rename_i found
    rw [found]
  · rename_i found
    rw [found]
  · rename_i text found
    simp only [found]
    split
    · rename_i failed
      rw [failed]
    · rename_i success
      simp only [success]
      split
      · rename_i put
        rw [put]
      · rename_i put
        rw [put]

/-- The states that a reader of members goes through while it reads the given ones. -/
inductive Takes (member : σ → String → List Char → Except Interruption (σ × List Char)) :
    σ → List (String × Json) → σ → Prop
  | none (state : σ) : Takes member state [] state
  | more {state next last : σ} {key : String} {value : Json} {later : List (String × Json)}
      (first : ∀ rest, member state key (':' :: (value.characters ++ rest)) = .ok (next, rest))
      (others : Takes member next later last) : Takes member state ((key, value) :: later) last

theorem members_end {first : Bool} {state : σ} {cs rest : List Char}
    (none : nextMember first cs = .ok (false, rest)) :
    members member length first state cs = .ok (state, rest) := by
  rw [members_eq, none]

theorem members_more {first : Bool} {state next last : σ} {cs rest after : List Char} {key : String}
    {value : Json} (put : member state key (':' :: (value.characters ++ after)) = .ok (next, after))
    (more : nextMember first cs =
      .ok (true, key.toList.flatMap escaped ++ '\"' :: ':' :: (value.characters ++ after)))
    (later : members member length false next after = .ok (last, rest)) :
    members member length first state cs = .ok (last, rest) := by
  have key_read := characterList_flatMap_escaped key.toList (':' :: (value.characters ++ after))
  rw [members_eq, more]
  simp only [key_read, String.ofList_toList, put]
  exact later

theorem nextMember_quoted (first : Bool) (key : String) (value : Json) (rest : List Char) :
    nextMember first ((if first then [] else [',']) ++ memberText (key, value) ++ rest) =
      .ok (true, key.toList.flatMap escaped ++ '\"' :: ':' :: (value.characters ++ rest)) := by
  cases first <;> simp [memberText, quotedText] <;> rfl

theorem members_later {state last : σ} {values : List (String × Json)} (takes : Takes member state values last)
    (rest : List Char) :
    members member length false state
      ((values.flatMap fun value => ',' :: memberText value) ++ '\x7d' :: rest) = .ok (last, '\x7d' :: rest) := by
  induction takes with
  | none => exact members_end rfl
  | @more state next last key value later first others ih =>
    rw [List.flatMap_cons, List.append_assoc]
    exact members_more (first _) (nextMember_quoted false key value _) ih

theorem members_memberCharacters {state last : σ} {values : List (String × Json)}
    (takes : Takes member state values last) (rest : List Char) :
    members member length true state (memberCharacters values ++ '\x7d' :: rest) =
      .ok (last, '\x7d' :: rest) := by
  cases takes with
  | none => exact members_end rfl
  | @more _ next _ key value later first others =>
    rw [memberCharacters_cons, List.append_assoc]
    exact members_more (first _) (nextMember_quoted true key value _) (members_later others rest)

theorem object_characters_append (members : List (String × Json)) (rest : List Char) :
    (object members).characters ++ rest = '\x7b' :: (memberCharacters members ++ '\x7d' :: rest) := by
  simp [characters]

/-- A record, where what its members are read as is read up to the closing brace. -/
theorem reads_record {name : String} {ofItems ofMembers : List Char → Except Interruption (α × List Char)}
    {values : List (String × Json)} {a : α}
    (inside : ∀ rest, ofMembers (memberCharacters values ++ '\x7d' :: rest) = .ok (a, '\x7d' :: rest)) :
    Reads (record name ofItems ofMembers) (object values) a := by
  intro rest
  rw [object_characters_append]
  change finish closeObject (ofMembers (memberCharacters values ++ '\x7d' :: rest)) = _
  rw [inside]
  rfl

end Containers

section Values

variable {reader : ValueReader}

/-- The reader reads the value back from its text. -/
def ReadsBack (reader : ValueReader) (value : Json) : Prop :=
  ∀ rest, reader.read (value.characters ++ rest) = .ok (value, rest)

theorem takes_putMember {values : List (String × Json)} (each : ∀ member ∈ values, ReadsBack reader member.2)
    (state : List (String × Json)) : Takes (putMember reader) state values (state ++ values) := by
  induction values generalizing state with
  | nil =>
    rw [List.append_nil]
    exact .none state
  | cons member values ih =>
    obtain ⟨key, value⟩ := member
    have later := ih (fun other listed => each other (List.mem_cons_of_mem _ listed)) (state ++ [(key, value)])
    rw [List.append_assoc, List.singleton_append] at later
    refine .more (fun rest => ?_) later
    rw [putMember, memberValue_characters (each _ List.mem_cons_self)]
    rfl

theorem readsBack_around {inner : Option ValueReader} {value : Json}
    (items : ∀ values, value = array values →
      ∃ reader, inner = some reader ∧ ∀ item ∈ values, ReadsBack reader item)
    (members : ∀ values, value = object values →
      ∃ reader, inner = some reader ∧ ∀ member ∈ values, ReadsBack reader member.2) :
    ReadsBack (.around inner) value := by
  intro rest
  cases value with
  | null => rfl
  | bool value => cases value <;> rfl
  | text s =>
    rw [text_characters_append]
    change (characterList (s.toList.flatMap escaped ++ '\"' :: rest)).map _ = _
    rw [characterList_flatMap_escaped]
    simp only [Except.map, String.ofList_toList]
  | array values =>
    obtain ⟨reader, rfl, each⟩ := items values rfl
    rw [array_characters_append]
    change (list reader.read reader.progresses ('[' :: (itemCharacters values ++ ']' :: rest))).map _ = _
    have whole : Reads (list reader.read reader.progresses) (array (values.map id)) values :=
      reads_list reader.progresses each
    have items := whole rest
    rw [List.map_id, array_characters_append] at items
    rw [items]
    rfl
  | object values =>
    obtain ⟨reader, rfl, each⟩ := members values rfl
    rw [object_characters_append]
    change (finish closeObject (Json.members (putMember reader) putMember_length true []
      (memberCharacters values ++ '\x7d' :: rest))).map _ = _
    rw [members_memberCharacters (takes_putMember each [])]
    rfl

theorem readsBack_valueReader {limit : Nat} {value : Json} (fits : FitsIn limit value) :
    ReadsBack (valueReader limit) value := by
  induction limit generalizing value with
  | zero =>
    refine readsBack_around ?_ ?_
    · rintro values rfl
      exact absurd fits (by simp [FitsIn])
    · rintro values rfl
      exact absurd fits (by simp [FitsIn])
  | succ limit ih =>
    refine readsBack_around ?_ ?_
    · rintro values rfl
      exact ⟨_, rfl, fun item member => ih (fits item member)⟩
    · rintro values rfl
      exact ⟨_, rfl, fun item member => ih (fits item member)⟩

/-- A written value is read back as it was. -/
theorem read?_render {value : Json} (fits : FitsIn nestingLimit value) :
    read? value.render = some value := by
  have reads := readsBack_valueReader fits []
  rw [List.append_nil] at reads
  rw [read?, render, String.toList_ofList, reads]
  rfl

end Values

end Lookahead.Json
