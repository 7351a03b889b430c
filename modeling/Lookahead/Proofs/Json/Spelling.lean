import Lookahead.Json.Text
import Mathlib.Data.List.Forall2

/-!
Texts of JSON by its grammar, apart from any reader. A value has many spellings: blanks stand between tokens,
members come in any order, and characters of strings are raw or escaped in several ways.
-/

namespace Lookahead.Json

/-- What may stand between tokens. -/
def IsBlanks (text : List Char) : Prop := ∀ c ∈ text, c = ' ' ∨ c = '\n' ∨ c = '\t' ∨ c = '\r'

theorem isBlanks_nil : IsBlanks [] := by simp [IsBlanks]

section Strings

/-- The letters after a backslash, with the characters that they stand for. -/
def shortEscapes : List (Char × Char) :=
  [('\"', '\"'), ('\\', '\\'), ('/', '/'), ('b', '\x08'), ('f', '\x0c'), ('n', '\n'), ('r', '\r'), ('t', '\t')]

inductive IsQuad : List Char → Nat → Prop
  | digits {a b c d : Char} {i j k l : Nat} (first : IsHexDigit a i) (second : IsHexDigit b j)
      (third : IsHexDigit c k) (fourth : IsHexDigit d l) :
      IsQuad [a, b, c, d] (((i * 16 + j) * 16 + k) * 16 + l)

/-- Beyond the first sixteen bits, a character is escaped by the two numbers that UTF-16 has for it. -/
inductive SpellsChar : Char → List Char → Prop
  | raw {c : Char} (plain : c ≠ '\"' ∧ c ≠ '\\') (visible : 0x20 ≤ c.toNat) : SpellsChar c [c]
  | short {letter c : Char} (known : (letter, c) ∈ shortEscapes) : SpellsChar c ['\\', letter]
  | unit {c : Char} {quad : List Char} (digits : IsQuad quad c.toNat) : SpellsChar c ('\\' :: 'u' :: quad)
  | pair {c : Char} {high low : List Char} (wide : 0x10000 ≤ c.toNat)
      (leading : IsQuad high (0xd800 + (c.toNat - 0x10000) / 0x400))
      (trailing : IsQuad low (0xdc00 + (c.toNat - 0x10000) % 0x400)) :
      SpellsChar c ('\\' :: 'u' :: (high ++ '\\' :: 'u' :: low))

inductive SpellsChars : List Char → List Char → Prop
  | nil : SpellsChars [] []
  | cons {c : Char} {cs piece text : List Char} (first : SpellsChar c piece) (later : SpellsChars cs text) :
      SpellsChars (c :: cs) (piece ++ text)

inductive SpellsText (s : String) : List Char → Prop
  | quoted {text : List Char} (inside : SpellsChars s.toList text) : SpellsText s ('\"' :: (text ++ ['\"']))

theorem spellsChars_raw {cs : List Char} (raw : cs.all fun c => (c ≠ '\"' ∧ c ≠ '\\') ∧ 0x20 ≤ c.toNat) :
    SpellsChars cs cs := by
  induction cs with
  | nil => exact .nil
  | cons c cs ih =>
    rw [List.all_cons, Bool.and_eq_true, decide_eq_true_iff] at raw
    obtain ⟨⟨plain, visible⟩, later⟩ := raw
    exact .cons (.raw plain visible) (ih later)

/-- A piece of a string, where the two numbers of a character need not come in pairs. -/
inductive IsPiece : List Char → Prop
  | raw {c : Char} (plain : c ≠ '\"' ∧ c ≠ '\\') (visible : 0x20 ≤ c.toNat) : IsPiece [c]
  | short {letter c : Char} (known : (letter, c) ∈ shortEscapes) : IsPiece ['\\', letter]
  | unit {quad : List Char} {code : Nat} (digits : IsQuad quad code) : IsPiece ('\\' :: 'u' :: quad)

inductive IsString : List Char → Prop
  | quoted {pieces : List (List Char)} (each : ∀ piece ∈ pieces, IsPiece piece) :
      IsString ('\"' :: (pieces.flatten ++ ['\"']))

end Strings

section Numbers

def IsDigits (text : List Char) : Prop := text ≠ [] ∧ ∀ c ∈ text, c.isDigit

/-- Zeros are no leading digits. -/
def IsWhole (text : List Char) : Prop := text = ['0'] ∨ IsDigits text ∧ text.head? ≠ some '0'

def IsFraction (text : List Char) : Prop := text = [] ∨ ∃ digits, IsDigits digits ∧ text = '.' :: digits

def IsExponent (text : List Char) : Prop :=
  text = [] ∨ ∃ letter sign digits, (letter = 'e' ∨ letter = 'E') ∧ (sign = [] ∨ sign = ['+'] ∨ sign = ['-']) ∧
    IsDigits digits ∧ text = letter :: (sign ++ digits)

/-- A number after its sign. -/
inductive IsUnsigned : List Char → Prop
  | parts {whole fraction exponent : List Char} (first : IsWhole whole) (second : IsFraction fraction)
      (third : IsExponent exponent) : IsUnsigned (whole ++ (fraction ++ exponent))

end Numbers

section Containers

variable {ι : Type}

/-- What stands before an item: blanks, and a comma unless it is the first. -/
inductive IsLead : Bool → List Char → Prop
  | first {blanks : List Char} (blank : IsBlanks blanks) : IsLead true blanks
  | later {before after : List Char} (blank : IsBlanks before) (blank' : IsBlanks after) :
      IsLead false (before ++ ',' :: after)

/-- What stands between the brackets or braces around items, or what is left of it after an item. -/
inductive Commas (spells : ι → List Char → Prop) : Bool → List ι → List Char → Prop
  | none {first : Bool} {blanks : List Char} (blank : IsBlanks blanks) : Commas spells first [] blanks
  | some {first : Bool} {lead text others : List Char} {a : ι} {as : List ι} (isLead : IsLead first lead)
      (spelled : spells a text) (later : Commas spells false as others) :
      Commas spells first (a :: as) (lead ++ (text ++ others))

/-- What stands before the value of a member. -/
inductive IsLabel : List Char → Prop
  | key {text before after : List Char} (string : IsString text) (blank : IsBlanks before)
      (blank' : IsBlanks after) : IsLabel (text ++ (before ++ ':' :: after))

/-- The texts of JSON, of any depth. -/
inductive IsValue : List Char → Prop
  | null : IsValue ['n', 'u', 'l', 'l']
  | true : IsValue ['t', 'r', 'u', 'e']
  | false : IsValue ['f', 'a', 'l', 's', 'e']
  | positive {text : List Char} (number : IsUnsigned text) : IsValue text
  | negative {text : List Char} (number : IsUnsigned text) : IsValue ('-' :: text)
  | text {text : List Char} (string : IsString text) : IsValue text
  | list {items : List (List Char)} {inside : List Char} (each : ∀ item ∈ items, IsValue item)
      (commas : Commas Eq true items inside) : IsValue ('[' :: (inside ++ [']']))
  | object {members : List (List Char × List Char)} {inside : List Char}
      (labels : ∀ member ∈ members, IsLabel member.1) (each : ∀ member ∈ members, IsValue member.2)
      (commas : Commas (fun member text => member.1 ++ member.2 = text) true members inside) :
      IsValue ('\x7b' :: (inside ++ ['\x7d']))

inductive SpellsList (spells : ι → List Char → Prop) (as : List ι) : List Char → Prop
  | bracketed {inside : List Char} (commas : Commas spells true as inside) :
      SpellsList spells as ('[' :: (inside ++ [']']))

/-- A member by its key, with any text of JSON as its value. -/
inductive SpellsMember : String × List Char → List Char → Prop
  | labelled {key : String} {text before after value : List Char} (spelled : SpellsText key text)
      (blank : IsBlanks before) (blank' : IsBlanks after) (isValue : IsValue value) :
      SpellsMember (key, value) (text ++ (before ++ ':' :: (after ++ value)))

inductive SpellsObject (members : List (String × List Char)) : List Char → Prop
  | braced {inside : List Char} (commas : Commas SpellsMember true members inside) :
      SpellsObject members ('\x7b' :: (inside ++ ['\x7d']))

/-- The values of all members with one key, in order. -/
def valuesOf (key : String) (members : List (String × List Char)) : List (List Char) :=
  (members.filter (·.1 = key)).map (·.2)

theorem valuesOf_cons_same (key : String) (value : List Char) (members : List (String × List Char)) :
    valuesOf key ((key, value) :: members) = value :: valuesOf key members := by
  simp [valuesOf]

theorem valuesOf_cons_other {key other : String} (differs : other ≠ key) (value : List Char)
    (members : List (String × List Char)) : valuesOf key ((other, value) :: members) = valuesOf key members := by
  simp [valuesOf, differs]

end Containers

section Values

variable {ι κ : Type} {spells : ι → List Char → Prop} {spells' : κ → List Char → Prop} {required : κ → Prop}
  {as : List ι} {text : List Char}

theorem SpellsChar.exists_pieces {c : Char} (spelled : SpellsChar c text) :
    ∃ pieces : List (List Char), (∀ piece ∈ pieces, IsPiece piece) ∧ text = pieces.flatten := by
  cases spelled with
  | raw plain visible => exact ⟨[_], by simpa using .raw plain visible, by simp⟩
  | short known => exact ⟨[_], by simpa using .short known, by simp⟩
  | unit digits => exact ⟨[_], by simpa using .unit digits, by simp⟩
  | @pair _ high low wide leading trailing =>
    refine ⟨['\\' :: 'u' :: high, '\\' :: 'u' :: low], ?_, by simp⟩
    simpa using ⟨.unit leading, .unit trailing⟩

theorem SpellsChars.exists_pieces {cs : List Char} (spelled : SpellsChars cs text) :
    ∃ pieces : List (List Char), (∀ piece ∈ pieces, IsPiece piece) ∧ text = pieces.flatten := by
  induction spelled with
  | nil => exact ⟨[], by simp, rfl⟩
  | cons first later ih =>
    obtain ⟨front, each, rfl⟩ := first.exists_pieces
    obtain ⟨back, each', rfl⟩ := ih
    exact ⟨front ++ back, by simpa [or_imp, forall_and] using ⟨each, each'⟩, List.flatten_append.symm⟩

theorem SpellsText.isString {s : String} (spelled : SpellsText s text) : IsString text := by
  obtain ⟨inside⟩ := spelled
  obtain ⟨pieces, each, rfl⟩ := inside.exists_pieces
  exact .quoted each

theorem SpellsText.isValue {s : String} (spelled : SpellsText s text) : IsValue text := .text spelled.isString

theorem Commas.exists_other {first : Bool} (commas : Commas spells first as text)
    (other : ∀ a ∈ as, ∀ text, spells a text → ∃ b, spells' b text ∧ required b) :
    ∃ bs, Commas spells' first bs text ∧ ∀ b ∈ bs, required b := by
  induction commas with
  | none blank => exact ⟨[], .none blank, by simp⟩
  | some isLead spelled later ih =>
    obtain ⟨b, spelled', holds⟩ := other _ List.mem_cons_self _ spelled
    obtain ⟨bs, later', each⟩ := ih fun a member => other a (List.mem_cons_of_mem _ member)
    exact ⟨b :: bs, .some isLead spelled' later', List.forall_mem_cons.2 ⟨holds, each⟩⟩

theorem SpellsList.isValue (spelled : SpellsList spells as text)
    (each : ∀ a ∈ as, ∀ text, spells a text → IsValue text) : IsValue text := by
  obtain ⟨commas⟩ := spelled
  have other : ∀ a ∈ as, ∀ text, spells a text → ∃ item, item = text ∧ IsValue item :=
    fun a member text spelled => ⟨text, rfl, each a member text spelled⟩
  obtain ⟨items, commas, values⟩ := commas.exists_other other
  exact .list values commas

theorem SpellsObject.isValue {members : List (String × List Char)} (spelled : SpellsObject members text) :
    IsValue text := by
  obtain ⟨commas⟩ := spelled
  have other : ∀ member ∈ members, ∀ text, SpellsMember member text →
      ∃ pair : List Char × List Char, pair.1 ++ pair.2 = text ∧ IsLabel pair.1 ∧ IsValue pair.2 := by
    rintro member - _ ⟨spelled, blank, blank', isValue⟩
    exact ⟨(_, _), by simp, .key spelled.isString blank blank', isValue⟩
  obtain ⟨pairs, commas, each⟩ := commas.exists_other other
  exact .object (fun pair member => (each pair member).1) (fun pair member => (each pair member).2) commas

end Values

end Lookahead.Json
