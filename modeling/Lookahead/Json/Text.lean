import Lookahead.Json.Progress

/-!
Strings of a document, read from the character after their opening quote.
-/

namespace Lookahead.Json

private def hexValue? (c : Char) : Option Nat :=
  if c.isDigit then some (c.toNat - '0'.toNat)
  else if 'a' ≤ c ∧ c ≤ 'f' then some (c.toNat - 'a'.toNat + 10)
  else if 'A' ≤ c ∧ c ≤ 'F' then some (c.toNat - 'A'.toNat + 10)
  else none

/-- The next four bytes are at fault, or the end of the text if it has fewer. -/
private def hexFault (cs : List Char) : Fault :=
  if byteCount cs < 4 then ⟨.stringEnds, 0⟩ else ⟨.invalidEscape, byteCount cs - 4⟩

/-- The number that four hexadecimal digits stand for. -/
def hexQuad (cs : List Char) : Except Fault (Nat × List Char) :=
  match cs with
  | a :: b :: c :: d :: rest =>
    match hexValue? a, hexValue? b, hexValue? c, hexValue? d with
    | some a, some b, some c, some d => .ok (((a * 16 + b) * 16 + c) * 16 + d, rest)
    | _, _, _, _ => .error (hexFault cs)
  | _ => .error (hexFault cs)

/-- Digits above nine are letters of either case. -/
def IsHexDigit (c : Char) (n : Nat) : Prop :=
  n < 16 ∧ (c = Nat.digitChar n ∨ c = (Nat.digitChar n).toUpper)

private theorem hexValue?_digitChar : ∀ n : Fin 16, hexValue? (Nat.digitChar n) = some n.val := by
  decide

private theorem hexValue?_toUpper : ∀ n : Fin 16, hexValue? (Nat.digitChar n).toUpper = some n.val := by
  decide

private theorem IsHexDigit.hexValue? {c : Char} {n : Nat} (digit : IsHexDigit c n) :
    hexValue? c = some n := by
  obtain ⟨small, rfl | rfl⟩ := digit
  · exact hexValue?_digitChar ⟨n, small⟩
  · exact hexValue?_toUpper ⟨n, small⟩

theorem hexQuad_of_digits {a b c d : Char} {i j k l : Nat} (first : IsHexDigit a i)
    (second : IsHexDigit b j) (third : IsHexDigit c k) (fourth : IsHexDigit d l) (rest : List Char) :
    hexQuad (a :: b :: c :: d :: rest) = .ok (((i * 16 + j) * 16 + k) * 16 + l, rest) := by
  simp only [hexQuad, first.hexValue?, second.hexValue?, third.hexValue?, fourth.hexValue?]

theorem hexQuad_digitChar {a b : Nat} (high : a < 16) (low : b < 16) (rest : List Char) :
    hexQuad ('0' :: '0' :: Nat.digitChar a :: Nat.digitChar b :: rest) = .ok (a * 16 + b, rest) := by
  have zero : IsHexDigit '0' 0 := ⟨by decide, .inl rfl⟩
  have quad := hexQuad_of_digits zero zero ⟨high, .inl rfl⟩ ⟨low, .inl rfl⟩ rest
  simpa using quad

/-- The character that a pair of surrogates stands for, read after the first of them. -/
private def secondSurrogate (high : Nat) (cs : List Char) : Except Fault (Char × List Char) :=
  match cs with
  | [] => .error (.before .stringEnds [])
  | '\\' :: [] => .error (.before .stringEnds [])
  | '\\' :: 'u' :: rest => do
    let (low, rest) ← hexQuad rest
    if 0xdc00 ≤ low ∧ low ≤ 0xdfff then
      .ok (Char.ofNat (0x10000 + (high - 0xd800) * 0x400 + (low - 0xdc00)), rest)
    else .error (.before .loneSurrogate rest)
  | '\\' :: rest => .error (.next .surrogateEnds rest)
  | _ => .error (.next .surrogateEnds cs)

/-- The character of an escape, read after its backslash. -/
def escape (cs : List Char) : Except Fault (Char × List Char) :=
  match cs with
  | [] => .error (.before .stringEnds [])
  | '\"' :: rest => .ok ('\"', rest)
  | '\\' :: rest => .ok ('\\', rest)
  | '/' :: rest => .ok ('/', rest)
  | 'b' :: rest => .ok ('\x08', rest)
  | 'f' :: rest => .ok ('\x0c', rest)
  | 'n' :: rest => .ok ('\n', rest)
  | 'r' :: rest => .ok ('\r', rest)
  | 't' :: rest => .ok ('\t', rest)
  | 'u' :: rest => do
    let (code, rest) ← hexQuad rest
    if 0xdc00 ≤ code ∧ code ≤ 0xdfff then .error (.before .loneSurrogate rest)
    else if 0xd800 ≤ code ∧ code ≤ 0xdbff then secondSurrogate code rest
    else .ok (Char.ofNat code, rest)
  | _ => .error (.next .invalidEscape cs)

theorem hexQuad_progresses : Progresses hexQuad := by
  intro cs code rest success
  unfold hexQuad at success
  grind

private theorem secondSurrogate_progresses (high : Nat) : Progresses (secondSurrogate high) := by
  intro cs c rest success
  have quad := hexQuad_progresses
  unfold Progresses at quad
  unfold secondSurrogate at success
  simp only [bind, Except.bind] at success
  grind

theorem escape_progresses : Progresses escape := by
  intro cs c rest success
  have quad := hexQuad_progresses
  have second := secondSurrogate_progresses
  unfold Progresses at quad second
  unfold escape at success
  simp only [bind, Except.bind] at success
  grind

theorem escape_surrogates {first second rest : List Char} {high low : Nat}
    (front : hexQuad first = .ok (high, '\\' :: 'u' :: second))
    (leading : 0xd800 ≤ high ∧ high ≤ 0xdbff) (back : hexQuad second = .ok (low, rest))
    (trailing : 0xdc00 ≤ low ∧ low ≤ 0xdfff) :
    escape ('u' :: first) =
      .ok (Char.ofNat (0x10000 + (high - 0xd800) * 0x400 + (low - 0xdc00)), rest) := by
  have other : ¬ (0xdc00 ≤ high ∧ high ≤ 0xdfff) := by omega
  simp only [escape, front, bind, Except.bind, if_neg other, if_pos leading, secondSurrogate, back,
    if_pos trailing]

/-- A second number may follow the one of an escape. -/
theorem rest_of_escape {cs rest : List Char} {c : Char} (success : escape ('u' :: cs) = .ok (c, rest)) :
    ∃ code after, hexQuad cs = .ok (code, after) ∧
      (rest = after ∨ ∃ low second, after = '\\' :: 'u' :: second ∧ hexQuad second = .ok (low, rest)) := by
  simp only [escape, bind, Except.bind] at success
  split at success
  · contradiction
  rename_i pair read
  refine ⟨pair.1, pair.2, read, ?_⟩
  split at success
  · contradiction
  split at success
  · unfold secondSurrogate at success
    simp only [bind, Except.bind] at success
    grind
  · grind

/-- The characters of a string up to its closing quote, which is taken too. -/
def characterList (cs : List Char) : Except Fault (List Char × List Char) :=
  match cs with
  | [] => .error (.before .stringEnds [])
  | '\"' :: rest => .ok ([], rest)
  | '\\' :: rest =>
    match _ : escape rest with
    | .error fault => .error fault
    | .ok (c, rest) => (characterList rest).map fun (cs, rest) => (c :: cs, rest)
  | c :: rest =>
    if c.toNat < 0x20 then .error (.next .controlCharacter cs)
    else (characterList rest).map fun (cs, rest) => (c :: cs, rest)
termination_by cs.length
decreasing_by
  · have := escape_progresses _ _ _ ‹_›
    grind
  · simp

theorem characterList_progresses : Progresses characterList := by
  intro cs
  have step := escape_progresses
  unfold Progresses at step
  fun_induction characterList cs <;> simp_all [Except.map] <;> grind

end Lookahead.Json
