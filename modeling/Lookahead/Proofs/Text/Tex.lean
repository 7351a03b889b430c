import Lookahead.Text.Blank
import Lookahead.Text.Tex
import Mathlib.Tactic.SplitIfs

/-!
Text inside a TeX document, read back. How a TeX text begins tells the character that it stands for, so no two
texts have the same TeX text, and none is mistaken for a sign of the document.
-/

namespace Lookahead.Text

/-- The character spelled out by a command, told from the letters in which commands differ. -/
def texCommand (letters : List Char) : Char :=
  match letters[4]? with
  | some 'l' => '<'
  | some 'g' => '>'
  | some 'b' => '\\'
  | _ => if letters[9]? = some 't' then '~' else '^'

/-- The first character of the text that a TeX text stands for. -/
def texHead : List Char → Option Char
  | [] => none
  | first :: rest =>
    if first = '\\' then if rest.head? = some 't' then some (texCommand rest) else rest.head?
    else if first = '\x7b' then rest.head?
    else some first

theorem toList_tex (text : String) : (tex text).toList = texCharacters text.toList := String.toList_ofList

theorem texHead_texCharacter (c : Char) (next : Option Char) (rest : List Char) :
    texHead (texCharacter c next ++ rest) = some c := by
  unfold texCharacter
  split_ifs with escaped bracket tilde caret less greater exclamation backslash hyphen
  · simp only [List.mem_cons, List.not_mem_nil, or_false] at escaped
    rcases escaped with rfl | rfl | rfl | rfl | rfl | rfl | rfl <;> rfl
  · rcases bracket with rfl | rfl <;> rfl
  · cases tilde; rfl
  · cases caret; rfl
  · cases less; rfl
  · cases greater; rfl
  · cases exclamation; rfl
  · cases backslash; rfl
  · cases hyphen.1; rfl
  · have plain : c ≠ '\x7b' := by
      rintro rfl
      exact escaped (by decide)
    simp [texHead, backslash, plain]

theorem texHead_texCharacters (text : List Char) : texHead (texCharacters text) = text.head? := by
  cases text with
  | nil => rfl
  | cons c rest => exact texHead_texCharacter c rest.head? _

/-- Only hyphens are written in view of what comes next. -/
theorem texCharacter_eq_of_ne {c : Char} (other : c ≠ '-') (next next' : Option Char) :
    texCharacter c next = texCharacter c next' := by
  simp only [texCharacter, other, false_and, if_false]

theorem texCharacter_hyphen (next : Option Char) :
    texCharacter '-' next = if next = some '-' then "-\x7b\x7d".toList else ['-'] := by
  change (if '-' = '-' ∧ next = some '-' then _ else _) = _
  simp only [true_and]

theorem texCharacter_ne_nil (c : Char) (next : Option Char) : texCharacter c next ≠ [] := by
  intro empty
  have head := texHead_texCharacter c next []
  rw [empty] at head
  contradiction

theorem texCharacters_ne_nil {text : List Char} (filled : text ≠ []) : texCharacters text ≠ [] := by
  obtain ⟨c, rest, rfl⟩ := List.exists_cons_of_ne_nil filled
  exact List.append_ne_nil_of_left_ne_nil (texCharacter_ne_nil c _) _

theorem head?_texCharacters (c : Char) (rest : List Char) :
    (texCharacters (c :: rest)).head? = (texCharacter c none).head? := by
  rw [texCharacters, List.head?_append, Option.or_of_isSome (List.isSome_head?.2 (texCharacter_ne_nil c _))]
  by_cases hyphen : c = '-'
  · subst hyphen
    rw [texCharacter_hyphen]
    split <;> rfl
  · rw [texCharacter_eq_of_ne hyphen]

/-- What does not begin as the character it would begin with is written is no TeX text. -/
theorem texCharacters_ne {signs : List Char} (filled : signs ≠ [])
    (wrong : ∀ c ∈ texHead signs, (texCharacter c none).head? ≠ signs.head?) (text : List Char) :
    texCharacters text ≠ signs := by
  rintro rfl
  cases text with
  | nil => exact filled rfl
  | cons c rest => exact wrong c (texHead_texCharacters _) (head?_texCharacters c rest).symm

theorem texCharacters_ne_group (text signs : List Char) : texCharacters text ≠ '\x7b' :: '\x7d' :: signs := by
  refine texCharacters_ne (List.cons_ne_nil _ _) ?_ text
  rintro c ⟨⟩
  rw [List.head?_cons]
  decide

/-- A hyphen kept apart from the next one is no hyphen before something else, as no TeX text begins with an
empty group. -/
theorem texCharacters_hyphen_inj {rest rest' : List Char}
    (same : texCharacters ('-' :: rest) = texCharacters ('-' :: rest')) :
    texCharacters rest = texCharacters rest' := by
  rw [texCharacters, texCharacters, texCharacter_hyphen, texCharacter_hyphen] at same
  split at same
  · split at same
    · exact List.append_cancel_left same
    · exact absurd (List.cons.inj same).2.symm (texCharacters_ne_group rest' _)
  · split at same
    · exact absurd (List.cons.inj same).2 (texCharacters_ne_group rest _)
    · exact List.append_cancel_left same

theorem texCharacters_inj {text text' : List Char} (same : texCharacters text = texCharacters text') :
    text = text' := by
  induction text generalizing text' with
  | nil =>
    cases text' with
    | nil => rfl
    | cons c' rest' => exact absurd same.symm (texCharacters_ne_nil (List.cons_ne_nil c' rest'))
  | cons c rest ih =>
    have heads : (c :: rest).head? = text'.head? := by
      rw [← texHead_texCharacters, same, texHead_texCharacters]
    obtain ⟨rest', rfl⟩ := List.head?_eq_some_iff.1 heads.symm
    by_cases hyphen : c = '-'
    · subst hyphen
      rw [ih (texCharacters_hyphen_inj same)]
    · rw [texCharacters, texCharacters, texCharacter_eq_of_ne hyphen rest.head? rest'.head?] at same
      rw [ih (List.append_cancel_left same)]

theorem white_mem_texCharacter {c d : Char} {next : Option Char} (white : isWhiteSpace d = true)
    (member : d ∈ texCharacter c next) : d = c := by
  unfold texCharacter at member
  split_ifs at member
  · rcases List.mem_cons.1 member with rfl | own
    · contradiction
    · exact List.mem_singleton.1 own
  · rcases List.mem_cons.1 member with rfl | later
    · contradiction
    · rcases List.mem_cons.1 later with own | after
      · exact own
      · exact absurd after (not_mem_of_dark (by decide) white)
  · exact absurd member (not_mem_of_dark (by decide) white)
  · exact absurd member (not_mem_of_dark (by decide) white)
  · exact absurd member (not_mem_of_dark (by decide) white)
  · exact absurd member (not_mem_of_dark (by decide) white)
  · exact absurd member (not_mem_of_dark (by decide) white)
  · exact absurd member (not_mem_of_dark (by decide) white)
  · exact absurd member (not_mem_of_dark (by decide) white)
  · exact List.mem_singleton.1 member

/-- No white space is added. -/
theorem white_mem_texCharacters {d : Char} (white : isWhiteSpace d = true) {text : List Char}
    (member : d ∈ texCharacters text) : d ∈ text := by
  induction text with
  | nil => exact member
  | cons c rest ih =>
    rcases List.mem_append.1 member with inside | later
    · exact List.mem_cons.2 (.inl (white_mem_texCharacter white inside))
    · exact List.mem_cons_of_mem c (ih later)

end Lookahead.Text
