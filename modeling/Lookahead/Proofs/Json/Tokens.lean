import Lookahead.Json.Record
import Lookahead.Proofs.Json.Spelling
import Mathlib.Data.List.DropRight

/-!
What readers do between tokens: blanks are passed over, and the next item or member is found behind its comma.
-/

namespace Lookahead.Json

variable {blanks text : List Char}

section Blanks

theorem skipBlanks_cons {c : Char} (shown : isBlank c = false) (cs : List Char) :
    skipBlanks (c :: cs) = c :: cs := by
  rw [skipBlanks, List.dropWhile_cons_of_neg (by simp [shown])]

theorem skipBlanks_append (blank : IsBlanks blanks) (cs : List Char) :
    skipBlanks (blanks ++ cs) = skipBlanks cs :=
  List.dropWhile_append_of_pos fun c member => by simpa [isBlank] using blank c member

theorem skipBlanks_skipBlanks (cs : List Char) : skipBlanks (skipBlanks cs) = skipBlanks cs :=
  List.dropWhile_idempotent _ cs

theorem skipBlanks_append_cons (blank : IsBlanks blanks) {c : Char} (shown : isBlank c = false) (cs : List Char) :
    skipBlanks (blanks ++ c :: cs) = c :: cs := by
  rw [skipBlanks_append blank, skipBlanks_cons shown]

/-- What follows a value. A number would go on where anything else follows. -/
def Delimited (rest : List Char) : Prop := ∀ c ∈ rest.head?, isBlank c ∨ c = ',' ∨ c = ']' ∨ c = '\x7d'

theorem delimited_nil : Delimited [] := by simp [Delimited]

theorem delimited_closing {c : Char} (closing : c = ']' ∨ c = '\x7d') (rest : List Char) :
    Delimited (c :: rest) := by
  rintro _ ⟨⟩
  exact .inr (.inr closing)

theorem IsBlanks.delimited (blank : IsBlanks blanks) {rest : List Char} (delimited : Delimited rest) :
    Delimited (blanks ++ rest) := by
  cases blanks with
  | nil => exact delimited
  | cons c cs =>
    rintro _ ⟨⟩
    exact .inl (by simpa [isBlank] using blank c List.mem_cons_self)

theorem Commas.delimited {ι : Type} {spells : ι → List Char → Prop} {as : List ι}
    (commas : Commas spells false as text) {rest : List Char} (delimited : Delimited rest) :
    Delimited (text ++ rest) := by
  cases commas with
  | none blank => exact blank.delimited delimited
  | some isLead =>
    cases isLead with
    | later blank =>
      rw [List.append_assoc, List.append_assoc]
      refine blank.delimited ?_
      rintro _ ⟨⟩
      exact .inr (.inl rfl)

end Blanks

section Items

/-- What items begin with is no blank and closes no list. -/
def Opens (text : List Char) : Prop := ∃ c cs, text = c :: cs ∧ isBlank c = false ∧ c ≠ ']'

theorem nextItem_lead {first : Bool} {lead : List Char} (isLead : IsLead first lead) (opens : Opens text)
    (rest : List Char) : nextItem first (lead ++ (text ++ rest)) = .ok (true, text ++ rest) := by
  obtain ⟨c, cs, rfl, shown, inside⟩ := opens
  cases isLead with
  | first blank =>
    rw [List.cons_append, nextItem, skipBlanks_append_cons blank shown]
    split
    · contradiction
    · rename_i closed
      exact absurd (List.cons.inj closed).1 inside
    · rename_i other
      rw [if_pos rfl, other]
  | later blank blank' =>
    rw [List.append_assoc, List.cons_append, nextItem, skipBlanks_append_cons blank (by decide)]
    split
    · contradiction
    · rename_i closed
      exact absurd (List.cons.inj closed).1 (by decide)
    · rename_i separator
      obtain ⟨rfl, rfl⟩ := List.cons.inj separator
      simp only [Bool.false_eq_true, if_false, if_true]
      rw [List.cons_append, skipBlanks_append_cons blank' shown]
      split
      · contradiction
      · rename_i closed
        exact absurd (List.cons.inj closed).1 inside
      · rfl

theorem nextItem_closing (first : Bool) (blank : IsBlanks blanks) (rest : List Char) :
    nextItem first (blanks ++ ']' :: rest) = .ok (false, ']' :: rest) := by
  rw [nextItem, skipBlanks_append_cons blank (by decide)]
  rfl

end Items

section Members

theorem nextMember_lead {first : Bool} {lead : List Char} (isLead : IsLead first lead) (rest : List Char) :
    nextMember first (lead ++ '\"' :: rest) = .ok (true, rest) := by
  cases isLead with
  | first blank =>
    rw [nextMember, skipBlanks_append_cons blank (by decide)]
    rfl
  | @later before after blank blank' =>
    have separator := skipBlanks_append_cons blank (by decide : isBlank ',' = false) (after ++ '\"' :: rest)
    have opening := skipBlanks_append_cons blank' (by decide : isBlank '\"' = false) rest
    simp [nextMember, separator, opening]

theorem nextMember_closing (first : Bool) (blank : IsBlanks blanks) (rest : List Char) :
    nextMember first (blanks ++ '\x7d' :: rest) = .ok (false, '\x7d' :: rest) := by
  rw [nextMember, skipBlanks_append_cons blank (by decide)]
  rfl

theorem colon_blanks (blank : IsBlanks blanks) (rest : List Char) : colon (blanks ++ ':' :: rest) = .ok rest := by
  rw [colon, skipBlanks_append_cons blank (by decide)]
  rfl

end Members

end Lookahead.Json
