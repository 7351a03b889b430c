import Lookahead.Text.Blank
import Mathlib.Data.List.Basic

/-!
Texts made of parts with a separator between them. A separator that ends with a character of its own tells the parts
from the whole, and so does a word between blanks that is no word of a part.
-/

namespace Lookahead.Text

variable {α β γ : Type}

/-- What comes before the first mark is known, and so is what comes after it. -/
theorem before_mark_inj {mark : α} {before before' after after' : List α} (free : mark ∉ before)
    (free' : mark ∉ before') (same : before ++ mark :: after = before' ++ mark :: after') :
    before = before' ∧ after = after' := by
  induction before generalizing before' with
  | nil =>
    cases before' with
    | nil => exact ⟨rfl, (List.cons.inj same).2⟩
    | cons b rest => exact absurd (List.cons.inj same).1 (List.ne_of_not_mem_cons free')
  | cons a rest ih =>
    cases before' with
    | nil => exact absurd (List.cons.inj same).1.symm (List.ne_of_not_mem_cons free)
    | cons b rest' =>
      obtain ⟨rfl, later⟩ := List.cons.inj same
      obtain ⟨rfl, rest_eq⟩ := ih (List.not_mem_of_not_mem_cons free)
        (List.not_mem_of_not_mem_cons free') later
      exact ⟨rfl, rest_eq⟩

/-- A separator after every part, the last one included. -/
theorem intercalate_append_self {separator : List α} {parts : List (List α)} (filled : parts ≠ []) :
    separator.intercalate parts ++ separator = parts.flatMap (· ++ separator) := by
  induction parts with
  | nil => contradiction
  | cons part rest ih =>
    cases rest with
    | nil => simp
    | cons next rest =>
      rw [List.intercalate_cons_cons, List.append_assoc, ih (List.cons_ne_nil _ _)]
      rfl

theorem mem_intercalate {separator : List α} {parts : List (List α)} {a : α}
    (member : a ∈ separator.intercalate parts) : a ∈ separator ∨ ∃ part ∈ parts, a ∈ part := by
  induction parts with
  | nil => simp at member
  | cons part rest ih =>
    cases rest with
    | nil => exact .inr ⟨part, List.mem_cons_self, by simpa using member⟩
    | cons next rest =>
      rw [List.intercalate_cons_cons, List.mem_append, List.mem_append] at member
      rcases member with (inside | between) | later
      · exact .inr ⟨part, List.mem_cons_self, inside⟩
      · exact .inl between
      · refine (ih later).imp_right ?_
        rintro ⟨other, listed, inside⟩
        exact ⟨other, List.mem_cons_of_mem part listed, inside⟩

theorem not_mem_intercalate {separator : List α} {parts : List (List α)} {a : α} (apart : a ∉ separator)
    (free : ∀ part ∈ parts, a ∉ part) : a ∉ separator.intercalate parts := by
  intro member
  rcases mem_intercalate member with between | ⟨part, listed, inside⟩
  · exact apart between
  · exact free part listed inside

/-- Parts in groups, put together group by group. -/
theorem intercalate_flatMap {separator : List α} {parts : β → List (List α)} {groups : List β}
    (filled : ∀ group ∈ groups, parts group ≠ []) :
    separator.intercalate (groups.flatMap parts) =
      separator.intercalate (groups.map fun group => separator.intercalate (parts group)) := by
  cases groups with
  | nil => rfl
  | cons group rest =>
    have some : (group :: rest).flatMap parts ≠ [] := by
      simp [filled group List.mem_cons_self]
    refine List.append_cancel_right (?_ : _ ++ separator = _ ++ separator)
    rw [intercalate_append_self some, intercalate_append_self (by simp), List.flatMap_map,
      List.flatMap_assoc]
    exact List.flatMap_congr fun group member => (intercalate_append_self (filled group member)).symm

section Parts

variable {lead : List α} {mark : α} {parts parts' : List (List α)}

theorem flatMap_append_inj (clear : mark ∉ lead) (free : ∀ part ∈ parts, mark ∉ part)
    (free' : ∀ part ∈ parts', mark ∉ part)
    (same : parts.flatMap (· ++ (lead ++ [mark])) = parts'.flatMap (· ++ (lead ++ [mark]))) :
    parts = parts' := by
  have apart {part : List α} (without : mark ∉ part) : mark ∉ part ++ lead := by
    simp [without, clear]
  induction parts generalizing parts' with
  | nil =>
    cases parts' with
    | nil => rfl
    | cons part' rest' => simp at same
  | cons part rest ih =>
    cases parts' with
    | nil => simp at same
    | cons part' rest' =>
      simp only [List.forall_mem_cons] at free free'
      simp only [List.flatMap_cons, ← List.append_assoc] at same
      rw [List.append_assoc _ [mark], List.append_assoc _ [mark]] at same
      obtain ⟨first, later⟩ := before_mark_inj (apart free.1) (apart free'.1) same
      rw [List.append_cancel_right first, ih free.2 free'.2 (by simpa using later)]

theorem intercalate_inj (clear : mark ∉ lead) (filled : parts ≠ []) (filled' : parts' ≠ [])
    (free : ∀ part ∈ parts, mark ∉ part) (free' : ∀ part ∈ parts', mark ∉ part)
    (same : (lead ++ [mark]).intercalate parts = (lead ++ [mark]).intercalate parts') :
    parts = parts' := by
  apply flatMap_append_inj clear free free'
  rw [← intercalate_append_self filled, ← intercalate_append_self filled', same]

theorem intercalate_eq_nil {separator : List α} (shown : ∀ part ∈ parts, part ≠ [])
    (empty : separator.intercalate parts = []) : parts = [] := by
  match parts with
  | [] => rfl
  | [part] => exact absurd (by simpa using empty) (shown part List.mem_cons_self)
  | part :: next :: rest =>
    rw [List.intercalate_cons_cons, List.append_assoc] at empty
    exact absurd (List.append_eq_nil_iff.1 empty).1 (shown part List.mem_cons_self)

/-- Where no part is empty, the parts are known once they are known to be some. -/
theorem eq_of_intercalate_of_shown {separator : List α} (shown : ∀ part ∈ parts, part ≠ [])
    (shown' : ∀ part ∈ parts', part ≠ []) (some : parts ≠ [] → parts' ≠ [] → parts = parts')
    (same : separator.intercalate parts = separator.intercalate parts') : parts = parts' := by
  by_cases none : parts = []
  · subst none
    exact (intercalate_eq_nil shown' same.symm).symm
  · refine some none ?_
    rintro rfl
    exact none (intercalate_eq_nil shown same)

theorem intercalate_inj_of_shown (clear : mark ∉ lead) (shown : ∀ part ∈ parts, part ≠ [])
    (shown' : ∀ part ∈ parts', part ≠ []) (free : ∀ part ∈ parts, mark ∉ part)
    (free' : ∀ part ∈ parts', mark ∉ part)
    (same : (lead ++ [mark]).intercalate parts = (lead ++ [mark]).intercalate parts') :
    parts = parts' := by
  refine eq_of_intercalate_of_shown shown shown' (fun filled filled' => ?_) same
  exact intercalate_inj clear filled filled' free free' same

end Parts

section Words

variable [DecidableEq α] {blank : α} {word : List α}

theorem splitOn_inj {text text' : List α} (same : text.splitOn blank = text'.splitOn blank) : text = text' := by
  rw [← @List.intercalate_splitOn _ text _ _ blank, same, List.intercalate_splitOn]

theorem splitOn_around_word (single : blank ∉ word) (before after : List α) :
    (before ++ blank :: (word ++ blank :: after)).splitOn blank =
      before.splitOn blank ++ word :: after.splitOn blank := by
  rw [List.splitOn_append_cons_self, List.splitOn_append_cons_self, List.splitOn_eq_singleton single,
    List.singleton_append]

/-- What comes before a word that is none of its own, and what comes after it. -/
theorem before_word_inj (single : blank ∉ word) {before before' after after' : List α}
    (free : word ∉ before.splitOn blank) (free' : word ∉ before'.splitOn blank)
    (same : before ++ blank :: (word ++ blank :: after) = before' ++ blank :: (word ++ blank :: after')) :
    before = before' ∧ after = after' := by
  have words := congrArg (List.splitOn blank) same
  rw [splitOn_around_word single, splitOn_around_word single] at words
  obtain ⟨first, later⟩ := before_mark_inj free free' words
  exact ⟨splitOn_inj first, splitOn_inj later⟩

theorem splitOn_intercalate_word (single : blank ∉ word) {texts : List (List α)} (filled : texts ≠ []) :
    ((blank :: (word ++ [blank])).intercalate texts).splitOn blank =
      [word].intercalate (texts.map (List.splitOn blank)) := by
  induction texts with
  | nil => contradiction
  | cons text rest ih =>
    cases rest with
    | nil => simp
    | cons next rest =>
      rw [List.map_cons, List.map_cons, List.intercalate_cons_cons, List.intercalate_cons_cons,
        ← List.map_cons, ← ih (List.cons_ne_nil _ _), List.append_assoc, List.cons_append, List.append_assoc,
        List.singleton_append, splitOn_around_word single, List.append_assoc, List.singleton_append]

/-- Texts that a word stands between. -/
theorem intercalate_word_inj (single : blank ∉ word) {texts texts' : List (List α)} (filled : texts ≠ [])
    (filled' : texts' ≠ []) (free : ∀ text ∈ texts, word ∉ text.splitOn blank)
    (free' : ∀ text ∈ texts', word ∉ text.splitOn blank)
    (same : (blank :: (word ++ [blank])).intercalate texts = (blank :: (word ++ [blank])).intercalate texts') :
    texts = texts' := by
  have words := congrArg (List.splitOn blank) same
  rw [splitOn_intercalate_word single filled, splitOn_intercalate_word single filled'] at words
  apply (List.map_inj_right fun _ _ => splitOn_inj).1
  refine intercalate_inj List.not_mem_nil ?_ ?_ ?_ ?_ words
  · simpa using filled
  · simpa using filled'
  · simpa using free
  · simpa using free'

/-- The words of texts with a word between them. -/
theorem mem_splitOn_intercalate_word (single : blank ∉ word) {texts : List (List α)} (filled : texts ≠ [])
    {other : List α} (member : other ∈ ((blank :: (word ++ [blank])).intercalate texts).splitOn blank) :
    other = word ∨ ∃ text ∈ texts, other ∈ text.splitOn blank := by
  rw [splitOn_intercalate_word single filled] at member
  simpa using mem_intercalate member

/-- The words of parts with a separator between them that ends with a blank. -/
theorem mem_splitOn_intercalate {lead : List α} (clear : blank ∉ lead) {parts : List (List α)}
    (free : ∀ part ∈ parts, blank ∉ part) {other : List α}
    (member : other ∈ ((lead ++ [blank]).intercalate parts).splitOn blank) :
    other = [] ∨ ∃ part ∈ parts, other = part ∨ other = part ++ lead := by
  induction parts with
  | nil => simpa using member
  | cons part rest ih =>
    obtain ⟨first, later⟩ := List.forall_mem_cons.1 free
    cases rest with
    | nil =>
      rw [List.intercalate_singleton, List.splitOn_eq_singleton first] at member
      exact .inr ⟨part, List.mem_cons_self, .inl (List.mem_singleton.1 member)⟩
    | cons next rest =>
      rw [List.intercalate_cons_cons, ← List.append_assoc, List.append_assoc, List.singleton_append,
        List.splitOn_append_cons_self, List.splitOn_eq_singleton (by simp [first, clear]),
        List.singleton_append, List.mem_cons] at member
      rcases member with rfl | inside
      · exact .inr ⟨part, List.mem_cons_self, .inr rfl⟩
      · refine (ih later inside).imp_right ?_
        rintro ⟨other_part, listed, shape⟩
        exact ⟨other_part, List.mem_cons_of_mem part listed, shape⟩

/-- The lines of parts that all end alike. -/
theorem splitOn_intercalate_append {lead : List α} (clear : blank ∉ lead) {parts : List (List α)}
    (filled : parts ≠ []) (free : ∀ part ∈ parts, blank ∉ part) :
    ((lead ++ [blank]).intercalate parts ++ lead).splitOn blank = parts.map (· ++ lead) := by
  have ended : parts.map (· ++ lead) ≠ [] := by simpa using filled
  have together : (lead ++ [blank]).intercalate parts ++ lead =
      [blank].intercalate (parts.map (· ++ lead)) := by
    refine List.append_cancel_right (?_ : _ ++ [blank] = _ ++ [blank])
    rw [List.append_assoc, intercalate_append_self filled, intercalate_append_self ended, List.flatMap_map]
    simp only [List.append_assoc]
  rw [together, List.splitOn_intercalate blank ?_ ended]
  simpa [clear] using free

end Words

section Rows

/-- Rows that are told apart by what is printed of them. -/
theorem map_eq_map_of_inj {print : α → γ} {print' : β → γ} {δ : Type} {key : α → δ} {key' : β → δ}
    {rows : List α} {rows' : List β}
    (each : ∀ row ∈ rows, ∀ row' ∈ rows', print row = print' row' → key row = key' row')
    (same : rows.map print = rows'.map print') : rows.map key = rows'.map key' := by
  induction rows generalizing rows' with
  | nil =>
    cases rows' with
    | nil => rfl
    | cons row' rest' => simp at same
  | cons row rest ih =>
    cases rows' with
    | nil => simp at same
    | cons row' rest' =>
      simp only [List.map_cons, List.cons.injEq] at same ⊢
      refine ⟨each row List.mem_cons_self row' List.mem_cons_self same.1, ih ?_ same.2⟩
      intro other member other' member'
      exact each other (List.mem_cons_of_mem _ member) other' (List.mem_cons_of_mem _ member')

end Rows

section Strings

/-- The names of a list, told from its text. -/
theorem names_of_intercalate {separator : String} {lead : List Char} {last : Char}
    (ends : separator.toList = lead ++ [last]) (clear : last ∉ lead) (white : isWhiteSpace last = true)
    {names names' : List String} (visible : ∀ name ∈ names, isBlank name = false)
    (visible' : ∀ name ∈ names', isBlank name = false)
    (same : separator.intercalate names = separator.intercalate names') : names = names' := by
  have shown {names : List String} (visible : ∀ name ∈ names, isBlank name = false) :
      ∀ part ∈ names.map String.toList, part ≠ [] := by
    intro part listed
    obtain ⟨name, member, rfl⟩ := List.mem_map.1 listed
    exact (isBlank_eq_false_iff.1 (visible name member)).1
  have free {names : List String} (visible : ∀ name ∈ names, isBlank name = false) :
      ∀ part ∈ names.map String.toList, last ∉ part := by
    intro part listed
    obtain ⟨name, member, rfl⟩ := List.mem_map.1 listed
    exact not_mem_of_visible (visible name member) white
  rw [← String.toList_inj, String.toList_intercalate, String.toList_intercalate, ends] at same
  apply (List.map_inj_right fun _ _ => String.toList_inj.1).1
  exact intercalate_inj_of_shown clear (shown visible) (shown visible') (free visible) (free visible') same

/-- The lines of a text, told from it. -/
theorem lines_of_intercalate {lines lines' : List String} (filled : lines ≠ []) (filled' : lines' ≠ [])
    (free : ∀ line ∈ lines, '\n' ∉ line.toList) (free' : ∀ line ∈ lines', '\n' ∉ line.toList)
    (same : "\n".intercalate lines = "\n".intercalate lines') : lines = lines' := by
  have free_of {lines : List String} (free : ∀ line ∈ lines, '\n' ∉ line.toList) :
      ∀ part ∈ lines.map String.toList, '\n' ∉ part := by
    simpa using free
  rw [← String.toList_inj, String.toList_intercalate, String.toList_intercalate,
    show "\n".toList = [] ++ ['\n'] from rfl] at same
  apply (List.map_inj_right fun _ _ => String.toList_inj.1).1
  refine intercalate_inj List.not_mem_nil ?_ ?_ (free_of free) (free_of free') same
  · simpa using filled
  · simpa using filled'

theorem not_mem_toList_intercalate {separator : String} {names : List String} {c : Char}
    (apart : c ∉ separator.toList) (free : ∀ name ∈ names, c ∉ name.toList) :
    c ∉ (separator.intercalate names).toList := by
  rw [String.toList_intercalate]
  exact not_mem_intercalate apart (List.forall_mem_map.2 free)

end Strings

end Lookahead.Text
