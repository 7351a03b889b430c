import Lookahead.Proofs.Json.Skip

/-!
Readers of known types agree with skipping: where one of them succeeds, on whatever text, it has taken just what is
skipped there.
-/

namespace Lookahead.Json

section Strings

theorem skipString_of_escape {cs rest : List Char} {c : Char} (success : escape cs = .ok (c, rest)) :
    skipString ('\\' :: cs) = skipString rest := by
  have whole := success
  unfold escape at success
  split at success
  case h_1 | h_11 => contradiction
  case h_10 =>
    obtain ⟨code, after, read, rfl | ⟨low, second, rfl, read'⟩⟩ := rest_of_escape whole
    · exact skipString_quad read
    · rw [skipString_quad read, skipString_quad read']
  -- the letters with a character of their own
  all_goals
    obtain ⟨-, rfl⟩ := Prod.mk.inj (Except.ok.inj success)
    exact skipString_escape rfl

theorem skipString_of_characterList {cs rest inside : List Char}
    (success : characterList cs = .ok (inside, rest)) : skipString cs = .ok rest := by
  fun_induction characterList cs generalizing inside rest with
  | case1 => contradiction
  | case2 after =>
    obtain ⟨-, rfl⟩ := Prod.mk.inj (Except.ok.inj success)
    rw [skipString]
  | case3 => contradiction
  | case4 after c after' read ih =>
    obtain ⟨⟨later, rest⟩, taken, same⟩ := map_eq_ok.1 success
    obtain ⟨-, rfl⟩ := Prod.mk.inj same
    rw [skipString_of_escape read]
    exact ih taken
  | case5 => contradiction
  | case6 c after quote backslash visible ih =>
    obtain ⟨⟨later, rest⟩, taken, same⟩ := map_eq_ok.1 success
    obtain ⟨-, rfl⟩ := Prod.mk.inj same
    rw [skipString_raw ⟨quote, backslash⟩ (by omega)]
    exact ih taken

end Strings

variable {α σ : Type}

section Scalars

/-- Whatever the reader takes as a value is what is skipped there. -/
def Agrees (read : List Char → Except Fault (α × List Char)) : Prop :=
  ∀ {cs a rest}, read cs = .ok (a, rest) → skipValue cs = .ok ((), rest)

theorem agrees_skipValue : Agrees skipValue := fun success => success

theorem agrees_string : Agrees string := by
  intro cs s rest success
  unfold string at success
  split at success
  · contradiction
  · rename_i inside shown
    obtain ⟨⟨characters, rest⟩, read, same⟩ := map_eq_ok.1 success
    obtain ⟨-, rfl⟩ := Prod.mk.inj same
    refine skipValue_of_skipStep ?_
    rw [skipStep, shown]
    change resume (skipString inside >>= afterValue []) = _
    rw [skipString_of_characterList read]
    rfl
  · contradiction

theorem agrees_optionalString : Agrees optionalString := by
  intro cs s rest success
  unfold optionalString at success
  split at success
  · rename_i inside shown
    obtain ⟨after, read, same⟩ := map_eq_ok.1 success
    obtain ⟨-, rfl⟩ := Prod.mk.inj same
    refine skipValue_of_skipStep ?_
    rw [skipStep, shown]
    change resume (word "ull".toList inside >>= afterValue []) = _
    rw [read]
    rfl
  · obtain ⟨⟨s, rest⟩, read, same⟩ := map_eq_ok.1 success
    obtain ⟨-, rfl⟩ := Prod.mk.inj same
    rw [← agrees_string read, skipValue, skipValue, skipValues_skipBlanks]

end Scalars

section Containers

/-- Going on from one place in a container to a later one passes items or members. -/
def Advances (inner : Container) (first : Bool) (cs text : List Char) : Prop :=
  ∀ outer, resume (inner.next first outer cs) = resume (inner.next false outer text)

variable {read : List Char → Except Fault (α × List Char)}

theorem Agrees.advances_item (agrees : Agrees read) {first : Bool} {cs text rest : List Char} {a : α}
    (more : nextItem first cs = .ok (true, text)) (success : read text = .ok (a, rest)) :
    Advances .list first cs rest := by
  intro outer
  rw [resume_next_item more, skipValues_of_skipValue (agrees success)]
  rfl

theorem advances_items (agrees : Agrees read) {progresses : Progresses read} {first : Bool}
    {cs text : List Char} {as : List α} (success : items read progresses first cs = .ok (as, text)) :
    Advances .list first cs text := by
  fun_induction items read progresses first cs generalizing as text with
  | case1 => contradiction
  | case2 first cs after ends =>
    obtain ⟨-, rfl⟩ := Prod.mk.inj (Except.ok.inj success)
    exact fun outer => congrArg resume (next_list_end ends)
  | case3 => contradiction
  | case4 first cs after more a rest taken ih =>
    obtain ⟨⟨later, rest⟩, read, same⟩ := map_eq_ok.1 success
    obtain ⟨-, rfl⟩ := Prod.mk.inj same
    exact fun outer => (agrees.advances_item more taken outer).trans (ih read outer)

theorem advances_optionalItem (agrees : Agrees read) {first : Bool} {cs text : List Char} {a : Option α}
    (success : optionalItem read first cs = .ok (a, text)) : Advances .list first cs text := by
  unfold optionalItem at success
  split at success
  · contradiction
  · rename_i ends
    obtain ⟨-, rfl⟩ := Prod.mk.inj (Except.ok.inj success)
    exact fun outer => congrArg resume (next_list_end ends)
  · rename_i more
    split at success
    · contradiction
    · rename_i taken
      obtain ⟨-, rfl⟩ := Prod.mk.inj (Except.ok.inj success)
      exact agrees.advances_item more taken

/-- A reader of members takes a colon and the value behind it. -/
def MemberAgrees (member : σ → String → List Char → Except Interruption (σ × List Char)) : Prop :=
  ∀ {state key cs next rest}, member state key cs = .ok (next, rest) →
    ∃ value, colon cs = .ok value ∧ skipValue value = .ok ((), rest)

theorem Agrees.memberValue (agrees : Agrees read) {cs rest : List Char} {a : α}
    (success : memberValue read cs = .ok (a, rest)) :
    ∃ value, colon cs = .ok value ∧ skipValue value = .ok ((), rest) := by
  unfold Json.memberValue at success
  split at success
  · contradiction
  · rename_i value opened
    split at success
    · contradiction
    · rename_i taken
      obtain ⟨-, rfl⟩ := Prod.mk.inj (Except.ok.inj success)
      exact ⟨value, opened, agrees taken⟩

variable {member : σ → String → List Char → Except Interruption (σ × List Char)}
  {length : ∀ {state key cs next rest}, member state key cs = .ok (next, rest) → rest.length ≤ cs.length}

theorem advances_members (agrees : MemberAgrees member) {first : Bool} {state last : σ} {cs text : List Char}
    (success : members member length first state cs = .ok (last, text)) : Advances .object first cs text := by
  fun_induction members member length first state cs generalizing last text with
  | case1 => contradiction
  | case2 first state cs after ends =>
    obtain ⟨-, rfl⟩ := Prod.mk.inj (Except.ok.inj success)
    exact fun outer => congrArg resume (next_object_end ends)
  | case3 => contradiction
  | case4 => contradiction
  | case5 first state cs inside more key after read next rest put ih =>
    intro outer
    obtain ⟨value, opened, skipped⟩ := agrees put
    rw [← ih success, next_object_more more, skipString_of_characterList read]
    change resume ((colon after).map (.object :: outer, ·)) = _
    rw [opened]
    exact skipValues_of_skipValue skipped (.object :: outer)

theorem Advances.closed {inner : Container} {first : Bool} {cs text rest : List Char}
    (advances : Advances inner first cs text) (closed : skipBlanks text = inner.closing :: rest) :
    resume (inner.next first [] cs) = .ok rest := by
  have other : inner.closing ≠ ',' := by cases inner <;> decide
  rw [advances]
  simp [Container.next, afterValue, closed, other, resume]

theorem closeList_eq_none {cs rest : List Char} (closed : closeList cs = (none, rest)) :
    skipBlanks cs = ']' :: rest := by
  unfold closeList at closed
  grind

theorem closeObject_eq_none {cs rest : List Char} (closed : closeObject cs = (none, rest)) :
    skipBlanks cs = '\x7d' :: rest := by
  unfold closeObject at closed
  grind

theorem agrees_list (agrees : Agrees read) (progresses : Progresses read) : Agrees (list read progresses) := by
  intro cs as rest success
  unfold list at success
  split at success
  · contradiction
  · rename_i inside shown
    simp only [bind, Except.bind] at success
    split at success
    · contradiction
    rename_i pair taken
    obtain ⟨later, text⟩ := pair
    split at success
    · rename_i after closed
      obtain ⟨-, rfl⟩ := Prod.mk.inj (Except.ok.inj success)
      have advances := advances_items agrees taken
      refine skipValue_of_skipStep ?_
      rw [skipStep, shown]
      exact advances.closed (closeList_eq_none closed)
    · contradiction
  · contradiction

theorem agrees_record {name : String} {ofItems ofMembers : List Char → Except Interruption (α × List Char)}
    (items : ∀ {cs a text}, ofItems cs = .ok (a, text) → Advances .list true cs text)
    (members : ∀ {cs a text}, ofMembers cs = .ok (a, text) → Advances .object true cs text) :
    Agrees (record name ofItems ofMembers) := by
  intro cs a rest success
  unfold record at success
  split at success
  · contradiction
  · rename_i inside shown
    obtain ⟨text, taken, closed⟩ := finish_eq_ok.1 success
    refine skipValue_of_skipStep ?_
    rw [skipStep, shown]
    exact (items taken).closed (closeList_eq_none closed)
  · rename_i inside shown
    obtain ⟨text, taken, closed⟩ := finish_eq_ok.1 success
    refine skipValue_of_skipStep ?_
    rw [skipStep, shown]
    exact (members taken).closed (closeObject_eq_none closed)
  · contradiction

end Containers

end Lookahead.Json
