import Lookahead.Json.Skip
import Lookahead.Proofs.Json.Tokens

/-!
Skipping takes any value as a whole, and nothing after it. The containers around a value act as a continuation:
what is done after the value depends on them only, so a value is passed in the same way wherever it stands.
-/

namespace Lookahead.Json

section Scalars

theorem skipString_raw {c : Char} (plain : c ≠ '\"' ∧ c ≠ '\\') (visible : 0x20 ≤ c.toNat) (cs : List Char) :
    skipString (c :: cs) = skipString cs := by
  rw [skipString, if_neg (by omega)]
  · exact plain.1
  · exact plain.2

theorem skipString_escape {cs rest : List Char} (escape : skipEscape cs = .ok rest) :
    skipString ('\\' :: cs) = skipString rest := by
  rw [skipString]
  split
  · rename_i failed
    rw [escape] at failed
    contradiction
  · rename_i taken
    rw [Except.ok.inj (escape.symm.trans taken)]

theorem IsQuad.hexQuad {quad : List Char} {code : Nat} (digits : IsQuad quad code) (rest : List Char) :
    hexQuad (quad ++ rest) = .ok (code, rest) := by
  obtain ⟨first, second, third, fourth⟩ := digits
  exact hexQuad_of_digits first second third fourth rest

theorem skipString_quad {cs rest : List Char} {code : Nat} (read : hexQuad cs = .ok (code, rest)) :
    skipString ('\\' :: 'u' :: cs) = skipString rest := by
  refine skipString_escape ?_
  change (hexQuad cs).map (·.2) = _
  rw [read]
  rfl

theorem IsPiece.skipString_append {piece : List Char} (isPiece : IsPiece piece) (rest : List Char) :
    skipString (piece ++ rest) = skipString rest := by
  cases isPiece with
  | raw plain visible => exact skipString_raw plain visible rest
  | short known =>
    refine skipString_escape ?_
    simp only [shortEscapes, List.mem_cons, Prod.mk.injEq, List.not_mem_nil, or_false] at known
    rcases known with ⟨rfl, -⟩ | ⟨rfl, -⟩ | ⟨rfl, -⟩ | ⟨rfl, -⟩ | ⟨rfl, -⟩ | ⟨rfl, -⟩ | ⟨rfl, -⟩ | ⟨rfl, -⟩ <;> rfl
  | unit digits => exact skipString_quad (digits.hexQuad rest)

theorem skipString_flatten {pieces : List (List Char)} (each : ∀ piece ∈ pieces, IsPiece piece)
    (rest : List Char) : skipString (pieces.flatten ++ '\"' :: rest) = .ok rest := by
  induction pieces with
  | nil => rw [List.flatten_nil, List.nil_append, skipString]
  | cons piece pieces ih =>
    rw [List.flatten_cons, List.append_assoc, (each piece List.mem_cons_self).skipString_append]
    exact ih fun other member => each other (List.mem_cons_of_mem _ member)

/-- The text begins with no digit, so digits before it end there, and with none of the marks. -/
def EndsDigits (marks : List Char) (text : List Char) : Prop :=
  ∀ c ∈ text.head?, c.isDigit = false ∧ c ∉ marks

theorem Delimited.endsDigits {rest : List Char} (delimited : Delimited rest) :
    EndsDigits ['.', 'e', 'E'] rest := by
  intro c head
  have known : c = ' ' ∨ c = '\n' ∨ c = '\t' ∨ c = '\r' ∨ c = ',' ∨ c = ']' ∨ c = '\x7d' := by
    simpa [isBlank, or_assoc] using delimited c head
  rcases known with rfl | rfl | rfl | rfl | rfl | rfl | rfl <;> decide

theorem skipDigits_append {digits rest : List Char} (isDigits : IsDigits digits) {marks : List Char}
    (ends : EndsDigits marks rest) : skipDigits (digits ++ rest) = .ok rest := by
  obtain ⟨some, all⟩ := isDigits
  have head : (digits ++ rest).head?.any Char.isDigit := by
    cases digits with
    | nil => contradiction
    | cons c cs => exact all c List.mem_cons_self
  have dropped : rest.dropWhile Char.isDigit = rest := by
    cases rest with
    | nil => rfl
    | cons c cs => rw [List.dropWhile_cons_of_neg (by simp [(ends c rfl).1])]
  rw [skipDigits, if_pos head, List.dropWhile_append_of_pos all, dropped]

theorem IsExponent.endsDigits {exponent rest : List Char} (isExponent : IsExponent exponent)
    (ends : EndsDigits ['.', 'e', 'E'] rest) : EndsDigits ['.'] (exponent ++ rest) := by
  obtain rfl | ⟨letter, sign, digits, either, -, -, rfl⟩ := isExponent
  · intro c head
    have := ends c head
    simp_all
  · rintro _ ⟨⟩
    rcases either with rfl | rfl <;> decide

theorem IsFraction.endsDigits {fraction rest : List Char} (isFraction : IsFraction fraction)
    (ends : EndsDigits ['.'] rest) : EndsDigits [] (fraction ++ rest) := by
  obtain rfl | ⟨digits, -, rfl⟩ := isFraction
  · intro c head
    exact ⟨(ends c head).1, List.not_mem_nil⟩
  · rintro _ ⟨⟩
    decide

theorem skipExponent_append {sign digits rest : List Char} (signed : sign = [] ∨ sign = ['+'] ∨ sign = ['-'])
    (isDigits : IsDigits digits) {marks : List Char} (ends : EndsDigits marks rest) :
    skipExponent (sign ++ (digits ++ rest)) = .ok rest := by
  have taken := skipDigits_append isDigits ends
  rcases signed with rfl | rfl | rfl
  · cases digits with
    | nil => exact absurd rfl isDigits.1
    | cons c cs =>
      have digit : c.isDigit := isDigits.2 c List.mem_cons_self
      rw [List.nil_append, List.cons_append, skipExponent]
      · exact taken
      · rintro rest ⟨⟩
        revert digit
        decide
      · rintro rest ⟨⟩
        revert digit
        decide
  · exact taken
  · exact taken

theorem IsExponent.skipped {exponent rest : List Char} (isExponent : IsExponent exponent)
    (ends : EndsDigits ['.', 'e', 'E'] rest) : skipNumber.exponent (exponent ++ rest) = .ok rest := by
  obtain rfl | ⟨letter, sign, digits, either, signed, isDigits, rfl⟩ := isExponent
  · rw [List.nil_append]
    unfold skipNumber.exponent
    split
    · exact absurd (ends _ rfl).2 (by decide)
    · exact absurd (ends _ rfl).2 (by decide)
    · rfl
  · have taken := skipExponent_append signed isDigits ends
    rw [List.cons_append, List.append_assoc]
    rcases either with rfl | rfl <;> exact taken

theorem IsFraction.skipped {fraction rest : List Char} (isFraction : IsFraction fraction)
    (ends : EndsDigits ['.'] rest) : skipNumber.fraction (fraction ++ rest) = skipNumber.exponent rest := by
  obtain rfl | ⟨digits, isDigits, rfl⟩ := isFraction
  · rw [List.nil_append]
    unfold skipNumber.fraction
    split
    · exact absurd (ends _ rfl).2 (by decide)
    · rfl
  · change (skipDigits (digits ++ rest) >>= skipNumber.exponent) = _
    rw [skipDigits_append isDigits ends]
    rfl

theorem IsWhole.skipped {whole rest : List Char} (isWhole : IsWhole whole) (ends : EndsDigits [] rest) :
    skipNumber (whole ++ rest) = skipNumber.fraction rest := by
  obtain rfl | ⟨isDigits, leading⟩ := isWhole
  · cases rest with
    | nil => rfl
    | cons c cs =>
      change (if c.isDigit then _ else _) = _
      rw [if_neg (by simp [(ends c rfl).1])]
  · have taken := skipDigits_append isDigits ends
    unfold skipNumber
    split
    · rename_i same
      cases whole with
      | nil => exact absurd rfl isDigits.1
      | cons c cs =>
        obtain ⟨rfl, -⟩ := List.cons.inj same
        exact absurd rfl leading
    · rw [taken]
      rfl

theorem IsUnsigned.skipped {text rest : List Char} (number : IsUnsigned text) (delimited : Delimited rest) :
    skipNumber (text ++ rest) = .ok rest := by
  obtain ⟨whole, fraction, exponent⟩ := number
  have ends := delimited.endsDigits
  have ends' := exponent.endsDigits ends
  rw [List.append_assoc, List.append_assoc, whole.skipped (fraction.endsDigits ends'), fraction.skipped ends',
    exponent.skipped ends]

end Scalars

section Containers

/-- Goes on to the end of the outermost container. -/
def resume (next : Except Fault (List Container × List Char)) : Except Fault (List Char) :=
  match next with
  | .error fault => .error fault
  | .ok ([], rest) => .ok rest
  | .ok (inner :: outer, rest) => skipValues (inner :: outer) rest

theorem skipValues_eq (containers : List Container) (cs : List Char) :
    skipValues containers cs = resume (skipStep containers cs) := by
  rw [skipValues]
  split <;> simp_all [resume]

theorem skipValue_of_skipStep {cs rest : List Char} (step : resume (skipStep [] cs) = .ok rest) :
    skipValue cs = .ok ((), rest) := by
  rw [skipValue, skipValues_eq, step]
  rfl

theorem skipValues_skipBlanks (containers : List Container) (cs : List Char) :
    skipValues containers (skipBlanks cs) = skipValues containers cs := by
  rw [skipValues_eq, skipValues_eq, skipStep, skipStep, skipBlanks_skipBlanks]

theorem skipValues_blanks {blanks : List Char} (blank : IsBlanks blanks) (containers : List Container)
    (cs : List Char) : skipValues containers (blanks ++ cs) = skipValues containers cs := by
  rw [← skipValues_skipBlanks, skipBlanks_append blank, skipValues_skipBlanks]

/-- Going on where further containers stand around those that were known. -/
def within (outer : List Container) (next : Except Fault (List Container × List Char)) :
    Except Fault (List Container × List Char) :=
  match next with
  | .error fault => .error fault
  | .ok ([], rest) => afterValue outer rest
  | .ok (container :: inner, rest) => .ok (container :: (inner ++ outer), rest)

theorem within_map (outer : List Container) (container : Container) (inner : List Container)
    (result : Except Fault (List Char)) :
    within outer (result.map (container :: inner, ·)) = result.map (container :: (inner ++ outer), ·) := by
  cases result <;> rfl

theorem afterValue_append (inner outer : List Container) (cs : List Char) :
    afterValue (inner ++ outer) cs = within outer (afterValue inner cs) := by
  induction inner generalizing cs with
  | nil => rfl
  | cons container inner ih =>
    rw [List.cons_append, afterValue, afterValue]
    split
    · rfl
    · split
      · rw [within_map]
      · split
        · exact ih _
        · rfl

theorem enter_append (container : Container) (inner outer : List Container) (cs : List Char) :
    enter container (inner ++ outer) cs = within outer (enter container inner cs) := by
  rw [enter, enter]
  split
  · rfl
  · split
    · exact afterValue_append inner outer _
    · rw [within_map]

theorem skipStep_append (inner outer : List Container) (cs : List Char) :
    skipStep (inner ++ outer) cs = within outer (skipStep inner cs) := by
  -- a scalar is taken first, whatever containers there are
  have scalar (result : Except Fault (List Char)) :
      (result >>= afterValue (inner ++ outer)) = within outer (result >>= afterValue inner) := by
    cases result with
    | error fault => rfl
    | ok rest => exact afterValue_append inner outer rest
  unfold skipStep
  split
  case h_1 => rfl
  case h_7 => exact enter_append .list inner outer _
  case h_8 => exact enter_append .object inner outer _
  case h_9 =>
    split
    · exact scalar _
    · rfl
  all_goals exact scalar _

theorem skipValues_append (inner outer : List Container) (cs : List Char) :
    skipValues (inner ++ outer) cs = skipValues inner cs >>= fun rest => resume (afterValue outer rest) := by
  fun_induction skipValues inner cs with
  | case1 inner cs fault failed =>
    rw [skipValues_eq, skipStep_append, failed]
    rfl
  | case2 inner cs rest ended =>
    rw [skipValues_eq, skipStep_append, ended]
    rfl
  | case3 inner cs container later rest more ih =>
    rw [skipValues_eq, skipStep_append, more]
    exact ih

/-- What is skipped as one value is skipped in any containers, which decide how it goes on. -/
theorem skipValues_of_skipValue {cs rest : List Char} (skipped : skipValue cs = .ok ((), rest))
    (containers : List Container) : skipValues containers cs = resume (afterValue containers rest) := by
  obtain ⟨after, alone, same⟩ := map_eq_ok.1 skipped
  obtain rfl : after = rest := (Prod.mk.inj same).2
  have around := skipValues_append [] containers cs
  rw [List.nil_append, alone] at around
  exact around

/-- Goes on to the first or to the next item or member of a container. -/
def Container.next (inner : Container) (first : Bool) (outer : List Container) (cs : List Char) :
    Except Fault (List Container × List Char) :=
  if first then enter inner outer cs else afterValue (inner :: outer) cs

variable {first : Bool} {outer : List Container} {cs text : List Char}

theorem resume_next_item (more : nextItem first cs = .ok (true, text)) :
    resume (Container.list.next first outer cs) = skipValues (.list :: outer) text := by
  unfold nextItem at more
  split at more
  · contradiction
  · simp at more
  rename_i c rest other shown
  have other : c ≠ Container.list.closing := other
  cases first with
  | true =>
    obtain rfl : c :: rest = text := by simpa using more
    simp only [Container.next, enter, shown, if_true, if_neg other]
    rfl
  | false =>
    simp only [Bool.false_eq_true, if_false] at more
    split at more
    · rename_i comma
      obtain rfl : skipBlanks rest = text := by grind
      simp only [Container.next, Bool.false_eq_true, if_false, afterValue, shown, if_pos comma,
        skipValues_skipBlanks]
      rfl
    · contradiction

theorem next_list_end (none : nextItem first cs = .ok (false, text)) :
    Container.list.next first outer cs = Container.list.next false outer text := by
  unfold nextItem at none
  split at none
  · contradiction
  · rename_i rest shown
    obtain rfl : ']' :: rest = text := by simpa using none
    have shown' := skipBlanks_cons (by decide : isBlank ']' = false) rest
    cases first <;> simp [Container.next, enter, afterValue, shown, shown', Container.closing]
  · grind

theorem next_object_more (more : nextMember first cs = .ok (true, text)) :
    Container.object.next first outer cs =
      (skipString text >>= colon).map (.object :: outer, ·) := by
  unfold nextMember at more
  split at more
  · contradiction
  · simp at more
  rename_i c rest other shown
  cases first with
  | true =>
    simp only [if_true] at more
    split at more
    · rename_i quote
      obtain rfl : rest = text := by simpa using more
      simp only [Container.next, enter, shown, if_true, Container.skipLabel, quote]
      rw [skipBlanks_cons (by decide)]
      rfl
    · contradiction
  | false =>
    simp only [Bool.false_eq_true, if_false] at more
    split at more
    · rename_i comma
      split at more
      · contradiction
      · rename_i inside opening
        obtain rfl : inside = text := by simpa using more
        simp only [Container.next, Bool.false_eq_true, if_false, afterValue, shown, if_pos comma,
          Container.skipLabel, opening]
      · simp at more
      · contradiction
    · contradiction

theorem next_object_end (none : nextMember first cs = .ok (false, text)) :
    Container.object.next first outer cs = Container.object.next false outer text := by
  unfold nextMember at none
  split at none
  · contradiction
  · rename_i rest shown
    obtain rfl : '\x7d' :: rest = text := by simpa using none
    have shown' := skipBlanks_cons (by decide : isBlank '\x7d' = false) rest
    cases first <;> simp [Container.next, enter, afterValue, shown, shown', Container.closing]
  · grind

/-- The text is skipped as one value. -/
def Skipped (text : List Char) : Prop := ∀ rest, Delimited rest → skipValue (text ++ rest) = .ok ((), rest)

/-- The text is passed over where it is an item or a member of a container. -/
def Passed (inner : Container) (text : List Char) : Prop :=
  ∀ {first : Bool} {lead rest : List Char} {outer : List Container}, IsLead first lead → Delimited rest →
    resume (inner.next first outer (lead ++ (text ++ rest))) = resume (afterValue (inner :: outer) rest)

theorem next_closing (inner : Container) (first : Bool) (outer : List Container) {blanks : List Char}
    (blank : IsBlanks blanks) (rest : List Char) :
    inner.next first outer (blanks ++ inner.closing :: rest) = afterValue outer rest := by
  have shown : skipBlanks (blanks ++ inner.closing :: rest) = inner.closing :: rest :=
    skipBlanks_append_cons blank (by cases inner <;> decide) rest
  have other : inner.closing ≠ ',' := by cases inner <;> decide
  cases first <;> simp [Container.next, enter, afterValue, shown, other]

theorem delimited_container (inner : Container) (rest : List Char) : Delimited (inner.closing :: rest) := by
  refine delimited_closing ?_ rest
  cases inner with
  | list => exact .inl rfl
  | object => exact .inr rfl

variable {ι : Type} {spells : ι → List Char → Prop} {inner : Container} {as : List ι}

theorem Commas.passed (commas : Commas spells first as text)
    (each : ∀ a ∈ as, ∀ text, spells a text → Passed inner text) (outer : List Container) (rest : List Char) :
    resume (inner.next first outer (text ++ inner.closing :: rest)) = resume (afterValue outer rest) := by
  induction commas with
  | none blank => rw [next_closing inner _ outer blank]
  | some isLead spelled later ih =>
    have delimited := later.delimited (delimited_container inner rest)
    rw [List.append_assoc, List.append_assoc, each _ List.mem_cons_self _ spelled isLead delimited]
    exact ih fun other member => each other (List.mem_cons_of_mem _ member)

theorem Skipped.passed (skipped : Skipped text) (opens : Opens text) : Passed .list text := by
  intro first lead rest outer isLead delimited
  rw [resume_next_item (nextItem_lead isLead opens _), skipValues_of_skipValue (skipped _ delimited)]

/-- After the opening quote of a label, the value comes next behind blanks. -/
theorem IsLabel.skipped {label : List Char} (isLabel : IsLabel label) :
    ∃ inside after, label = '\"' :: inside ∧ IsBlanks after ∧
      ∀ rest, (skipString (inside ++ rest) >>= colon) = .ok (after ++ rest) := by
  obtain ⟨⟨each⟩, blank, blank'⟩ := isLabel
  rename_i before after pieces
  refine ⟨pieces.flatten ++ '\"' :: (before ++ ':' :: after), after, by simp, blank', fun rest => ?_⟩
  rw [show pieces.flatten ++ '\"' :: (before ++ ':' :: after) ++ rest =
    pieces.flatten ++ '\"' :: (before ++ ':' :: (after ++ rest)) by simp, skipString_flatten each]
  exact colon_blanks blank _

theorem Skipped.passed_member {label value : List Char} (skipped : Skipped value) (isLabel : IsLabel label) :
    Passed .object (label ++ value) := by
  intro first lead rest outer isLead delimited
  obtain ⟨inside, after, rfl, blank, labelled⟩ := isLabel.skipped
  have more := nextMember_lead isLead (inside ++ (value ++ rest))
  rw [List.append_assoc, List.cons_append, next_object_more more, labelled]
  change skipValues (.object :: outer) (after ++ (value ++ rest)) = _
  rw [skipValues_blanks blank, skipValues_of_skipValue (skipped _ delimited)]

end Containers

section Values

theorem IsDigits.exists_cons {digits : List Char} (isDigits : IsDigits digits) :
    ∃ c cs, digits = c :: cs ∧ c.isDigit := by
  cases digits with
  | nil => exact absurd rfl isDigits.1
  | cons c cs => exact ⟨c, cs, rfl, isDigits.2 c List.mem_cons_self⟩

theorem IsUnsigned.exists_cons {text : List Char} (number : IsUnsigned text) :
    ∃ c cs, text = c :: cs ∧ c.isDigit := by
  obtain ⟨rfl | ⟨isDigits, -⟩, -, -⟩ := number
  · exact ⟨'0', _, rfl, by decide⟩
  · obtain ⟨c, cs, rfl, digit⟩ := isDigits.exists_cons
    exact ⟨c, _, rfl, digit⟩

theorem isBlank_of_isDigit {c : Char} (digit : c.isDigit) : isBlank c = false := by
  by_contra blank
  have known : c = ' ' ∨ c = '\n' ∨ c = '\t' ∨ c = '\r' := by
    rwa [Bool.not_eq_false, isBlank, decide_eq_true_iff] at blank
  rcases known with rfl | rfl | rfl | rfl <;> exact absurd digit (by decide)

theorem IsValue.opens {text : List Char} (isValue : IsValue text) : Opens text := by
  cases isValue with
  | null => exact ⟨'n', _, rfl, by decide, by decide⟩
  | true => exact ⟨'t', _, rfl, by decide, by decide⟩
  | false => exact ⟨'f', _, rfl, by decide, by decide⟩
  | positive number =>
    obtain ⟨c, cs, rfl, digit⟩ := number.exists_cons
    refine ⟨c, cs, rfl, isBlank_of_isDigit digit, ?_⟩
    rintro rfl
    exact absurd digit (by decide)
  | negative number => exact ⟨'-', _, rfl, by decide, by decide⟩
  | text string =>
    obtain ⟨each⟩ := string
    exact ⟨'\"', _, rfl, by decide, by decide⟩
  | list each commas => exact ⟨'[', _, rfl, by decide, by decide⟩
  | object labels each commas => exact ⟨'\x7b', _, rfl, by decide, by decide⟩

theorem skipStep_digit {c : Char} (digit : c.isDigit) (containers : List Container) (cs : List Char) :
    skipStep containers (c :: cs) = skipNumber (c :: cs) >>= afterValue containers := by
  have other : ¬ (c = 'n' ∨ c = 't' ∨ c = 'f' ∨ c = '-' ∨ c = '\"' ∨ c = '[' ∨ c = '\x7b') := by
    rintro (rfl | rfl | rfl | rfl | rfl | rfl | rfl) <;> exact absurd digit (by decide)
  simp only [not_or] at other
  unfold skipStep
  rw [skipBlanks_cons (isBlank_of_isDigit digit)]
  split
  case h_9 =>
    rename_i same
    obtain ⟨rfl, rfl⟩ := List.cons.inj same
    rw [if_pos digit]
  all_goals simp_all

/-- A value of any depth. What is in a list or an object is skipped with one more container around it. -/
theorem IsValue.skipped {text : List Char} (isValue : IsValue text) : Skipped text := by
  induction isValue with
  | null => exact fun _ _ => skipValue_of_skipStep rfl
  | true => exact fun _ _ => skipValue_of_skipStep rfl
  | false => exact fun _ _ => skipValue_of_skipStep rfl
  | positive number =>
    refine fun rest delimited => skipValue_of_skipStep ?_
    have taken := number.skipped delimited
    obtain ⟨c, cs, rfl, digit⟩ := number.exists_cons
    rw [List.cons_append] at taken ⊢
    rw [skipStep_digit digit, taken]
    rfl
  | negative number =>
    refine fun rest delimited => skipValue_of_skipStep ?_
    change resume (skipNumber (_ ++ rest) >>= afterValue []) = _
    rw [number.skipped delimited]
    rfl
  | text string =>
    refine fun rest _ => skipValue_of_skipStep ?_
    obtain ⟨each⟩ := string
    rename_i pieces
    change resume (skipString (pieces.flatten ++ ['\"'] ++ rest) >>= afterValue []) = _
    rw [List.append_assoc, List.singleton_append, skipString_flatten each]
    rfl
  | @list items inside each commas ih =>
    refine fun rest _ => skipValue_of_skipStep ?_
    have passed : ∀ item ∈ items, ∀ text, item = text → Passed .list text := by
      rintro item member _ rfl
      exact (ih item member).passed (each item member).opens
    rw [List.cons_append, List.append_assoc]
    exact commas.passed passed [] rest
  | @object members inside labels each commas ih =>
    refine fun rest _ => skipValue_of_skipStep ?_
    have passed : ∀ member ∈ members, ∀ text, member.1 ++ member.2 = text → Passed .object text := by
      rintro member listed _ rfl
      exact (ih member listed).passed_member (labels member listed)
    rw [List.cons_append, List.append_assoc]
    exact commas.passed passed [] rest

theorem IsValue.skipValue_eq {blanks text rest : List Char} (isValue : IsValue text) (blank : IsBlanks blanks)
    (delimited : Delimited rest) : skipValue (blanks ++ (text ++ rest)) = .ok ((), rest) := by
  rw [skipValue, skipValues_blanks blank]
  exact isValue.skipped rest delimited

end Values

end Lookahead.Json
