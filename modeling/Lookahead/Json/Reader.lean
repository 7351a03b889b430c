import Lookahead.Json.Number
import Lookahead.Json.Text

/-!
Readers of the parts of a document whose types are known in advance. Each one takes the characters
that are left and gives a value with those that are left after it. Where a value has another type
than the expected one, it is read far enough to say what it is.
-/

namespace Lookahead.Json

def isBlank (c : Char) : Bool := c = ' ' ∨ c = '\n' ∨ c = '\t' ∨ c = '\r'

def skipBlanks (cs : List Char) : List Char := cs.dropWhile isBlank

theorem skipBlanks_length (cs : List Char) : (skipBlanks cs).length ≤ cs.length :=
  (List.dropWhile_sublist _).length_le

def word (expected cs : List Char) : Except Fault (List Char) :=
  match expected, cs with
  | [], _ => .ok cs
  | _ :: _, [] => .error (.before .valueEnds [])
  | e :: expected, c :: rest => if c = e then word expected rest else .error (.next .wordExpected cs)

theorem word_length {expected cs rest : List Char} (success : word expected cs = .ok rest) :
    rest.length ≤ cs.length := by
  fun_induction word expected cs <;> grind

/-- What stands before the characters, as far as a message tells. -/
def found (cs : List Char) : Except Fault (Found × List Char) :=
  match cs with
  | 'n' :: rest => (word "ull".toList rest).map (Found.null, ·)
  | 't' :: rest => (word "rue".toList rest).map (Found.bool true, ·)
  | 'f' :: rest => (word "alse".toList rest).map (Found.bool false, ·)
  | '-' :: rest => number true rest
  | '\"' :: rest => (characterList rest).map fun (cs, rest) => (.text (String.ofList cs), rest)
  | '[' :: _ => .ok (.array, cs)
  | '\x7b' :: _ => .ok (.object, cs)
  | c :: _ => if c.isDigit then number false cs else .error (.next .valueExpected cs)
  | [] => .error (.next .valueEnds [])

/-- Nothing that the value itself does wrong is hidden by its wrong type. -/
def wrongType (expected : Expected) (cs : List Char) : Fault :=
  match found cs with
  | .ok (found, rest) => .before (.wrongType found expected) rest
  | .error fault => fault

def string (cs : List Char) : Except Fault (String × List Char) :=
  match skipBlanks cs with
  | [] => .error (.next .valueEnds [])
  | '\"' :: rest => (characterList rest).map fun (cs, rest) => (String.ofList cs, rest)
  | cs => .error (wrongType .string cs)

theorem string_progresses : Progresses string := by
  intro cs s rest success
  have blanks := skipBlanks_length cs
  have step := characterList_progresses
  unfold Progresses at step
  unfold string at success
  split at success <;> grind [map_eq_ok]

/-- A string, or nothing where the document says null. -/
def optionalString (cs : List Char) : Except Fault (Option String × List Char) :=
  match skipBlanks cs with
  | 'n' :: rest => (word "ull".toList rest).map (none, ·)
  | cs => (string cs).map fun (s, rest) => (some s, rest)

theorem optionalString_progresses : Progresses optionalString := by
  intro cs s rest success
  have blanks := skipBlanks_length cs
  have step := string_progresses
  have step' {expected cs rest : List Char} := @word_length expected cs rest
  unfold Progresses at step
  unfold optionalString at success
  split at success <;> grind [map_eq_ok]

/-- Takes a closing bracket. Where it is missing, the cause belongs to the next byte of what is
left. -/
def closeList (cs : List Char) : Option Cause × List Char :=
  match skipBlanks cs with
  | [] => (some .listEnds, [])
  | ']' :: rest => (none, rest)
  | ',' :: rest =>
    match skipBlanks rest with
    | ']' :: rest => (some .trailingComma, ']' :: rest)
    | rest => (some .trailingCharacters, rest)
  | rest => (some .trailingCharacters, rest)

/-- Whether a list has another item. If so, what is left begins with it; otherwise with the
closing bracket. -/
def nextItem (first : Bool) (cs : List Char) : Except Fault (Bool × List Char) :=
  match skipBlanks cs with
  | [] => .error (.next .listEnds [])
  | ']' :: rest => .ok (false, ']' :: rest)
  | c :: rest =>
    if first then .ok (true, c :: rest)
    else if c = ',' then
      match skipBlanks rest with
      | [] => .error (.next .valueEnds [])
      | ']' :: rest => .error (.next .trailingComma (']' :: rest))
      | rest => .ok (true, rest)
    else .error (.next .listSeparatorExpected (c :: rest))

theorem nextItem_length {first more : Bool} {cs rest : List Char}
    (success : nextItem first cs = .ok (more, rest)) : rest.length ≤ cs.length := by
  have blanks := skipBlanks_length
  unfold nextItem at success
  grind

variable {α : Type}

def items (item : List Char → Except Fault (α × List Char)) (progresses : Progresses item)
    (first : Bool) (cs : List Char) : Except Fault (List α × List Char) :=
  match _ : nextItem first cs with
  | .error fault => .error fault
  | .ok (false, rest) => .ok ([], rest)
  | .ok (true, rest) =>
    match _ : item rest with
    | .error fault => .error fault
    | .ok (a, rest) => (items item progresses false rest).map fun (as, rest) => (a :: as, rest)
termination_by cs.length
decreasing_by
  have := nextItem_length ‹_›
  have := progresses _ _ _ ‹_›
  omega

theorem items_length {item : List Char → Except Fault (α × List Char)}
    {progresses : Progresses item} {first : Bool} {cs rest : List Char} {as : List α}
    (success : items item progresses first cs = .ok (as, rest)) : rest.length ≤ cs.length := by
  have step {first more cs rest} := @nextItem_length first more cs rest
  have step' := progresses
  unfold Progresses at step'
  fun_induction items item progresses first cs generalizing as rest <;> grind [map_eq_ok]

def list (item : List Char → Except Fault (α × List Char)) (progresses : Progresses item)
    (cs : List Char) : Except Fault (List α × List Char) :=
  match skipBlanks cs with
  | [] => .error (.next .valueEnds [])
  | '[' :: rest => do
    let (as, rest) ← items item progresses true rest
    match closeList rest with
    | (none, rest) => .ok (as, rest)
    | (some cause, rest) => .error (.next cause rest)
  | cs => .error (wrongType .list cs)

theorem closeList_length {cause : Option Cause} {cs rest : List Char}
    (closed : closeList cs = (cause, rest)) : rest.length ≤ cs.length := by
  have blanks := skipBlanks_length
  unfold closeList at closed
  grind

theorem list_progresses (item : List Char → Except Fault (α × List Char))
    (progresses : Progresses item) : Progresses (list item progresses) := by
  intro cs as rest success
  have blanks := skipBlanks_length cs
  have inside {cs rest as} := @items_length α item progresses true cs rest as
  have close {cause cs rest} := @closeList_length cause cs rest
  unfold list at success
  simp only [bind, Except.bind] at success
  split at success <;> grind

end Lookahead.Json
