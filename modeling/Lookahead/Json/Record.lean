import Lookahead.Json.Reader

/-!
Readers of objects, and of records, which are objects or lists whose members are known in advance.
-/

namespace Lookahead.Json

variable {α σ : Type}

/-- Whether an object has another member. If so, what is left begins after the opening quote of
its key; otherwise with the closing brace. -/
def nextMember (first : Bool) (cs : List Char) : Except Fault (Bool × List Char) :=
  match skipBlanks cs with
  | [] => .error (.next .objectEnds [])
  | '\x7d' :: rest => .ok (false, '\x7d' :: rest)
  | c :: rest =>
    if first then
      if c = '\"' then .ok (true, rest) else .error (.next .keyExpected (c :: rest))
    else if c = ',' then
      match skipBlanks rest with
      | [] => .error (.next .valueEnds [])
      | '\"' :: rest => .ok (true, rest)
      | '\x7d' :: rest => .error (.next .trailingComma ('\x7d' :: rest))
      | rest => .error (.next .keyExpected rest)
    else .error (.next .objectSeparatorExpected (c :: rest))

theorem nextMember_length {first more : Bool} {cs rest : List Char}
    (success : nextMember first cs = .ok (more, rest)) : rest.length ≤ cs.length := by
  have blanks := skipBlanks_length
  unfold nextMember at success
  grind

def colon (cs : List Char) : Except Fault (List Char) :=
  match skipBlanks cs with
  | [] => .error (.next .objectEnds [])
  | ':' :: rest => .ok rest
  | cs => .error (.next .colonExpected cs)

theorem colon_length {cs rest : List Char} (success : colon cs = .ok rest) :
    rest.length < cs.length := by
  have blanks := skipBlanks_length cs
  unfold colon at success
  split at success <;> grind

/-- Takes a closing brace. Where it is missing, the cause belongs to the next byte of what is left. -/
def closeObject (cs : List Char) : Option Cause × List Char :=
  match skipBlanks cs with
  | [] => (some .objectEnds, [])
  | '\x7d' :: rest => (none, rest)
  | ',' :: rest => (some .trailingComma, ',' :: rest)
  | rest => (some .trailingCharacters, rest)

/-- What ends the contents of a record: a fault, or a cause that gets its place only after the end
of the record has been looked for. -/
inductive Interruption where
  | fault (fault : Fault)
  | cause (cause : Cause) (rest : List Char)

/-- The contents of a record, closed. -/
def finish (close : List Char → Option Cause × List Char)
    (contents : Except Interruption (α × List Char)) : Except Fault (α × List Char) :=
  match contents with
  | .ok (a, rest) =>
    match close rest with
    | (none, rest) => .ok (a, rest)
    | (some cause, rest) => .error (.next cause rest)
  | .error (.fault fault) => .error fault
  | .error (.cause cause rest) => .error (.before cause (close rest).2)

theorem finish_eq_ok {close : List Char → Option Cause × List Char}
    {contents : Except Interruption (α × List Char)} {a : α} {rest : List Char} :
    finish close contents = .ok (a, rest) ↔
      ∃ inner, contents = .ok (a, inner) ∧ close inner = (none, rest) := by
  unfold finish
  constructor
  · intro success
    split at success
    · split at success <;> simp_all
    · simp at success
    · simp at success
  · rintro ⟨inner, read, closed⟩
    simp [read, closed]

/-- A record is written as an object, or as the list of its values. -/
def record (name : String) (ofItems ofMembers : List Char → Except Interruption (α × List Char))
    (cs : List Char) : Except Fault (α × List Char) :=
  match skipBlanks cs with
  | [] => .error (.next .valueEnds [])
  | '[' :: rest => finish closeList (ofItems rest)
  | '\x7b' :: rest => finish closeObject (ofMembers rest)
  | cs => .error (wrongType (.record name) cs)

theorem closeObject_length {cause : Option Cause} {cs rest : List Char}
    (closed : closeObject cs = (cause, rest)) : rest.length ≤ cs.length := by
  have blanks := skipBlanks_length
  unfold closeObject at closed
  grind

theorem record_progresses {name : String}
    {ofItems ofMembers : List Char → Except Interruption (α × List Char)}
    (items_length : ∀ {cs a rest}, ofItems cs = .ok (a, rest) → rest.length ≤ cs.length)
    (members_length : ∀ {cs a rest}, ofMembers cs = .ok (a, rest) → rest.length ≤ cs.length) :
    Progresses (record name ofItems ofMembers) := by
  intro cs a rest success
  have blanks := skipBlanks_length cs
  unfold record at success
  split at success
  · simp at success
  · obtain ⟨inner, read, closed⟩ := finish_eq_ok.1 success
    have := items_length read
    have := closeList_length closed
    grind
  · obtain ⟨inner, read, closed⟩ := finish_eq_ok.1 success
    have := members_length read
    have := closeObject_length closed
    grind
  · simp at success

/-- The next value of a record that is written as a list, if the list has one more. -/
def optionalItem (read : List Char → Except Fault (α × List Char)) (first : Bool)
    (cs : List Char) : Except Interruption (Option α × List Char) :=
  match nextItem first cs with
  | .error fault => .error (.fault fault)
  | .ok (false, rest) => .ok (none, rest)
  | .ok (true, rest) =>
    match read rest with
    | .error fault => .error (.fault fault)
    | .ok (a, rest) => .ok (some a, rest)

theorem optionalItem_length {read : List Char → Except Fault (α × List Char)}
    (progresses : Progresses read) {first : Bool} {cs rest : List Char} {a : Option α}
    (success : optionalItem read first cs = .ok (a, rest)) : rest.length ≤ cs.length := by
  have step {first more cs rest} := @nextItem_length first more cs rest
  have step' := progresses
  unfold Progresses at step'
  unfold optionalItem at success
  grind

/-- The members of an object, each of them put into the state by `member`, which is given the key
and what follows it. -/
def members (member : σ → String → List Char → Except Interruption (σ × List Char))
    (length : ∀ {state key cs next rest}, member state key cs = .ok (next, rest) →
      rest.length ≤ cs.length)
    (first : Bool) (state : σ) (cs : List Char) : Except Interruption (σ × List Char) :=
  match _ : nextMember first cs with
  | .error fault => .error (.fault fault)
  | .ok (false, rest) => .ok (state, rest)
  | .ok (true, rest) =>
    match _ : characterList rest with
    | .error fault => .error (.fault fault)
    | .ok (key, rest) =>
      match _ : member state (String.ofList key) rest with
      | .error interruption => .error interruption
      | .ok (state, rest) => members member length false state rest
termination_by cs.length
decreasing_by
  have := nextMember_length ‹_›
  have := characterList_progresses _ _ _ ‹_›
  have := length ‹_›
  omega

theorem members_length {member : σ → String → List Char → Except Interruption (σ × List Char)}
    {length : ∀ {state key cs next rest}, member state key cs = .ok (next, rest) →
      rest.length ≤ cs.length}
    {first : Bool} {state next : σ} {cs rest : List Char}
    (success : members member length first state cs = .ok (next, rest)) :
    rest.length ≤ cs.length := by
  have step {first more cs rest} := @nextMember_length first more cs rest
  have key := characterList_progresses
  unfold Progresses at key
  fun_induction members member length first state cs <;> grind

def memberValue (read : List Char → Except Fault (α × List Char)) (cs : List Char) :
    Except Interruption (α × List Char) :=
  match colon cs with
  | .error fault => .error (.fault fault)
  | .ok rest =>
    match read rest with
    | .error fault => .error (.fault fault)
    | .ok (a, rest) => .ok (a, rest)

theorem memberValue_length {read : List Char → Except Fault (α × List Char)}
    (progresses : Progresses read) {cs rest : List Char} {a : α}
    (success : memberValue read cs = .ok (a, rest)) : rest.length ≤ cs.length := by
  have step {cs rest} := @colon_length cs rest
  have step' := progresses
  unfold Progresses at step'
  unfold memberValue at success
  grind

end Lookahead.Json
