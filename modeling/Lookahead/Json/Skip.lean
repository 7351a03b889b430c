import Lookahead.Json.Reader
import Lookahead.Json.Record

/-!
Values that a document holds but nobody asked for. They are only checked for their form, to any
depth: the containers around the current value are kept in a list, the innermost first.
-/

namespace Lookahead.Json

def skipEscape (cs : List Char) : Except Fault (List Char) :=
  match cs with
  | [] => .error (.before .stringEnds [])
  | 'u' :: rest => (hexQuad rest).map (·.2)
  | c :: rest =>
    if c ∈ ['\"', '\\', '/', 'b', 'f', 'n', 'r', 't'] then .ok rest
    else .error (.next .invalidEscape cs)

theorem skipEscape_length {cs rest : List Char} (success : skipEscape cs = .ok rest) :
    rest.length < cs.length := by
  have quad := hexQuad_progresses
  unfold Progresses at quad
  unfold skipEscape at success
  split at success <;> grind [map_eq_ok]

/-- Surrogates need not come in pairs here. -/
def skipString (cs : List Char) : Except Fault (List Char) :=
  match cs with
  | [] => .error (.before .stringEnds [])
  | '\"' :: rest => .ok rest
  | '\\' :: rest =>
    match _ : skipEscape rest with
    | .error fault => .error fault
    | .ok rest => skipString rest
  | c :: rest =>
    if c.toNat < 0x20 then .error (.before .controlCharacter cs) else skipString rest
termination_by cs.length
decreasing_by
  · have := skipEscape_length ‹_›
    grind
  · simp

theorem skipString_length {cs rest : List Char} (success : skipString cs = .ok rest) :
    rest.length < cs.length := by
  have step {cs rest} := @skipEscape_length cs rest
  fun_induction skipString cs <;> grind

def skipDigits (cs : List Char) : Except Fault (List Char) :=
  if cs.head?.any Char.isDigit then .ok (cs.dropWhile Char.isDigit)
  else .error (.next .invalidNumber cs)

def skipExponent (cs : List Char) : Except Fault (List Char) :=
  match cs with
  | '+' :: rest | '-' :: rest => skipDigits rest
  | _ => skipDigits cs

def skipNumber (cs : List Char) : Except Fault (List Char) :=
  match cs with
  | '0' :: c :: rest =>
    if c.isDigit then .error (.next .invalidNumber (c :: rest)) else fraction (c :: rest)
  | _ => do fraction (← skipDigits cs)
where
  fraction (cs : List Char) : Except Fault (List Char) :=
    match cs with
    | '.' :: rest => do exponent (← skipDigits rest)
    | _ => exponent cs
  exponent (cs : List Char) : Except Fault (List Char) :=
    match cs with
    | 'e' :: rest | 'E' :: rest => skipExponent rest
    | _ => .ok cs

theorem skipDigits_length {cs rest : List Char} (success : skipDigits cs = .ok rest) :
    rest.length < cs.length := by
  unfold skipDigits at success
  cases cs with
  | nil => simp at success
  | cons c cs =>
    have shorter : (cs.dropWhile Char.isDigit).length ≤ cs.length :=
      (List.dropWhile_sublist _).length_le
    grind [List.dropWhile_cons]

theorem skipExponent_length {cs rest : List Char} (success : skipExponent cs = .ok rest) :
    rest.length < cs.length := by
  have step {cs rest} := @skipDigits_length cs rest
  unfold skipExponent at success
  grind

private theorem exponent_length {cs rest : List Char}
    (success : skipNumber.exponent cs = .ok rest) : rest.length ≤ cs.length := by
  have step {cs rest} := @skipExponent_length cs rest
  unfold skipNumber.exponent at success
  grind

private theorem fraction_length {cs rest : List Char}
    (success : skipNumber.fraction cs = .ok rest) : rest.length ≤ cs.length := by
  have step {cs rest} := @skipDigits_length cs rest
  have step' {cs rest} := @exponent_length cs rest
  unfold skipNumber.fraction at success
  simp only [bind, Except.bind] at success
  grind

theorem skipNumber_length {cs rest : List Char} (success : skipNumber cs = .ok rest) :
    rest.length < cs.length := by
  have step {cs rest} := @skipDigits_length cs rest
  have step' {cs rest} := @fraction_length cs rest
  unfold skipNumber at success
  simp only [bind, Except.bind] at success
  grind

inductive Container where
  | list
  | object
deriving DecidableEq

namespace Container

def closing : Container → Char
  | list => ']'
  | object => '\x7d'

def ends : Container → Cause
  | list => .listEnds
  | object => .objectEnds

def separatorExpected : Container → Cause
  | list => .listSeparatorExpected
  | object => .objectSeparatorExpected

/-- What comes before a value in the container: nothing, or a key and a colon. -/
def skipLabel (container : Container) (cs : List Char) : Except Fault (List Char) :=
  match container with
  | list => .ok cs
  | object =>
    match skipBlanks cs with
    | [] => .error (.next .objectEnds [])
    | '\"' :: rest => do colon (← skipString rest)
    | cs => .error (.next .keyExpected cs)

end Container

/-- Goes on after a value: closes containers up to the place of the next value. No container is
left open where that was the last one. -/
def afterValue (containers : List Container) (cs : List Char) :
    Except Fault (List Container × List Char) :=
  match containers with
  | [] => .ok ([], cs)
  | inner :: outer =>
    match skipBlanks cs with
    | [] => .error (.next inner.ends [])
    | c :: rest =>
      if c = ',' then (inner.skipLabel rest).map (inner :: outer, ·)
      else if c = inner.closing then afterValue outer rest
      else .error (.next inner.separatorExpected (c :: rest))

/-- Goes on after an opening bracket or brace. -/
def enter (inner : Container) (outer : List Container) (cs : List Char) :
    Except Fault (List Container × List Char) :=
  match skipBlanks cs with
  | [] => .error (.next inner.ends [])
  | c :: rest =>
    if c = inner.closing then afterValue outer rest
    else (inner.skipLabel (c :: rest)).map (inner :: outer, ·)

/-- Takes one scalar or opens one container, and goes on to the place of the next value. -/
def skipStep (containers : List Container) (cs : List Char) :
    Except Fault (List Container × List Char) :=
  match skipBlanks cs with
  | [] => .error (.next .valueEnds [])
  | 'n' :: rest => do afterValue containers (← word "ull".toList rest)
  | 't' :: rest => do afterValue containers (← word "rue".toList rest)
  | 'f' :: rest => do afterValue containers (← word "alse".toList rest)
  | '-' :: rest => do afterValue containers (← skipNumber rest)
  | '\"' :: rest => do afterValue containers (← skipString rest)
  | '[' :: rest => enter .list containers rest
  | '\x7b' :: rest => enter .object containers rest
  | c :: rest =>
    if c.isDigit then do afterValue containers (← skipNumber (c :: rest))
    else .error (.next .valueExpected (c :: rest))

theorem skipLabel_length {container : Container} {cs rest : List Char}
    (success : container.skipLabel cs = .ok rest) : rest.length ≤ cs.length := by
  have blanks := skipBlanks_length cs
  have key {cs rest} := @skipString_length cs rest
  have step {cs rest} := @colon_length cs rest
  unfold Container.skipLabel at success
  simp only [bind, Except.bind] at success
  grind

theorem afterValue_length {containers after : List Container} {cs rest : List Char}
    (success : afterValue containers cs = .ok (after, rest)) : rest.length ≤ cs.length := by
  have blanks := skipBlanks_length
  have label {container cs rest} := @skipLabel_length container cs rest
  fun_induction afterValue containers cs <;> grind [map_eq_ok]

theorem enter_length {inner : Container} {outer after : List Container} {cs rest : List Char}
    (success : enter inner outer cs = .ok (after, rest)) : rest.length ≤ cs.length := by
  have blanks := skipBlanks_length cs
  have label {container cs rest} := @skipLabel_length container cs rest
  have step {containers after cs rest} := @afterValue_length containers after cs rest
  unfold enter at success
  split at success <;> grind [map_eq_ok]

theorem skipStep_length {containers after : List Container} {cs rest : List Char}
    (success : skipStep containers cs = .ok (after, rest)) : rest.length < cs.length := by
  have blanks := skipBlanks_length cs
  have step {containers after cs rest} := @afterValue_length containers after cs rest
  have nested {inner outer after cs rest} := @enter_length inner outer after cs rest
  have text {cs rest} := @skipString_length cs rest
  have digits {cs rest} := @skipNumber_length cs rest
  have letters {expected cs rest} := @word_length expected cs rest
  unfold skipStep at success
  simp only [bind, Except.bind] at success
  split at success <;> grind

def skipValues (containers : List Container) (cs : List Char) : Except Fault (List Char) :=
  match _ : skipStep containers cs with
  | .error fault => .error fault
  | .ok ([], rest) => .ok rest
  | .ok (inner :: outer, rest) => skipValues (inner :: outer) rest
termination_by cs.length
decreasing_by exact skipStep_length ‹_›

def skipValue (cs : List Char) : Except Fault (Unit × List Char) :=
  (skipValues [] cs).map ((), ·)

theorem skipValues_length {containers : List Container} {cs rest : List Char}
    (success : skipValues containers cs = .ok rest) : rest.length < cs.length := by
  have step {containers after cs rest} := @skipStep_length containers after cs rest
  fun_induction skipValues containers cs <;> grind

theorem skipValue_progresses : Progresses skipValue := by
  intro cs a rest success
  unfold skipValue at success
  obtain ⟨after, skipped, same⟩ := map_eq_ok.1 success
  have := skipValues_length skipped
  grind

end Lookahead.Json
