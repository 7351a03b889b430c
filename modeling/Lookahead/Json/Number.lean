import Lookahead.Json.Fault

/-!
Numbers of a document. A number without point and exponent that fits 64 bits is an integer; every
other one is a double: its leading digits, as many as fit 64 bits, scaled by a power of ten.
-/

namespace Lookahead.Json

private def digitValue (c : Char) : Nat := c.toNat - '0'.toNat

/-- The significand continued by digits for as long as it fits 64 bits, the number of digits taken,
and what is left. -/
private def takeDigits (significand : Nat) : List Char → Nat × Nat × List Char
  | [] => (significand, 0, [])
  | c :: rest =>
    let longer := significand * 10 + digitValue c
    if c.isDigit ∧ longer < Nat.pow 2 64 then
      let (value, taken, left) := takeDigits longer rest
      (value, taken + 1, left)
    else (significand, 0, c :: rest)

/-- Exponents up to 308 are applied in one operation; below that, division goes in steps until
nothing is left. -/
private def scaled (x : Float) (exponent : Int) : Option Float :=
  if exponent.natAbs ≤ 308 then
    let power := Float.ofScientific 1 false exponent.natAbs
    if exponent < 0 then some (x / power)
    else if (x * power).isInf then none
    else some (x * power)
  else if x == 0 then some x
  else if 0 < exponent then none
  else scaled (x / Float.ofScientific 1 false 308) (exponent + 308)
termination_by exponent.natAbs

private def double (negative : Bool) (significand : Nat) (exponent : Int) (rest : List Char) :
    Except Fault (Found × List Char) :=
  match scaled significand.toUInt64.toFloat exponent with
  | some x => .ok (.decimal (.shortest (if negative then -x else x)), rest)
  | none => .error (.before .numberOutOfRange rest)

private def zero (negative : Bool) : Found := .decimal ⟨negative, 0, 0⟩

/-- Stops after the digit that makes the exponent larger than 31 bits can hold. -/
private def takeExponent (value : Nat) : List Char → Nat × Bool × List Char
  | [] => (value, false, [])
  | c :: rest =>
    if c.isDigit then
      let longer := value * 10 + digitValue c
      if longer < Nat.pow 2 31 then takeExponent longer rest else (longer, true, rest)
    else (value, false, c :: rest)

private def exponentPart (negative : Bool) (significand : Nat) (scale : Int) (cs : List Char) :
    Except Fault (Found × List Char) :=
  let (shrinks, cs) := match cs with
    | '+' :: rest => (false, rest)
    | '-' :: rest => (true, rest)
    | _ => (false, cs)
  match cs with
  | [] => .error (.before .valueEnds [])
  | c :: _ =>
    if c.isDigit then
      match takeExponent 0 cs with
      | (exponent, false, rest) =>
        double negative significand (if shrinks then scale - exponent else scale + exponent) rest
      | (_, true, rest) =>
        if significand ≠ 0 ∧ !shrinks then .error (.before .numberOutOfRange rest)
        else .ok (zero negative, rest.dropWhile Char.isDigit)
    else .error (.next .invalidNumber cs)

private def optionalExponent (negative : Bool) (significand : Nat) (scale : Int)
    (cs : List Char) : Except Fault (Found × List Char) :=
  match cs with
  | 'e' :: rest | 'E' :: rest => exponentPart negative significand scale rest
  | _ => double negative significand scale cs

private def fraction (negative : Bool) (significand : Nat) (scale : Int) (cs : List Char) :
    Except Fault (Found × List Char) :=
  match cs with
  | [] => .error (.next .valueEnds [])
  | c :: _ =>
    if c.isDigit then
      let (significand, taken, rest) := takeDigits significand cs
      optionalExponent negative significand (scale - taken) (rest.dropWhile Char.isDigit)
    else .error (.next .invalidNumber cs)

/-- A negative integer has a sign that is part of it, so zero with a sign is no integer. -/
private def integer (negative : Bool) (magnitude : Nat) (rest : List Char) :
    Except Fault (Found × List Char) :=
  if !negative then .ok (.integer magnitude, rest)
  else if 0 < magnitude ∧ magnitude ≤ Nat.pow 2 63 then .ok (.integer (-magnitude), rest)
  else double negative magnitude 0 rest

/-- The number after its sign. -/
def number (negative : Bool) (cs : List Char) : Except Fault (Found × List Char) :=
  match cs with
  | [] => .error (.before .valueEnds [])
  | c :: rest =>
    if c = '0' ∧ rest.head?.any Char.isDigit then .error (.next .invalidNumber rest)
    else if c.isDigit then
      let (significand, _, after) := takeDigits 0 cs
      let further := after.takeWhile Char.isDigit
      match after.dropWhile Char.isDigit with
      | '.' :: rest => fraction negative significand further.length rest
      | 'e' :: rest | 'E' :: rest => exponentPart negative significand further.length rest
      | rest =>
        if further.isEmpty then integer negative significand rest
        else double negative significand further.length rest
    else .error (.next .invalidNumber cs)

end Lookahead.Json
