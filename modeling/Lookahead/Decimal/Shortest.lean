/-!
Shortest decimals of binary fractions. A finite double is `m · 2 ^ q`; the numbers that round to it
lie between the midpoints to its two neighbours, ends included exactly when `m` is even. Of the
decimals in that interval the one with the fewest digits is taken, of several the nearest, and of
two that are equally near the even one.
-/

namespace Lookahead

/-- The number `digits · 10 ^ exponent`, negated when `negative` is set. -/
structure Decimal where
  negative : Bool
  digits : Nat
  exponent : Int
deriving DecidableEq, Repr

namespace Decimal

/-- A positive double `significand · 2 ^ exponent`. It is `narrow` when its lower neighbour is only
half as far away as the upper one. -/
structure Binary where
  significand : Nat
  exponent : Int
  narrow : Bool

namespace Binary

/-- The magnitude that the bits of a finite double other than zero stand for. -/
def ofBits (bits : UInt64) : Binary :=
  let fraction : Nat := bits.toNat % Nat.pow 2 52
  let scale : Nat := bits.toNat / Nat.pow 2 52 % Nat.pow 2 11
  if scale = 0 then ⟨fraction, -1074, false⟩
  else ⟨Nat.pow 2 52 + fraction, (scale : Int) - 1075, fraction = 0 ∧ 1 < scale⟩

/-- Four times the significand, and the two ends of the rounding interval, all three as multiples
of `1 / below` after the exponent is applied. -/
structure Span where
  value : Nat
  lower : Nat
  upper : Nat
  below : Nat
  closed : Bool

def span (b : Binary) : Span :=
  let raise := Nat.pow 2 b.exponent.toNat
  let value := 4 * b.significand
  { value := value * raise
    lower := (value - if b.narrow then 1 else 2) * raise
    upper := (value + 2) * raise
    below := 4 * Nat.pow 2 (-b.exponent).toNat
    closed := b.significand % 2 = 0 }

end Binary

private def digitCount (n : Nat) : Nat := if n = 0 then 0 else (Nat.toDigits 10 n).length

/-- The exponent of the leading decimal digit of `value / below`. -/
private def leading (value below : Nat) : Int :=
  if below ≤ value then (digitCount (value / below) : Int) - 1
  else - (digitCount ((below + value - 1) / value - 1) : Int)

/-- The grid point next to the value, on the grid of the multiples of `10 ^ exponent`, that lies in
the span, if there is one. -/
private def onGrid (s : Binary.Span) (exponent : Int) : Option Nat :=
  let raise := Nat.pow 10 (-exponent).toNat
  let step := s.below * Nat.pow 10 exponent.toNat
  let value := s.value * raise
  let inside (d : Nat) : Bool :=
    let point := d * step
    if s.closed then s.lower * raise ≤ point ∧ point ≤ s.upper * raise
    else s.lower * raise < point ∧ point < s.upper * raise
  let below := value / step
  let above := below + 1
  match inside below, inside above with
  | false, false => none
  | true, false => some below
  | false, true => some above
  | true, true =>
    let down := value - below * step
    let up := above * step - value
    some (if down < up ∨ (down = up ∧ below % 2 = 0) then below else above)

private def search (s : Binary.Span) (exponent : Int) : Nat → Nat × Int
  | 0 => (s.value / s.below, 0)
  | grids + 1 =>
    match onGrid s exponent with
    | some d => (d, exponent)
    | none => search s (exponent - 1) grids

/-- Seventeen digits tell any two doubles apart, so the search over eighteen grids ends with one. -/
def shortest (x : Float) : Decimal :=
  let bits := x.toBits
  let negative : Bool := Nat.pow 2 63 ≤ bits.toNat
  if bits.toNat % Nat.pow 2 63 = 0 then ⟨negative, 0, 0⟩
  else
    let s := (Binary.ofBits bits).span
    let (digits, exponent) := search s (leading s.value s.below) 18
    ⟨negative, digits, exponent⟩

/-- Which decimals are written without an exponent: those whose leading digit has an exponent in
this range. -/
structure Format where
  lowest : Int
  highest : Int

private def withoutTrailingZeros : List Char → List Char
  | [] => []
  | c :: rest =>
    match withoutTrailingZeros rest with
    | [] => if c = '0' then [] else [c]
    | kept => c :: kept

/-- Positional text has at least one digit after its point; text with an exponent has a point only
between two digits, and the exponent always carries its sign. -/
def Format.text (format : Format) (d : Decimal) : String :=
  let sign := if d.negative then ['-'] else []
  let digits := Nat.toDigits 10 d.digits
  let first : Int := digits.length - 1 + d.exponent
  let significant := withoutTrailingZeros digits
  let body :=
    if significant.isEmpty then ['0', '.', '0']
    else if format.lowest ≤ first ∧ first ≤ format.highest then
      if first < 0 then
        '0' :: '.' :: List.replicate (-first - 1).toNat '0' ++ significant
      else
        let whole := first.toNat + 1
        let after := significant.drop whole
        significant.take whole ++ List.replicate (whole - significant.length) '0' ++
          '.' :: if after.isEmpty then ['0'] else after
    else
      let after := significant.drop 1
      significant.take 1 ++ (if after.isEmpty then [] else '.' :: after) ++
        'e' :: (if first < 0 then '-' else '+') :: Nat.toDigits 10 first.natAbs
  String.ofList (sign ++ body)

end Decimal

end Lookahead
