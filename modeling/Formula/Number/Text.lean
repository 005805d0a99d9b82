import Formula.Number.Reader

/-! The shortest decimal that reads back as a given binary64 number. Every comparison is made in
whole numbers, after the value, the ends of its rounding interval and the decimal grid have been
brought to one denominator. -/

namespace Formula.Number

/-- A binary64 magnitude and the interval of all magnitudes that round to it, on a decimal grid of
points `step` apart, in a unit that makes all of them whole. -/
structure RoundingInterval where
  low : Nat
  value : Nat
  high : Nat
  /-- The ends round to the even number of the two they lie between. -/
  closed : Bool
  step : Nat
  deriving Repr

namespace RoundingInterval

/-- The interval of a magnitude over the grid of the multiples of `10 ^ place`. The gap below a
power of two is half the gap above it, except below the least normal number. -/
def atPlace (magnitude : Binary) (place : Int) : RoundingInterval :=
  let quarter := magnitude.exponent - 2
  let gap := if magnitude.significand = leadingBit ∧ -1074 < magnitude.exponent then 1 else 2
  let scale := Nat.pow 2 quarter.toNat * Nat.pow 10 (-place).toNat
  { low := (4 * magnitude.significand - gap) * scale
    value := 4 * magnitude.significand * scale
    high := (4 * magnitude.significand + 2) * scale
    closed := magnitude.significand % 2 = 0
    step := Nat.pow 10 place.toNat * Nat.pow 2 (-quarter).toNat }

def holds (interval : RoundingInterval) (multiple : Nat) : Bool :=
  let point := multiple * interval.step
  if interval.closed then interval.low ≤ point && point ≤ interval.high
  else interval.low < point && point < interval.high

/-- The multiple of the step that is nearest to the value among those that round to it, if any
does. Only the two neighbours of the value can be the nearest, and the upper one wins a tie. -/
def nearestPoint? (interval : RoundingInterval) : Option Nat :=
  let below := interval.value / interval.step
  let toBelow := interval.value - below * interval.step
  let toAbove := (below + 1) * interval.step - interval.value
  match interval.holds below, interval.holds (below + 1) with
  | true, true => some (if toAbove ≤ toBelow then below + 1 else below)
  | true, false => some below
  | false, true => some (below + 1)
  | false, false => none

end RoundingInterval

namespace Binary

/-- The exponent of the first decimal digit of a magnitude other than zero. The lengths of a
quotient's two sides leave only two candidates. -/
def decimalOrder (magnitude : Binary) : Int :=
  let numerator := magnitude.significand * Nat.pow 2 magnitude.exponent.toNat
  let denominator := Nat.pow 2 (-magnitude.exponent).toNat
  let guess : Int :=
    Int.ofNat (Nat.toDigits 10 numerator).length - Int.ofNat (Nat.toDigits 10 denominator).length
  if denominator * Nat.pow 10 guess.toNat ≤ numerator * Nat.pow 10 (-guess).toNat then guess
  else guess - 1

def shortestFrom (magnitude : Binary) (order : Int) : Nat → Nat → Option Decimal
  | 0, _ => none
  | bound + 1, length =>
    let place := order + 1 - length
    match (RoundingInterval.atPlace magnitude place).nearestPoint? with
    | some digits => some ⟨digits, place⟩
    | none => shortestFrom magnitude order bound (length + 1)

def exactDecimal (magnitude : Binary) : Decimal :=
  let places := (-magnitude.exponent).toNat
  ⟨magnitude.significand * Nat.pow 2 magnitude.exponent.toNat * Nat.pow 5 places, -(places : Int)⟩

/-- The decimal of fewest digits that rounds to a magnitude, and the nearest to it of those.
Seventeen digits are enough for every binary64 number; if they were not, all digits would be
taken. -/
def shortest (magnitude : Binary) : Decimal :=
  if magnitude.significand = 0 then ⟨0, 0⟩
  else
    match shortestFrom magnitude magnitude.decimalOrder 17 1 with
    | some decimal => decimal.trimmed 17
    | none => magnitude.exactDecimal

end Binary

/-! The two texts of a number. Both have the fewest digits that read back as the same number. -/

/-- The text of a number whose magnitude is written by `layout`. A negative zero keeps its sign,
and a NaN has none. -/
def textWith (layout : Decimal → List Char) (x : Float) : String :=
  let signed (negative : Bool) (text : List Char) : String :=
    String.ofList (if negative then '-' :: text else text)
  match shape x with
  | .nan => "NaN"
  | .infinite negative => signed negative ['i', 'n', 'f']
  | .finite negative magnitude => signed negative (layout magnitude.shortest)

/-- The layout that tells a number from other text: numbers from `10 ^ -4` to below `10 ^ 16` are
written without an exponent and with at least one digit after the point, all others with one digit
before it and an exponent. -/
def compactLayout (d : Decimal) : List Char :=
  if -4 ≤ d.order ∧ d.order < 16 then d.positional true else d.scientific

def text (x : Float) : String :=
  textWith compactLayout x

/-- The text of a number for a message: never an exponent, and no point in a whole number. -/
def plainText (x : Float) : String :=
  textWith (Decimal.positional false) x

end Formula.Number
