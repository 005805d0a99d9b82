/-! Binary64 numbers as exact integers. A finite number is taken apart into a whole significand and
a power of two, and an exact magnitude is put together again by one rounding to the nearest number.
Nothing here computes with floating-point operations. -/

namespace Formula.Number

/-- The exact magnitude `significand · 2 ^ exponent`. -/
structure Binary where
  significand : Nat
  exponent : Int
  deriving DecidableEq, Repr

/-- What a binary64 number is. All its NaNs are one, without a sign. -/
inductive Shape where
  | nan
  | infinite (negative : Bool)
  | finite (negative : Bool) (magnitude : Binary)
  deriving DecidableEq, Repr

/-- The leading bit of a normal number's significand, which has 53 bits. The fields of a number are
a sign, an exponent of eleven bits and a significand without its leading bit. -/
def leadingBit : Nat :=
  Nat.pow 2 52

/-- Take a number apart by the fields of its 64 bits. A number below the normal ones has the least
exponent and lacks the leading bit of the others. -/
def shape (x : Float) : Shape :=
  let bits := x.toBits.toNat
  let negative := decide (Nat.pow 2 63 ≤ bits)
  let exponent := bits / leadingBit % 2048
  let fraction := bits % leadingBit
  if exponent = 2047 then
    if fraction = 0 then .infinite negative else .nan
  else if exponent = 0 then
    .finite negative ⟨fraction, -1074⟩
  else
    .finite negative ⟨leadingBit + fraction, Int.ofNat exponent - 1075⟩

namespace Binary

/-- The nearest binary64 number to a magnitude that is at least `significand · 2 ^ exponent` and
less than one unit of that significand above it, exactly equal to it unless `inexact`. Of two
numbers equally near the even one is taken, and infinity beyond the largest. An inexact
significand must have more than 54 bits, so that what is left out decides ties only.

The kept significand and the exponent are added up into the bits, so that a significand which
rounds up to the next power of two carries into the exponent by itself. -/
def nearest (magnitude : Binary) (inexact : Bool) : Float :=
  if magnitude.significand = 0 then 0.0
  else
    let bitLength : Int := (magnitude.significand.log2 + 1 : Nat)
    let unit : Int := max (magnitude.exponent + bitLength - 53) (-1074)
    let rounded :=
      if unit ≤ magnitude.exponent then
        magnitude.significand * Nat.pow 2 (magnitude.exponent - unit).toNat
      else
        let step := Nat.pow 2 (unit - magnitude.exponent).toNat
        let kept := magnitude.significand / step
        let dropped := magnitude.significand % step
        if step < 2 * dropped ∨ (step = 2 * dropped ∧ (inexact ∨ kept % 2 = 1)) then kept + 1
        else kept
    let bits := rounded + (unit + 1074).toNat * leadingBit
    Float.ofBits (UInt64.ofNat (min bits (2047 * leadingBit)))

/-- The nearest binary64 number to a quotient of whole numbers. The quotient is worked out to at
least 64 bits first. -/
def nearestQuotient (numerator denominator : Nat) : Float :=
  let scale := 65 + denominator.log2 - numerator.log2
  let scaled := numerator * Nat.pow 2 scale
  nearest ⟨scaled / denominator, -(scale : Int)⟩ (scaled % denominator != 0)

end Binary

/-! Truth values of numbers, their signs and their factorials. -/

def infinity : Float :=
  Float.ofBits 0x7FF0000000000000

def nan : Float :=
  Float.ofBits 0x7FF8000000000000

/-- A number counts as true unless it is zero or not a number. -/
def isTruthy (x : Float) : Bool :=
  x != 0.0 && !x.isNaN

def ofBool (b : Bool) : Float :=
  if b then 1.0 else 0.0

/-- The sign of a number as -1, 0 or 1. A NaN has the sign 0. -/
def sign (x : Float) : Float :=
  if x > 0.0 then 1.0 else if x < 0.0 then -1.0 else 0.0

/-- The product `1 · 2 · … · n`, rounded after every factor. -/
def factorialNat (n : Nat) : Float :=
  (List.range n).foldl (fun product i => product * Float.ofNat (i + 1)) 1.0

/-- The factorial of the whole part of a number. Negative numbers have none, and those above 170
have one beyond the largest number. -/
def factorial (x : Float) : Float :=
  if x.isNaN || x < 0.0 then nan
  else if x.floor > 170.0 then infinity
  else factorialNat x.floor.toUInt64.toNat

/-! Roots that are rounded once, from an exact whole number. A root in double precision has at most
one half of its last place in error, whatever the size of its argument. -/

/-- The whole part of the root of the given degree. Each step settles one more binary digit of it.
A root of degree zero does not exist and counts as zero. -/
def wholeRoot (degree n : Nat) : Nat :=
  if n = 0 ∨ degree = 0 then 0
  else
    let root := 2 * wholeRoot degree (n / Nat.pow 2 degree)
    if Nat.pow (root + 1) degree ≤ n then root + 1 else root
termination_by n
decreasing_by
  exact Nat.div_lt_self (by omega) (Nat.one_lt_two_pow (by omega))

/-- The nearest number to `(n · 2 ^ (degree · unit)) ^ (1 / degree)`. The root of a larger number is
taken, so that it has enough binary digits to be rounded. -/
def nearestRoot (degree n : Nat) (unit : Int) : Float :=
  let scaled := n * Nat.pow 2 (degree * 64)
  let root := wholeRoot degree scaled
  Binary.nearest ⟨root, unit - 64⟩ (Nat.pow root degree != scaled)

def Binary.diagonal (a b : Binary) : Float :=
  let unit := min a.exponent b.exponent
  let width := a.significand * Nat.pow 2 (a.exponent - unit).toNat
  let height := b.significand * Nat.pow 2 (b.exponent - unit).toNat
  nearestRoot 2 (width * width + height * height) unit

/-- The length of the diagonal of a rectangle with the given sides. An infinite side makes it
infinite, even if the other is not a number. -/
def hypotenuse (x y : Float) : Float :=
  match shape x, shape y with
  | .infinite _, _ => infinity
  | _, .infinite _ => infinity
  | .nan, _ => nan
  | _, .nan => nan
  | .finite _ a, .finite _ b => a.diagonal b

def cubeRoot (x : Float) : Float :=
  match shape x with
  | .nan => nan
  | .infinite _ => x
  | .finite negative magnitude =>
    let unit := magnitude.exponent / 3
    let n := magnitude.significand * Nat.pow 2 (magnitude.exponent % 3).toNat
    let root := nearestRoot 3 n unit
    if negative then -root else root

end Formula.Number
