import Formula.Number.Binary

/-! Decimal numbers of any length, and the ways in which they are written down. -/

namespace Formula.Number

/-- The exact magnitude `digits · 10 ^ exponent`. -/
structure Decimal where
  digits : Nat
  exponent : Int
  deriving DecidableEq, Repr

namespace Decimal

/-- The decimal digits of the significand, without leading zeros, and a single zero for zero. -/
def numerals (d : Decimal) : List Char :=
  Nat.toDigits 10 d.digits

/-- The exponent of the first digit: a number other than zero lies between this power of ten and
the next. -/
def order (d : Decimal) : Int :=
  d.exponent + d.numerals.length - 1

/-- The same magnitude without zeros at the end of the significand. The bound is on their number. -/
def trimmed : Nat → Decimal → Decimal
  | 0, d => d
  | bound + 1, d =>
    if d.digits ≠ 0 ∧ d.digits % 10 = 0 then trimmed bound ⟨d.digits / 10, d.exponent + 1⟩
    else d

/-- The magnitude without an exponent: its whole part, then a point and its fraction, where
`wholePoint` says whether a whole number is followed by a point and a zero. -/
def positional (wholePoint : Bool) (d : Decimal) : List Char :=
  let numerals := d.numerals
  if 0 ≤ d.exponent then
    numerals ++ List.replicate d.exponent.toNat '0' ++ (if wholePoint then ['.', '0'] else [])
  else
    let places := (-d.exponent).toNat
    let padded := List.replicate (places + 1 - numerals.length) '0' ++ numerals
    padded.take (padded.length - places) ++ '.' :: padded.drop (padded.length - places)

/-- The magnitude as a single digit, its further digits after a point if there are any, and an
exponent, which carries a sign only if it is negative. -/
def scientific (d : Decimal) : List Char :=
  let further := d.numerals.tail
  d.numerals.take 1 ++ (if further.isEmpty then [] else '.' :: further) ++
    'e' :: (toString d.order).toList

end Decimal

/-! Numbers read from text. -/

def ofDigits (digits : List Char) : Nat :=
  digits.foldl (fun value c => 10 * value + (c.toNat - '0'.toNat)) 0

namespace Decimal

def ofParts (whole fraction : List Char) (exponent : Int) : Decimal :=
  ⟨ofDigits (whole ++ fraction), exponent - fraction.length⟩

/-- The nearest binary64 number, of two the even one. Decimals of the order of `10 ^ 310` or more
are infinite and those below `10 ^ -330` are zero, whatever their digits, so that an exponent is
never worked out where that is already settled. -/
def toFloat (d : Decimal) : Float :=
  if d.digits = 0 ∨ d.order < -330 then 0.0
  else if 310 < d.order then infinity
  else
    Binary.nearestQuotient (d.digits * Nat.pow 10 d.exponent.toNat)
      (Nat.pow 10 (-d.exponent).toNat)

end Decimal

def splitDigits (text : List Char) : List Char × List Char :=
  (text.takeWhile Char.isDigit, text.dropWhile Char.isDigit)

/-- The fraction at the start of a text, which is a point and at least one digit. Without one there
are no digits, and a point alone stays where it is. -/
def splitFraction (text : List Char) : List Char × List Char :=
  match text with
  | '.' :: afterPoint =>
    let (digits, rest) := splitDigits afterPoint
    if digits.isEmpty then ([], text) else (digits, rest)
  | _ => ([], text)

/-- The exponent at the start of a text, which is an `e` in either case and a whole number with an
optional sign. Without one the exponent is zero, and an `e` alone stays where it is. -/
def splitExponent (text : List Char) : Int × List Char :=
  match text with
  | mark :: afterMark =>
    if mark = 'e' ∨ mark = 'E' then
      let (negative, unsigned) := match afterMark with
        | '-' :: unsigned => (true, unsigned)
        | '+' :: unsigned => (false, unsigned)
        | unsigned => (false, unsigned)
      let (digits, rest) := splitDigits unsigned
      if digits.isEmpty then (0, text)
      else (if negative then -Int.ofNat (ofDigits digits) else Int.ofNat (ofDigits digits), rest)
    else (0, text)
  | [] => (0, text)

/-- The decimal that a text without a sign stands for. There must be a digit before the point or
after it, and the point may be missing. -/
def decimalOf? (text : List Char) : Option Decimal :=
  let (whole, afterWhole) := splitDigits text
  let (fraction, afterFraction) := match afterWhole with
    | '.' :: afterPoint => splitDigits afterPoint
    | _ => ([], afterWhole)
  let (exponent, rest) := splitExponent afterFraction
  if (whole.isEmpty && fraction.isEmpty) || !rest.isEmpty then none
  else some (Decimal.ofParts whole fraction exponent)

/-- The magnitude that a text without a sign stands for. The words are read in either case. -/
def magnitudeOf? (text : List Char) : Option Float :=
  match String.ofList (text.map Char.toLower) with
  | "inf" | "infinity" => some infinity
  | "nan" => some nan
  | _ => (decimalOf? text).map Decimal.toFloat

def ofText? (text : String) : Option Float :=
  match text.toList with
  | '-' :: unsigned => (magnitudeOf? unsigned).map (- ·)
  | '+' :: unsigned => magnitudeOf? unsigned
  | unsigned => magnitudeOf? unsigned

end Formula.Number
