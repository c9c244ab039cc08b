/-!
# Binary floating-point numbers

A `Double` is a 64-bit floating-point number, given by its bits. All arithmetic on it is exact
arithmetic on natural numbers:

- `Double.ofDecimal` gives the number nearest to a decimal, a tie going to the even mantissa;
- `Double.shortest` gives the fewest decimal digits that read back as the number and, of those, the
  nearest.
-/

namespace CallAtlas

/-- A floating-point number with 64 bits: sign, eleven bits of exponent, 52 bits of fraction. -/
structure Double where
  bits : UInt64
  deriving DecidableEq, Repr, Inhabited

namespace Double

/-- What the bits of a number stand for; a finite number is `mantissa * 2 ^ exponent` with its
sign. -/
inductive View where
  | nan
  | infinite (negative : Bool)
  | finite (negative : Bool) (mantissa : Nat) (exponent : Int)
  deriving DecidableEq, Repr

/-- The number of bits of the fraction. -/
def fractionBits : Nat := 52

/-- The exponent of the smallest positive number. -/
def leastExponent : Int := -1074

/-- Takes a number apart. -/
def view (x : Double) : View :=
  let n := x.bits.toNat
  let negative := n / Nat.pow 2 63 = 1
  let field : Nat := n / Nat.pow 2 fractionBits % Nat.pow 2 11
  let fraction : Nat := n % Nat.pow 2 fractionBits
  if field = 2047 then
    if fraction = 0 then .infinite negative else .nan
  else if field = 0 then .finite negative fraction leastExponent
  else .finite negative (Nat.pow 2 fractionBits + fraction) ((field : Int) - 1075)

/-- Puts a number together from its sign, the field of its exponent and its fraction. -/
def ofFields (negative : Bool) (field fraction : Nat) : Double :=
  ⟨UInt64.ofNat
    ((if negative then Nat.pow 2 63 else 0) + field * Nat.pow 2 fractionBits + fraction)⟩

/-- An infinity. -/
def infinity (negative : Bool) : Double := ofFields negative 2047 0

/-- A value that is no number. -/
def notANumber : Double := ofFields false 2047 (Nat.pow 2 51)

/-- Whether a number is zero, of either sign. -/
def isZero (x : Double) : Bool :=
  match x.view with
  | .finite _ m _ => m == 0
  | _ => false

/-- The quotient rounded to the nearest whole number, a tie to the even one. -/
def roundDiv (num den : Nat) : Nat :=
  let q := num / den
  let twice := 2 * (num % den)
  if twice < den then q
  else if den < twice then q + 1
  else if q % 2 = 0 then q else q + 1

/-- A natural number times a power, as a fraction: numerator and denominator. -/
def scaled (m : Nat) (base : Nat) (e : Int) : Nat × Nat :=
  if 0 ≤ e then (m * Nat.pow base e.toNat, 1) else (m, Nat.pow base (-e).toNat)

/-- The number of decimal digits of a natural number. -/
def digitCount (n : Nat) : Nat := (Nat.toDigits 10 n).length

/-- The number nearest to the positive fraction `num / den`. -/
def ofFraction (negative : Bool) (num den : Nat) : Double :=
  let k : Int := (num.log2 : Int) - den.log2
  let (p, q) := scaled den 2 k
  let k := if num * q < p then k - 1 else k
  let e := max (k - 52) leastExponent
  let (scale, inverse) := scaled den 2 e
  let m := roundDiv (num * inverse) scale
  let (m, e) := if m = Nat.pow 2 53 then (Nat.pow 2 52, e + 1) else (m, e)
  if m < Nat.pow 2 fractionBits then ofFields negative 0 m
  else if 972 ≤ e then infinity negative
  else ofFields negative (e + 1075).toNat (m - Nat.pow 2 fractionBits)

/-- The number nearest to `m * 10 ^ e`. Decimals far beyond the range are infinite or zero at
once. -/
def ofDecimal (negative : Bool) (m : Nat) (e : Int) : Double :=
  if m = 0 then ofFields negative 0 0
  else
    let magnitude := digitCount m + e
    if 310 < magnitude then infinity negative
    else if magnitude < -330 then ofFields negative 0 0
    else
      let (num, den) := scaled m 10 e
      ofFraction negative num den

/-- Decimal digits `digits * 10 ^ exponent`. -/
structure Decimal where
  digits : Nat
  exponent : Int
  deriving DecidableEq, Repr

/-- The exponent of the first decimal digit of the positive fraction `num / den`. -/
def leadingExponent (num den : Nat) : Int :=
  if den ≤ num then digitCount (num / den) - 1
  else
    let low : Int := -digitCount (den / num)
    let (n, d) := scaled 1 10 (low + 1)
    if n * den ≤ num * d then low + 1 else low

/-- The reals that round to a number: the ends of the interval as fractions of a common denominator,
and whether the ends belong to it. -/
structure Interval where
  low : Nat
  value : Nat
  high : Nat
  den : Nat
  closed : Bool

/-- The interval of the positive number `m * 2 ^ e`. Just above a power of two the lower neighbour
is nearer. -/
def interval (m : Nat) (e : Int) : Interval :=
  let near := m = Nat.pow 2 fractionBits ∧ leastExponent < e
  let (unit, den) := scaled 1 2 (e - 2)
  { low := (4 * m - if near then 1 else 2) * unit
    value := 4 * m * unit
    high := (4 * m + 2) * unit
    den := den
    closed := m % 2 = 0 }

/-- Whether the decimal `c * 10 ^ g` lies in an interval. -/
def Interval.contains (i : Interval) (c : Nat) (g : Int) : Bool :=
  let (n, d) := scaled c 10 g
  let x := n * i.den
  if i.closed then i.low * d ≤ x && x ≤ i.high * d else i.low * d < x && x < i.high * d

/-- The decimal with `count` digits nearest to the value, if it lies in the interval. -/
def Interval.nearest? (i : Interval) (lead : Int) (count : Nat) : Option Decimal :=
  let g := lead - count + 1
  let (n, d) := scaled 1 10 g
  let floor := i.value * d / (i.den * n)
  let nearer := roundDiv (i.value * d) (i.den * n)
  let further := if nearer = floor then floor + 1 else floor
  if i.contains nearer g then some ⟨nearer, g⟩
  else if i.contains further g then some ⟨further, g⟩
  else none

/-- Drops the zeros at the end of a decimal, at most `fuel` of them. -/
def Decimal.trim : Nat → Decimal → Decimal
  | 0, d => d
  | fuel + 1, d =>
    if d.digits ≠ 0 ∧ d.digits % 10 = 0 then trim fuel ⟨d.digits / 10, d.exponent + 1⟩ else d

/-- The fewest digits that read back as the positive number `m * 2 ^ e`; of those, the nearest. -/
def shortest (m : Nat) (e : Int) : Decimal :=
  let i := interval m e
  let lead := leadingExponent i.value i.den
  let found := (List.range 17).findSome? fun k => i.nearest? lead (k + 1)
  (found.getD ⟨0, 0⟩).trim 20

/-! ## Written form -/

/-- Digits with a point in them: `places` of them stand before it. -/
def positional (digits : List Char) (places : Int) : List Char :=
  if places ≤ 0 then "0.".toList ++ List.replicate (-places).toNat '0' ++ digits
  else if digits.length ≤ places.toNat then
    digits ++ List.replicate (places.toNat - digits.length) '0' ++ ".0".toList
  else digits.take places.toNat ++ ['.'] ++ digits.drop places.toNat

/-- Digits with an exponent behind them, which has a sign and at least two digits. -/
def scientific (digits : List Char) (places : Int) : List Char :=
  let mantissa := match digits with
    | [] => []
    | [d] => [d]
    | d :: more => d :: '.' :: more
  let e := places - 1
  let size := Nat.toDigits 10 e.natAbs
  let padded := if size.length < 2 then '0' :: size else size
  mantissa ++ ['e', if e < 0 then '-' else '+'] ++ padded

/-- The written form of a number: the fewest digits that read back, positional from `0.0001` up to
sixteen places, with an exponent beyond. A whole number keeps one zero after the point. -/
def text (x : Double) : String :=
  match x.view with
  | .nan => "nan"
  | .infinite negative => if negative then "-inf" else "inf"
  | .finite negative m e =>
    let sign := if negative then ['-'] else []
    if m = 0 then String.ofList (sign ++ "0.0".toList)
    else
      let d := shortest m e
      let digits := Nat.toDigits 10 d.digits
      let places := digits.length + d.exponent
      let body := if -4 < places ∧ places ≤ 16 then positional digits places
        else scientific digits places
      String.ofList (sign ++ body)

end Double

end CallAtlas
