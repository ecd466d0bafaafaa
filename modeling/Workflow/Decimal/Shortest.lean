/-!
Shortest decimal text of a binary floating point number: of the decimals that round to it the one with the
fewest digits, and of these the nearest. A `Style` says how digits and exponent are written down.
-/

namespace Workflow.Decimal

/-- Digits `d₁d₂…dₙ` (first and last one not zero) and an exponent `e`, for the value `d₁.d₂…dₙ · 10^e`. -/
structure Scientific where
  digits : List Char
  exponent : Int
  deriving Repr

/-- Magnitude and exponent of a finite float: the value is `mantissa · 2^exponent`. -/
structure Binary where
  mantissa : Nat
  exponent : Int
  /-- The next smaller float is only half as far away as the next larger one. -/
  narrowBelow : Bool

/-- Splits the bits of a finite float without its sign. -/
def Binary.ofBits (bits : UInt64) : Binary :=
  let fraction : Nat := bits.toNat % 0x10000000000000
  let biased : Nat := bits.toNat / 0x10000000000000 % 0x800
  if biased = 0 then ⟨fraction, -1074, false⟩
  else ⟨fraction + 0x10000000000000, (biased : Int) - 1075, fraction == 0 && 1 < biased⟩

/-- A positive fraction `num / den`. -/
structure Ratio where
  num : Nat
  den : Nat

def Ratio.scale2 (n : Nat) (e : Int) : Ratio :=
  if 0 ≤ e then ⟨n * Nat.pow 2 e.toNat, 1⟩ else ⟨n, Nat.pow 2 (-e).toNat⟩

def Ratio.scale10 (r : Ratio) (e : Int) : Ratio :=
  if 0 ≤ e then ⟨r.num * Nat.pow 10 e.toNat, r.den⟩ else ⟨r.num, r.den * Nat.pow 10 (-e).toNat⟩

/-- The greatest `e` with `10^e ≤ r`. The logarithm to base two gives it up to one. -/
def Ratio.log10 (r : Ratio) : Int :=
  let log2 : Int := (Nat.log2 r.num : Int) - Nat.log2 r.den - 1
  let guess := log2 * 30103 / 100000 - 1
  let reaches (e : Int) : Bool := (r.scale10 (-e)).den ≤ (r.scale10 (-e)).num
  if reaches (guess + 3) then guess + 3
  else if reaches (guess + 2) then guess + 2
  else if reaches (guess + 1) then guess + 1
  else guess

/-- Drops zeros at the end, but keeps one digit. -/
def trimZeros (digits : List Char) : List Char :=
  match (digits.reverse.dropWhile (· = '0')).reverse with
  | [] => ['0']
  | kept => kept

/-- The candidate with `count` digits, if one of them rounds to the value `4 · m · u`, where `u = 2^(q-2)`. -/
def withDigits (b : Binary) (exponent : Int) (count : Nat) : Option Scientific :=
  let step : Int := exponent - count + 1
  let scaled (n : Nat) : Ratio := (Ratio.scale2 n (b.exponent - 2)).scale10 (-step)
  let value := scaled (4 * b.mantissa)
  let below := scaled (4 * b.mantissa - if b.narrowBelow then 1 else 2)
  let above := scaled (4 * b.mantissa + 2)
  let closed : Bool := b.mantissa % 2 == 0
  let low := value.num / value.den
  let high := low + 1
  let lowFits := below.num < low * below.den || (closed && below.num == low * below.den)
  let highFits := high * above.den < above.num || (closed && high * above.den == above.num)
  let twice := 2 * value.num
  let middle := (low + high) * value.den
  let chosen : Option Nat :=
    match lowFits, highFits with
    | true, true =>
      if twice < middle then some low
      else if middle < twice then some high
      else if low % 2 = 0 then some low else some high
    | true, false => some low
    | false, true => some high
    | false, false => none
  chosen.map fun n =>
    let digits := Nat.toDigits 10 n
    ⟨trimZeros digits, step + digits.length - 1⟩

/-- The shortest decimal that reads back as the float with these bits, sign aside. -/
def shortest (bits : UInt64) : Scientific :=
  let b := Binary.ofBits bits
  if b.mantissa = 0 then ⟨['0'], 0⟩
  else
    let exponent := (Ratio.scale2 b.mantissa b.exponent).log10
    ((List.range 18).drop 1).findSome? (withDigits b exponent) |>.getD ⟨['0'], 0⟩

/-- How decimals are written: positionally for exponents between `low` and `high`, else with
`e` and a sign. -/
structure Style where
  low : Int
  high : Int
  /-- Written after an integer in positional form. -/
  whole : String
  /-- Sign of an exponent that is not negative. -/
  plus : String

def Scientific.render (style : Style) (s : Scientific) : String :=
  let n : Int := s.digits.length
  let zeros (k : Int) : String := String.ofList (List.replicate k.toNat '0')
  if style.low ≤ s.exponent ∧ s.exponent ≤ style.high then
    if s.exponent < 0 then
      "0." ++ zeros (-s.exponent - 1) ++ String.ofList s.digits
    else if n ≤ s.exponent + 1 then
      String.ofList s.digits ++ zeros (s.exponent + 1 - n) ++ style.whole
    else
      let point := (s.exponent + 1).toNat
      String.ofList (s.digits.take point) ++ "." ++ String.ofList (s.digits.drop point)
  else
    let mantissa := match s.digits with
      | [d] => String.ofList [d]
      | d :: rest => String.ofList (d :: '.' :: rest)
      | [] => "0"
    let sign := if s.exponent < 0 then "-" else style.plus
    mantissa ++ "e" ++ sign ++ toString s.exponent.natAbs

def render (style : Style) (x : Float) : String :=
  let bits := x.toBits
  let sign := if bits.toNat / 0x8000000000000000 = 1 then "-" else ""
  sign ++ (shortest (bits % (0x8000000000000000 : UInt64))).render style

end Workflow.Decimal
