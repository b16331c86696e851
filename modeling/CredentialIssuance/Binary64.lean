namespace CredentialIssuance

-- The absolute value of a finite binary64 number, `mantissa * 2 ^ exponent`. Numbers made by
-- `Magnitude.round?` have a mantissa below `2 ^ 53` and the least exponent that allows it, but
-- none below `-1074`.
structure Magnitude where
  mantissa : Nat
  exponent : Int
  deriving DecidableEq, Repr

-- A finite number, in exact arithmetic.
structure Binary64 where
  negative : Bool
  magnitude : Magnitude
  deriving DecidableEq, Repr

namespace Magnitude

def zero : Magnitude := ⟨0, -1074⟩

-- A fraction `num / den`, with a factor `2 ^ e` or `10 ^ k` moved to the side where its
-- exponent is not negative.
def scale (base num den : Nat) (e : Int) : Nat × Nat :=
  if 0 ≤ e then (num * base.pow e.toNat, den) else (num, den * base.pow (-e).toNat)

-- The integer nearest to `num / den`. A half goes to the even neighbour.
def nearest (num den : Nat) : Nat :=
  let q := num / den
  let r := num % den
  if 2 * r < den ∨ (2 * r = den ∧ q % 2 = 0) then q else q + 1

-- The binary64 number nearest to `num / den`, if it is finite.
def round? (num den : Nat) : Option Magnitude :=
  if num = 0 then some zero
  else
    let top : Int := (Nat.log2 num : Int) - Nat.log2 den - 52
    let (n, d) := scale 2 num den (-top)
    let e := max (if n / d < Nat.pow 2 52 then top - 1 else top) (-1074)
    let (n, d) := scale 2 num den (-e)
    let m := nearest n d
    let result : Magnitude := if m = Nat.pow 2 53 then ⟨Nat.pow 2 52, e + 1⟩ else ⟨m, e⟩
    if result.exponent ≤ 971 then some result else none

def fraction (x : Magnitude) : Nat × Nat := scale 2 x.mantissa 1 x.exponent

-- A product and a quotient of two numbers, rounded.
def mul? (x y : Magnitude) : Option Magnitude :=
  let (a, b) := x.fraction
  let (c, d) := y.fraction
  round? (a * c) (b * d)

def div? (x y : Magnitude) : Option Magnitude :=
  let (a, b) := x.fraction
  let (c, d) := y.fraction
  round? (a * d) (b * c)

-- The number written as `digits * 10 ^ k`. The digits are rounded first and then scaled by a
-- rounded power of ten, so a long decimal can miss the nearest number by a unit in the last
-- place. Beyond `10 ^ 308` there is no power of ten: such a scale is out of range upwards, and
-- downwards it is applied in pieces of `10 ^ 308` until nothing is left.
def ofDecimal? (digits : Nat) (k : Int) : Option Magnitude := do
  let x ← round? digits 1
  if x.mantissa = 0 then some zero
  else if 308 < k then none
  else if 0 ≤ k then x.mul? (← round? (Nat.pow 10 k.toNat) 1)
  else if -308 ≤ k then x.div? (← round? (Nat.pow 10 (-k).toNat) 1)
  else if -616 ≤ k then
    let x ← x.div? (← round? (Nat.pow 10 308) 1)
    x.div? (← round? (Nat.pow 10 (-k - 308).toNat) 1)
  else some zero

-- Whether the decimal `c * 10 ^ k` lies in the interval of reals that round to `x`. The ends
-- belong to it when the mantissa is even.
def attracts (x : Magnitude) (c : Nat) (k : Int) : Bool :=
  let low :=
    if x.mantissa = Nat.pow 2 52 ∧ -1074 < x.exponent then 4 * x.mantissa - 1
    else 4 * x.mantissa - 2
  let high := 4 * x.mantissa + 2
  let (num, den) := scale 10 c 1 k
  let (unit, part) := scale 2 1 1 (x.exponent - 2)
  let value := num * part
  let low := low * unit * den
  let high := high * unit * den
  if x.mantissa % 2 = 0 then low ≤ value && value ≤ high else low < value && value < high

-- The first grid of decimals, from coarse to fine, with a point that rounds to `x`; of two such
-- points the nearer one, and of two equally near ones the even one.
def shortestFrom (x : Magnitude) : Nat → Int → Nat × Int
  | 0, k => (0, k)
  | fuel + 1, k =>
    let (num, den) := scale 10 x.fraction.1 x.fraction.2 (-k)
    let below := num / den
    match x.attracts below k, x.attracts (below + 1) k with
    | true, true => (nearest num den, k)
    | true, false => (below, k)
    | false, true => (below + 1, k)
    | false, false => x.shortestFrom fuel (k - 1)

def places (n : Nat) : Nat := (Nat.toDigits 10 n).length

-- The fewest digits, and their power of ten, that round back to a number other than zero.
def shortest (x : Magnitude) : Nat × Int :=
  let (num, den) := x.fraction
  let start : Int := if den ≤ num then places (num / den) + 1 else 2 - (places (den / num) : Int)
  x.shortestFrom 24 start

end Magnitude

namespace Binary64

-- An exponent always has a sign, and no more digits than it needs.
def exponentChars (e : Int) : List Char :=
  'e' :: (if e < 0 then '-' else '+') :: Nat.toDigits 10 e.natAbs

-- Digits with `point` of them in front of the decimal point are written positionally from
-- `10 ^ -5` on and below `10 ^ 16`, always with a fraction, and else with an exponent.
def decimalText (digits : List Char) (point : Int) : String :=
  let count : Int := digits.length
  if 0 < point ∧ point ≤ 16 then
    let whole := digits.take point.toNat ++ List.replicate (point - count).toNat '0'
    let rest := digits.drop point.toNat
    String.ofList (whole ++ '.' :: (if rest.isEmpty then ['0'] else rest))
  else if -5 < point ∧ point ≤ 0 then
    String.ofList ('0' :: '.' :: List.replicate (-point).toNat '0' ++ digits)
  else
    let rest := digits.drop 1
    String.ofList
      (digits.take 1 ++ (if rest.isEmpty then [] else '.' :: rest) ++ exponentChars (point - 1))

-- The shortest text that reads back as the number.
def text (x : Binary64) : String :=
  let sign := if x.negative then "-" else ""
  if x.magnitude.mantissa = 0 then sign ++ "0.0"
  else
    let (digits, k) := x.magnitude.shortest
    let digits := Nat.toDigits 10 digits
    sign ++ decimalText digits (digits.length + k)

end Binary64

end CredentialIssuance
