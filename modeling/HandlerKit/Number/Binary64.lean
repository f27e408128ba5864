/-!
# Binary64 numbers

A binary64 number is kept as its 64-bit pattern: one sign bit, an 11-bit biased exponent and a
52-bit fraction. A finite number with biased exponent `e` and fraction `f` is
`(-1)^sign * m * 2^q`, where `m = f` and `q = -1074` when `e = 0` (subnormal), and
`m = f + 2^52` and `q = e - 1075` otherwise.

Arithmetic is done on exact ratios of natural numbers and then rounded once, which is what the
standard asks of every basic operation.

**Rounding (`roundRatio`).** The result is the binary64 number nearest to
`num / den * 2^shift`; of two equally near ones the one with an even significand wins, and a
value at or beyond `2^1024` (after rounding) is infinity.
-/

namespace HandlerKit

/-- A binary64 number, as its bit pattern. -/
structure Binary64 where
  bits : UInt64
  deriving DecidableEq, Repr

namespace Binary64

/-- The number with the given sign, biased exponent and fraction. -/
def ofFields (neg : Bool) (e f : Nat) : Binary64 :=
  ⟨UInt64.ofNat ((if neg then Nat.pow 2 63 else 0) + e * Nat.pow 2 52 + f)⟩

/-- Whether the sign bit is set. -/
def sign (x : Binary64) : Bool := decide (Nat.pow 2 63 ≤ x.bits.toNat)

/-- The 11-bit biased exponent. -/
def biased (x : Binary64) : Nat := x.bits.toNat / Nat.pow 2 52 % 2048

/-- The 52-bit fraction. -/
def fraction (x : Binary64) : Nat := x.bits.toNat % Nat.pow 2 52

/-- Positive zero. -/
def zero : Binary64 := ⟨0⟩

/-- Zero with the given sign. -/
def signedZero (neg : Bool) : Binary64 := ofFields neg 0 0

/-- Infinity with the given sign. -/
def infinity (neg : Bool) : Binary64 := ofFields neg 2047 0

/-- The quiet NaN with an empty payload and a clear sign bit. -/
def nan : Binary64 := ofFields false 2047 (Nat.pow 2 51)

/-- The same number with the sign bit flipped. -/
def negate (x : Binary64) : Binary64 := ⟨x.bits ^^^ 0x8000000000000000⟩

/-- Neither infinite nor NaN. -/
def isFinite (x : Binary64) : Bool := x.biased != 2047

/-- NaN: all exponent bits set and a nonzero fraction. -/
def isNaN (x : Binary64) : Bool := x.biased == 2047 && x.fraction != 0

/-- Infinity of either sign. -/
def isInfinite (x : Binary64) : Bool := x.biased == 2047 && x.fraction == 0

/-- Zero of either sign. -/
def isZero (x : Binary64) : Bool := x.biased == 0 && x.fraction == 0

/-- The integer significand `m` of a finite number, `|x| = m * 2^exponent`. -/
def significand (x : Binary64) : Nat :=
  if x.biased = 0 then x.fraction else x.fraction + Nat.pow 2 52

/-- The power of two `q` of a finite number, `|x| = significand * 2^q`. -/
def exponent (x : Binary64) : Int :=
  if x.biased = 0 then -1074 else (x.biased : Int) - 1075

/-- Numeric equality: NaN equals nothing, and the two zeros are equal. -/
def numEq (x y : Binary64) : Bool :=
  if x.isNaN || y.isNaN then false
  else if x.isZero && y.isZero then true
  else x.bits == y.bits

/-! ## Rounding exact ratios -/

/-- Whether `num / den ≥ 2 ^ t`. -/
def ratioGePow2 (num den : Nat) (t : Int) : Bool :=
  if 0 ≤ t then decide (den * Nat.pow 2 t.toNat ≤ num) else decide (den ≤ num * Nat.pow 2 (-t).toNat)

/-- `⌊log₂ (num / den)⌋` for positive `num` and `den`. -/
def floorLog2Ratio (num den : Nat) : Int :=
  let t : Int := (Nat.log2 num : Int) - (Nat.log2 den : Int)
  if ratioGePow2 num den t then t else t - 1

/-- `num / den * 2 ^ s` as a ratio of natural numbers. -/
def scaleRatio (num den : Nat) (s : Int) : Nat × Nat :=
  if 0 ≤ s then (num * Nat.pow 2 s.toNat, den) else (num, den * Nat.pow 2 (-s).toNat)

/-- `n / d` rounded to the nearest natural number, a tie going to the even one. -/
def roundHalfEven (n d : Nat) : Nat :=
  let q := n / d
  let r := n % d
  if d < 2 * r ∨ (2 * r = d ∧ q % 2 = 1) then q + 1 else q

/-- The binary64 number nearest to `num / den * 2 ^ shift`, with the sign `neg`. -/
def roundRatio (neg : Bool) (num den : Nat) (shift : Int) : Binary64 :=
  if num = 0 ∨ den = 0 then signedZero neg
  else
    let lg := floorLog2Ratio num den + shift
    -- the weight of the last significand bit: 52 bits below the leading one, never below 2^-1074
    let u := max (lg - 52) (-1074)
    let scaled := scaleRatio num den (shift - u)
    let q := roundHalfEven scaled.1 scaled.2
    let carried : Nat × Int := if q = Nat.pow 2 53 then (Nat.pow 2 52, u + 1) else (q, u)
    if 971 < carried.2 then infinity neg
    else if carried.1 < Nat.pow 2 52 then ofFields neg 0 carried.1
    else ofFields neg (carried.2 + 1075).toNat (carried.1 - Nat.pow 2 52)

/-- The binary64 number nearest to a natural number. -/
def ofNat (n : Nat) : Binary64 := roundRatio false n 1 0

/-- The correctly rounded product of two finite numbers. -/
def mul (x y : Binary64) : Binary64 :=
  roundRatio (x.sign != y.sign) (x.significand * y.significand) 1 (x.exponent + y.exponent)

/-- The correctly rounded quotient of two finite numbers, the divisor nonzero. -/
def div (x y : Binary64) : Binary64 :=
  roundRatio (x.sign != y.sign) x.significand y.significand (x.exponent - y.exponent)

/-- The binary64 number nearest to `10 ^ k`. -/
def pow10 (k : Nat) : Binary64 := ofNat (Nat.pow 10 k)

example : nan.bits = 0x7FF8000000000000 := by decide
example : (negate nan).bits = 0xFFF8000000000000 := by decide

end Binary64

end HandlerKit
