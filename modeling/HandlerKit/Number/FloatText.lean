import HandlerKit.Number.Binary64

/-!
# Decimal text of binary64 numbers

The text is an optional sign, then either a decimal numeral or one of the words `inf`,
`infinity` and `nan` in any mix of cases. A numeral is digits, an optional point with digits,
and an optional exponent (`e` or `E`, an optional sign, at least one digit); it needs a digit
before or after the point. Nothing else may stand in the text: no blank, no `_`, no hex.

The numeral's value is rounded once to the nearest binary64 number, ties to even (`roundRatio`).
The word `nan` is the quiet NaN with an empty payload, negated by a `-`.
-/

namespace HandlerKit.FloatText

/-- Why a text is no float. -/
inductive Problem where
  | empty
  | invalid
  deriving DecidableEq, Repr

/-- The wording of a reading failure. -/
def Problem.text : Problem → String
  | empty => "cannot parse float from empty string"
  | invalid => "invalid float literal"

/-- Whether a byte is an ASCII digit. -/
def isDigit (b : UInt8) : Bool := 48 ≤ b && b ≤ 57

/-- The value of some decimal digits. -/
def digitsValue (ds : List UInt8) : Nat :=
  ds.foldl (fun acc b => acc * 10 + (b.toNat - 48)) 0

/-- A decimal numeral: the digits before and after the point and the signed exponent. -/
structure Numeral where
  whole : List UInt8
  fraction : List UInt8
  exponent : Int

/-- The exponent part after `e`: an optional sign and at least one digit, and nothing after. -/
def readExponent (s : List UInt8) : Option Int :=
  let (neg, ds) := match s with
    | 45 :: r => (true, r)
    | 43 :: r => (false, r)
    | r => (false, r)
  if ds ≠ [] ∧ ds.all isDigit then
    let n : Int := digitsValue ds
    some (if neg then -n else n)
  else none

/-- A whole text as a decimal numeral. -/
def readNumeral (s : List UInt8) : Option Numeral :=
  let whole := s.takeWhile isDigit
  let afterWhole := s.dropWhile isDigit
  let (fraction, afterFraction) := match afterWhole with
    | 46 :: r => (r.takeWhile isDigit, r.dropWhile isDigit)
    | r => ([], r)
  if whole = [] ∧ fraction = [] then none
  else match afterFraction with
    | [] => some ⟨whole, fraction, 0⟩
    | e :: r =>
      if e = 101 ∨ e = 69 then (readExponent r).map fun x => ⟨whole, fraction, x⟩
      else none

/-- ASCII case folding to upper case. -/
def upper (b : UInt8) : UInt8 := if 97 ≤ b ∧ b ≤ 122 then b - 32 else b

/-- The words for infinity and NaN, any case. -/
def readWord (s : List UInt8) : Option Binary64 :=
  let w := s.map upper
  if w = [73, 78, 70] ∨ w = [73, 78, 70, 73, 78, 73, 84, 89] then some (Binary64.infinity false)
  else if w = [78, 65, 78] then some Binary64.nan
  else none

/-- The number `digits * 10 ^ e`, rounded once. A value whose leading digit has weight
`10 ^ 309` or more is infinity; one below `10 ^ -325` is zero. -/
def decimalValue (neg : Bool) (digits : Nat) (e : Int) : Binary64 :=
  if digits = 0 then Binary64.signedZero neg
  else
    let lead := ((Nat.toDigits 10 digits).length : Int) + e
    if 310 ≤ lead then Binary64.infinity neg
    else if lead ≤ -325 then Binary64.signedZero neg
    else if 0 ≤ e then Binary64.roundRatio neg (digits * Nat.pow 10 e.toNat) 1 0
    else Binary64.roundRatio neg digits (Nat.pow 10 (-e).toNat) 0

/-- The value of a numeral. -/
def Numeral.value (n : Numeral) (neg : Bool) : Binary64 :=
  decimalValue neg (digitsValue (n.whole ++ n.fraction)) (n.exponent - n.fraction.length)

/-- The binary64 number a text spells. -/
def read (text : List UInt8) : Except Problem Binary64 :=
  match text with
  | [] => .error .empty
  | c :: rest =>
    let neg := c = 45
    let body := if c = 45 ∨ c = 43 then rest else text
    if body = [] then .error .invalid
    else match readNumeral body with
      | some n => .ok (n.value neg)
      | none =>
        match readWord body with
        | some x => .ok (if neg then x.negate else x)
        | none => .error .invalid

end HandlerKit.FloatText
