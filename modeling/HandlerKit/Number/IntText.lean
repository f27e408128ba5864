/-!
# Decimal text of 64-bit integers

The text is an optional sign (`+` or `-`) and then at least one ASCII digit, with nothing else.
Digits are read from the left; the first byte that is no digit, or the first digit after
which the number leaves `[-2^63, 2^63)`, decides the failure, whichever comes first.
-/

namespace HandlerKit.IntText

/-- Why a text is no 64-bit integer. -/
inductive Problem where
  | empty
  | invalidDigit
  | tooLarge
  | tooSmall
  deriving DecidableEq, Repr

/-- The wording of a reading failure. -/
def Problem.text : Problem → String
  | empty => "cannot parse integer from empty string"
  | invalidDigit => "invalid digit found in string"
  | tooLarge => "number too large to fit in target type"
  | tooSmall => "number too small to fit in target type"

/-- Whether a byte is an ASCII digit. -/
def isDigit (b : UInt8) : Bool := 48 ≤ b && b ≤ 57

/-- Accumulate digits onto `acc`, adding them for a positive number and subtracting them for a
negative one, and stop at the first byte that is no digit or the first step out of range. -/
def accumulate (positive : Bool) (acc : Int) : List UInt8 → Except Problem Int
  | [] => .ok acc
  | b :: rest =>
    if isDigit b then
      let d : Int := (b.toNat - 48 : Nat)
      let next := if positive then acc * 10 + d else acc * 10 - d
      if positive ∧ (Nat.pow 2 63 : Int) ≤ next then .error .tooLarge
      else if ¬positive ∧ next < -(Nat.pow 2 63 : Int) then .error .tooSmall
      else accumulate positive next rest
    else .error .invalidDigit

/-- The integer a text spells, as a mathematical integer in `[-2^63, 2^63)`. -/
def readInt : List UInt8 → Except Problem Int
  | [] => .error .empty
  | [43] => .error .invalidDigit
  | [45] => .error .invalidDigit
  | 43 :: ds => accumulate true 0 ds
  | 45 :: ds => accumulate false 0 ds
  | ds => accumulate true 0 ds

/-- The 64-bit integer a text spells. -/
def read (text : List UInt8) : Except Problem Int64 :=
  (readInt text).map Int64.ofInt

end HandlerKit.IntText
