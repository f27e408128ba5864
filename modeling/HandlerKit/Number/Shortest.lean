import HandlerKit.Number.Binary64

/-!
# Shortest decimal digits of a binary64 number

A positive finite number `v = m * 2^q` is the binary64 number nearest to every real in its
*rounding interval*: from halfway to its lower neighbour to halfway to its upper one, the ends
included exactly when `m` is even. (Below a power of two the lower neighbour is only half as
far away.)

`Binary64.shortest` gives the decimal `t * 10^k` with the fewest significant digits that lies in
that interval, so that reading it back gives `v` again; of two such decimals with that many
digits, the nearer to `v` wins. Two equally near ones are settled by a `Tie` rule, which is a
choice of the output format: the one with an even last digit, or the one away from zero.

For each digit count `n = 1, 2, …, 17` it looks at the grid `10^k` with `k = E - n + 1`, where
`E = ⌊log₁₀ v⌋`, and tests the two grid points around `v`: if any point of the grid lies in the
interval, one of these two does, since the interval holds `v`. Seventeen digits always give a
hit. All comparisons are exact, on natural numbers.
-/

namespace HandlerKit

/-- A decimal `digits * 10 ^ exponent`. -/
structure Decimal where
  digits : Nat
  exponent : Int
  deriving DecidableEq, Repr

namespace Decimal

/-- The same decimal with the trailing zeros of its digits moved into the exponent. -/
def normalize (d : Decimal) : Decimal :=
  if h : d.digits ≠ 0 ∧ d.digits % 10 = 0 then
    have : d.digits / 10 < d.digits := Nat.div_lt_self (Nat.pos_of_ne_zero h.1) (by decide)
    normalize ⟨d.digits / 10, d.exponent + 1⟩
  else d
termination_by d.digits

end Decimal

/-- How to choose between two equally near decimals with the fewest digits of a magnitude. -/
inductive Tie where
  /-- The one whose last digit is even. -/
  | toEven
  /-- The larger one, away from zero. -/
  | away
  deriving DecidableEq, Repr

namespace Binary64

/-- Compare `t * 10^k` with `a * 2^e`. -/
def compareScaled (t : Nat) (k : Int) (a : Nat) (e : Int) : Ordering :=
  compare (t * Nat.pow 10 k.toNat * Nat.pow 2 (-e).toNat) (a * Nat.pow 2 e.toNat * Nat.pow 10 (-k).toNat)

/-- The number of decimal digits of a natural number (0 has one). -/
def decimalLength (n : Nat) : Nat := (Nat.toDigits 10 n).length

/-- `⌊log₁₀ (m * 2^q)⌋` for a positive `m`. -/
def floorLog10 (m : Nat) (q : Int) : Int :=
  let num := m * Nat.pow 2 q.toNat
  let den := Nat.pow 2 (-q).toNat
  let t : Int := (decimalLength num : Int) - (decimalLength den : Int)
  -- `num / den` lies in `(10^(t-1), 10^(t+1))`
  if compareScaled den t num 0 != .gt then t else t - 1

/-- `⌊m * 2^q / 10^k⌋`. -/
def floorOnGrid (m : Nat) (q k : Int) : Nat :=
  (m * Nat.pow 2 q.toNat * Nat.pow 10 (-k).toNat) / (Nat.pow 2 (-q).toNat * Nat.pow 10 k.toNat)

/-- The shortest, then nearest, decimal in the rounding interval of a positive finite number,
a tie settled by `tie`. -/
def shortest (x : Binary64) (tie : Tie) : Decimal :=
  let m := x.significand
  let q := x.exponent
  -- the interval in units of 2^(q-2): [lo, hi] around 4m
  let lo := if x.fraction = 0 ∧ 1 < x.biased then 4 * m - 1 else 4 * m - 2
  let hi := 4 * m + 2
  let closed := m % 2 = 0
  let inside (t : Nat) (k : Int) : Bool :=
    let above := compareScaled t k lo (q - 2)
    let below := compareScaled t k hi (q - 2)
    (above == .gt || (closed && above == .eq)) && (below == .lt || (closed && below == .eq))
  let e10 := floorLog10 m q
  let pick (n : Nat) : Option Decimal :=
    let k := e10 - (n : Int) + 1
    let t := floorOnGrid m q k
    match inside t k, inside (t + 1) k with
    | true, true =>
      -- nearer of the two; 2v against the midpoint (2t+1) 10^k
      match compareScaled (2 * t + 1) k (8 * m) (q - 2) with
      | .gt => some ⟨t, k⟩
      | .lt => some ⟨t + 1, k⟩
      | .eq =>
        match tie with
        | .toEven => some (if t % 2 = 0 then ⟨t, k⟩ else ⟨t + 1, k⟩)
        | .away => some ⟨t + 1, k⟩
    | true, false => some ⟨t, k⟩
    | false, true => some ⟨t + 1, k⟩
    | false, false => none
  let found := (List.range 17).findSome? fun i => pick (i + 1)
  (found.getD ⟨floorOnGrid m q (e10 - 16), e10 - 16⟩).normalize

end Binary64

end HandlerKit
