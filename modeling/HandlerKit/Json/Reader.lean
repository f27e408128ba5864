import HandlerKit.Json.Writer

/-!
# Reading JSON text into values

The reader works on the UTF-8 bytes of the text and stops at the first broken rule. A stop
records how many bytes were still unread and whether the place is the next byte itself
(`ahead`) rather than the point before it; `Fault.ofStop` turns that into a line and a column.

**Numbers.** A number with neither fraction nor exponent is a whole number: one that fits a
64-bit integer is an integer, a larger positive one is the fault `integerOutOfRange`, and any
other (a negative one below `-2^63`, and `-0`) becomes a float. Digits beyond the 64-bit range
are dropped from the significand and counted into the exponent. A float is computed from its
significand `s` (below `2^64`) and decimal exponent `e`: `s` rounded to binary64, then
multiplied (for `e ≥ 0`) or divided (for `e < 0`) by the binary64 nearest to `10^|e|`, each step
rounded; beyond `10^308` the quotient is taken by `10^308` steps, and an infinite product is the
fault `numberOutOfRange`. So a float need not be the binary64 nearest to its text.

**Strings.** Escapes are `\" \\ \/ \b \f \n \r \t` and `\uXXXX`; a UTF-16 surrogate must be a
leading one followed at once by an escaped trailing one. A control character below `U+0020`
may not stand in a string.

**Nesting.** Up to 127 arrays and objects may be open at once; opening the 128th is the fault
`recursionLimitExceeded`. Of duplicate keys the last one wins.
-/

namespace HandlerKit.Json

/-- A suffix of `r`: the bytes left after reading from the front of `r`. -/
abbrev Rest (r : Bytes) := { s : Bytes // s.length ≤ r.length }

/-- The whole of `r` left unread. -/
def Rest.all (r : Bytes) : Rest r := ⟨r, Nat.le_refl _⟩

/-- A suffix of a suffix. -/
def Rest.widen {r s : Bytes} (x : Rest s) (h : s.length ≤ r.length) : Rest r :=
  ⟨x.1, Nat.le_trans x.2 h⟩

/-- Where and why reading stopped. -/
structure Stop where
  problem : Problem
  /-- How many bytes were still unread. -/
  left : Nat
  /-- Whether the place is one byte further on. -/
  ahead : Bool
  deriving Repr

/-- A stop with `r` unread, at the point before `r`. -/
def stopAt (p : Problem) (r : Bytes) : Stop := ⟨p, r.length, false⟩

/-- A stop with `r` unread, placed after its first byte. -/
def stopAhead (p : Problem) (r : Bytes) : Stop := ⟨p, r.length, true⟩

/-- The outcome of one reading step from the front of `r`. -/
abbrev Step (r : Bytes) (α : Type) := Except Stop (α × Rest r)

/-- A step on a suffix of `r`, seen as a step on `r`. -/
def Step.widen {r s : Bytes} {α : Type} (x : Step s α) (h : s.length ≤ r.length) : Step r α :=
  x.map fun p => (p.1, p.2.widen h)

theorem length_le_cons (c : UInt8) (s : Bytes) : s.length ≤ (c :: s).length :=
  Nat.le_succ _

/-! ## Bytes -/

/-- Whether a byte is JSON white space: blank, line feed, tab, carriage return. -/
def isBlank (b : UInt8) : Bool := b = 32 || b = 10 || b = 9 || b = 13

/-- Whether a byte is an ASCII digit. -/
def isDigit (b : UInt8) : Bool := 48 ≤ b && b ≤ 57

/-- The value of a digit byte. -/
def digitValue (b : UInt8) : Nat := b.toNat - 48

/-- Whether a byte is `e` or `E`. -/
def isExponentMark (b : UInt8) : Bool := b = 101 || b = 69

/-- Skip white space. -/
def skipBlank : (r : Bytes) → Rest r
  | [] => Rest.all []
  | c :: s => if isBlank c then (skipBlank s).widen (length_le_cons c s) else Rest.all (c :: s)

/-- Skip digits. -/
def skipDigits : (r : Bytes) → Rest r
  | [] => Rest.all []
  | c :: s => if isDigit c then (skipDigits s).widen (length_le_cons c s) else Rest.all (c :: s)

/-! ## Numbers -/

/-- Exponents are 32-bit: sums saturate at the ends of that range. -/
def saturate (e : Int) : Int := max (-(Nat.pow 2 31 : Int)) (min ((Nat.pow 2 31 : Int) - 1) e)

/-- The float of a significand and a decimal exponent, by stepwise rounded products or
quotients with the binary64 powers of ten up to `10^308`; `r` is what follows the number. -/
def fromParts (positive : Bool) (sig : Nat) (exp : Int) (r : Bytes) : Except Stop Binary64 :=
  let rec scale (f : Binary64) (e : Int) : Except Stop Binary64 :=
    if e.natAbs < 309 then
      if 0 ≤ e then
        let g := f.mul (Binary64.pow10 e.natAbs)
        if g.isInfinite then .error (stopAt .numberOutOfRange r) else .ok g
      else .ok (f.div (Binary64.pow10 e.natAbs))
    else if f.isZero then .ok f
    else if 0 ≤ e then .error (stopAt .numberOutOfRange r)
    else scale (f.div (Binary64.pow10 308)) (e + 308)
  termination_by (-e).toNat
  decreasing_by omega
  (scale (Binary64.ofNat sig) exp).map fun f => if positive then f else f.negate

/-- A float that ends where `r` starts. -/
def finishFloat (positive : Bool) (sig : Nat) (exp : Int) (r : Bytes) : Step r Binary64 :=
  (fromParts positive sig exp r).map fun x => (x, Rest.all r)

/-- After an exponent too large for 32 bits: out of range unless the value is zero or tiny. -/
def exponentOverflow (positive zeroSig positiveExp : Bool) (r : Bytes) : Step r Binary64 :=
  if !zeroSig && positiveExp then .error (stopAt .numberOutOfRange r)
  else .ok (Binary64.signedZero !positive, skipDigits r)

/-- The digits of an exponent after its first one. -/
def exponentDigits (positive : Bool) (sig : Nat) (positiveExp : Bool) (start : Int) (exp : Nat) :
    (r : Bytes) → Step r Binary64
  | [] => finishFloat positive sig (saturate (if positiveExp then start + exp else start - exp)) []
  | c :: s =>
    if isDigit c then
      let e := exp * 10 + digitValue c
      if Nat.pow 2 31 - 1 < e then (exponentOverflow positive (sig = 0) positiveExp s).widen (length_le_cons c s)
      else (exponentDigits positive sig positiveExp start e s).widen (length_le_cons c s)
    else
      finishFloat positive sig (saturate (if positiveExp then start + exp else start - exp)) (c :: s)

/-- An exponent after its sign, which needs a first digit. -/
def exponentBody (positive : Bool) (sig : Nat) (positiveExp : Bool) (start : Int) :
    (r : Bytes) → Step r Binary64
  | [] => .error (stopAt .eofInValue [])
  | c :: s =>
    if isDigit c then
      (exponentDigits positive sig positiveExp start (digitValue c) s).widen (length_le_cons c s)
    else .error (stopAt .invalidNumber s)

/-- An exponent, after its `e`. -/
def exponent (positive : Bool) (sig : Nat) (start : Int) : (r : Bytes) → Step r Binary64
  | 43 :: s => (exponentBody positive sig true start s).widen (length_le_cons 43 s)
  | 45 :: s => (exponentBody positive sig false start s).widen (length_le_cons 45 s)
  | r => exponentBody positive sig true start r

/-- What follows the digits of a float: an exponent or the end. -/
def afterDigits (positive : Bool) (sig : Nat) (exp : Int) : (r : Bytes) → Step r Binary64
  | [] => finishFloat positive sig exp []
  | c :: s =>
    if isExponentMark c then (exponent positive sig exp s).widen (length_le_cons c s)
    else finishFloat positive sig exp (c :: s)

/-- Fraction digits beyond the 64-bit significand, which are dropped. -/
def fractionOverflow (positive : Bool) (sig : Nat) (exp : Int) (r : Bytes) : Step r Binary64 :=
  let s := skipDigits r
  (afterDigits positive sig exp s.1).widen s.2

/-- The digits after the point; `count` of them were taken into `sig` so far. -/
def fractionDigits (positive : Bool) (sig : Nat) (before : Int) (count : Nat) :
    (r : Bytes) → Step r Binary64
  | [] =>
    if count = 0 then .error (stopAhead .eofInValue [])
    else afterDigits positive sig (before - count) []
  | c :: s =>
    if isDigit c then
      if Nat.pow 2 64 ≤ sig * 10 + digitValue c then fractionOverflow positive sig (before - count) (c :: s)
      else (fractionDigits positive (sig * 10 + digitValue c) before (count + 1) s).widen
        (length_le_cons c s)
    else if count = 0 then .error (stopAhead .invalidNumber (c :: s))
    else afterDigits positive sig (before - count) (c :: s)

/-- Whole-number digits beyond the 64-bit significand: each one raises the exponent. -/
def longWhole (positive : Bool) (sig : Nat) (exp : Nat) : (r : Bytes) → Step r Binary64
  | [] => finishFloat positive sig exp []
  | c :: s =>
    if isDigit c then (longWhole positive sig (exp + 1) s).widen (length_le_cons c s)
    else if c = 46 then (fractionDigits positive sig exp 0 s).widen (length_le_cons c s)
    else if isExponentMark c then (exponent positive sig exp s).widen (length_le_cons c s)
    else finishFloat positive sig exp (c :: s)

/-- A number read so far: a whole number below `2^64`, a negative integer, or a float. -/
inductive Number where
  | whole (n : Nat)
  | negative (n : Int)
  | float (x : Binary64)

/-- A whole number with sign, once its digits are read. -/
def wholeNumber (positive : Bool) (sig : Nat) : Number :=
  if positive then .whole sig
  else if sig = 0 ∨ Nat.pow 2 63 < sig then .float (Binary64.ofNat sig).negate
  else .negative (-(sig : Int))

/-- What follows the whole-number digits: a fraction, an exponent, or the end. -/
def afterWhole (positive : Bool) (sig : Nat) : (r : Bytes) → Step r Number
  | [] => .ok (wholeNumber positive sig, Rest.all [])
  | c :: s =>
    if c = 46 then
      ((fractionDigits positive sig 0 0 s).widen (length_le_cons c s)).map fun p => (.float p.1, p.2)
    else if isExponentMark c then
      ((exponent positive sig 0 s).widen (length_le_cons c s)).map fun p => (.float p.1, p.2)
    else .ok (wholeNumber positive sig, Rest.all (c :: s))

/-- Whole-number digits after the first. -/
def wholeDigits (positive : Bool) (sig : Nat) : (r : Bytes) → Step r Number
  | [] => afterWhole positive sig []
  | c :: s =>
    if isDigit c then
      if Nat.pow 2 64 ≤ sig * 10 + digitValue c then
        (longWhole positive sig 0 (c :: s)).map fun p => (.float p.1, p.2)
      else (wholeDigits positive (sig * 10 + digitValue c) s).widen (length_le_cons c s)
    else afterWhole positive sig (c :: s)

/-- A number after its sign. A leading zero stands alone. -/
def number (positive : Bool) : (r : Bytes) → Step r Number
  | [] => .error (stopAt .eofInValue [])
  | c :: s =>
    if c = 48 then
      match s with
      | d :: s' =>
        if isDigit d then .error (stopAhead .invalidNumber (d :: s'))
        else (afterWhole positive 0 (d :: s')).widen (length_le_cons c (d :: s'))
      | [] => (afterWhole positive 0 []).widen (length_le_cons c [])
    else if isDigit c then (wholeDigits positive (digitValue c) s).widen (length_le_cons c s)
    else .error (stopAt .invalidNumber s)

/-! ## Strings -/

/-- The value of a hexadecimal digit. -/
def hexValue (b : UInt8) : Option Nat :=
  if 48 ≤ b ∧ b ≤ 57 then some (b.toNat - 48)
  else if 97 ≤ b ∧ b ≤ 102 then some (b.toNat - 87)
  else if 65 ≤ b ∧ b ≤ 70 then some (b.toNat - 55)
  else none

/-- Four hexadecimal digits; with fewer than four bytes left the string ends too early. -/
def hexQuad : (r : Bytes) → Step r Nat
  | a :: b :: c :: d :: s =>
    match hexValue a, hexValue b, hexValue c, hexValue d with
    | some x, some y, some z, some w =>
      .ok (((x * 16 + y) * 16 + z) * 16 + w,
        (Rest.all s).widen (by simp only [List.length_cons]; omega))
    | _, _, _, _ => .error (stopAt .invalidEscape s)
  | _ => .error (stopAt .eofInString [])

/-- The code point of a `\u` escape, after the `u`: a scalar value, or a leading surrogate
followed by an escaped trailing one. -/
def unicodeEscape (r : Bytes) : Step r Nat :=
  match hexQuad r with
  | .error e => .error e
  | .ok (n, ⟨s, hs⟩) =>
    if 0xDC00 ≤ n ∧ n ≤ 0xDFFF then .error (stopAt .loneLeadingSurrogate s)
    else if n < 0xD800 ∨ 0xDBFF < n then .ok (n, ⟨s, hs⟩)
    else
      match s with
      | [] => .error (stopAt .eofInString [])
      | 92 :: s1 =>
        match s1 with
        | [] => .error (stopAt .eofInString [])
        | 117 :: s2 =>
          match hexQuad s2 with
          | .error e => .error e
          | .ok (n2, ⟨s3, h3⟩) =>
            if 0xDC00 ≤ n2 ∧ n2 ≤ 0xDFFF then
              .ok (0x10000 + (n - 0xD800) * 1024 + (n2 - 0xDC00),
                ⟨s3, by simp only [List.length_cons] at hs h3; omega⟩)
            else .error (stopAt .loneLeadingSurrogate s3)
        | _ :: s2 => .error (stopAt .unexpectedEndOfHexEscape s2)
      | _ :: s1 => .error (stopAt .unexpectedEndOfHexEscape s1)

/-- The UTF-8 bytes of a code point, reversed. -/
def pushCodePoint (n : Nat) (acc : Bytes) : Bytes :=
  (Utf8.encodeChar (Char.ofNat n)).reverse ++ acc

/-- The bytes of a string after its opening quote, up to and past its closing quote;
`acc` holds the bytes read so far, reversed. -/
def stringBody (acc : Bytes) : (r : Bytes) → Step r Bytes
  | [] => .error (stopAt .eofInString [])
  | c :: s =>
    if c = 34 then .ok (acc.reverse, (Rest.all s).widen (length_le_cons c s))
    else if c = 92 then
      match s with
      | [] => .error (stopAt .eofInString [])
      | e :: s' =>
        let simple : Option UInt8 :=
          if e = 34 then some 34 else if e = 92 then some 92 else if e = 47 then some 47
          else if e = 98 then some 8 else if e = 102 then some 12 else if e = 110 then some 10
          else if e = 114 then some 13 else if e = 116 then some 9 else none
        match simple with
        | some b => (stringBody (b :: acc) s').widen (by simp only [List.length_cons]; omega)
        | none =>
          if e = 117 then
            match unicodeEscape s' with
            | .error err => .error err
            | .ok (n, ⟨s'', h⟩) =>
              (stringBody (pushCodePoint n acc) s'').widen (by simp only [List.length_cons]; omega)
          else .error (stopAt .invalidEscape s')
    else if c < 32 then .error (stopAt .controlCharacterInString s)
    else (stringBody (c :: acc) s).widen (length_le_cons c s)
termination_by r => r.length
decreasing_by all_goals simp only [List.length_cons] at *; omega

/-! ## Values -/

/-- The rest of a literal word after its first letter. -/
def word : Bytes → (r : Bytes) → Except Stop (Rest r)
  | [], r => .ok (Rest.all r)
  | _ :: _, [] => .error (stopAt .eofInValue [])
  | w :: ws, c :: s =>
    if w = c then ((word ws s).map fun x => x.widen (length_le_cons c s))
    else .error (stopAt .expectedIdent s)

/-- The integer or float a number stands for; `r` is what follows it. -/
def numberValue (n : Number) (r : Bytes) : Except Stop Value :=
  match n with
  | .whole k =>
    if k < Nat.pow 2 63 then .ok (.int (Int64.ofNat k)) else .error (stopAt (.integerOutOfRange k) r)
  | .negative k => .ok (.int (Int64.ofInt k))
  | .float x => .ok (.float x)

/-- Items of an array after `[`, each read by `item`, up to and past the closing `]`. -/
def arrayItems (item : (r : Bytes) → Step r Value) (first : Bool) (acc : List Value) (r : Bytes) :
    Step r (List Value) :=
  match skipBlank r with
  | ⟨[], _⟩ => .error (stopAhead .eofInList [])
  | ⟨c :: s, h1⟩ =>
    if c = 93 then .ok (acc.reverse, ⟨s, by simp only [List.length_cons] at h1; omega⟩)
    else if c = 44 ∧ !first then
      match skipBlank s with
      | ⟨[], _⟩ => .error (stopAhead .eofInValue [])
      | ⟨c2 :: s2, h2⟩ =>
        if c2 = 93 then .error (stopAhead .trailingComma (c2 :: s2))
        else
          match item (c2 :: s2) with
          | .error e => .error e
          | .ok (v, ⟨s3, h3⟩) =>
            have : s3.length < r.length := by simp only [List.length_cons] at h1 h2 h3; omega
            (arrayItems item false (v :: acc) s3).widen (Nat.le_of_lt this)
    else if first then
      match item (c :: s) with
      | .error e => .error e
      | .ok (v, ⟨s3, h3⟩) =>
        have : s3.length ≤ r.length := Nat.le_trans h3 h1
        (arrayItems item false (v :: acc) s3).widen this
    else .error (stopAhead .expectedListCommaOrEnd (c :: s))
termination_by 2 * r.length + (if first then 1 else 0)
decreasing_by all_goals (repeat' split) <;> first | omega | contradiction

/-- Entries of an object after `{`, each value read by `item`, up to and past the closing `}`. -/
def objectEntries (item : (r : Bytes) → Step r Value) (first : Bool) (acc : List (Bytes × Value))
    (r : Bytes) : Step r (List (Bytes × Value)) :=
  match skipBlank r with
  | ⟨[], _⟩ => .error (stopAhead .eofInObject [])
  | ⟨c :: s, h1⟩ =>
    if c = 125 then .ok (acc, ⟨s, by simp only [List.length_cons] at h1; omega⟩)
    else
      -- where the key should start, and whether a comma came before it
      let keyStart : Except Stop (Rest r) :=
        if c = 44 ∧ !first then
          match skipBlank s with
          | ⟨[], _⟩ => .error (stopAhead .eofInValue [])
          | ⟨c2 :: s2, h2⟩ =>
            if c2 = 34 then .ok ⟨c2 :: s2, by simp only [List.length_cons] at h1 h2 ⊢; omega⟩
            else if c2 = 125 then .error (stopAhead .trailingComma (c2 :: s2))
            else .error (stopAhead .keyMustBeString (c2 :: s2))
        else if first then
          if c = 34 then .ok ⟨c :: s, h1⟩ else .error (stopAhead .keyMustBeString (c :: s))
        else .error (stopAhead .expectedObjectCommaOrEnd (c :: s))
      match keyStart with
      | .error e => .error e
      | .ok ⟨[], _⟩ => .error (stopAhead .keyMustBeString [])
      | .ok ⟨_ :: k, hk⟩ =>
        match stringBody [] k with
        | .error e => .error e
        | .ok (key, ⟨s4, h4⟩) =>
          match skipBlank s4 with
          | ⟨[], _⟩ => .error (stopAhead .eofInObject [])
          | ⟨c5 :: s5, h5⟩ =>
            if c5 ≠ 58 then .error (stopAhead .expectedColon (c5 :: s5))
            else
              match item s5 with
              | .error e => .error e
              | .ok (v, ⟨s6, h6⟩) =>
                have : s6.length < r.length := by
                  simp only [List.length_cons] at hk h4 h5 h6; omega
                (objectEntries item false (Value.insertEntry key v acc) s6).widen
                  (Nat.le_of_lt this)
termination_by r.length

/-- One value from the front of `r`, with `depth` more containers allowed to open (the one
opened here included). -/
def value : (depth : Nat) → (r : Bytes) → Step r Value
  | depth, r =>
    match skipBlank r with
    | ⟨[], _⟩ => .error (stopAhead .eofInValue [])
    | ⟨c :: s, h1⟩ =>
      let up {α : Type} (x : Step s α) : Step r α :=
        x.widen (by simp only [List.length_cons] at h1; omega)
      let here {α : Type} (x : Step (c :: s) α) : Step r α := x.widen h1
      if c = 110 then up ((word [117, 108, 108] s).map fun x => (.null, x))
      else if c = 116 then up ((word [114, 117, 101] s).map fun x => (.bool true, x))
      else if c = 102 then up ((word [97, 108, 115, 101] s).map fun x => (.bool false, x))
      else if c = 45 ∨ isDigit c then
        let n : Step r Number := if c = 45 then up (number false s) else here (number true (c :: s))
        match n with
        | .error e => .error e
        | .ok (k, rest) => (numberValue k rest.1).map fun v => (v, rest)
      else if c = 34 then up ((stringBody [] s).map fun p => (.str p.1, p.2))
      else if c = 91 then
        match depth with
        | d + 2 => up ((arrayItems (value (d + 1)) true [] s).map fun p => (.list p.1, p.2))
        | _ => .error (stopAhead .recursionLimitExceeded (c :: s))
      else if c = 123 then
        match depth with
        | d + 2 => up ((objectEntries (value (d + 1)) true [] s).map fun p => (.dict p.1, p.2))
        | _ => .error (stopAhead .recursionLimitExceeded (c :: s))
      else .error (stopAhead .expectedValue (c :: s))

/-- Containers that may be open at once, plus one. -/
def recursionLimit : Nat := 128

/-- The line (from 1) and column (bytes since the last line break) of byte index `i`. -/
def position (text : Bytes) (i : Nat) : Nat × Nat :=
  let before := text.take i
  (1 + before.count 10, (before.reverse.takeWhile (· != 10)).length)

/-- The fault of a stop in a text. -/
def Fault.ofStop (text : Bytes) (st : Stop) : Fault :=
  let i := text.length - st.left + (if st.ahead && 0 < st.left then 1 else 0)
  let (line, column) := position text i
  { problem := st.problem, line := line, column := column }

/-- A whole text as one value, with nothing but white space after it. -/
def readText (text : Bytes) : Except Stop Value :=
  match value recursionLimit text with
  | .error e => .error e
  | .ok (v, rest) =>
    match skipBlank rest.1 with
    | ⟨[], _⟩ => .ok v
    | ⟨c :: s, _⟩ => .error (stopAhead .trailingCharacters (c :: s))

/-- Read a JSON text under a nesting limit. Hitting the reader's own limit of open containers
is `tooDeep` with the smaller of the two limits; a value deeper than `limit` is `tooDeep`. -/
def parse (limit : Nat) (text : Bytes) : Except Error Value :=
  match readText text with
  | .error st =>
    if st.problem = .recursionLimitExceeded then .error (.tooDeep (min limit recursionLimit))
    else .error (.json (Fault.ofStop text st))
  | .ok v => if limit < v.depth then .error (.tooDeep limit) else .ok v

/-- Nesting limit when none is given. -/
def defaultDepth : Nat := 64

end HandlerKit.Json
