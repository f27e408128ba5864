/-!
# UTF-8

A byte string is read one piece at a time. A piece is either a scalar value, encoded in one to
four bytes as the standard allows (no overlong forms, no surrogates, nothing above `U+10FFFF`),
or an ill-formed piece: the longest prefix of a possible encoding that cannot be completed,
and at least one byte.

`decode?` accepts only byte strings made of scalar pieces. `decodeLossy` replaces every
ill-formed piece by `U+FFFD`, so a maximal ill-formed prefix is replaced once.
-/

namespace HandlerKit.Utf8

/-- One piece read from the front of a byte string. -/
inductive Piece where
  | scalar (c : Char)
  | illFormed
  deriving DecidableEq, Repr

/-- A continuation byte within the given bounds. -/
def within (lo hi : UInt8) (b : UInt8) : Bool := lo ≤ b && b ≤ hi

/-- The scalar value of some code bits. -/
def scalarOf (n : Nat) : Piece := .scalar (Char.ofNat n)

/-- The piece that starts with byte `b`, followed by `rest`, and how many bytes of `rest`
belong to it. -/
def next (b : UInt8) (rest : List UInt8) : Piece × Nat :=
  if b < 0x80 then (scalarOf b.toNat, 0)
  else if within 0xC2 0xDF b then
    match rest with
    | c1 :: _ =>
      if within 0x80 0xBF c1 then (scalarOf ((b.toNat - 0xC0) * 64 + (c1.toNat - 0x80)), 1)
      else (.illFormed, 0)
    | [] => (.illFormed, 0)
  else if within 0xE0 0xEF b then
    let lo : UInt8 := if b = 0xE0 then 0xA0 else 0x80
    let hi : UInt8 := if b = 0xED then 0x9F else 0xBF
    match rest with
    | c1 :: r1 =>
      if within lo hi c1 then
        match r1 with
        | c2 :: _ =>
          if within 0x80 0xBF c2 then
            (scalarOf ((b.toNat - 0xE0) * 4096 + (c1.toNat - 0x80) * 64 + (c2.toNat - 0x80)), 2)
          else (.illFormed, 1)
        | [] => (.illFormed, 1)
      else (.illFormed, 0)
    | [] => (.illFormed, 0)
  else if within 0xF0 0xF4 b then
    let lo : UInt8 := if b = 0xF0 then 0x90 else 0x80
    let hi : UInt8 := if b = 0xF4 then 0x8F else 0xBF
    match rest with
    | c1 :: r1 =>
      if within lo hi c1 then
        match r1 with
        | c2 :: r2 =>
          if within 0x80 0xBF c2 then
            match r2 with
            | c3 :: _ =>
              if within 0x80 0xBF c3 then
                (scalarOf ((b.toNat - 0xF0) * 262144 + (c1.toNat - 0x80) * 4096
                  + (c2.toNat - 0x80) * 64 + (c3.toNat - 0x80)), 3)
              else (.illFormed, 2)
            | [] => (.illFormed, 2)
          else (.illFormed, 1)
        | [] => (.illFormed, 1)
      else (.illFormed, 0)
    | [] => (.illFormed, 0)
  else (.illFormed, 0)

/-- The pieces of a byte string, in order. -/
def pieces : List UInt8 → List Piece
  | [] => []
  | b :: rest => (next b rest).1 :: pieces (rest.drop (next b rest).2)
termination_by bs => bs.length
decreasing_by rw [List.length_drop, List.length_cons]; omega

/-- The text of a byte string made of scalar pieces only. -/
def decode? (bs : List UInt8) : Option (List Char) :=
  (pieces bs).mapM fun
    | .scalar c => some c
    | .illFormed => none

/-- The text of a byte string, each ill-formed piece read as `U+FFFD`. -/
def decodeLossy (bs : List UInt8) : List Char :=
  (pieces bs).map fun
    | .scalar c => c
    | .illFormed => '�'

/-- Whether a byte string is well-formed UTF-8. -/
def isValid (bs : List UInt8) : Bool := (decode? bs).isSome

/-- The UTF-8 encoding of one scalar value. -/
def encodeChar (c : Char) : List UInt8 :=
  let n := c.toNat
  if n < 0x80 then [n.toUInt8]
  else if n < 0x800 then [(0xC0 + n / 64).toUInt8, (0x80 + n % 64).toUInt8]
  else if n < 0x10000 then
    [(0xE0 + n / 4096).toUInt8, (0x80 + n / 64 % 64).toUInt8, (0x80 + n % 64).toUInt8]
  else
    [(0xF0 + n / 262144).toUInt8, (0x80 + n / 4096 % 64).toUInt8,
      (0x80 + n / 64 % 64).toUInt8, (0x80 + n % 64).toUInt8]

/-- The UTF-8 encoding of a text. -/
def encode (cs : List Char) : List UInt8 := cs.flatMap encodeChar

end HandlerKit.Utf8
