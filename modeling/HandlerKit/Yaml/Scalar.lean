import HandlerKit.Number.FloatText
import HandlerKit.Number.Shortest
import HandlerKit.Text.Escaped

/-!
# What a plain scalar stands for

A plain scalar without a tag is resolved by the YAML 1.2 core schema: empty, `~` and `null`
(also `Null`, `NULL`) are null; `true` and `false` in three spellings are booleans; integers
may carry a sign and a `0x`, `0o` or `0b` radix prefix; floats are decimal numerals or
`.inf`, `-.inf`, `.nan`; anything else is a string. A numeral with a leading zero and only
digits after it (`012`) is a string, not a number.

Integers are read as the standard integer reading of a machine type does it: an optional `+`
(and `-` for signed types), then at least one digit of the radix, and no overflow. The widths
tried are 64 bits (unsigned, then signed for negatives), then 128 bits.

`Unexpected` names what a scalar turned out to be, for messages saying it was the wrong
kind of value.
-/

namespace HandlerKit.Yaml

/-- The value of a digit in a radix up to 36. -/
def digitIn (radix : Nat) (c : Char) : Option Nat :=
  let v :=
    if '0' ≤ c ∧ c ≤ '9' then some (c.toNat - 48)
    else if 'a' ≤ c ∧ c ≤ 'z' then some (c.toNat - 87)
    else if 'A' ≤ c ∧ c ≤ 'Z' then some (c.toNat - 55)
    else none
  v.filter (· < radix)

/-- The value of a nonempty run of digits. -/
def digitsIn (radix : Nat) (cs : List Char) : Option Nat :=
  if cs.isEmpty then none
  else cs.foldlM (fun acc c => (digitIn radix c).map fun d => acc * radix + d) 0

/-- Integer text in a radix, read into a type of `bits` bits: an optional `+`, or `-` when the
type is signed, then digits; nothing else, and within range. -/
def readRadix (radix : Nat) (signed : Bool) (bits : Nat) (cs : List Char) : Option Int :=
  let parts : Option (Bool × List Char) := match cs with
    | [] | ['+'] | ['-'] => none
    | '+' :: rest => some (false, rest)
    | '-' :: rest => if signed then some (true, rest) else some (false, cs)
    | _ => some (false, cs)
  parts.bind fun (neg, body) =>
    (digitsIn radix body).bind fun n =>
      let v : Int := if neg then -(n : Int) else n
      let fits :=
        if signed then -(Nat.pow 2 (bits - 1) : Int) ≤ v ∧ v < (Nat.pow 2 (bits - 1) : Int)
        else v < (Nat.pow 2 bits : Int)
      if fits then some v else none

/-- A numeral with a leading zero followed only by digits (`012`, `-00`): a string in YAML 1.2. -/
def digitsButNotNumber (s : List Char) : Bool :=
  let t := match s with
    | '-' :: r | '+' :: r => r
    | _ => s
  t.length > 1 && t.head? == some '0' && (t.drop 1).all fun c => '0' ≤ c && c ≤ '9'

/-- Whether a text starts with a sign. -/
def startsWithSign (s : List Char) : Bool := s.head? == some '+' || s.head? == some '-'

/-- A non-negative integer of `bits` bits: `+` allowed once, radix prefixes after it. -/
def parseUnsigned (bits : Nat) (s : List Char) : Option Nat :=
  let u := match s with
    | '+' :: r => r
    | _ => s
  let withPrefix (pre : List Char) (radix : Nat) (otherwise : Unit → Option Nat) : Option Nat :=
    if pre.isPrefixOf u then
      let r := u.drop 2
      if startsWithSign r then none
      else match readRadix radix false bits r with
        | some v => some v.toNat
        | none => otherwise ()
    else otherwise ()
  withPrefix ['0', 'x'] 16 fun _ => withPrefix ['0', 'o'] 8 fun _ => withPrefix ['0', 'b'] 2 fun _ =>
    if startsWithSign u || digitsButNotNumber s then none
    else (readRadix 10 false bits u).map Int.toNat

/-- A signed integer of `bits` bits, as tried after `parseUnsigned`: `-0x…`, `-0o…`, `-0b…`, or
decimal. -/
def parseNegative (bits : Nat) (s : List Char) : Option Int :=
  let withPrefix (pre : List Char) (radix : Nat) (otherwise : Unit → Option Int) : Option Int :=
    if pre.isPrefixOf s then
      match readRadix radix true bits ('-' :: s.drop 3) with
      | some v => some v
      | none => otherwise ()
    else otherwise ()
  withPrefix ['-', '0', 'x'] 16 fun _ => withPrefix ['-', '0', 'o'] 8 fun _ =>
    withPrefix ['-', '0', 'b'] 2 fun _ =>
      if digitsButNotNumber s then none else readRadix 10 true bits s

/-- `~`, `null`, `Null`, `NULL`. -/
def isNull (s : String) : Bool := s == "~" || s == "null" || s == "Null" || s == "NULL"

/-- `true`, `True`, `TRUE`, `false`, `False`, `FALSE`. -/
def parseBool (s : String) : Option Bool :=
  if s == "true" || s == "True" || s == "TRUE" then some true
  else if s == "false" || s == "False" || s == "FALSE" then some false
  else none

/-- A float: `.inf`, `-.inf`, `.nan` in three spellings, or a finite decimal numeral. -/
def parseFloat (s : String) : Option Binary64 :=
  let cs := s.toList
  let unsigned : Option (List Char) := match cs with
    | '+' :: r => if startsWithSign r then none else some r
    | _ => some cs
  unsigned.bind fun u =>
    let ut := String.ofList u
    if ut == ".inf" || ut == ".Inf" || ut == ".INF" then some (Binary64.infinity false)
    else if s == "-.inf" || s == "-.Inf" || s == "-.INF" then some (Binary64.infinity true)
    else if s == ".nan" || s == ".NaN" || s == ".NAN" then some Binary64.nan
    else match FloatText.read ut.toUTF8.toList with
      | .ok x => if x.isFinite then some x else none
      | .error _ => none

/-- What a scalar turned out to be. -/
inductive Unexpected where
  | bool (b : Bool)
  | unsigned (n : Nat)
  | signed (n : Int)
  | float (x : Binary64)
  | str (s : String)
  | unit
  | seq
  | map
  | enum
  | other (text : String)

/-- `n` zeros. -/
def zeroText (n : Nat) : String := String.ofList (List.replicate n '0')

/-- A finite float in positional notation with the fewest digits that read back to it; of two
equally near such decimals, the larger in magnitude. -/
def positional (x : Binary64) : String :=
  let sign := if x.sign then "-" else ""
  if x.isZero then sign ++ "0"
  else
    let d := x.shortest .away
    let ds := toString d.digits
    let point : Int := d.exponent + ds.length
    let body :=
      if 0 ≤ d.exponent then ds ++ zeroText d.exponent.toNat
      else if 0 < point then
        String.ofList (ds.toList.take point.toNat) ++ "." ++ String.ofList (ds.toList.drop point.toNat)
      else "0." ++ zeroText (-point).toNat ++ ds
    sign ++ body

/-- A float as messages show it: positional, with `.0` when it has no point. -/
def floatShown (x : Binary64) : String :=
  if x.isNaN then "NaN"
  else if x.isInfinite then (if x.sign then "-inf" else "inf")
  else
    let t := positional x
    if t.toList.contains '.' then t else t ++ ".0"

/-- How a message names an unexpected value. -/
def Unexpected.text : Unexpected → String
  | .bool b => "boolean `" ++ toString b ++ "`"
  | .unsigned n => "integer `" ++ toString n ++ "`"
  | .signed n => "integer `" ++ toString n ++ "`"
  | .float x => "floating point `" ++ floatShown x ++ "`"
  | .str s => "string " ++ Text.quote s.toList
  | .unit => "unit value"
  | .seq => "sequence"
  | .map => "map"
  | .enum => "enum"
  | .other t => t

/-- An integer scalar: 64 bits unsigned, then signed, then 128 bits. -/
def intValue (cs : List Char) : Option Unexpected :=
  match parseUnsigned 64 cs with
  | some n => some (.unsigned n)
  | none =>
    match parseNegative 64 cs with
    | some n => some (.signed n)
    | none =>
      match parseUnsigned 128 cs with
      | some n => some (.other ("integer `" ++ toString n ++ "` as u128"))
      | none => (parseNegative 128 cs).map fun n => .other ("integer `" ++ toString n ++ "` as i128")

/-- What a plain scalar without a tag stands for. -/
def untagged (v : String) : Unexpected :=
  if v.isEmpty || isNull v then .unit
  else match parseBool v with
    | some b => .bool b
    | none =>
      match intValue v.toList with
      | some u => u
      | none =>
        if digitsButNotNumber v.toList then .str v
        else match parseFloat v with
          | some x => .float x
          | none => .str v

end HandlerKit.Yaml
