import HandlerKit.Error
import HandlerKit.Number.Shortest
import HandlerKit.Text.Utf8

/-!
# Writing values as JSON text

A string becomes a JSON string (its bytes must be UTF-8), an integer its decimal digits, a
float its shortest digits, a dict an object with its keys in bytewise order, a list an array.
A string or key that is not UTF-8, and an infinite or NaN float, has no JSON form; the first
such node met, depth first and keys before their values, is the fault.

**Strings.** The quote and the backslash are escaped, and so is every control character below
`U+0020`: as `\b \t \n \f \r` where there is one, else as `\u00xx` in lowercase hexadecimal.
Nothing else is escaped.

**Floats (`floatText`).** The shortest digits that read back (`Binary64.shortest`): the nearer
of two, and of two equally near the one with an even last digit. When the decimal exponent of
the leading digit lies in `-5 … 15` the number is written positionally and always has a point
(`3.0`, `0.00001`); otherwise as `d.ddde±x` (`1e+16`, `1.5e-7`).

**Layout.** Compact output has no blanks. Pretty output puts each entry or item on its own line,
indented two spaces per level, with `": "` after keys; empty containers stay `[]` and `{}`.
-/

namespace HandlerKit.Json

/-- How one character is written inside a JSON string. -/
def escapeChar (c : Char) : List Char :=
  if c = '"' then ['\\', '"']
  else if c = '\\' then ['\\', '\\']
  else if c = '\x08' then ['\\', 'b']
  else if c = '\x0c' then ['\\', 'f']
  else if c = '\n' then ['\\', 'n']
  else if c = '\r' then ['\\', 'r']
  else if c = '\t' then ['\\', 't']
  else if c.toNat < 0x20 then
    let hex (n : Nat) : Char := if n < 10 then Char.ofNat (48 + n) else Char.ofNat (87 + n)
    ['\\', 'u', '0', '0', hex (c.toNat / 16), hex (c.toNat % 16)]
  else [c]

/-- A text as a JSON string. -/
def quoteText (cs : List Char) : String :=
  String.ofList ('"' :: cs.flatMap escapeChar ++ ['"'])

/-- `n` zeros. -/
def zeros (n : Nat) : String := String.ofList (List.replicate n '0')

/-- The JSON text of a finite float. -/
def floatText (x : Binary64) : String :=
  let sign := if x.sign then "-" else ""
  if x.isZero then sign ++ "0.0"
  else
    let d := x.shortest .toEven
    let ds := toString d.digits
    let len := ds.length
    -- the point stands after `point` digits; the leading digit has weight 10^(point - 1)
    let point : Int := d.exponent + len
    let body :=
      if -4 ≤ point ∧ point ≤ 16 then
        if 0 ≤ d.exponent then ds ++ zeros d.exponent.toNat ++ ".0"
        else if 0 < point then
          String.ofList (ds.toList.take point.toNat) ++ "." ++ String.ofList (ds.toList.drop point.toNat)
        else "0." ++ zeros (-point).toNat ++ ds
      else
        let lead := String.ofList (ds.toList.take 1)
        let tail := String.ofList (ds.toList.drop 1)
        let mant := if tail.isEmpty then lead else lead ++ "." ++ tail
        let e := point - 1
        mant ++ "e" ++ (if e < 0 then "-" else "+") ++ toString e.natAbs
    sign ++ body

/-- A fault of writing, which has no place. -/
def unwritable (p : Problem) : Fault := { problem := p }

/-- Two blanks per level. -/
def indentText (level : Nat) : String := String.ofList (List.replicate (2 * level) ' ')

/-- The separator before an entry or item: a comma unless it is the first, then in pretty
output a line break and the indentation of `level`. -/
def lead (pretty first : Bool) (level : Nat) : String :=
  (if first then "" else ",") ++ (if pretty then "\n" ++ indentText level else "")

/-- The closing mark of a container whose entries stand at `level`. -/
def closing (pretty : Bool) (level : Nat) (mark : String) : String :=
  (if pretty then "\n" ++ indentText (level - 1) else "") ++ mark

mutual
/-- The JSON text of a value whose container stands at `level`. -/
def writeValue (pretty : Bool) (level : Nat) : Value → Except Fault String
  | .str b =>
    match Utf8.decode? b with
    | some cs => .ok (quoteText cs)
    | none => .error (unwritable .stringNotUtf8)
  | .int n => .ok (toString n.toInt)
  | .float x => if x.isFinite then .ok (floatText x) else .error (unwritable (.nonFinite x))
  | .bool b => .ok (if b then "true" else "false")
  | .null => .ok "null"
  | .dict [] => .ok "\x7b\x7d"
  | .dict (e :: es) =>
    match writeEntries pretty (level + 1) true (e :: es) with
    | .ok body => .ok ("\x7b" ++ body ++ closing pretty (level + 1) "\x7d")
    | .error f => .error f
  | .list [] => .ok "[]"
  | .list (x :: xs) =>
    match writeItems pretty (level + 1) true (x :: xs) with
    | .ok body => .ok ("[" ++ body ++ closing pretty (level + 1) "]")
    | .error f => .error f

/-- The entries of an object at `level`. -/
def writeEntries (pretty : Bool) (level : Nat) (first : Bool) :
    List (Bytes × Value) → Except Fault String
  | [] => .ok ""
  | (k, v) :: rest =>
    match Utf8.decode? k with
    | none => .error (unwritable .keyNotUtf8)
    | some cs =>
      match writeValue pretty level v with
      | .error f => .error f
      | .ok vt =>
        match writeEntries pretty level false rest with
        | .error f => .error f
        | .ok more =>
          .ok (lead pretty first level ++ quoteText cs ++ (if pretty then ": " else ":") ++ vt ++ more)

/-- The items of an array at `level`. -/
def writeItems (pretty : Bool) (level : Nat) (first : Bool) : List Value → Except Fault String
  | [] => .ok ""
  | v :: rest =>
    match writeValue pretty level v with
    | .error f => .error f
    | .ok vt =>
      match writeItems pretty level false rest with
      | .error f => .error f
      | .ok more => .ok (lead pretty first level ++ vt ++ more)
end

/-- Compact JSON text of a value. -/
def render (v : Value) : Except Error String :=
  (writeValue false 0 v).mapError .json

/-- Indented JSON text of a value. -/
def renderPretty (v : Value) : Except Error String :=
  (writeValue true 0 v).mapError .json

end HandlerKit.Json
