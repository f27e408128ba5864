import HandlerKit.Tnetstring.Frame
import HandlerKit.Text.Utf8

/-!
# Reading TNetstring values

A value is a frame whose tag byte says how to read the payload:

* `,` a string: the payload bytes as they are;
* `#` an integer and `^` a float: the payload must be UTF-8 text, read as a decimal integer or
  float literal;
* `!` a boolean: exactly `true` or `false`;
* `~` null: an empty payload;
* `}` a dict: the payload is a sequence of key and value frames, each key string-tagged, the
  last of equal keys winning;
* `]` a list: the payload is a sequence of item frames.

Nested frames are read inside their parent's payload only, so they can never reach the bytes of
the parent's siblings. The nesting level is checked before anything else: the top value is at
level 1, and the entries and items of a container one level deeper.
-/

namespace HandlerKit.Tnetstring

/-- Nesting limit when none is given. -/
def defaultDepth : Nat := 64

/-- The bytes of the word `true`. -/
def trueBytes : Bytes := [116, 114, 117, 101]

/-- The bytes of the word `false`. -/
def falseBytes : Bytes := [102, 97, 108, 115, 101]

/-- The scalar a payload stands for under a tag that is not a container. -/
def readScalar (tag : Tag) (payload : Bytes) : Except Error Value :=
  match tag with
  | .string => .ok (.str payload)
  | .integer =>
    match Utf8.decode? payload with
    | none => .error (.malformed (.payloadNotText .integer))
    | some text =>
      match IntText.read payload with
      | .ok n => .ok (.int n)
      | .error why => .error (.malformed (.badInteger text why))
  | .float =>
    match Utf8.decode? payload with
    | none => .error (.malformed (.payloadNotText .float))
    | some text =>
      match FloatText.read payload with
      | .ok x => .ok (.float x)
      | .error why => .error (.malformed (.badFloat text why))
  | .boolean =>
    if payload = trueBytes then .ok (.bool true)
    else if payload = falseBytes then .ok (.bool false)
    else .error (.malformed (.badBoolean (Utf8.decodeLossy payload)))
  | .null =>
    if payload = [] then .ok .null else .error (.malformed (.nullNotEmpty payload.length))
  | .dict => .ok (.dict [])
  | .list => .ok (.list [])

mutual
/-- Read one value from the front of `data` at nesting `level`, under the nesting `limit`;
give the value and the bytes after it. -/
def readValue (limit level : Nat) (data : Bytes) :
    Except Error (Value × { r : Bytes // r.length < data.length }) :=
  if limit < level then .error (.tooDeep limit)
  else
    match Frame.split data with
    | .error e => .error e
    | .ok f =>
      match Tag.ofByte? f.tagByte with
      | none => .error (.unknownTag f.tagByte)
      | some .dict =>
        match readEntries limit (level + 1) f.payload [] with
        | .error e => .error e
        | .ok es => .ok (.dict es, ⟨f.rest, f.rest_lt⟩)
      | some .list =>
        match readItems limit (level + 1) f.payload [] with
        | .error e => .error e
        | .ok xs => .ok (.list xs, ⟨f.rest, f.rest_lt⟩)
      | some tag =>
        match readScalar tag f.payload with
        | .error e => .error e
        | .ok v => .ok (v, ⟨f.rest, f.rest_lt⟩)
termination_by (data.length, 0)
decreasing_by
  all_goals first
    | exact Prod.Lex.left _ _ f.payload_lt

/-- Read key and value frames from `payload` at nesting `level` until it is used up, inserting
each entry into `acc`. -/
def readEntries (limit level : Nat) (payload : Bytes) (acc : List (Bytes × Value)) :
    Except Error (List (Bytes × Value)) :=
  match payload with
  | [] => .ok acc
  | b :: bs =>
    match readValue limit level (b :: bs) with
    | .error e => .error e
    | .ok (.str k, ⟨rest, _⟩) =>
      match rest with
      | [] => .error (.malformed .keyWithoutValue)
      | c :: cs =>
        match readValue limit level (c :: cs) with
        | .error e => .error e
        | .ok (v, ⟨rest', _⟩) => readEntries limit level rest' (Value.insertEntry k v acc)
    | .ok (other, _) => .error (.typeMismatch "string dict key" other.tag)
termination_by (payload.length, 1)
decreasing_by
  all_goals first
    | exact Prod.Lex.right _ (by decide)
    | exact Prod.Lex.left _ _ (by assumption)
    | (apply Prod.Lex.left; simp only [List.length_cons] at *; omega)

/-- Read item frames from `payload` at nesting `level` until it is used up, after `acc`. -/
def readItems (limit level : Nat) (payload : Bytes) (acc : List Value) :
    Except Error (List Value) :=
  match payload with
  | [] => .ok acc.reverse
  | b :: bs =>
    match readValue limit level (b :: bs) with
    | .error e => .error e
    | .ok (v, ⟨rest, _⟩) => readItems limit level rest (v :: acc)
termination_by (payload.length, 1)
decreasing_by
  all_goals first
    | exact Prod.Lex.right _ (by decide)
    | exact Prod.Lex.left _ _ (by assumption)
end

/-- Read one value from the front of `data` under a nesting limit; give it and the rest. -/
def readPrefix (limit : Nat) (data : Bytes) : Except Error (Value × Bytes) :=
  (readValue limit 1 data).map fun r => (r.1, r.2.val)

/-- Read one value starting at byte `start` of `data`; give it and the bytes it took. -/
def readAt (data : Bytes) (start : Nat) : Except Error (Value × Nat) :=
  if data.length < start then .error (.outOfBounds start data.length)
  else
    let slice := data.drop start
    (readPrefix defaultDepth slice).map fun r => (r.1, slice.length - r.2.length)

/-- Read exactly one value: bytes after it are an error. -/
def readExact (data : Bytes) : Except Error Value :=
  match readPrefix defaultDepth data with
  | .error e => .error e
  | .ok (v, []) => .ok v
  | .ok (_, rest) => .error (.malformed (.trailingAfterValue rest.length))

end HandlerKit.Tnetstring
