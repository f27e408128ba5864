import HandlerKit.Yaml.Document
import HandlerKit.Yaml.Scalar
import HandlerKit.Text.Utf8

/-!
# Decoding typed values from a loaded document

Decoders walk the events of a document from an index and give the value and the index after the
node. An alias is followed to its anchored node, and decoding goes on after the alias.

**Places in messages.** A decoding message is first made without a place; the innermost
decoder it passes through gives it the mark of the node being decoded and the path to that node
(`handler.max_depth`, or `.` for the whole document). A missing or repeated field is placed at
its mapping; a bad key at the key; a bad value at the value.

**Kinds.** A value of the wrong kind is named by what its scalar stands for under the core
schema (`Unexpected`), so `'1'` is a string but `1` an integer. An integer field takes a plain
scalar that reads as an unsigned integer, whatever its tag, or such a literal block scalar
tagged `!!int`.
-/

namespace HandlerKit.Yaml

/-- The path to a node, for messages. -/
inductive Path where
  | root
  | map (parent : Path) (key : String)
  | alias (parent : Path)
  | unknown (parent : Path)

/-- `.` for the root; keys joined by `.`; `?` for a key that is not a scalar. -/
def Path.text : Path → String
  | .root => "."
  | .map p k => (match p with
      | .root => ""
      | _ => p.text ++ ".") ++ k
  | .alias p => p.text
  | .unknown p => (match p with
      | .root => ""
      | _ => p.text ++ ".") ++ "?"

/-- Why decoding failed. -/
inductive DecodeError where
  | broken (b : Broken)
  | endOfStream
  | moreThanOneDocument
  | message (text : String) (place : Option (Mark × Path))

/-- ` at line L column C`, left out at the very start. -/
def placeText (m : Mark) : String := if m.atStart then "" else " at " ++ m.text

/-- The message of a decoding failure. -/
def DecodeError.text : DecodeError → String
  | .broken (.failed f) => f.message
  | .broken (.unknownAnchor m) => "unknown anchor" ++ placeText m
  | .endOfStream => "EOF while parsing a value"
  | .moreThanOneDocument =>
    "deserializing from YAML containing more than one document is not supported"
  | .message t none => t
  | .message t (some (m, p)) =>
    let shown := p.text
    (if shown == "." then "" else shown ++ ": ") ++ t ++ placeText m

/-- A message without a place yet. -/
def custom (t : String) : DecodeError := .message t none

/-- Names in backquotes: one, two joined by `or`, or `one of` a list. -/
def oneOf (names : List String) : String :=
  let q (n : String) := "`" ++ n ++ "`"
  match names with
  | [a] => q a
  | [a, b] => q a ++ " or " ++ q b
  | _ => "one of " ++ ", ".intercalate (names.map q)

/-- A value of the wrong kind. -/
def invalidType (u : Unexpected) (exp : String) : DecodeError :=
  custom ("invalid type: " ++ u.text ++ ", expected " ++ exp)

/-- A value of the right kind but not allowed. -/
def invalidValue (u : Unexpected) (exp : String) : DecodeError :=
  custom ("invalid value: " ++ u.text ++ ", expected " ++ exp)

/-- A key that is not a field. -/
def unknownField (key : String) (fields : List String) : DecodeError :=
  if fields.isEmpty then custom ("unknown field `" ++ key ++ "`, there are no fields")
  else custom ("unknown field `" ++ key ++ "`, expected " ++ oneOf fields)

/-- A name that is not a variant. -/
def unknownVariant (name : String) (variants : List String) : DecodeError :=
  if variants.isEmpty then custom ("unknown variant `" ++ name ++ "`, there are no variants")
  else custom ("unknown variant `" ++ name ++ "`, expected " ++ oneOf variants)

/-- A required field that is not there. -/
def missingField (name : String) : DecodeError := custom ("missing field `" ++ name ++ "`")

/-- A field given twice. -/
def duplicateField (name : String) : DecodeError := custom ("duplicate field `" ++ name ++ "`")

/-- Give a message without a place the node's mark and path. -/
def DecodeError.place (e : DecodeError) (m : Mark) (p : Path) : DecodeError :=
  match e with
  | .message t none => .message t (some (m, p))
  | e => e

/-- Decoding steps. -/
abbrev Decoded := Except DecodeError

/-- Place the failure of a step at a node. -/
def placed {α : Type} (r : Decoded α) (m : Mark) (p : Path) : Decoded α :=
  r.mapError fun e => e.place m p

/-- The core schema tags. -/
def tagNull : List UInt8 := "tag:yaml.org,2002:null".toUTF8.toList
/-- The core schema tags. -/
def tagBool : List UInt8 := "tag:yaml.org,2002:bool".toUTF8.toList
/-- The core schema tags. -/
def tagInt : List UInt8 := "tag:yaml.org,2002:int".toUTF8.toList
/-- The core schema tags. -/
def tagFloat : List UInt8 := "tag:yaml.org,2002:float".toUTF8.toList

/-- Whether a tag is a local one: it starts with `!`. -/
def isLocal (t : List UInt8) : Bool := t.head? == some 33

/-- What a scalar stands for, by its tag; a core tag on text it cannot read is a failure. -/
def classify (tag : Option (List UInt8)) (v : String) (style : ScalarStyle) : Decoded Unexpected :=
  match tag with
  | some t =>
    if t == tagBool then
      match parseBool v with
      | some b => .ok (.bool b)
      | none => .error (invalidValue (.str v) "a boolean")
    else if t == tagInt then
      match intValue v.toList with
      | some u => .ok u
      | none => .error (invalidValue (.str v) "an integer")
    else if t == tagFloat then
      match parseFloat v with
      | some x => .ok (.float x)
      | none => .error (invalidValue (.str v) "a float")
    else if t == tagNull then
      if isNull v then .ok .unit else .error (invalidValue (.str v) "null")
    else if isLocal t && style == .plain then .ok (untagged v)
    else .ok (.str v)
  | none => .ok (if style == .plain then untagged v else .str v)

/-- The failure for a node of the wrong kind. -/
def wrongKind (item : Item) (exp : String) : DecodeError :=
  match item with
  | .scalar tag v style =>
    match classify tag v style with
    | .ok u => invalidType u exp
    | .error e => e
  | .sequenceStart _ => invalidType .seq exp
  | .mappingStart _ => invalidType .map exp
  | _ => .endOfStream

namespace Document

/-- The event at an index; past the end, how the document broke off. -/
def event (d : Document) (i : Nat) : Decoded (Item × Mark) :=
  match d.items[i]? with
  | some x => .ok x
  | none => .error (match d.broken with
    | some b => .broken b
    | none => .endOfStream)

/-- Decode the node at `i` with `f`, which is given the node's event, its mark, its path and
its index; an alias is followed to its anchored node and decoding goes on after the alias. -/
def node {α : Type} (d : Document) (path : Path) (i : Nat)
    (f : Path → Item → Mark → Nat → Decoded (α × Nat)) : Decoded (α × Nat) := do
  let (item, mark) ← d.event i
  match item with
  | .alias t =>
    let (target, tmark) ← d.event t
    let (a, _) ← f (.alias path) target tmark t
    return (a, i + 1)
  | _ => f path item mark i

/-- Whether a scalar may be read as a number of the kind a core tag names: any plain scalar, and
a literal block scalar tagged with exactly that tag. -/
def readsAs (core : List UInt8) (tag : Option (List UInt8)) (style : ScalarStyle) : Bool :=
  match style with
  | .plain => true
  | .literal => tag == some core
  | _ => false

/-- An unsigned integer of at most 64 bits, passed to `accept`: from a scalar that `readsAs` an
integer and holds one, else a value of the wrong kind, named by what it stands for. -/
def unsigned {α : Type} (d : Document) (path : Path) (i : Nat) (exp : String)
    (accept : Nat → Decoded α) : Decoded (α × Nat) :=
  d.node path i fun path item mark j =>
    placed (match item with
      | .scalar tag v style =>
        match (if readsAs tagInt tag style then parseUnsigned 64 v.toList else none) with
        | some n => (accept n).map fun a => (a, j + 1)
        | none => .error (wrongKind item exp)
      | _ => .error (wrongKind item exp)) mark path

/-- The text of a scalar of any kind, passed to `accept`. -/
def text {α : Type} (d : Document) (path : Path) (i : Nat) (exp : String)
    (accept : String → Decoded α) : Decoded (α × Nat) :=
  d.node path i fun path item mark j =>
    placed (match item with
      | .scalar _ v _ => (accept v).map fun a => (a, j + 1)
      | _ => .error (wrongKind item exp)) mark path

/-- A text or nothing: nothing for null written plain, for `!!null` and for a missing document. -/
def optionalText (d : Document) (path : Path) (i : Nat) : Decoded (Option String × Nat) := do
  let at_ (path : Path) (j : Nat) : Decoded (Option String × Nat) := do
    let (item, _) ← d.event j
    match item with
    | .scalar tag v style =>
      let present ← if style != .plain then pure true
        else match tag with
          | some t =>
            if t == tagNull then
              if isNull v then pure false else throw (invalidValue (.str v) "null")
            else pure true
          | none => pure (!v.isEmpty && !isNull v)
      if present then
        let (s, k) ← d.text path j "a string" .ok
        return (some s, k)
      else return (none, j + 1)
    | .void => return (none, j + 1)
    | _ =>
      let (s, k) ← d.text path j "a string" .ok
      return (some s, k)
  let (item, _) ← d.event i
  match item with
  | .alias t =>
    let (r, _) ← at_ (.alias path) t
    return (r, i + 1)
  | _ => at_ path i

/-- The index of a name among variants. -/
def variantIndex (name : String) (variants : List String) : Decoded Nat :=
  match variants.idxOf? name with
  | some k => .ok k
  | none => .error (unknownVariant name variants)

/-- The variant a local tag names: the tag without its `!`, or `!` alone, when those bytes are
UTF-8 text. Any other tag names no variant. -/
def localTag (tag : Option (List UInt8)) : Option String :=
  match tag with
  | some (b :: rest) =>
    if b == 33 then (Utf8.decode? (if rest.isEmpty then [b] else rest)).map String.ofList
    else none
  | _ => none

/-- A variant without content at the event `i` (not an alias), named by a scalar or by a local
tag on an empty node. A name a tag gives that is no variant is left for the enclosing node to
place; every other failure is placed here. -/
def variantAt (d : Document) (path : Path) (i : Nat) (variants : List String) :
    Decoded (Nat × Nat) := do
  let (item, mark) ← d.event i
  match item with
  | .scalar tag v style =>
    match localTag tag with
    | some name => do
      let k ← variantIndex name variants
      placed (if style == .plain && (v.isEmpty || isNull v) then .ok (k, i + 1)
        else .error (invalidValue (.str v) "null")) mark path
    | none => placed (d.text path i "variant identifier" fun v => variantIndex v variants) mark path
  | .mappingStart tag =>
    match localTag tag with
    | some name => do
      let _ ← variantIndex name variants
      placed (.error (invalidType .map "unit")) mark path
    | none => placed (.error (invalidType .map "a YAML tag starting with '!'")) mark path
  | .sequenceStart tag =>
    match localTag tag with
    | some name => do
      let _ ← variantIndex name variants
      placed (.error (invalidType .seq "unit")) mark path
    | none => placed (.error (invalidType .seq "a YAML tag starting with '!'")) mark path
  | _ => .error .endOfStream

/-- A variant without content at `i`. Through an alias, what the anchored node leaves unplaced
is placed at the alias. -/
def variant (d : Document) (path : Path) (i : Nat) (variants : List String) :
    Decoded (Nat × Nat) := do
  let (item, mark) ← d.event i
  match item with
  | .alias t =>
    let (k, _) ← placed (d.variantAt (.alias path) t variants) mark path
    return (k, i + 1)
  | _ => d.variantAt path i variants

/-- The pairs of a mapping at `i`: each key must be one of `fields`, and `step` decodes the value
of field number `k` at an index with its path. An empty plain scalar, or no document, is an
empty mapping. `finish` makes the value from what the steps gathered. -/
def mapping {σ α : Type} (d : Document) (path : Path) (i : Nat) (exp : String)
    (fields : List String) (init : σ) (step : σ → Nat → Path → Nat → Decoded (σ × Nat))
    (finish : σ → Decoded α) : Decoded (α × Nat) :=
  d.node path i fun path item mark j =>
    let fieldIndex (key : String) : Decoded Nat :=
      match fields.idxOf? key with
      | some k => .ok k
      | none => .error (unknownField key fields)
    let rec pairs : Nat → σ → Nat → Decoded (α × Nat)
      | 0, st, k => do return (← finish st, k)
      | n + 1, st, k => do
        let (key, _) ← d.event k
        match key with
        | .mappingEnd | .void => return (← finish st, k + 1)
        | _ =>
          let valuePath := match key with
            | .scalar _ v _ => Path.map path v
            | _ => Path.unknown path
          let (f, k) ← d.text path k "field identifier" fieldIndex
          let (st, k) ← step st f valuePath k
          pairs n st k
    placed (match item with
      | .mappingStart _ => pairs (d.items.size + 1) init (j + 1)
      | .scalar _ v .plain =>
        if v.isEmpty then (finish init).map fun a => (a, j + 1)
        else .error (wrongKind item exp)
      | .void => (finish init).map fun a => (a, j + 1)
      | _ => .error (wrongKind item exp)) mark path

end Document

/-- Decode the first document of a text; the text must hold no failure up to its end and no
second document. -/
def decodeText {α : Type} (text : String) (decode : Document → Decoded (α × Nat)) : Decoded α := do
  let (doc, rest) := loadFirst text
  let (a, _) ← decode doc
  match doc.broken with
  | some b => throw (.broken b)
  | none =>
    match (rest.next false).1 with
    | none => return a
    | some _ => throw .moreThanOneDocument

end HandlerKit.Yaml
