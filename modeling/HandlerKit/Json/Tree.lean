import HandlerKit.Json.Reader

/-!
# JSON documents in memory

Besides text, a value can be turned into a JSON document held in memory, and a document read
back into a value.

**Documents.** A document is null, a boolean, a number, a string, an array or an object. A
number is a whole number below `2^64`, a negative integer or a finite float; a 64-bit integer
that is not negative is kept as a whole number. An object maps texts to documents with its
members in bytewise order of their keys, and a member replaces an earlier one of the same key.

**Writing (`toTree`).** The rules of writing text apply: a string or key must be UTF-8 and a
float finite, and the first node that breaks them, depth first with each key before its value,
is the fault. Entries are inserted into the object one after another, items kept in order.

**Reading (`ofTree`).** Numbers are read as when reading text: a whole number above the
largest 64-bit integer is the fault `integerOutOfRange`, placed nowhere. The members of an
object are inserted into a dict one after another.
-/

namespace HandlerKit.Json

/-- A JSON document held in memory. -/
inductive Tree where
  | null
  | bool (b : Bool)
  /-- A whole number below `2^64`, a negative integer, or a finite float. -/
  | number (n : Number)
  | string (s : String)
  | array (items : List Tree)
  /-- Members in ascending bytewise order of their keys, no key twice. -/
  | object (members : List (String × Tree))

/-- Insert a member into members sorted by key, replacing the member of an equal key. -/
def insertMember (k : String) (t : Tree) : List (String × Tree) → List (String × Tree)
  | [] => [(k, t)]
  | (k', t') :: rest =>
    match Bytes.compare (Bytes.ofString k) (Bytes.ofString k') with
    | .lt => (k, t) :: (k', t') :: rest
    | .eq => (k, t) :: rest
    | .gt => (k', t') :: insertMember k t rest

/-- The number of a 64-bit integer: a whole number when it is not negative. -/
def intNumber (n : Int64) : Number :=
  if n.toInt < 0 then .negative n.toInt else .whole n.toInt.toNat

/-! ## Writing -/

mutual
/-- The document of a value. -/
def treeOf : Value → Except Fault Tree
  | .str b =>
    match Utf8.decode? b with
    | some cs => .ok (.string (String.ofList cs))
    | none => .error (unwritable .stringNotUtf8)
  | .int n => .ok (.number (intNumber n))
  | .float x => if x.isFinite then .ok (.number (.float x)) else .error (unwritable (.nonFinite x))
  | .bool b => .ok (.bool b)
  | .null => .ok .null
  | .dict es =>
    match membersOf es [] with
    | .ok ms => .ok (.object ms)
    | .error f => .error f
  | .list xs =>
    match treesOf xs with
    | .ok ts => .ok (.array ts)
    | .error f => .error f

/-- The members of the entries, inserted one after another into `acc`. -/
def membersOf : List (Bytes × Value) → List (String × Tree) → Except Fault (List (String × Tree))
  | [], acc => .ok acc
  | (k, v) :: rest, acc =>
    match Utf8.decode? k with
    | none => .error (unwritable .keyNotUtf8)
    | some cs =>
      match treeOf v with
      | .error f => .error f
      | .ok t => membersOf rest (insertMember (String.ofList cs) t acc)

/-- The documents of some items, in order. -/
def treesOf : List Value → Except Fault (List Tree)
  | [] => .ok []
  | v :: rest =>
    match treeOf v with
    | .error f => .error f
    | .ok t =>
      match treesOf rest with
      | .error f => .error f
      | .ok ts => .ok (t :: ts)
end

/-- The document of a value. -/
def toTree (v : Value) : Except Error Tree :=
  (treeOf v).mapError .json

/-! ## Reading -/

/-- The value a number stands for; a whole number above the largest 64-bit integer has none. -/
def numberOf : Number → Except Fault Value
  | .whole k =>
    if k < Nat.pow 2 63 then .ok (.int (Int64.ofNat k)) else .error { problem := .integerOutOfRange k }
  | .negative k => .ok (.int (Int64.ofInt k))
  | .float x => .ok (.float x)

mutual
/-- The value of a document. -/
def valueOf : Tree → Except Fault Value
  | .null => .ok .null
  | .bool b => .ok (.bool b)
  | .number n => numberOf n
  | .string s => .ok (.str (Bytes.ofString s))
  | .array ts =>
    match valuesOf ts with
    | .ok xs => .ok (.list xs)
    | .error f => .error f
  | .object ms =>
    match entriesOf ms [] with
    | .ok es => .ok (.dict es)
    | .error f => .error f

/-- The values of some documents, in order. -/
def valuesOf : List Tree → Except Fault (List Value)
  | [] => .ok []
  | t :: rest =>
    match valueOf t with
    | .error f => .error f
    | .ok v =>
      match valuesOf rest with
      | .error f => .error f
      | .ok vs => .ok (v :: vs)

/-- The entries of some members, inserted one after another into `acc`. -/
def entriesOf : List (String × Tree) → List (Bytes × Value) → Except Fault (List (Bytes × Value))
  | [], acc => .ok acc
  | (k, t) :: rest, acc =>
    match valueOf t with
    | .error f => .error f
    | .ok v => entriesOf rest (Value.insertEntry (Bytes.ofString k) v acc)
end

/-- The value of a document. -/
def ofTree (t : Tree) : Except Error Value :=
  (valueOf t).mapError .json

end HandlerKit.Json
