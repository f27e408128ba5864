import HandlerKit.Value.Tag
import HandlerKit.Number.Binary64

/-!
# The value tree

A value is a string of raw bytes (not necessarily UTF-8), a 64-bit integer, a binary64 float, a
boolean, null, a dict from byte-string keys to values, or a list of values.

**Dicts are sorted.** A dict is a list of entries whose keys ascend strictly in bytewise order;
`Value.insertEntry` keeps that order and replaces the value of a key already present, so the
last write wins. Reading, printing and comparing dicts all walk the entries in that order.

**Accessors never convert.** `asBytes`, `asInteger`, `asFloat` and `asBool` answer only for a
value of their own kind.

**Depth.** A scalar or an empty container has depth 1; a container is one deeper than its
deepest child.
-/

namespace HandlerKit

/-- A string of raw bytes. -/
abbrev Bytes := List UInt8

/-- Bytewise lexicographic order of byte strings; a proper prefix comes first. -/
def Bytes.compare : Bytes → Bytes → Ordering
  | [], [] => .eq
  | [], _ :: _ => .lt
  | _ :: _, [] => .gt
  | a :: as, b :: bs =>
    if a < b then .lt else if b < a then .gt else Bytes.compare as bs

/-- The bytes of an ASCII or UTF-8 text. -/
def Bytes.ofString (s : String) : Bytes := s.toUTF8.toList

/-- A node of the value tree. -/
inductive Value where
  | str (bytes : Bytes)
  | int (n : Int64)
  | float (x : Binary64)
  | bool (b : Bool)
  | null
  | dict (entries : List (Bytes × Value))
  | list (items : List Value)
  deriving Repr

namespace Value

/-- The kind of a value. -/
def tag : Value → Tag
  | str _ => .string
  | int _ => .integer
  | float _ => .float
  | bool _ => .boolean
  | null => .null
  | dict _ => .dict
  | list _ => .list

/-- The empty value of a kind: no bytes, zero, `false`, null, no entries, no items. -/
def empty : Tag → Value
  | .string => str []
  | .integer => int 0
  | .float => float Binary64.zero
  | .boolean => bool false
  | .null => null
  | .dict => dict []
  | .list => list []

/-- A string value holding the UTF-8 bytes of a text. -/
def ofString (s : String) : Value := str (Bytes.ofString s)

/-! ## Dict entries -/

/-- Insert an entry into entries sorted by key, replacing the entry of an equal key. -/
def insertEntry (k : Bytes) (v : Value) : List (Bytes × Value) → List (Bytes × Value)
  | [] => [(k, v)]
  | (k', v') :: rest =>
    match Bytes.compare k k' with
    | .lt => (k, v) :: (k', v') :: rest
    | .eq => (k, v) :: rest
    | .gt => (k', v') :: insertEntry k v rest

/-- The value stored under a key in sorted entries. -/
def lookupEntry (k : Bytes) : List (Bytes × Value) → Option Value
  | [] => none
  | (k', v') :: rest => if k = k' then some v' else lookupEntry k rest

/-- Sorted entries built from pairs inserted in order, so a later duplicate key wins. -/
def entriesOfPairs (pairs : List (Bytes × Value)) : List (Bytes × Value) :=
  pairs.foldl (fun acc p => insertEntry p.1 p.2 acc) []

/-! ## Accessors -/

/-- The bytes of a string value. -/
def asBytes : Value → Option Bytes
  | str b => some b
  | _ => none

/-- The integer of an integer value. -/
def asInteger : Value → Option Int64
  | int n => some n
  | _ => none

/-- The float of a float value. -/
def asFloat : Value → Option Binary64
  | float x => some x
  | _ => none

/-- The boolean of a boolean value. -/
def asBool : Value → Option Bool
  | bool b => some b
  | _ => none

/-- Whether the value is null. -/
def isNull : Value → Bool
  | null => true
  | _ => false

/-- The entries of a dict value. -/
def asEntries : Value → Option (List (Bytes × Value))
  | dict es => some es
  | _ => none

/-- The items of a list value. -/
def asItems : Value → Option (List Value)
  | list xs => some xs
  | _ => none

/-- The value under a key of a dict; nothing for a missing key or a value of another kind. -/
def get? (v : Value) (k : Bytes) : Option Value :=
  v.asEntries.bind (lookupEntry k)

/-! ## Depth -/

mutual
/-- Nesting depth: scalars and empty containers are 1. -/
def depth : Value → Nat
  | dict es => 1 + entriesDepth es
  | list xs => 1 + itemsDepth xs
  | _ => 1

/-- The greatest depth of the values of some entries, 0 for none. -/
def entriesDepth : List (Bytes × Value) → Nat
  | [] => 0
  | (_, v) :: rest => max (depth v) (entriesDepth rest)

/-- The greatest depth of some items, 0 for none. -/
def itemsDepth : List Value → Nat
  | [] => 0
  | v :: rest => max (depth v) (itemsDepth rest)
end

/-! ## Numeric equality -/

mutual
/-- Equality of trees where floats compare as numbers: NaN equals nothing and the zeros agree. -/
def numEq : Value → Value → Bool
  | str a, str b => a == b
  | int a, int b => a == b
  | float a, float b => a.numEq b
  | bool a, bool b => a == b
  | null, null => true
  | dict a, dict b => entriesNumEq a b
  | list a, list b => itemsNumEq a b
  | _, _ => false

/-- Entry lists of equal length with equal keys and numerically equal values, in order. -/
def entriesNumEq : List (Bytes × Value) → List (Bytes × Value) → Bool
  | [], [] => true
  | (k, v) :: r, (k', v') :: r' => k == k' && numEq v v' && entriesNumEq r r'
  | _, _ => false

/-- Item lists of equal length with numerically equal items, in order. -/
def itemsNumEq : List Value → List Value → Bool
  | [], [] => true
  | v :: r, v' :: r' => numEq v v' && itemsNumEq r r'
  | _, _ => false
end

theorem tag_empty (t : Tag) : (empty t).tag = t := by
  cases t <;> rfl

theorem depth_empty (t : Tag) : (empty t).depth = 1 := by
  cases t <;> simp [empty, depth, entriesDepth, itemsDepth]

end Value

end HandlerKit
