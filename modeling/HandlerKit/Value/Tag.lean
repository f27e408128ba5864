/-!
# Kinds of values

Every value of the tree has one of seven kinds. On the wire a kind is one tag byte written
after the payload of a TNetstring: `,` string, `#` integer, `^` float, `!` boolean, `~` null,
`}` dict and `]` list.

**Lemma (`ofByte?_byte`).** Reading back the tag byte of a kind gives the kind, so the byte
code is injective.
-/

namespace HandlerKit

/-- The kind of a value. -/
inductive Tag where
  | string
  | integer
  | float
  | boolean
  | null
  | dict
  | list
  deriving DecidableEq, Repr

namespace Tag

/-- The byte written after a payload of this kind. -/
def byte : Tag → UInt8
  | string => 44
  | integer => 35
  | float => 94
  | boolean => 33
  | null => 126
  | dict => 125
  | list => 93

/-- The kind a tag byte stands for; other bytes stand for none. -/
def ofByte? (b : UInt8) : Option Tag :=
  if b = 44 then some string
  else if b = 35 then some integer
  else if b = 94 then some float
  else if b = 33 then some boolean
  else if b = 126 then some null
  else if b = 125 then some dict
  else if b = 93 then some list
  else none

/-- The word for a kind in messages. -/
def name : Tag → String
  | string => "string"
  | integer => "integer"
  | float => "float"
  | boolean => "boolean"
  | null => "null"
  | dict => "dict"
  | list => "list"

/-- All kinds, in the order of their declaration. -/
def all : List Tag := [string, integer, float, boolean, null, dict, list]

theorem ofByte?_byte (t : Tag) : ofByte? t.byte = some t := by
  cases t <;> decide

theorem byte_injective {s t : Tag} (h : s.byte = t.byte) : s = t := by
  have hs := ofByte?_byte s
  rw [h, ofByte?_byte t] at hs
  exact (Option.some.inj hs).symm

theorem mem_all (t : Tag) : t ∈ all := by
  cases t <;> decide

end Tag

end HandlerKit
