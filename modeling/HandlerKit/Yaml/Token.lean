/-!
# YAML tokens

The scanner cuts YAML text into tokens; each token records where it starts and stops. A mark
counts from 0: its index in the text in characters, its offset in UTF-8 bytes, its line and its
column.

A scanning or parsing failure names the broken rule, the mark where it was noticed and, when
the rule belongs to a larger construct, that construct and where it began. Its message gives
places as `line L column C`, counted from 1, and leaves out a place at the very start of the
text; a failure of the text itself (a forbidden character) gives its byte position instead.
-/

namespace HandlerKit.Yaml

/-- A place in the text. -/
structure Mark where
  index : Nat := 0
  /-- The offset in bytes of the UTF-8 text. -/
  offset : Nat := 0
  line : Nat := 0
  column : Nat := 0
  deriving DecidableEq, Repr, Inhabited

/-- `line L column C`, counted from 1. -/
def Mark.text (m : Mark) : String :=
  "line " ++ toString (m.line + 1) ++ " column " ++ toString (m.column + 1)

/-- Whether a mark is the start of the text. -/
def Mark.atStart (m : Mark) : Bool := m.line == 0 && m.column == 0

/-- Why reading YAML text failed. -/
structure Failure where
  problem : String
  mark : Mark := {}
  /-- The byte position of a forbidden character, 0 otherwise. -/
  offset : Nat := 0
  /-- The construct being read, and where it began. -/
  context : Option (String × Mark) := none
  deriving Repr

/-- The message of a failure. -/
def Failure.message (f : Failure) : String :=
  let place :=
    if !f.mark.atStart then " at " ++ f.mark.text
    else if f.offset ≠ 0 then " at position " ++ toString f.offset
    else ""
  let within := match f.context with
    | none => ""
    | some (c, m) =>
      ", " ++ c ++
        (if !m.atStart && (m.line != f.mark.line || m.column != f.mark.column) then
          " at " ++ m.text else "")
  f.problem ++ place ++ within

/-- How a scalar was written. -/
inductive ScalarStyle where
  | plain
  | singleQuoted
  | doubleQuoted
  | literal
  | folded
  deriving DecidableEq, Repr

/-- The kinds of tokens. -/
inductive TokenKind where
  | streamStart
  | streamEnd
  | versionDirective (major minor : Nat)
  /-- A `%TAG` directive; the URI is kept as the bytes its escapes spell. -/
  | tagDirective (handle : String) (uri : List UInt8)
  | documentStart
  | documentEnd
  | blockSequenceStart
  | blockMappingStart
  | blockEnd
  | flowSequenceStart
  | flowSequenceEnd
  | flowMappingStart
  | flowMappingEnd
  | blockEntry
  | flowEntry
  | key
  | value
  | alias (name : String)
  | anchor (name : String)
  /-- A tag; the suffix is kept as the bytes its escapes spell. -/
  | tag (handle : String) (suffix : List UInt8)
  | scalar (text : String) (style : ScalarStyle)
  deriving DecidableEq, Repr

/-- The text of a tag part as a NUL-terminated string reads it: up to its first zero byte. -/
def cText (bs : List UInt8) : List UInt8 := bs.takeWhile (· != 0)

/-- A token and where it lies. -/
structure Token where
  kind : TokenKind
  start : Mark
  stop : Mark
  deriving Repr

end HandlerKit.Yaml
