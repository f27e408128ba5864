import HandlerKit.Number.Binary64

/-!
# Why JSON text could not be read or written

A fault names the rule that was broken and, for a reading fault, the place: the line (from 1)
and the column, which counts the bytes between the last line break before the place and the
place itself. A fault raised while building a value, and every writing fault, has line 0, and
its message then names no place.
-/

namespace HandlerKit.Json

/-- The broken rule. -/
inductive Problem where
  | eofInList
  | eofInObject
  | eofInString
  | eofInValue
  | expectedColon
  | expectedListCommaOrEnd
  | expectedObjectCommaOrEnd
  | expectedIdent
  | expectedValue
  | invalidEscape
  | invalidNumber
  | numberOutOfRange
  | controlCharacterInString
  | keyMustBeString
  | loneLeadingSurrogate
  | trailingComma
  | trailingCharacters
  | unexpectedEndOfHexEscape
  | recursionLimitExceeded
  /-- A whole number above the largest 64-bit integer. -/
  | integerOutOfRange (n : Nat)
  /-- A string value whose bytes are not UTF-8. -/
  | stringNotUtf8
  /-- A dict key whose bytes are not UTF-8. -/
  | keyNotUtf8
  /-- An infinity or a NaN. -/
  | nonFinite (x : Binary64)
  deriving DecidableEq, Repr

/-- The text of an infinite or NaN float in messages. -/
def nonFiniteText (x : Binary64) : String :=
  if x.isNaN then "NaN" else if x.sign then "-inf" else "inf"

/-- The wording of a broken rule. -/
def Problem.text : Problem → String
  | eofInList => "EOF while parsing a list"
  | eofInObject => "EOF while parsing an object"
  | eofInString => "EOF while parsing a string"
  | eofInValue => "EOF while parsing a value"
  | expectedColon => "expected `:`"
  | expectedListCommaOrEnd => "expected `,` or `]`"
  | expectedObjectCommaOrEnd => "expected `,` or `\x7d`"
  | expectedIdent => "expected ident"
  | expectedValue => "expected value"
  | invalidEscape => "invalid escape"
  | invalidNumber => "invalid number"
  | numberOutOfRange => "number out of range"
  | controlCharacterInString => "control character (\\u0000-\\u001F) found while parsing a string"
  | keyMustBeString => "key must be a string"
  | loneLeadingSurrogate => "lone leading surrogate in hex escape"
  | trailingComma => "trailing comma"
  | trailingCharacters => "trailing characters"
  | unexpectedEndOfHexEscape => "unexpected end of hex escape"
  | recursionLimitExceeded => "recursion limit exceeded"
  | integerOutOfRange n => "integer " ++ toString n ++ " out of range"
  | stringNotUtf8 => "string is not valid UTF-8"
  | keyNotUtf8 => "dict key is not valid UTF-8"
  | nonFinite x => "non-finite float " ++ nonFiniteText x ++ " has no JSON form"

/-- A broken rule and where it was found; line 0 means nowhere in particular. -/
structure Fault where
  problem : Problem
  line : Nat := 0
  column : Nat := 0
  deriving DecidableEq, Repr

/-- The message of a fault: the rule, then the place when there is one. -/
def Fault.message (f : Fault) : String :=
  if f.line = 0 then f.problem.text
  else f.problem.text ++ " at line " ++ toString f.line ++ " column " ++ toString f.column

end HandlerKit.Json
