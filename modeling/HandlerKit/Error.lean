import HandlerKit.Value.Basic
import HandlerKit.Json.Fault
import HandlerKit.Number.IntText
import HandlerKit.Number.FloatText
import HandlerKit.Text.Escaped

/-!
# Errors

One error type serves the whole library. Each constructor is a cause; `Error.code` gives its
stable code and `Error.message` its text. Input that breaks a grammar is `malformed`, with a
`Malformed` reason that says which rule.
-/

namespace HandlerKit

/-- The leading fields of a request, named in token errors. -/
inductive Field where
  | sender
  | connection
  | path
  deriving DecidableEq, Repr

/-- The word for a field in messages. -/
def Field.name : Field → String
  | sender => "sender id"
  | connection => "connection id"
  | path => "path"

/-- Which grammar rule a malformed input breaks. -/
inductive Malformed where
  | emptyInput
  | missingLength
  | lengthTooLong
  | expectedColon (found : UInt8)
  | truncatedAfterLength
  /-- A numeric payload that is not UTF-8 text. -/
  | payloadNotText (kind : Tag)
  | badInteger (text : List Char) (why : IntText.Problem)
  | badFloat (text : List Char) (why : FloatText.Problem)
  /-- A boolean payload other than `true` or `false`, shown as decoded text. -/
  | badBoolean (text : List Char)
  | nullNotEmpty (size : Nat)
  | keyWithoutValue
  | trailingAfterValue (count : Nat)
  | noTerminatingSpace (field : Field)
  | emptyToken (field : Field)
  | embeddedSpace (field : Field)
  | headersNotText
  | trailingAfterBody (count : Nat)
  | noConnectionIds
  | tooManyConnectionIds (count : Nat)
  deriving Repr

/-- The error type of every fallible operation. -/
inductive Error where
  | malformed (why : Malformed)
  | outOfBounds (declared available : Nat)
  | unknownTag (byte : UInt8)
  | typeMismatch (expected : String) (found : Tag)
  | tooDeep (limit : Nat)
  | json (fault : Json.Fault)
  | tooLarge (size limit : Nat)
  | transport (reason : String)
  | terminated
  | badConfig (reason : String)
  deriving Repr

/-- Most connection ids one reply may address. -/
def maxConnectionIds : Nat := 128

/-- Two lowercase hexadecimal digits. -/
def hexByte (b : UInt8) : String :=
  let digit (n : Nat) : Char := if n < 10 then Char.ofNat (48 + n) else Char.ofNat (87 + n)
  String.ofList [digit (b.toNat / 16), digit (b.toNat % 16)]

namespace Malformed

/-- The text of a reason. -/
def text : Malformed → String
  | emptyInput => "empty input"
  | missingLength => "missing length prefix"
  | lengthTooLong => "length prefix longer than 9 digits"
  | expectedColon b => "expected ':' after length, found 0x" ++ hexByte b
  | truncatedAfterLength => "truncated after length prefix"
  | payloadNotText k => k.name ++ " payload is not ASCII"
  | badInteger t why => "invalid integer " ++ Text.quote t ++ ": " ++ why.text
  | badFloat t why => "invalid float " ++ Text.quote t ++ ": " ++ why.text
  | badBoolean t => "boolean payload must be exactly true or false, got " ++ Text.quote t
  | nullNotEmpty n => "null payload must be empty, got " ++ toString n ++ " bytes"
  | keyWithoutValue => "dict key without a value"
  | trailingAfterValue n => toString n ++ " trailing bytes after value"
  | noTerminatingSpace f => f.name ++ ": no terminating space"
  | emptyToken f => f.name ++ ": empty token"
  | embeddedSpace f => f.name ++ ": embedded space"
  | headersNotText => "JSON headers are not valid UTF-8"
  | trailingAfterBody n => toString n ++ " trailing bytes after body"
  | noConnectionIds => "no connection ids"
  | tooManyConnectionIds n =>
    toString n ++ " connection ids exceed the limit of " ++ toString maxConnectionIds

end Malformed

namespace Error

/-- The stable code of an error. -/
def code : Error → String
  | malformed _ => "MALFORMED"
  | outOfBounds _ _ => "OUT_OF_BOUNDS"
  | unknownTag _ => "UNKNOWN_TAG"
  | typeMismatch _ _ => "TYPE_MISMATCH"
  | tooDeep _ => "TOO_DEEP"
  | json _ => "JSON"
  | tooLarge _ _ => "TOO_LARGE"
  | transport _ => "TRANSPORT"
  | terminated => "TERMINATED"
  | badConfig _ => "BAD_CONFIG"

/-- The text of an error. -/
def message : Error → String
  | malformed why => "malformed input: " ++ why.text
  | outOfBounds d a =>
    "declared length " ++ toString d ++ " exceeds the " ++ toString a ++ " bytes available"
  | unknownTag b => "unknown type tag 0x" ++ hexByte b
  | typeMismatch e f => "type mismatch: expected " ++ e ++ ", found " ++ f.name
  | tooDeep n => "nesting deeper than " ++ toString n ++ " levels"
  | json f => "json: " ++ f.message
  | tooLarge s l => "message of " ++ toString s ++ " bytes exceeds limit of " ++ toString l
  | transport r => "transport: " ++ r
  | terminated => "transport context terminated"
  | badConfig r => "bad config: " ++ r

/-- The error as a programmer's debugging view shows it: the variant name and its fields, texts
quoted with escapes. -/
def debug : Error → String
  | malformed why => "Malformed(" ++ Text.quote why.text.toList ++ ")"
  | outOfBounds d a =>
    "OutOfBounds \x7b declared: " ++ toString d ++ ", available: " ++ toString a ++ " \x7d"
  | unknownTag b => "UnknownTag(" ++ toString b.toNat ++ ")"
  | typeMismatch e f =>
    "TypeMismatch \x7b expected: " ++ Text.quote e.toList ++ ", found: " ++ Text.quote f.name.toList ++ " \x7d"
  | tooDeep n => "TooDeep(" ++ toString n ++ ")"
  | json f => "Json(" ++ Text.quote f.message.toList ++ ")"
  | tooLarge s l => "TooLarge \x7b size: " ++ toString s ++ ", limit: " ++ toString l ++ " \x7d"
  | transport r => "Transport(" ++ Text.quote r.toList ++ ")"
  | terminated => "Terminated"
  | badConfig r => "BadConfig(" ++ Text.quote r.toList ++ ")"

end Error

end HandlerKit
