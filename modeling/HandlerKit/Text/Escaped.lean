import HandlerKit.Text.Hidden
import HandlerKit.Text.Extending

/-!
# Quoted text with escapes

A text is written between double quotes. The quote and the backslash are escaped by a
backslash; NUL, tab, carriage return and line feed by `\0`, `\t`, `\r` and `\n`. A character
that extends the grapheme before it or that has no visible form is written `\u{h}` with its
code point in lowercase hexadecimal, without leading zeros. Every other character, the single
quote included, stands as it is.
-/

namespace HandlerKit.Text

/-- Whether a code point lies in one of some inclusive ranges. -/
def inRanges (rs : List (Nat × Nat)) (n : Nat) : Bool :=
  rs.any fun r => r.1 ≤ n && n ≤ r.2

/-- The lowercase hexadecimal digits of a number, without leading zeros. -/
def hexDigits (n : Nat) : List Char := Nat.toDigits 16 n

/-- The escape `\u{h}` of a character. -/
def unicodeEscape (c : Char) : List Char :=
  ['\\', 'u', '{'] ++ hexDigits c.toNat ++ ['}']

/-- How one character is written inside quotes. -/
def escapeChar (c : Char) : List Char :=
  if c = '\x00' then ['\\', '0']
  else if c = '\t' then ['\\', 't']
  else if c = '\r' then ['\\', 'r']
  else if c = '\n' then ['\\', 'n']
  else if c = '\\' then ['\\', '\\']
  else if c = '"' then ['\\', '"']
  else if inRanges extendingRanges c.toNat || inRanges hiddenRanges c.toNat then unicodeEscape c
  else [c]

/-- A text between double quotes, with escapes. -/
def quoted (cs : List Char) : List Char :=
  '"' :: cs.flatMap escapeChar ++ ['"']

/-- A text between double quotes, with escapes, as a string. -/
def quote (cs : List Char) : String := String.ofList (quoted cs)

end HandlerKit.Text
