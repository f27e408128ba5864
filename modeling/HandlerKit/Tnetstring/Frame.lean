import HandlerKit.Error

/-!
# TNetstring frames

Every TNetstring value is framed as `<len>:<payload><tag>`: one to nine ASCII digits giving the
payload's length in bytes (leading zeros allowed), a colon, the payload, and one tag byte.

`Frame.split` cuts one frame off the front of a byte string. The checks run in this order, and
the first that fails names the error: the input is empty; it starts with no digit; it starts
with more than nine digits; the digits are followed by nothing; or by a byte other than `:`;
fewer than `len + 1` bytes follow the colon.

A frame carries the proofs that its payload and the bytes after it are both shorter than the
input, which is what lets the value reader recurse into payloads.
-/

namespace HandlerKit.Tnetstring

/-- Whether a byte is an ASCII digit. -/
def isDigit (b : UInt8) : Bool := 48 ≤ b && b ≤ 57

/-- The value of some decimal digits. -/
def digitsValue (ds : Bytes) : Nat :=
  ds.foldl (fun acc b => acc * 10 + (b.toNat - 48)) 0

/-- Longest accepted length prefix. -/
def maxLengthDigits : Nat := 9

/-- One frame cut off the front of `data`. -/
structure Frame (data : Bytes) where
  /-- The declared payload length. -/
  length : Nat
  payload : Bytes
  tagByte : UInt8
  /-- The bytes after the tag. -/
  rest : Bytes
  payload_lt : payload.length < data.length
  rest_lt : rest.length < data.length

/-- Cut the frame `<len>:<payload><tag>` off the front of `data`. -/
def Frame.split (data : Bytes) : Except Error (Frame data) :=
  if data = [] then .error (.malformed .emptyInput)
  else
    let digits := data.takeWhile isDigit
    if digits.length = 0 then .error (.malformed .missingLength)
    else if maxLengthDigits < digits.length then .error (.malformed .lengthTooLong)
    else
      match hd : data.drop digits.length with
      | [] => .error (.malformed .truncatedAfterLength)
      | c :: body =>
        if c ≠ 58 then .error (.malformed (.expectedColon c))
        else
          let len := digitsValue digits
          -- nothing after the first `len` bytes: the payload and its tag do not fit
          match hr : body.drop len with
          | [] => .error (.outOfBounds len body.length)
          | t :: rest =>
            have h1 := congrArg List.length hd
            have h2 := congrArg List.length hr
            .ok {
              length := len
              payload := body.take len
              tagByte := t
              rest := rest
              payload_lt := by
                simp only [List.length_drop, List.length_cons] at h1 h2
                simp only [List.length_take]
                omega
              rest_lt := by
                simp only [List.length_drop, List.length_cons] at h1 h2
                omega }

end HandlerKit.Tnetstring
