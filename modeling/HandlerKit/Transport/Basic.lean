import HandlerKit.Error
import HandlerKit.Value.Basic

/-!
# Transports

A handler talks to its server through two endpoints: a *pull* endpoint that yields whole
request messages, and a *publish* endpoint for replies. A transport makes such endpoints from
opaque address strings.

A transport here is a value, and its operations give the new value. Endpoints are handles
(numbers) into it. Waiting for a message is total: when no message is there yet and none can
come from the state alone, the answer is `idle`, where a real transport would block until
another party acts.
-/

namespace HandlerKit

/-- What waiting for a message gives: the message, a failure, or nothing yet. -/
inductive Wait (α : Type) where
  | ready (a : α)
  | failed (e : Error)
  | idle

/-- A source of pull and publish endpoints. -/
class Transport (τ : Type) where
  /-- A pull endpoint on an address, tagged with an identity when given. -/
  pull : τ → Option Bytes → String → Except Error Nat × τ
  /-- A publish endpoint on an address. -/
  publish : τ → String → Except Error Nat × τ
  /-- The next message of a pull endpoint. -/
  recv : τ → Nat → Wait Bytes × τ
  /-- Send one message on a publish endpoint. -/
  send : τ → Nat → Bytes → Except Error Unit × τ
  /-- Close a pull endpoint. -/
  closeInbound : τ → Nat → τ
  /-- Close a publish endpoint. -/
  closeOutbound : τ → Nat → τ

end HandlerKit
