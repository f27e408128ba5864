import HandlerKit.Transport.Basic

/-!
# A scripted transport

A transport whose pull endpoint plays a fixed list of results and then reports termination,
and whose publish endpoint answers each send from a fixed list of outcomes (accepting every
send once the list is used up). Accepted messages are recorded in order. Either endpoint can be
made to fail when it is opened.

It stands for any peer a handler could be connected to, so the handler loop can be followed
through every order of messages, failures and shutdowns.
-/

namespace HandlerKit

/-- One result of the pull endpoint. -/
inductive Incoming where
  | message (m : Bytes)
  | failure (reason : String)

/-- One outcome of a send. -/
inductive SendOutcome where
  | accept
  | terminated
  | failure (reason : String)

/-- The state of a scripted transport. -/
structure Scripted where
  incoming : List Incoming := []
  outcomes : List SendOutcome := []
  /-- The messages accepted so far, oldest first. -/
  sent : List Bytes := []
  /-- Opening the pull endpoint fails with this reason. -/
  failPull : Option String := none
  /-- Opening the publish endpoint fails with this reason. -/
  failPublish : Option String := none

namespace Scripted

/-- The next result of the pull endpoint: the script, then termination. -/
def next (t : Scripted) : Wait Bytes × Scripted :=
  match t.incoming with
  | .message m :: rest => (.ready m, { t with incoming := rest })
  | .failure r :: rest => (.failed (.transport r), { t with incoming := rest })
  | [] => (.failed .terminated, t)

/-- Send through the publish endpoint. -/
def emit (t : Scripted) (msg : Bytes) : Except Error Unit × Scripted :=
  match t.outcomes with
  | .accept :: rest => (.ok (), { t with outcomes := rest, sent := t.sent ++ [msg] })
  | .terminated :: rest => (.error .terminated, { t with outcomes := rest })
  | .failure r :: rest => (.error (.transport r), { t with outcomes := rest })
  | [] => (.ok (), { t with sent := t.sent ++ [msg] })

end Scripted

instance : Transport Scripted where
  pull t _ _ := match t.failPull with
    | some r => (.error (.transport r), t)
    | none => (.ok 0, t)
  publish t _ := match t.failPublish with
    | some r => (.error (.transport r), t)
    | none => (.ok 0, t)
  recv t _ := t.next
  send t _ msg := t.emit msg
  closeInbound t _ := t
  closeOutbound t _ := t

end HandlerKit
