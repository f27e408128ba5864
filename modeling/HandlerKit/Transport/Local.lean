import HandlerKit.Transport.Basic
import HandlerKit.Text.Escaped

/-!
# The in-process transport

Addresses are `inproc://name`. Each address has one queue for requests: the server side pushes
onto it and every pull endpoint of the address takes from its front, so each request goes to
exactly one puller, oldest first, even when it was pushed before any puller existed. Replies
fan out instead: each subscriber of an address has its own inbox, a reply goes to every
subscriber attached at the time, and a reply with no subscriber reaches no one.

Terminating closes everything: no new endpoint can be made and nothing can be sent, but what is
already queued can still be taken, after which waiting fails with `terminated`.
-/

namespace HandlerKit

/-- A pull endpoint. -/
structure Puller where
  addr : String
  identity : Option Bytes
  attached : Bool := true

/-- A server-side subscriber and the replies waiting for it. -/
structure Subscriber where
  addr : String
  inbox : List Bytes := []
  attached : Bool := true

/-- The state of an in-process transport. -/
structure Local where
  /-- The request queue of each address, oldest first. -/
  queue : String → List Bytes := fun _ => []
  pullers : List Puller := []
  /-- The address of each publish endpoint. -/
  publishers : List String := []
  subscribers : List Subscriber := []
  terminated : Bool := false

namespace Local

/-- The scheme of in-process addresses. -/
def scheme : String := "inproc://"

/-- An address is usable when the transport is live and it is `inproc://` with a name. -/
def check (t : Local) (addr : String) : Except Error Unit :=
  if t.terminated then .error .terminated
  else if addr.startsWith scheme && addr.length > scheme.length then .ok ()
  else .error (.transport ("unsupported in-process address: " ++ Text.quote addr.toList))

/-- Replace the queue of one address. -/
def setQueue (t : Local) (addr : String) (q : List Bytes) : Local :=
  { t with queue := fun a => if a = addr then q else t.queue a }

/-- Obtain a push socket for an address: the server side's way to feed requests. -/
def pushSocket (t : Local) (addr : String) : Except Error Unit := t.check addr

/-- Push a request onto an address's queue through its push socket. -/
def push (t : Local) (addr : String) (msg : Bytes) : Except Error Local :=
  if t.terminated then .error .terminated else .ok (t.setQueue addr (t.queue addr ++ [msg]))

/-- The pull endpoints attached to an address. -/
def pullerCount (t : Local) (addr : String) : Nat :=
  (t.pullers.filter fun p => p.attached && p.addr == addr).length

/-- A pull endpoint on an address. -/
def pullOn (t : Local) (identity : Option Bytes) (addr : String) : Except Error Nat × Local :=
  match t.check addr with
  | .error e => (.error e, t)
  | .ok () => (.ok t.pullers.length, { t with pullers := t.pullers ++ [{ addr, identity }] })

/-- The identity of a pull endpoint. -/
def identityOf (t : Local) (i : Nat) : Option Bytes := (t.pullers[i]?).bind (·.identity)

/-- Take the oldest request of the endpoint's address. -/
def take (t : Local) (i : Nat) : Wait Bytes × Local :=
  match t.pullers[i]? with
  | none => (.idle, t)
  | some p =>
    match t.queue p.addr with
    | m :: rest => (.ready m, t.setQueue p.addr rest)
    | [] => (if t.terminated then .failed .terminated else .idle, t)

/-- Detach a pull endpoint. -/
def closePuller (t : Local) (i : Nat) : Local :=
  { t with pullers := t.pullers.modify i fun p => { p with attached := false } }

/-- A publish endpoint on an address. -/
def publishOn (t : Local) (addr : String) : Except Error Nat × Local :=
  match t.check addr with
  | .error e => (.error e, t)
  | .ok () => (.ok t.publishers.length, { t with publishers := t.publishers ++ [addr] })

/-- Give a reply to every subscriber attached to an address. -/
def fanOut (t : Local) (addr : String) (msg : Bytes) : Local :=
  { t with subscribers := t.subscribers.map fun s =>
      if s.attached && s.addr == addr then { s with inbox := s.inbox ++ [msg] } else s }

/-- Publish a reply through a publish endpoint. -/
def publishTo (t : Local) (o : Nat) (msg : Bytes) : Except Error Unit × Local :=
  if t.terminated then (.error .terminated, t)
  else match t.publishers[o]? with
    | some addr => (.ok (), t.fanOut addr msg)
    | none => (.ok (), t)

/-- A subscriber on an address: it receives every reply published there from now on. -/
def subscribe (t : Local) (addr : String) : Except Error Nat × Local :=
  match t.check addr with
  | .error e => (.error e, t)
  | .ok () => (.ok t.subscribers.length, { t with subscribers := t.subscribers ++ [{ addr }] })

/-- Drop a subscriber. -/
def dropSubscriber (t : Local) (s : Nat) : Local :=
  { t with subscribers := t.subscribers.modify s fun x => { x with attached := false } }

/-- The subscribers still attached to an address; none once terminated. -/
def subscriberCount (t : Local) (addr : String) : Nat :=
  if t.terminated then 0
  else (t.subscribers.filter fun s => s.attached && s.addr == addr).length

/-- The oldest reply waiting for a subscriber, if any. -/
def tryReceive (t : Local) (s : Nat) : Option Bytes × Local :=
  match t.subscribers[s]? with
  | some x =>
    match x.inbox with
    | m :: rest => (some m, { t with subscribers := t.subscribers.set s { x with inbox := rest } })
    | [] => (none, t)
  | none => (none, t)

/-- Wait for the next reply of a subscriber. -/
def receive (t : Local) (s : Nat) : Wait Bytes × Local :=
  match t.tryReceive s with
  | (some m, t) => (.ready m, t)
  | (none, t) => (if t.terminated then .failed .terminated else .idle, t)

/-- Every reply waiting for a subscriber, oldest first. -/
def drain (t : Local) (s : Nat) : List Bytes × Local :=
  match t.subscribers[s]? with
  | some x => (x.inbox, { t with subscribers := t.subscribers.set s { x with inbox := [] } })
  | none => ([], t)

/-- Tear everything down. -/
def terminate (t : Local) : Local := { t with terminated := true }

end Local

instance : Transport Local where
  pull := Local.pullOn
  publish := Local.publishOn
  recv := Local.take
  send := Local.publishTo
  closeInbound := Local.closePuller
  closeOutbound t _ := t

end HandlerKit
