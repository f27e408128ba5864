import HandlerKit.Bench.Basic
import HandlerKit.Transport.Local
import HandlerKit.Config.Load

/-!
# A bench over the in-process transport

Besides connections, the bench plays the server: it pushes requests (one push socket per
address, made by the first push there), makes raw pull endpoints, and subscribes to reply
addresses. Raw pullers and subscribers are numbered like connections.
-/

namespace HandlerKit

/-- Steps of the in-process bench. -/
inductive LocalStep where
  | openConn (identity : Option Bytes) (inbound outbound : String)
  | openConfig (yaml : String)
  | push (addr : String) (msg : Bytes)
  | pull (addr : String) (identity : Option Bytes)
  | pullIdentity (puller : Nat)
  | pullRecv (puller : Nat)
  | pullers (addr : String)
  | sub (addr : String)
  | dropSub (sub : Nat)
  | subscribers (addr : String)
  | tryRecv (sub : Nat)
  | drain (sub : Nat)
  | subRecv (sub : Nat)
  | conn (n : Nat) (step : ConnStep)
  | terminate
  | isTerminated

/-- The in-process bench. -/
structure LocalBench where
  transport : Local := {}
  /-- Addresses the server has a push socket for. -/
  pushSockets : List String := []
  handlers : List (Option Handler) := []
  /-- The transport's handle of each raw puller. -/
  rawPullers : List Nat := []

namespace LocalBench

/-- Number a newly opened connection. -/
def opened (b : LocalBench) (r : Except Error Connection × Local) : Outcome × LocalBench :=
  match r with
  | (.ok c, t) =>
    (.ok (.conn b.handlers.length), { b with transport := t, handlers := b.handlers ++ [some { conn := c }] })
  | (.error e, t) => (.failed e, { b with transport := t })

/-- The subscriber with a number, if it is still there. -/
def subscriber? (b : LocalBench) (s : Nat) : Option Subscriber :=
  (b.transport.subscribers[s]?).filter (·.attached)

/-- Run one step. -/
def step (b : LocalBench) : LocalStep → Outcome × LocalBench
  | .openConn identity inbound outbound =>
    b.opened (Connection.connect b.transport identity inbound outbound)
  | .openConfig yaml =>
    match Config.loadText yaml with
    | .error e => (.failed e, b)
    | .ok cfg => b.opened (Connection.fromConfig b.transport cfg.handler)
  | .push addr msg =>
    let socket : Except Error LocalBench :=
      if b.pushSockets.contains addr then .ok b
      else (b.transport.pushSocket addr).map fun () => { b with pushSockets := b.pushSockets ++ [addr] }
    match socket with
    | .error e => (.failed e, b)
    | .ok b =>
      match b.transport.push addr msg with
      | .ok t => (.ok .done, { b with transport := t })
      | .error e => (.failed e, b)
  | .pull addr identity =>
    match b.transport.pullOn identity addr with
    | (.ok i, t) =>
      (.ok (.puller b.rawPullers.length), { b with transport := t, rawPullers := b.rawPullers ++ [i] })
    | (.error e, t) => (.failed e, { b with transport := t })
  | .pullIdentity k =>
    match b.rawPullers[k]? with
    | some i => (.ok (.message (b.transport.identityOf i)), b)
    | none => (.refused (.noPuller k), b)
  | .pullRecv k =>
    match b.rawPullers[k]? with
    | some i =>
      match b.transport.take i with
      | (.ready m, t) => (.ok (.message (some m)), { b with transport := t })
      | (.failed e, t) => (.failed e, { b with transport := t })
      | (.idle, _) => (.refused .wouldBlock, b)
    | none => (.refused (.noPuller k), b)
  | .pullers addr =>
    match b.transport.pushSocket addr with
    | .ok () => (.ok (.count (b.transport.pullerCount addr)), b)
    | .error e => (.failed e, b)
  | .sub addr =>
    match b.transport.subscribe addr with
    | (.ok s, t) => (.ok (.sub s), { b with transport := t })
    | (.error e, t) => (.failed e, { b with transport := t })
  | .dropSub s =>
    match b.subscriber? s with
    | some _ => (.ok .done, { b with transport := b.transport.dropSubscriber s })
    | none => (.refused (.noSubscriber s), b)
  | .subscribers addr => (.ok (.count (b.transport.subscriberCount addr)), b)
  | .tryRecv s =>
    match b.subscriber? s with
    | some _ =>
      let (m, t) := b.transport.tryReceive s
      (.ok (.message m), { b with transport := t })
    | none => (.refused (.noSubscriber s), b)
  | .drain s =>
    match b.subscriber? s with
    | some _ =>
      let (ms, t) := b.transport.drain s
      (.ok (.messages ms), { b with transport := t })
    | none => (.refused (.noSubscriber s), b)
  | .subRecv s =>
    match b.subscriber? s with
    | some _ =>
      if !b.transport.terminated then (.refused .notTerminated, b)
      else match b.transport.receive s with
        | (.ready m, t) => (.ok (.message (some m)), { b with transport := t })
        | (.failed e, t) => (.failed e, { b with transport := t })
        | (.idle, _) => (.refused .wouldBlock, b)
    | none => (.refused (.noSubscriber s), b)
  | .conn n s =>
    match handlerAt b.handlers n with
    | some h =>
      let (o, h', t) := h.step b.transport s
      (o, { b with transport := t, handlers := b.handlers.set n h' })
    | none => (.refused (.noConnection n), b)
  | .terminate => (.ok .done, { b with transport := b.transport.terminate })
  | .isTerminated => (.ok (.flag b.transport.terminated), b)

/-- Run steps in order from a fresh bench; one outcome per step. -/
def run (steps : List LocalStep) : List Outcome :=
  (steps.foldl (fun (acc : LocalBench × List Outcome) s =>
    let (o, b) := acc.1.step s
    (b, o :: acc.2)) ({}, [])).2.reverse

end LocalBench

end HandlerKit
