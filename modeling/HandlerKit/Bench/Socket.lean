import HandlerKit.Bench.Basic
import HandlerKit.Transport.Socket
import HandlerKit.Config.Load

/-!
# A bench over message-queue sockets

The server binds a PUSH socket at `inproc://req` and a SUB socket at `inproc://rep` in the
bench's context; connections open in the same context and default to those two addresses.

**What the bench refuses.** Only one open connection may pull from the request address, and a
push needs one. A receive with nothing queued at that puller would wait until the context is
terminated, so before termination it is refused. After termination, whether a send, or a
receive of a message still queued, goes through is a race inside the messaging library, so
those are refused too; a receive with nothing queued fails with `terminated`. The context is
terminated at most once.

**Panics.** A step that makes the program panic (an address with a NUL byte in it) ends the run:
its answer is the panic, and no later step runs.
-/

namespace HandlerKit

/-- Steps of the socket bench. -/
inductive SocketStep where
  | openConn (identity : Option Bytes) (inbound outbound : String)
  /-- Open a connection in a context of its own, report it, and close it again. -/
  | openDefault (identity : Option Bytes) (inbound outbound : String)
  | openConfig (yaml : String)
  | push (msg : Bytes)
  | drain
  | conn (n : Nat) (step : ConnStep)
  | terminate

/-- Where the server's PUSH socket is bound. -/
def requestAddress : String := "inproc://req"

/-- Where the server's SUB socket is bound. -/
def replyAddress : String := "inproc://rep"

/-- The socket bench. -/
structure SocketBench where
  sockets : Sockets := { requestAddr := some requestAddress, replyAddr := some replyAddress }
  handlers : List (Option Handler) := []
  /-- Whether the context was terminated by a step. -/
  terminateCalled : Bool := false

namespace SocketBench

/-- Number a newly opened connection. -/
def opened (b : SocketBench) (r : Except Error Connection × Sockets) : Outcome × SocketBench :=
  match r with
  | (.ok c, t) =>
    (.ok (.conn b.handlers.length), { b with sockets := t, handlers := b.handlers ++ [some { conn := c }] })
  | (.error e, t) => (.failed e, { b with sockets := t })

/-- Open a connection, unless it would be a second puller at the request address. -/
def openWith (b : SocketBench) (inbound : String)
    (connect : Sockets → Except Error Connection × Sockets) : Outcome × SocketBench :=
  if inbound == requestAddress && pullsFrom b.handlers requestAddress then
    (.refused (.secondPuller requestAddress), b)
  else b.opened (connect b.sockets)

/-- The messages queued for the connection pulling from the request address. -/
def pending (b : SocketBench) : Nat :=
  match b.sockets.requestPuller with
  | some i => (b.sockets.queued i).length
  | none => 0

/-- Run a step on a connection, with the refusals around termination. -/
def connStep (b : SocketBench) (n : Nat) (s : ConnStep) : Outcome × SocketBench :=
  let isRecv := match s with
    | .recv => true
    | _ => false
  if isRecv && !b.sockets.terminated && b.pending == 0 then (.refused .wouldBlock, b)
  else match handlerAt b.handlers n with
    | none => (.refused (.noConnection n), b)
    | some h =>
      if b.sockets.terminated && isRecv && b.pending > 0 then (.refused .recvAfterTerminate, b)
      else if b.sockets.terminated && s.sends then (.refused .sendAfterTerminate, b)
      else
        let (o, h', t) := h.step b.sockets s
        (o, { b with sockets := t, handlers := b.handlers.set n h' })

/-- Run one step. -/
def step (b : SocketBench) : SocketStep → Outcome × SocketBench
  | .openConn identity inbound outbound =>
    b.openWith inbound fun t => Connection.connect t identity inbound outbound
  | .openDefault identity inbound outbound =>
    match Connection.connect ({} : Sockets) identity inbound outbound with
    | (.ok c, _) => (.ok (.opened c.identity c.inboundAddr c.outboundAddr), b)
    | (.error e, t) => (.failed e, { b with sockets := { b.sockets with aborted := t.aborted } })
  | .openConfig yaml =>
    match Config.loadText yaml with
    | .error e => (.failed e, b)
    | .ok cfg => b.openWith cfg.handler.recvAddr fun t => Connection.fromConfig t cfg.handler
  | .push msg =>
    if b.sockets.terminated || !pullsFrom b.handlers requestAddress then
      (.refused (.noPullerFor requestAddress), b)
    else (.ok .done, { b with sockets := b.sockets.push msg })
  | .drain =>
    let (ms, t) := b.sockets.drain
    (.ok (.messages ms), { b with sockets := t })
  | .conn n s => b.connStep n s
  | .terminate =>
    if b.terminateCalled then (.refused .terminateTwice, b)
    else (.ok .done, { b with sockets := b.sockets.terminate, terminateCalled := true })

/-- Run steps in order: one outcome per step and whether the context was terminated, or the
panic a step ended the program with. -/
def runFrom (b : SocketBench) : List SocketStep → Except String (List Outcome × Bool)
  | [] => .ok ([], b.terminateCalled)
  | s :: rest =>
    let (o, b) := b.step s
    match b.sockets.aborted with
    | some m => .error m
    | none => (b.runFrom rest).map fun (os, t) => (o :: os, t)

/-- Run steps in order from a fresh bench. -/
def run (steps : List SocketStep) : Except String (List Outcome × Bool) :=
  ({} : SocketBench).runFrom steps

end SocketBench

end HandlerKit
