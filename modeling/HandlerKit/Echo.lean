import HandlerKit.Connection

/-!
# The echo service

The echo service answers every request with an HTTP 200 whose body is a JSON document of the
request's path, connection id, headers and (lossily decoded) body; a request that has no JSON
form gets an empty 400 instead. Disconnect notices get no answer.

**The loop.** Receive; stop with the count of replies sent when the transport terminates; stop
with the error when the transport fails; skip a message that was too large or malformed; reply,
and count the reply if it went out. A reply refused because the transport terminated also ends
the loop; any other failed reply is skipped.

The loop is run with a bound on its rounds, and reports that it is still going when the bound
is reached or when no message can come.
-/

namespace HandlerKit.Echo

/-- The headers of the 200 reply. -/
def jsonHeaders : List (String × String) := [("Content-Type", "application/json")]

/-- Where the loop stands when it returns. -/
inductive Served where
  /-- The loop ended: the replies sent, or the error it stopped on. -/
  | finished (r : Except Error Nat)
  /-- The loop is still serving, with the replies sent so far. -/
  | serving (count : Nat)

variable {τ : Type} [Transport τ]

/-- Answer one request. -/
def answer (c : Connection) (t : τ) (r : Request) : Except Error Unit × τ :=
  match r.echoBody with
  | .ok body => c.replyHttp t r (Bytes.ofString body) 200 "OK" jsonHeaders
  | .error _ => c.replyHttp t r [] 400 "Bad Request" []

/-- Serve for at most `rounds` receives, having sent `count` replies. -/
def run : Nat → Connection → τ → Nat → Served × τ
  | 0, _, t, count => (.serving count, t)
  | rounds + 1, c, t, count =>
    match c.recv t with
    | (.idle, t) => (.serving count, t)
    | (.failed .terminated, t) => (.finished (.ok count), t)
    | (.failed (.transport r), t) => (.finished (.error (.transport r)), t)
    | (.failed _, t) => run rounds c t count
    | (.ready r, t) =>
      if r.isDisconnect then run rounds c t count
      else
        match answer c t r with
        | (.ok (), t) => run rounds c t (count + 1)
        | (.error .terminated, t) => (.finished (.ok count), t)
        | (.error _, t) => run rounds c t count

end HandlerKit.Echo
