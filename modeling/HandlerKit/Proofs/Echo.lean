import HandlerKit.Proofs.Replying
import HandlerKit.Proofs.ReadFailures
import HandlerKit.Proofs.Json.Faults
import HandlerKit.Proofs.Depth
import HandlerKit.Echo
import Mathlib.Data.Nat.Find

/-!
# The echo service serves a script to its end

**Steps.** Each branch of the loop is one lemma over any transport (`run_of_stop`,
`run_of_failed`, `run_of_disconnect`, `run_of_refused`, `run_of_sent`): the transport's own
failures end it, every other failure and a disconnect notice are skipped, and a reply refused
because the transport terminated ends it too.

**Scripted endpoints.** A pull endpoint that gives a finite script of results, messages and
failures, and a publish endpoint that answers the `i`-th message handed to it with `verdict i`
(`Endpoints`). The loop sees the publish endpoint only through its answers, so on one run these
stand for any pair of endpoints. A result *stops* the loop (`stops`) when it is the transport's
own failure. To every other result the loop owes at most one reply (`replyTo`): none to a
failure, to a message too large or unreadable, or to a disconnect notice; to any other request
its HTTP response (`echoResponse`) framed for its client.

**Theorem (`echo_serves_script`).** Let the script be `pre ++ stop :: post`, where no result of
`pre` stops the loop and `stop` does, and let `replies` be the replies owed to `pre`, in order.
Given more rounds than `pre` has results, the loop finishes. If the publish endpoint refuses no
reply with `terminated`, it is handed all of `replies` and the loop returns what `stop` says:
the number of replies accepted on `terminated`, the failure on a transport failure. Otherwise
it is handed the replies up to the first refused one, and the loop returns the number accepted
before it. A request's response is the 200 with its JSON document exactly when its path and
connection id are UTF-8 and every string, key and float of its headers can be written.

Reading never fails with the transport's own failures (`Connection.fromTransport_of_accept`),
so the loop stops only where the script does.
-/

namespace HandlerKit.Echo

open Reply (requestReply)

/-! ## One round of the loop -/

section Rounds

variable {τ : Type} [Transport τ] {c : Connection} {t t' t'' : τ} {n count : Nat}

/-- How the loop ends on a result that stops it, with `count` replies accepted: with the
failure when the transport failed, else with the count. -/
def stopOutcome (count : Nat) : Except Error Bytes → Except Error Nat
  | .error (.transport m) => .error (.transport m)
  | _ => .ok count

theorem run_of_stop {e : Error} (hrecv : c.recv t = (.failed e, t')) (he : e.fromTransport = true) :
    run (n + 1) c t count = (.finished (stopOutcome count (.error e)), t') := by
  rw [run, hrecv]
  cases e
  case terminated => rfl
  case transport m => rfl
  all_goals cases he

theorem run_of_failed {e : Error} (hrecv : c.recv t = (.failed e, t'))
    (he : e.fromTransport = false) : run (n + 1) c t count = run n c t' count := by
  rw [run, hrecv]
  cases e
  case terminated => cases he
  case transport m => cases he
  all_goals rfl

theorem run_of_disconnect {r : Request} (hrecv : c.recv t = (.ready r, t'))
    (hd : r.isDisconnect = true) : run (n + 1) c t count = run n c t' count := by
  rw [run, hrecv]
  simp only [hd, if_true]

theorem run_of_refused {r : Request} (hrecv : c.recv t = (.ready r, t'))
    (hd : r.isDisconnect = false) (hans : answer c t' r = (.error .terminated, t'')) :
    run (n + 1) c t count = (.finished (.ok count), t'') := by
  rw [run, hrecv]
  simp only [hd, Bool.false_eq_true, if_false, hans]

/-- A reply that is not refused with `terminated` is counted when it was accepted, and the
loop goes on. -/
theorem run_of_sent {r : Request} {res : Except Error Unit} (hrecv : c.recv t = (.ready r, t'))
    (hd : r.isDisconnect = false) (hans : answer c t' r = (res, t''))
    (hres : res ≠ .error .terminated) :
    run (n + 1) c t count = run n c t'' (count + if res.isOk then 1 else 0) := by
  rw [run, hrecv]
  simp only [hd, Bool.false_eq_true, if_false, hans]
  cases res with
  | ok u => rfl
  | error e =>
    cases e
    case terminated => exact absurd rfl hres
    all_goals rfl

/-- The HTTP response to a request: the 200 with its JSON document, or the empty 400 when it
has none. -/
def echoResponse (r : Request) : Bytes :=
  match r.echoBody with
  | .ok body => Reply.http (Bytes.ofString body) 200 "OK" jsonHeaders
  | .error _ => Reply.http [] 400 "Bad Request" []

/-- A request has a JSON document exactly when its path and connection id are UTF-8 and its
headers can be written; the body is decoded lossily, so it always can. -/
theorem echoBody_ok_iff (r : Request) :
    (∃ body, r.echoBody = .ok body) ↔
      Utf8.isValid r.path = true ∧ Utf8.isValid r.connection = true ∧ r.headers.Carriable := by
  -- the document's keys differ, so each of its pairs is one of its members
  have hkeys : ([Bytes.ofString "path", Bytes.ofString "conn_id", Bytes.ofString "headers"] ++
      [Bytes.ofString "body"]).Nodup := by
    simp only [List.cons_append, List.nil_append, Utf8.ofString_eq_encode]
    decide
  rw [Request.echoBody, Json.render_ok_iff, Request.echoDocument, Value.carriable_dict_iff]
  cases r.bodyBytes with
  | none =>
    rw [Value.forall_mem_entriesOfPairs
      (by simpa using hkeys.sublist (List.sublist_append_left _ _))]
    simp [Utf8.isValid_ofString, Value.carriable_str_iff]
  | some b =>
    rw [Value.forall_mem_entriesOfPairs (by simpa using hkeys)]
    simp [Utf8.isValid_ofString, Value.carriable_str_iff, Utf8.isValid_encode]

/-- Answering a request read is one send of its framed response. -/
theorem answer_of_parse {opts : ParseOptions} {raw : Bytes} {r : Request}
    (h : Request.parse opts raw = .ok r) (c : Connection) (t : τ) :
    answer c t r = Transport.send t c.outbound (requestReply r (echoResponse r)) := by
  unfold answer echoResponse
  cases r.echoBody with
  | ok body => exact Reply.reply_of_parse h c t _
  | error e => exact Reply.reply_of_parse h c t _

end Rounds

theorem parse_of_accept {c : Connection} {raw : Bytes} {r : Request} (h : c.accept raw = .ok r) :
    Request.parse c.options raw = .ok r := by
  unfold Connection.accept at h
  split at h
  · cases h
  · exact h

/-! ## Scripted endpoints -/

/-- A pull endpoint that gives the results of a script in order, and then nothing, and a
publish endpoint that answers the `i`-th message handed to it with `verdict i`. -/
structure Endpoints where
  script : List (Except Error Bytes)
  verdict : Nat → Except Error Unit
  /-- The messages handed to the publish endpoint so far, in order. -/
  handed : List Bytes

instance : Transport Endpoints where
  pull e _ _ := (.ok 0, e)
  publish e _ := (.ok 1, e)
  recv e _ :=
    match e.script with
    | [] => (.idle, e)
    | .ok m :: rest => (.ready m, { e with script := rest })
    | .error f :: rest => (.failed f, { e with script := rest })
  send e _ m := (e.verdict e.handed.length, { e with handed := e.handed ++ [m] })
  closeInbound e _ := e
  closeOutbound e _ := e

/-- Whether a result of the pull endpoint stops the loop: it is the transport's own failure. -/
def stops : Except Error Bytes → Bool
  | .ok _ => false
  | .error e => e.fromTransport

/-- The reply the loop owes one result of the pull endpoint, if any: none to a failure, to a
message that is too large or no request, or to a disconnect notice; to any other request, its
response framed for its client. -/
def replyTo (c : Connection) : Except Error Bytes → Option Bytes
  | .ok raw =>
    match c.accept raw with
    | .ok r =>
      if r.isDisconnect then none
      else (Reply.frame r.sender r.connection (echoResponse r)).toOption
    | .error _ => none
  | .error _ => none

/-- How many of the sends numbered `start` to `start + k - 1` the publish endpoint accepts. -/
def accepted (verdict : Nat → Except Error Unit) (start k : Nat) : Nat :=
  (List.range' start k).countP fun i => (verdict i).isOk

theorem accepted_zero (verdict : Nat → Except Error Unit) (start : Nat) :
    accepted verdict start 0 = 0 := rfl

theorem accepted_succ (verdict : Nat → Except Error Unit) (start k : Nat) :
    accepted verdict start (k + 1) =
      accepted verdict (start + 1) k + if (verdict start).isOk then 1 else 0 := by
  rw [accepted, List.range'_succ, List.countP_cons]
  rfl

section Script

variable {c : Connection} {verdict : Nat → Except Error Unit} {rest : List (Except Error Bytes)}
  {h : List Bytes} {n count : Nat}

theorem recv_cons_accept {raw : Bytes} {r : Request} (ha : c.accept raw = .ok r) :
    c.recv (⟨.ok raw :: rest, verdict, h⟩ : Endpoints) =
      (.ready r, ⟨rest, verdict, h⟩) := by
  have hrecv : Transport.recv (⟨.ok raw :: rest, verdict, h⟩ : Endpoints) c.inbound =
      (.ready raw, ⟨rest, verdict, h⟩) := rfl
  rw [Connection.recv, hrecv]
  simp only [ha]

theorem recv_cons_reject {raw : Bytes} {e : Error} (ha : c.accept raw = .error e) :
    c.recv (⟨.ok raw :: rest, verdict, h⟩ : Endpoints) =
      (.failed e, ⟨rest, verdict, h⟩) := by
  have hrecv : Transport.recv (⟨.ok raw :: rest, verdict, h⟩ : Endpoints) c.inbound =
      (.ready raw, ⟨rest, verdict, h⟩) := rfl
  rw [Connection.recv, hrecv]
  simp only [ha]

theorem recv_cons_error {e : Error} :
    c.recv (⟨.error e :: rest, verdict, h⟩ : Endpoints) =
      (.failed e, ⟨rest, verdict, h⟩) := rfl

/-- Answering a request read hands its framed response to the publish endpoint, which
answers with the verdict for the next number. -/
theorem answer_endpoints {raw : Bytes} {r : Request} (ha : c.accept raw = .ok r) :
    answer c (⟨rest, verdict, h⟩ : Endpoints) r =
      (verdict h.length, ⟨rest, verdict, h ++ [requestReply r (echoResponse r)]⟩) :=
  answer_of_parse (parse_of_accept ha) c _

theorem replyTo_of_accept {raw : Bytes} {r : Request} (ha : c.accept raw = .ok r)
    (hd : r.isDisconnect = false) :
    replyTo c (.ok raw) = some (requestReply r (echoResponse r)) := by
  rw [replyTo, ha]
  simp only [hd, Bool.false_eq_true, if_false,
    Reply.frame_of_parse (parse_of_accept ha), Except.toOption]

/-- The loop owes a reply exactly to a request read that is no disconnect notice. -/
theorem replyTo_eq_some_iff {r : Except Error Bytes} {m : Bytes} :
    replyTo c r = some m ↔ ∃ raw req, r = .ok raw ∧ c.accept raw = .ok req ∧
      req.isDisconnect = false ∧ m = requestReply req (echoResponse req) := by
  constructor
  · intro hm
    cases r with
    | error e => cases hm
    | ok raw =>
      cases ha : c.accept raw with
      | error e => rw [replyTo, ha] at hm; cases hm
      | ok req =>
        cases hd : req.isDisconnect
        · rw [replyTo_of_accept ha hd] at hm
          exact ⟨raw, req, rfl, ha, hd, (Option.some.inj hm).symm⟩
        · rw [replyTo, ha] at hm
          simp [hd] at hm
  · rintro ⟨raw, req, rfl, ha, hd, rfl⟩
    exact replyTo_of_accept ha hd

theorem run_cons_stop {r : Except Error Bytes} (hr : stops r = true) :
    run (n + 1) c (⟨r :: rest, verdict, h⟩ : Endpoints) count =
      (.finished (stopOutcome count r), ⟨rest, verdict, h⟩) := by
  cases r with
  | ok raw => cases hr
  | error e => exact run_of_stop recv_cons_error hr

/-- A result that neither stops the loop nor is owed a reply is skipped. -/
theorem run_cons_skip {r : Except Error Bytes} (hr : stops r = false) (hn : replyTo c r = none) :
    run (n + 1) c (⟨r :: rest, verdict, h⟩ : Endpoints) count =
      run n c ⟨rest, verdict, h⟩ count := by
  cases r with
  | error e => exact run_of_failed recv_cons_error hr
  | ok raw =>
    cases ha : c.accept raw with
    | error e => exact run_of_failed (recv_cons_reject ha) (Connection.fromTransport_of_accept ha)
    | ok req =>
      -- a request read that is owed no reply is a disconnect notice
      cases hd : req.isDisconnect
      · rw [replyTo_of_accept ha hd] at hn
        cases hn
      · exact run_of_disconnect (recv_cons_accept ha) hd

theorem run_cons_refused {r : Except Error Bytes} {m : Bytes} (hm : replyTo c r = some m)
    (hans : verdict h.length = .error .terminated) :
    run (n + 1) c (⟨r :: rest, verdict, h⟩ : Endpoints) count =
      (.finished (.ok count), ⟨rest, verdict, h ++ [m]⟩) := by
  obtain ⟨raw, req, rfl, ha, hd, rfl⟩ := replyTo_eq_some_iff.1 hm
  refine run_of_refused (recv_cons_accept ha) hd ?_
  rw [answer_endpoints ha, hans]

theorem run_cons_sent {r : Except Error Bytes} {m : Bytes} (hm : replyTo c r = some m)
    (hans : verdict h.length ≠ .error .terminated) :
    run (n + 1) c (⟨r :: rest, verdict, h⟩ : Endpoints) count =
      run n c ⟨rest, verdict, h ++ [m]⟩ (count + if (verdict h.length).isOk then 1 else 0) := by
  obtain ⟨raw, req, rfl, ha, hd, rfl⟩ := replyTo_eq_some_iff.1 hm
  exact run_of_sent (recv_cons_accept ha) hd (answer_endpoints ha) hans

/-! ## Runs over a script -/

/-- The send after the handed messages and one more is numbered one further. -/
theorem length_append_singleton_add (h : List Bytes) (m : Bytes) (i : Nat) :
    (h ++ [m]).length + i = h.length + (i + 1) := by
  simp only [List.length_append, List.length_singleton]
  omega

/-- With no reply refused, the loop hands over every reply owed to the results before the
stop, and ends as the stop says. The induction is on the results before the stop; the number
of replies handed so far numbers the next send. -/
theorem run_serves_all {stop : Except Error Bytes} (hstop : stops stop = true)
    (post : List (Except Error Bytes)) {pre : List (Except Error Bytes)}
    (hpre : ∀ r ∈ pre, stops r = false) :
    ∀ n h count, pre.length < n →
      (∀ i < (pre.filterMap (replyTo c)).length,
        verdict (h.length + i) ≠ .error .terminated) →
      run n c (⟨pre ++ stop :: post, verdict, h⟩ : Endpoints) count =
        (.finished (stopOutcome
            (count + accepted verdict h.length (pre.filterMap (replyTo c)).length) stop),
          ⟨post, verdict, h ++ pre.filterMap (replyTo c)⟩) := by
  induction pre with
  | nil =>
    intro n h count hn _
    obtain ⟨n, rfl⟩ := Nat.exists_eq_add_one.2 hn
    rw [List.nil_append, run_cons_stop hstop]
    simp [accepted_zero]
  | cons r pre ih =>
    intro n h count hn hans
    obtain ⟨n, rfl⟩ := Nat.exists_eq_add_one.2 (Nat.zero_lt_of_lt hn)
    obtain ⟨hr, hpre'⟩ := List.forall_mem_cons.1 hpre
    have hn : pre.length < n := by simpa using hn
    rw [List.cons_append]
    cases hm : replyTo c r with
    | none =>
      rw [List.filterMap_cons_none hm] at hans ⊢
      rw [run_cons_skip hr hm, ih hpre' n h count hn hans]
    | some m =>
      rw [List.filterMap_cons_some hm] at hans ⊢
      have hfirst : verdict h.length ≠ .error .terminated := by
        simpa using hans 0 (by simp)
      -- the sends after this one are numbered from one more
      have hrest : ∀ i < (pre.filterMap (replyTo c)).length,
          verdict ((h ++ [m]).length + i) ≠ .error .terminated := fun i hi => by
        rw [length_append_singleton_add]
        exact hans (i + 1) (by simpa using hi)
      rw [run_cons_sent hm hfirst, ih hpre' n (h ++ [m]) _ hn hrest, List.length_cons,
        accepted_succ]
      simp only [List.length_append, List.length_singleton, List.append_assoc,
        List.singleton_append, Nat.add_assoc, Nat.add_comm]

/-- When the publish endpoint refuses a reply with `terminated`, and no earlier one, the loop
hands over the replies up to that one and returns the number accepted before it. -/
theorem run_ends_at_refusal (rest : List (Except Error Bytes)) {pre : List (Except Error Bytes)}
    (hpre : ∀ r ∈ pre, stops r = false) :
    ∀ n h count j, pre.length < n → j < (pre.filterMap (replyTo c)).length →
      verdict (h.length + j) = .error .terminated →
      (∀ i < j, verdict (h.length + i) ≠ .error .terminated) →
      (run n c (⟨pre ++ rest, verdict, h⟩ : Endpoints) count).1 =
          .finished (.ok (count + accepted verdict h.length j)) ∧
        (run n c (⟨pre ++ rest, verdict, h⟩ : Endpoints) count).2.handed =
          h ++ (pre.filterMap (replyTo c)).take (j + 1) := by
  induction pre with
  | nil => intro n h count j _ hj; simp at hj
  | cons r pre ih =>
    intro n h count j hn hj hrefused hbefore
    obtain ⟨n, rfl⟩ := Nat.exists_eq_add_one.2 (Nat.zero_lt_of_lt hn)
    obtain ⟨hr, hpre'⟩ := List.forall_mem_cons.1 hpre
    have hn : pre.length < n := by simpa using hn
    rw [List.cons_append]
    cases hm : replyTo c r with
    | none =>
      rw [List.filterMap_cons_none hm] at hj ⊢
      rw [run_cons_skip hr hm]
      exact ih hpre' n h count j hn hj hrefused hbefore
    | some m =>
      rw [List.filterMap_cons_some hm] at hj ⊢
      cases j with
      | zero =>
        rw [run_cons_refused hm (by simpa using hrefused)]
        simp [accepted_zero]
      | succ j =>
        have hfirst : verdict h.length ≠ .error .terminated := by
          simpa using hbefore 0 (by omega)
        -- the sends after this one are numbered from one more
        obtain ⟨h1, h2⟩ := ih hpre' n (h ++ [m]) _ j hn (by simpa using hj)
          (by rw [length_append_singleton_add]; exact hrefused)
          (fun i hi => by rw [length_append_singleton_add]; exact hbefore (i + 1) (by omega))
        rw [run_cons_sent hm hfirst]
        refine ⟨?_, ?_⟩
        · rw [h1, accepted_succ]
          simp only [List.length_append, List.length_singleton, Nat.add_assoc, Nat.add_comm]
        · rw [h2, List.take_succ_cons, List.append_assoc, List.singleton_append]

/-- Given more rounds than results before the stop, the loop finishes: at the first refused
reply if there is one, else at the stop. -/
theorem run_finishes {stop : Except Error Bytes} (hstop : stops stop = true)
    (post : List (Except Error Bytes)) {pre : List (Except Error Bytes)}
    (hpre : ∀ r ∈ pre, stops r = false) (n : Nat) (h : List Bytes) (count : Nat)
    (hn : pre.length < n) :
    ∃ res, (run n c (⟨pre ++ stop :: post, verdict, h⟩ : Endpoints) count).1 = .finished res := by
  classical
  by_cases hrefusal : ∃ j, j < (pre.filterMap (replyTo c)).length ∧
      verdict (h.length + j) = .error .terminated
  · obtain ⟨hj, hrefused⟩ := Nat.find_spec hrefusal
    have hbefore : ∀ i < Nat.find hrefusal, verdict (h.length + i) ≠ .error .terminated :=
      fun i hi hv => Nat.find_min hrefusal hi ⟨Nat.lt_trans hi hj, hv⟩
    exact ⟨_, (run_ends_at_refusal (stop :: post) hpre n h count _ hn hj hrefused hbefore).1⟩
  · have hans : ∀ i < (pre.filterMap (replyTo c)).length,
        verdict (h.length + i) ≠ .error .terminated := fun i hi hv => hrefusal ⟨i, hi, hv⟩
    exact ⟨_, by rw [run_serves_all hstop post hpre n h count hn hans]⟩

/-- The loop owes a reply exactly to a request read that is no disconnect notice, and that
reply is its response framed for its client. -/
theorem replyTo_eq_some_iff_frame {r : Except Error Bytes} {m : Bytes} :
    replyTo c r = some m ↔ ∃ raw req, r = .ok raw ∧ c.accept raw = .ok req ∧
      req.isDisconnect = false ∧
      Reply.frame req.sender req.connection (echoResponse req) = .ok m := by
  rw [replyTo_eq_some_iff]
  constructor
  · rintro ⟨raw, req, rfl, ha, hd, rfl⟩
    exact ⟨raw, req, rfl, ha, hd, Reply.frame_of_parse (parse_of_accept ha) _⟩
  · rintro ⟨raw, req, rfl, ha, hd, hf⟩
    rw [Reply.frame_of_parse (parse_of_accept ha)] at hf
    exact ⟨raw, req, rfl, ha, hd, (Except.ok.inj hf).symm⟩

end Script

/-- The echo service serves a script of results to its end. With the script
`pre ++ stop :: post`, no result of `pre` stopping the loop and `stop` stopping it, and more
rounds than `pre` has results: the loop finishes; with no reply refused it hands over every
reply owed to `pre`, in order, and ends as `stop` says; else it hands over the replies up to
the first refused one and returns the number accepted before it. A reply is owed exactly to a
request read that is no disconnect notice, and is its response framed for its client; the
response is the 200 with the JSON document exactly when the request's path, connection id and
headers can be written. -/
theorem echo_serves_script (c : Connection) (pre : List (Except Error Bytes))
    (stop : Except Error Bytes) (post : List (Except Error Bytes))
    (verdict : Nat → Except Error Unit) (hpre : ∀ r ∈ pre, stops r = false)
    (hstop : stops stop = true) (n : Nat) (hn : pre.length < n) :
    (∃ res, (run n c (⟨pre ++ stop :: post, verdict, []⟩ : Endpoints) 0).1 =
      .finished res) ∧
    ((∀ i < (pre.filterMap (replyTo c)).length, verdict i ≠ .error .terminated) →
      run n c (⟨pre ++ stop :: post, verdict, []⟩ : Endpoints) 0 =
        (.finished (stopOutcome (accepted verdict 0 (pre.filterMap (replyTo c)).length) stop),
          ⟨post, verdict, pre.filterMap (replyTo c)⟩)) ∧
    (∀ j < (pre.filterMap (replyTo c)).length, verdict j = .error .terminated →
      (∀ i < j, verdict i ≠ .error .terminated) →
      (run n c (⟨pre ++ stop :: post, verdict, []⟩ : Endpoints) 0).1 =
          .finished (.ok (accepted verdict 0 j)) ∧
        (run n c (⟨pre ++ stop :: post, verdict, []⟩ : Endpoints) 0).2.handed =
          (pre.filterMap (replyTo c)).take (j + 1)) ∧
    (∀ r m, replyTo c r = some m ↔ ∃ raw req, r = .ok raw ∧ c.accept raw = .ok req ∧
      req.isDisconnect = false ∧
      Reply.frame req.sender req.connection (echoResponse req) = .ok m) ∧
    (∀ req : Request, (∃ body, req.echoBody = .ok body) ↔
      Utf8.isValid req.path = true ∧ Utf8.isValid req.connection = true ∧
        req.headers.Carriable) := by
  refine ⟨run_finishes hstop post hpre n [] 0 hn, fun hans => ?_, fun j hj hrefused hbefore => ?_,
    fun r m => replyTo_eq_some_iff_frame, echoBody_ok_iff⟩
  · simpa using run_serves_all hstop post hpre n [] 0 hn (by simpa using hans)
  · simpa using run_ends_at_refusal (stop :: post) hpre n [] 0 j hn hj (by simpa using hrefused)
      (by simpa using hbefore)

/-- The echo service's own test: a message that is no request, then the request
`srv 4 /x 0:}`, then the transport terminates. With every send accepted, the loop hands over
one reply, the 200 with the request's JSON document, and returns one. -/
theorem echo_serves_one_request :
    run 3 ⟨none, "inproc://echo-req", "inproc://echo-rep", 0, 1, {}, defaultMaxMessageBytes⟩
        (⟨[.ok [103, 97, 114, 98, 97, 103, 101],
          .ok [115, 114, 118, 32, 52, 32, 47, 120, 32, 48, 58, 125], .error .terminated],
          fun _ => .ok (), []⟩ : Endpoints) 0 =
      (.finished (.ok 1), ⟨[], fun _ => .ok (),
        [requestReply ⟨[115, 114, 118], [52], [47, 120], .dict [], none⟩
          (echoResponse ⟨[115, 114, 118], [52], [47, 120], .dict [], none⟩)]⟩) ∧
    ∃ body,
      Request.echoBody ⟨[115, 114, 118], [52], [47, 120], .dict [], none⟩ = .ok body := by
  have hd0 : Tnetstring.LengthDigits [48] 0 := Tnetstring.lengthDigits_singleton (by decide)
  have haccept : Connection.accept
      ⟨none, "inproc://echo-req", "inproc://echo-rep", 0, 1, {}, defaultMaxMessageBytes⟩
      [115, 114, 118, 32, 52, 32, 47, 120, 32, 48, 58, 125] =
        .ok ⟨[115, 114, 118], [52], [47, 120], .dict [], none⟩ := by
    rw [Connection.accept, if_neg (by decide)]
    exact Request.parse_eq_ok_iff.2 ⟨[115, 114, 118], [52], [47, 120], [48, 58, 125], [],
      .dict [], by decide, by decide, by decide, rfl, .dict (by decide) hd0 .nil,
      Request.selectHeaders_eq_ok_iff.2 (.inl ⟨[], rfl, rfl⟩), rfl, rfl, rfl, rfl⟩
  have hreplies : [.ok [103, 97, 114, 98, 97, 103, 101],
      .ok [115, 114, 118, 32, 52, 32, 47, 120, 32, 48, 58, 125]].filterMap
      (replyTo
        ⟨none, "inproc://echo-req", "inproc://echo-rep", 0, 1, {}, defaultMaxMessageBytes⟩) =
      [requestReply ⟨[115, 114, 118], [52], [47, 120], .dict [], none⟩
        (echoResponse ⟨[115, 114, 118], [52], [47, 120], .dict [], none⟩)] := by
    rw [List.filterMap_cons_none rfl, List.filterMap_cons_some (replyTo_of_accept haccept rfl)]
    rfl
  obtain ⟨-, hall, -, -, hbody⟩ := echo_serves_script
    ⟨none, "inproc://echo-req", "inproc://echo-rep", 0, 1, {}, defaultMaxMessageBytes⟩
    [.ok [103, 97, 114, 98, 97, 103, 101],
      .ok [115, 114, 118, 32, 52, 32, 47, 120, 32, 48, 58, 125]]
    (.error .terminated) [] (fun _ => .ok ()) (by decide) rfl 3 (by decide)
  have hserved := hall (by simp)
  rw [hreplies] at hserved
  exact ⟨hserved, (hbody _).2 ⟨by decide +kernel, by decide +kernel,
    Value.carriable_dict_iff.2 (by simp)⟩⟩

end HandlerKit.Echo
