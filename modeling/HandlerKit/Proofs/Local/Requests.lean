import HandlerKit.Proofs.Local.Steps

/-!
# Requests: one queue per address, served in order

The server pushes requests onto an address, and the raw pull endpoints and connections made on
that address receive them. Seen from outside, through the outcomes of the bench's steps, the
requests of one address behave as a single first-in first-out queue (`Serves`, `Fifo`): an
accepted push joins the back, each receive on any endpoint of the address takes the front and
answers with it, and a receive that finds nothing waits, or fails with `terminated` once the
transport is terminated. A push is accepted exactly when a push socket for the address can be
had, which holds until the transport is terminated. Every other step leaves the queue alone.

A connection answers a request message with `tooLarge` when it is longer than its cap and
otherwise with the request read from it (`requestAnswer`); either way the message is consumed
and the connection stays as it was, ready for the next one.

**Theorem (`requests_served_in_order`).** Every run from a fresh bench follows that contract
for every address, and ends with the transport's own queue: every accepted request is received
exactly once, in the order of the pushes, whichever endpoints receive it and whether or not
one existed when it was pushed; after termination what is queued is still received, and then
each receive fails. The count of pullers the server sees for an address is the number of live
pull endpoints on it: the raw ones and the inbound ends of open connections, a failed open
leaving none behind (`Kept.pullerCount_eq`).
-/

namespace HandlerKit

/-! ## The contract -/

namespace LocalBench

/-- What a connection answers for a request message: `tooLarge` when the message is longer
than its cap, and otherwise the request read from it under its options. -/
def requestAnswer (c : Connection) (m : Bytes) : Outcome :=
  if c.maxMessageBytes < m.length then .failed (.tooLarge m.length c.maxMessageBytes)
  else
    match Request.parse c.options m with
    | .ok r => .ok (.request r)
    | .error e => .failed e

/-- The address a step receives a request from, with what it answers for a message, when the
step is a receive on a pull endpoint: a raw endpoint answers with the message itself, a
connection with `requestAnswer`. -/
def reading (b : LocalBench) : LocalStep → Option (String × (Bytes → Outcome))
  | .pullRecv k =>
    match b.rawPullers[k]? with
    | some i => (b.transport.pullers[i]?).map fun p => (p.addr, fun m => .ok (.message (some m)))
    | none => none
  | .conn n .recv =>
    match handlerAt b.handlers n with
    | some h => (b.transport.pullers[h.conn.inbound]?).map fun p => (p.addr, requestAnswer h.conn)
    | none => none
  | _ => none

/-- What a receive answers with nothing queued: it would wait, or, once the transport is
terminated, it fails. -/
def waiting (terminated : Bool) : Outcome :=
  if terminated then .failed .terminated else .refused .wouldBlock

/-- One event as the requests of address `a` see it, taking their queue from `q` to `q'`. -/
inductive Serves (a : String) : Event → List Bytes → List Bytes → Prop
  /-- A push is accepted when a push socket for the address can be had, and joins the back. -/
  | accept {e : Event} {m : Bytes} {q : List Bytes} (hs : e.step = .push a m)
      (hok : e.before.transport.pushSocket a = .ok ()) (ho : e.outcome = .ok .done) :
      Serves a e q (q ++ [m])
  | refuse {e : Event} {m : Bytes} {q : List Bytes} {err : Error} (hs : e.step = .push a m)
      (herr : e.before.transport.pushSocket a = .error err) (ho : e.outcome = .failed err) :
      Serves a e q q
  /-- A receive takes the oldest request and answers with it; its endpoint stays as it was. -/
  | serve {e : Event} {m : Bytes} {q : List Bytes} {f : Bytes → Outcome}
      (hr : e.before.reading e.step = some (a, f)) (ho : e.outcome = f m)
      (hkeep : e.after.reading e.step = some (a, f)) : Serves a e (m :: q) q
  | wait {e : Event} {f : Bytes → Outcome} (hr : e.before.reading e.step = some (a, f))
      (ho : e.outcome = waiting e.before.transport.terminated) : Serves a e [] []
  | skip {e : Event} {q : List Bytes} (hp : ∀ m, e.step ≠ .push a m)
      (hr : ∀ f, e.before.reading e.step ≠ some (a, f)) : Serves a e q q

/-- The events of a run as the requests of `a` see them, from queue `q` to queue `q'`. -/
inductive Fifo (a : String) : List Bytes → List Event → List Bytes → Prop
  | nil {q : List Bytes} : Fifo a q [] q
  | cons {e : Event} {es : List Event} {q q₁ q' : List Bytes} (he : Serves a e q q₁)
      (h : Fifo a q₁ es q') : Fifo a q (e :: es) q'

/-! ## What every bench of a run keeps -/

/-- The live pull endpoints: every raw one, and the inbound end of every open connection. -/
def endpoints (b : LocalBench) : List Nat :=
  b.rawPullers ++ b.handlers.filterMap fun h? => h?.map (·.conn.inbound)

/-- The number of live pull endpoints on an address. -/
def livePullers (b : LocalBench) (a : String) : Nat :=
  (b.endpoints.filter fun i => (b.transport.pullers[i]?).any (·.addr == a)).length

/-- What every bench reached from a fresh one keeps. -/
structure Kept (b : LocalBench) : Prop where
  /-- The server holds push sockets only for addresses a live transport accepts. -/
  sockets : ∀ a ∈ b.pushSockets, b.transport.terminated = false → b.transport.check a = .ok ()
  /-- No two live endpoints share a puller. -/
  nodup : b.endpoints.Nodup
  /-- A puller is attached exactly when it is a live endpoint. -/
  attached : ∀ i p, b.transport.pullers[i]? = some p → (p.attached = true ↔ i ∈ b.endpoints)
  /-- Every live endpoint names a puller. -/
  bound : ∀ i ∈ b.endpoints, i < b.transport.pullers.length

/-! ## Receiving -/

theorem requestAnswer_eq (c : Connection) (m : Bytes) :
    requestAnswer c m = match c.accept m with
      | .ok r => .ok (.request r)
      | .error e => .failed e := by
  unfold requestAnswer Connection.accept
  split <;> rfl

theorem reading_pullRecv (b : LocalBench) (k : Nat) :
    b.reading (.pullRecv k) =
      match b.rawPullers[k]? with
      | some i => (b.transport.pullers[i]?).map fun p => (p.addr, fun m => .ok (.message (some m)))
      | none => none := rfl

theorem reading_conn_recv (b : LocalBench) (n : Nat) :
    b.reading (.conn n .recv) =
      match handlerAt b.handlers n with
      | some h => (b.transport.pullers[h.conn.inbound]?).map fun p => (p.addr, requestAnswer h.conn)
      | none => none := rfl

theorem reading_eq_some {b : LocalBench} {s : LocalStep} {a : String} {f : Bytes → Outcome}
    (h : b.reading s = some (a, f)) :
    (∃ k i p, s = .pullRecv k ∧ b.rawPullers[k]? = some i ∧ b.transport.pullers[i]? = some p ∧
      p.addr = a ∧ f = fun m => .ok (.message (some m))) ∨
    (∃ n hd p, s = .conn n .recv ∧ handlerAt b.handlers n = some hd ∧
      b.transport.pullers[hd.conn.inbound]? = some p ∧ p.addr = a ∧ f = requestAnswer hd.conn) := by
  unfold reading at h
  split at h
  · rename_i k
    split at h
    · rename_i i hi
      obtain ⟨p, hp, hpa⟩ := Option.map_eq_some_iff.1 h
      cases hpa
      exact .inl ⟨k, i, p, rfl, hi, hp, rfl, rfl⟩
    · cases h
  · rename_i n
    split at h
    · rename_i hd hh
      obtain ⟨p, hp, hpa⟩ := Option.map_eq_some_iff.1 h
      cases hpa
      exact .inr ⟨n, hd, p, rfl, hh, hp, rfl, rfl⟩
    · cases h
  · cases h

/-- A receive on a connection that is given a message answers with `requestAnswer`, and the
connection stays open with the same connection record. -/
theorem Handler.step_recv_of_ready {h : Handler} {t t' : Local} {m : Bytes}
    (ht : t.take h.conn.inbound = (.ready m, t')) :
    (h.step t .recv).1 = requestAnswer h.conn m ∧ (h.step t .recv).2.2 = t' ∧
      ∃ h', (h.step t .recv).2.1 = some h' ∧ h'.conn = h.conn := by
  unfold Handler.step Connection.recv
  simp only [Transport.recv]
  rw [ht]
  dsimp only
  rw [requestAnswer_eq]
  cases h.conn.accept m <;> exact ⟨rfl, rfl, _, rfl, rfl⟩

/-- A receive on a connection with nothing queued answers `waiting`. -/
theorem Handler.step_recv_of_empty {h : Handler} {t : Local}
    (ht : t.take h.conn.inbound = (if t.terminated then .failed .terminated else .idle, t)) :
    (h.step t .recv).1 = waiting t.terminated ∧ (h.step t .recv).2.2 = t := by
  unfold Handler.step Connection.recv
  simp only [Transport.recv]
  rw [ht]
  cases t.terminated <;> exact ⟨rfl, rfl⟩

/-- A receive from `a` takes the oldest request of `a` and answers with it, keeping its
endpoint; with nothing queued it answers `waiting` and changes nothing. -/
theorem step_of_reading {b : LocalBench} {s : LocalStep} {a : String} {f : Bytes → Outcome}
    (h : b.reading s = some (a, f)) :
    (∀ {m : Bytes} {q : List Bytes}, b.transport.queue a = m :: q →
      (b.step s).1 = f m ∧ (b.step s).2.transport = b.transport.setQueue a q ∧
        (b.step s).2.reading s = some (a, f)) ∧
    (b.transport.queue a = [] →
      (b.step s).1 = waiting b.transport.terminated ∧ (b.step s).2.transport = b.transport) := by
  rcases reading_eq_some h with ⟨k, i, p, rfl, hk, hp, rfl, rfl⟩ | ⟨n, hd, p, rfl, hn, hp, rfl, rfl⟩
  · -- a raw endpoint
    refine ⟨fun {m q} hq => ?_, fun hq => ?_⟩
    · rw [step_pullRecv, hk]
      dsimp only
      rw [Local.take_of_cons hp hq]
      refine ⟨rfl, rfl, ?_⟩
      unfold reading
      simp only [hk, Local.setQueue_pullers, hp, Option.map_some]
    · rw [step_pullRecv, hk]
      dsimp only
      rw [Local.take_of_nil hp hq]
      cases b.transport.terminated <;> exact ⟨rfl, rfl⟩
  · -- a connection
    refine ⟨fun {m q} hq => ?_, fun hq => ?_⟩
    · obtain ⟨ho, ht, h', hh', hc⟩ := Handler.step_recv_of_ready (Local.take_of_cons hp hq)
      rw [step_conn, hn]
      refine ⟨ho, ht, ?_⟩
      unfold reading
      simp only [handlerAt_set_self hn, hh', hc, ht, Local.setQueue_pullers, hp, Option.map_some]
    · obtain ⟨ho, ht⟩ := Handler.step_recv_of_empty (Local.take_of_nil hp hq)
      rw [step_conn, hn]
      exact ⟨ho, ht⟩

/-! ## Pushing -/

section Pushing

variable {b : LocalBench} {a : String}

theorem live_of_pushSocket {t : Local} (h : t.pushSocket a = .ok ()) : t.terminated = false :=
  (Local.check_eq_ok_iff.1 h).1

/-- With a push socket to be had, a push is accepted and joins the back of the address's queue. -/
theorem step_push_of_ok (h : b.transport.pushSocket a = .ok ()) (m : Bytes) :
    (b.step (.push a m)).1 = .ok .done ∧
      (b.step (.push a m)).2.transport = b.transport.setQueue a (b.transport.queue a ++ [m]) := by
  have hpush : b.transport.push a m = .ok (b.transport.setQueue a (b.transport.queue a ++ [m])) := by
    unfold Local.push
    rw [live_of_pushSocket h]
    rfl
  rw [step_push]
  split
  · rw [hpush]
    exact ⟨rfl, rfl⟩
  · rw [h]
    dsimp only
    rw [hpush]
    exact ⟨rfl, rfl⟩

/-- Without one, the push fails as the socket would, and nothing changes. -/
theorem Kept.step_push_of_error (hk : b.Kept) {err : Error} (h : b.transport.pushSocket a = .error err)
    (m : Bytes) : b.step (.push a m) = (.failed err, b) := by
  rw [step_push]
  split
  · rename_i hmem
    -- a socket made earlier still works until the transport is terminated
    cases ht : b.transport.terminated
    · rw [Local.pushSocket, hk.sockets a (by simpa using hmem) ht] at h
      cases h
    · rw [Local.pushSocket, Local.check_of_terminated ht] at h
      cases h
      unfold Local.push
      rw [if_pos ht]
  · rw [h]

end Pushing

/-! ## Everything else leaves the queues alone -/

theorem Local.take_queue {t : Local} {i : Nat} {a : String}
    (h : ∀ p, t.pullers[i]? = some p → p.addr ≠ a) : (t.take i).2.queue a = t.queue a := by
  unfold Local.take
  split
  · rfl
  · rename_i p hp
    split
    · simp [Ne.symm (h p hp)]
    · rfl

/-- A step changes the queue of `a` only when it pushes onto `a` or receives from `a`. -/
theorem Kept.queue_step {b : LocalBench} (hk : b.Kept) {s : LocalStep} {a : String}
    (hp : ∀ m, s ≠ .push a m) (hr : ∀ f, b.reading s ≠ some (a, f)) :
    (b.step s).2.transport.queue a = b.transport.queue a := by
  cases s with
  | openConn i a' o => rw [step_openConn, opened_transport, Connection.connect_queue]
  | openConfig yaml =>
    cases hy : Config.loadText yaml with
    | error e => rw [step_openConfig_of_error _ hy]
    | ok cfg => rw [step_openConfig_of_ok _ hy, opened_transport, (Connects.fromConfig _).queue]
  | push a' m =>
    have ha : a ≠ a' := fun h => hp m (h ▸ rfl)
    cases hs : b.transport.pushSocket a' with
    | ok u => rw [(step_push_of_ok hs m).2, Local.setQueue_queue, if_neg ha]
    | error e => rw [hk.step_push_of_error hs m]
  | pull a' i => rw [step_pull_transport, Local.pullOn_queue]
  | pullIdentity k => rw [step_pullIdentity_snd]
  | pullRecv k =>
    rw [step_pullRecv_transport]
    split
    · rename_i i hi
      -- the endpoint, if any, pulls from another address
      refine Local.take_queue fun p hp hpa => hr (fun m => .ok (.message (some m))) ?_
      rw [reading_pullRecv, hi]
      simp [hp, hpa]
    · rfl
  | pullers a' => rw [step_pullers_snd]
  | sub a' => rw [step_sub_transport, Local.subscribe_queue]
  | dropSub s =>
    rw [step_dropSub_transport]
    split <;> rfl
  | subscribers a' => rw [step_subscribers_snd]
  | tryRecv s =>
    rw [step_tryRecv_transport]
    split
    · rw [Local.tryReceive_queue]
    · rfl
  | drain s =>
    rw [step_drain_transport]
    split
    · rw [Local.drain_queue]
    · rfl
  | subRecv s =>
    rcases step_subRecv_transport b s with h | h <;> rw [h]
    rw [Local.tryReceive_queue]
  | conn n cs =>
    rw [step_conn_transport]
    split
    · rename_i hd hn
      by_cases hcs : cs = .recv
      · subst hcs
        rw [Handler.step_recv_snd, Connection.recv_snd]
        refine Local.take_queue fun p hp hpa => hr (requestAnswer hd.conn) ?_
        rw [reading_conn_recv, hn]
        simp [hp, hpa]
      · rw [Handler.step_queue _ _ hcs]
    · rfl
  | terminate => rw [step_terminate]; rfl
  | isTerminated => rw [step_isTerminated_snd]

/-! ## The live pull endpoints -/

theorem filterMap_set_of_eq {α β : Type} {f : α → Option β} :
    ∀ {l : List α} {n : Nat} {x y : α}, l[n]? = some x → f y = f x →
      (l.set n y).filterMap f = l.filterMap f
  | _ :: _, 0, _, _, hx, hf => by
    simp only [List.getElem?_cons_zero, Option.some.injEq] at hx
    subst hx
    simp [List.filterMap_cons, hf]
  | _ :: _, _ + 1, _, _, hx, hf => by
    simp only [List.getElem?_cons_succ] at hx
    simp [List.filterMap_cons, filterMap_set_of_eq hx hf]

/-- Clearing an entry drops its image from the filtered list. -/
theorem filterMap_set_perm {α β : Type} {f : α → Option β} :
    ∀ {l : List α} {n : Nat} {x y : α} {j : β}, l[n]? = some x → f x = some j → f y = none →
      (l.filterMap f).Perm (j :: (l.set n y).filterMap f)
  | _ :: _, 0, _, _, _, hx, hfx, hfy => by
    simp only [List.getElem?_cons_zero, Option.some.injEq] at hx
    subst hx
    simp [hfx, hfy]
  | z :: _, _ + 1, _, _, j, hx, hfx, hfy => by
    simp only [List.getElem?_cons_succ] at hx
    have ih := filterMap_set_perm hx hfx hfy
    simp only [List.set_cons_succ, List.filterMap_cons]
    cases f z with
    | none => exact ih
    | some k => exact (ih.cons k).trans (List.Perm.swap j k _)

/-- The live endpoints depend only on the raw endpoints and the connections. -/
theorem endpoints_congr {b b' : LocalBench} (hr : b'.rawPullers = b.rawPullers)
    (hh : b'.handlers = b.handlers) : b'.endpoints = b.endpoints := by
  unfold endpoints
  rw [hr, hh]

section Kept

variable {b : LocalBench}

/-- The push sockets stay accepted while they and termination stay as they were. -/
theorem Kept.sockets_congr (hk : b.Kept) {b' : LocalBench} (hs : b'.pushSockets = b.pushSockets)
    (ht : b'.transport.terminated = b.transport.terminated) :
    ∀ a ∈ b'.pushSockets, b'.transport.terminated = false → b'.transport.check a = .ok () := by
  intro a ha hlive
  rw [Local.check_congr ht]
  rw [hs] at ha
  rw [ht] at hlive
  exact hk.sockets a ha hlive

/-- The invariant depends only on the push sockets, the live endpoints and the pullers. -/
theorem Kept.congr (hk : b.Kept) {b' : LocalBench} (hs : b'.pushSockets = b.pushSockets)
    (he : b'.endpoints = b.endpoints) (hp : b'.transport.pullers = b.transport.pullers)
    (ht : b'.transport.terminated = b.transport.terminated) : b'.Kept where
  sockets := hk.sockets_congr hs ht
  nodup := he ▸ hk.nodup
  attached i p hip := by
    rw [he]
    rw [hp] at hip
    exact hk.attached i p hip
  bound i hi := by
    rw [hp]
    rw [he] at hi
    exact hk.bound i hi

/-- A new puller, live exactly when attached, keeps the invariant. -/
theorem Kept.extend (hk : b.Kept) {b' : LocalBench} {p : Puller}
    (hs : b'.pushSockets = b.pushSockets) (hp : b'.transport.pullers = b.transport.pullers ++ [p])
    (ht : b'.transport.terminated = b.transport.terminated)
    (he : b'.endpoints.Perm (b.endpoints ++ if p.attached then [b.transport.pullers.length] else [])) :
    b'.Kept := by
  have hfresh : b.transport.pullers.length ∉ b.endpoints := fun h => Nat.lt_irrefl _ (hk.bound _ h)
  have hmem : ∀ i, i ∈ b'.endpoints ↔ i ∈ b.endpoints ∨ (p.attached = true ∧ i = b.transport.pullers.length) := by
    intro i
    rw [he.mem_iff]
    cases p.attached <;> simp
  refine ⟨hk.sockets_congr hs ht, ?_, fun i q hiq => ?_, fun i hi => ?_⟩
  · rw [he.nodup_iff]
    cases p.attached
    · simpa using hk.nodup
    · simp only [if_true, List.nodup_append, List.mem_singleton]
      refine ⟨hk.nodup, List.pairwise_singleton _ _, fun x hx y hy hxy => hfresh ?_⟩
      rw [← hy, ← hxy]
      exact hx
  · rw [hp] at hiq
    rw [hmem]
    rcases Nat.lt_or_ge i b.transport.pullers.length with hi | hi
    · -- an old puller keeps its record
      rw [List.getElem?_append_left hi] at hiq
      rw [hk.attached i q hiq]
      constructor
      · exact .inl
      · rintro (h | ⟨-, rfl⟩)
        · exact h
        · exact absurd hi (Nat.lt_irrefl _)
    · rw [List.getElem?_append_right hi] at hiq
      obtain ⟨h0, rfl⟩ : i - b.transport.pullers.length = 0 ∧ p = q := by
        cases hk' : i - b.transport.pullers.length with
        | zero =>
          rw [hk'] at hiq
          exact ⟨rfl, Option.some.inj hiq⟩
        | succ j =>
          rw [hk'] at hiq
          cases hiq
      have hieq : i = b.transport.pullers.length := by omega
      subst hieq
      constructor
      · exact fun h => .inr ⟨h, rfl⟩
      · rintro (h | ⟨h, -⟩)
        · exact absurd h hfresh
        · exact h
  · rw [hp, List.length_append, List.length_singleton]
    rcases (hmem i).1 hi with h | ⟨-, rfl⟩
    · exact Nat.lt_succ_of_lt (hk.bound i h)
    · exact Nat.lt_succ_self _

/-- Detaching the puller of one live endpoint, which stops being live, keeps the invariant. -/
theorem Kept.detach (hk : b.Kept) {b' : LocalBench} {j : Nat}
    (hs : b'.pushSockets = b.pushSockets)
    (hp : b'.transport.pullers = b.transport.pullers.modify j fun p => { p with attached := false })
    (ht : b'.transport.terminated = b.transport.terminated) (he : b.endpoints.Perm (j :: b'.endpoints)) :
    b'.Kept := by
  have hnd : (j :: b'.endpoints).Nodup := he.nodup_iff.1 hk.nodup
  have hj : j ∉ b'.endpoints := (List.nodup_cons.1 hnd).1
  refine ⟨hk.sockets_congr hs ht, (List.nodup_cons.1 hnd).2, fun i q hiq => ?_, fun i hi => ?_⟩
  · rw [hp, List.getElem?_modify] at hiq
    by_cases hij : j = i
    · subst hij
      obtain ⟨q', -, rfl⟩ := Option.map_eq_some_iff.1 (by simpa using hiq)
      simp [hj]
    · have hiq' : b.transport.pullers[i]? = some q := by simpa [hij] using hiq
      rw [hk.attached i q hiq', he.mem_iff, List.mem_cons]
      constructor
      · rintro (h | h)
        · exact absurd h.symm hij
        · exact h
      · exact .inr
  · rw [hp, List.length_modify]
    exact hk.bound i (he.mem_iff.2 (List.mem_cons_of_mem _ hi))

theorem Kept.opened (hk : b.Kept) {r : Except Error Connection × Local}
    (hr : Connects b.transport r) : (b.opened r).2.Kept := by
  cases hr with
  | refused e => exact hk.congr rfl rfl rfl rfl
  | detached e p hp =>
    refine hk.extend (p := p) rfl rfl rfl ?_
    rw [hp, if_neg (by decide), List.append_nil]
    exact List.Perm.refl _
  | opened c p hc ho hp =>
    -- the new connection's inbound handle is the new puller
    refine hk.extend (p := p) rfl rfl rfl ?_
    rw [hp, if_pos rfl, opened_ok]
    simp [endpoints, List.filterMap_append, hc]

theorem Kept.pushed (hk : b.Kept) {a : String} (h : b.transport.pushSocket a = .ok ()) (m : Bytes) :
    (b.step (.push a m)).2.Kept := by
  obtain ⟨-, ht⟩ := step_push_of_ok h m
  have hsock : ∀ a' ∈ (b.step (.push a m)).2.pushSockets, a' ∈ b.pushSockets ∨ a' = a := by
    rw [step_push]
    repeat' split
    all_goals simp_all
  have hend : (b.step (.push a m)).2.endpoints = b.endpoints :=
    endpoints_congr (step_rawPullers b nofun) (step_handlers b nofun nofun nofun)
  refine ⟨fun a' ha' hlive => ?_, hend ▸ hk.nodup, fun i p hip => ?_, fun i hi => ?_⟩
  · rw [ht, Local.setQueue_terminated] at hlive
    rw [ht, Local.check_congr (Local.setQueue_terminated _ _ _)]
    rcases hsock a' ha' with ha' | rfl
    · exact hk.sockets a' ha' hlive
    · exact h
  · rw [ht, Local.setQueue_pullers] at hip
    rw [hend]
    exact hk.attached i p hip
  · rw [ht, Local.setQueue_pullers]
    rw [hend] at hi
    exact hk.bound i hi

/-- Every step keeps the invariant. -/
theorem Kept.step (hk : b.Kept) (s : LocalStep) : (b.step s).2.Kept := by
  cases s with
  | openConn i a o =>
    rw [step_openConn]
    exact hk.opened (Connects.connect i a o)
  | openConfig yaml =>
    cases hy : Config.loadText yaml with
    | error e =>
      rw [step_openConfig_of_error _ hy]
      exact hk
    | ok cfg =>
      rw [step_openConfig_of_ok _ hy]
      exact hk.opened (Connects.fromConfig _)
  | push a m =>
    cases hs : b.transport.pushSocket a with
    | error e =>
      rw [hk.step_push_of_error hs m]
      exact hk
    | ok u => exact hk.pushed hs m
  | pull a i =>
    cases hc : b.transport.check a with
    | error e =>
      rw [step_pull, Local.pullOn_of_error hc]
      exact hk.congr rfl rfl rfl rfl
    | ok u =>
      rw [step_pull, Local.pullOn_of_ok hc]
      -- the new raw endpoint is the new puller
      refine hk.extend (p := { addr := a, identity := i }) rfl rfl rfl ?_
      rw [if_pos rfl]
      simp only [endpoints, List.append_assoc]
      exact List.Perm.append_left _ List.perm_append_comm
  | conn n cs =>
    cases hn : handlerAt b.handlers n with
    | none =>
      rw [step_conn, hn]
      exact hk
    | some hd =>
      by_cases hcs : cs = .close
      · -- closing detaches the connection's puller, which stops being a live endpoint
        subst hcs
        rw [step_conn, hn]
        dsimp only
        rw [Handler.step_close]
        refine hk.detach (j := hd.conn.inbound) rfl rfl rfl ?_
        have hperm := filterMap_set_perm (f := fun h? : Option Handler => h?.map (·.conn.inbound))
          (getElem?_of_handlerAt hn) rfl (y := none) rfl
        exact (List.Perm.append_left b.rawPullers hperm).trans List.perm_middle
      · obtain ⟨h', hh', hin, -, -⟩ := Handler.step_keeps hd b.transport hcs
        refine hk.congr (step_pushSockets b nofun) ?_ ?_ ?_
        · rw [step_conn, hn]
          dsimp only
          simp only [endpoints]
          rw [hh', filterMap_set_of_eq (getElem?_of_handlerAt hn) (by simp [hin])]
        · rw [step_conn_transport, hn]
          exact Handler.step_pullers hd b.transport hcs
        · rw [step_conn_transport, hn]
          exact Handler.step_terminated hd b.transport cs
  | terminate =>
    rw [step_terminate]
    exact ⟨fun _ _ h => (nomatch h), hk.nodup, hk.attached, hk.bound⟩
  | _ =>
    -- the other steps leave the server, the connections, the pullers and termination alone
    exact hk.congr (step_pushSockets b nofun)
      (endpoints_congr (step_rawPullers b nofun) (step_handlers b nofun nofun nofun))
      (step_pullers_eq b nofun nofun nofun nofun) (step_terminated_eq b nofun)

theorem Kept.init : ({} : LocalBench).Kept :=
  ⟨fun _ h => (nomatch h), List.nodup_nil, fun _ _ h => (nomatch h), fun _ h => (nomatch h)⟩

/-- Every bench of a run keeps the invariant. -/
theorem Kept.trace : ∀ {b : LocalBench}, b.Kept → ∀ steps : List LocalStep, (b.trace steps).2.Kept
  | _, hk, [] => hk
  | _, hk, s :: ss => Kept.trace (hk.step s) ss

end Kept

/-! ## The puller count -/

/-- The pullers the transport counts on an address are the live pull endpoints on it. -/
theorem Kept.pullerCount_eq {b : LocalBench} (hk : b.Kept) (a : String) :
    b.transport.pullerCount a = b.livePullers a := by
  unfold Local.pullerCount livePullers
  rw [length_filter_eq_range]
  apply List.Perm.length_eq
  rw [List.perm_ext_iff_of_nodup (List.nodup_range.sublist List.filter_sublist)
    (hk.nodup.sublist List.filter_sublist)]
  intro i
  simp only [List.mem_filter, List.mem_range]
  cases hq : b.transport.pullers[i]? with
  | none => simp
  | some p =>
    have hi : i < b.transport.pullers.length := (List.getElem?_eq_some_iff.1 hq).1
    simp only [Option.any_some, Bool.and_eq_true]
    rw [hk.attached i p hq]
    constructor
    · rintro ⟨-, he, ha⟩
      exact ⟨he, ha⟩
    · rintro ⟨he, ha⟩
      exact ⟨hi, he, ha⟩

/-! ## Runs follow the contract -/

/-- Every step of a bench that keeps the invariant is an event of the contract of every
address, from the queue before to the queue after. -/
theorem Kept.serves {b : LocalBench} (hk : b.Kept) (s : LocalStep) (a : String) :
    Serves a (b.event s) (b.transport.queue a) ((b.step s).2.transport.queue a) := by
  by_cases hpush : ∃ m, s = .push a m
  · obtain ⟨m, rfl⟩ := hpush
    cases hs : b.transport.pushSocket a with
    | ok u =>
      obtain ⟨ho, ht⟩ := step_push_of_ok hs m
      rw [ht, Local.setQueue_queue, if_pos rfl]
      exact .accept rfl hs ho
    | error e =>
      have hstep := hk.step_push_of_error hs m
      have ho : (b.event (.push a m)).outcome = .failed e := by
        show (b.step (.push a m)).1 = _
        rw [hstep]
      rw [hstep]
      exact .refuse rfl hs ho
  by_cases hread : ∃ f, b.reading s = some (a, f)
  · obtain ⟨f, hf⟩ := hread
    cases hq : b.transport.queue a with
    | nil =>
      obtain ⟨ho, ht⟩ := (step_of_reading hf).2 hq
      rw [ht, hq]
      exact .wait hf ho
    | cons m q =>
      obtain ⟨ho, ht, hkeep⟩ := (step_of_reading hf).1 hq
      rw [ht, Local.setQueue_queue, if_pos rfl]
      exact .serve hf ho hkeep
  · have hp : ∀ m, s ≠ .push a m := fun m h => hpush ⟨m, h⟩
    have hr : ∀ f, b.reading s ≠ some (a, f) := fun f h => hread ⟨f, h⟩
    rw [hk.queue_step hp hr]
    exact .skip hp hr

/-- A run from a bench that keeps the invariant follows the contract of every address. -/
theorem Kept.fifo : ∀ {b : LocalBench}, b.Kept → ∀ (a : String) (steps : List LocalStep),
    Fifo a (b.transport.queue a) (b.trace steps).1 ((b.trace steps).2.transport.queue a)
  | _, _, _, [] => .nil
  | _, hk, a, s :: ss => .cons (hk.serves s a) (Kept.fifo (hk.step s) a ss)

theorem step_pullers_fst (b : LocalBench) (a : String) :
    (b.step (.pullers a)).1 =
      match b.transport.pushSocket a with
      | .ok () => .ok (.count (b.transport.pullerCount a))
      | .error e => .failed e := by
  unfold step
  dsimp only
  cases b.transport.pushSocket a <;> rfl

/-- Every run of the bench from a fresh one serves the requests of each address as one queue:
pushes join the back while a push socket can be had, each receive on any endpoint of the
address takes the front and answers with it (a connection with `tooLarge` or the request read),
a receive with nothing queued waits, or fails once terminated, and nothing else touches the
queue, which ends as the transport's own. The count of pullers the server is given is the
number of live pull endpoints on the address. -/
theorem requests_served_in_order (steps : List LocalStep) (a : String) :
    Fifo a [] (({} : LocalBench).trace steps).1
        ((({} : LocalBench).trace steps).2.transport.queue a) ∧
      ∀ e ∈ (({} : LocalBench).trace steps).1, e.step = .pullers a →
        e.before.transport.pushSocket a = .ok () → e.outcome = .ok (.count (e.before.livePullers a)) := by
  refine ⟨Kept.init.fifo a steps, fun e he hs hsock => ?_⟩
  obtain ⟨pre, hpre, heq⟩ := trace_before steps he
  have hk : e.before.Kept := hpre ▸ Kept.init.trace pre
  have ho : e.outcome = (e.before.step e.step).1 := congrArg Event.outcome heq
  rw [ho, hs, step_pullers_fst, hsock, hk.pullerCount_eq]

/-- Two requests pushed before any puller exists, then one pull endpoint that takes one: the
first is served, the second is still queued at the end, and the server counts one puller. -/
theorem requests_pushed_before_any_puller :
    let steps : List LocalStep := [.push "inproc://req" [97], .push "inproc://req" [98],
      .pull "inproc://req" none, .pullers "inproc://req", .pullRecv 0]
    Fifo "inproc://req" [] (({} : LocalBench).trace steps).1 [[98]] ∧
      ∀ e ∈ (({} : LocalBench).trace steps).1, e.step = .pullers "inproc://req" →
        e.outcome = .ok (.count 1) := by
  intro steps
  obtain ⟨hfifo, hcount⟩ := requests_served_in_order steps "inproc://req"
  have hq : (({} : LocalBench).trace steps).2.transport.queue "inproc://req" = [[98]] := by
    decide +kernel
  refine ⟨hq ▸ hfifo, fun e he hs => ?_⟩
  -- the one `pullers` step is the fourth, after the pull endpoint was made
  have he' := he
  simp only [steps, trace, List.mem_cons, List.not_mem_nil, or_false] at he'
  rcases he' with rfl | rfl | rfl | rfl | rfl
  all_goals try cases hs
  rw [hcount _ he rfl (Local.check_eq_ok_iff.2 (by decide +kernel))]
  congr 2
  decide +kernel

end LocalBench

end HandlerKit
