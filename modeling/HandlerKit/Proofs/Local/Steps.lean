import HandlerKit.Bench.Local

/-!
# Runs of the in-process bench

A run is a list of bench steps from a fresh bench. Recording for each step the bench it ran on,
its outcome and the bench it left gives the run's *events* (`LocalBench.trace`); their
outcomes are what the bench reports (`run_eq_trace`).

**What each call changes.** A call of the in-process transport touches one part of it: the
request queues, the pull endpoints, the subscribers, or whether it is terminated. The small
lemmas here say which, call by call and for the connection operations built on them, so that
a proof about one part never unfolds a call that leaves it alone.

**Steps.** A bench step is a large match; its equations are stated here one step kind at a
time (`step_push`, `step_pullRecv`, `step_conn`, …), each true by definition, and later proofs
rewrite with them instead of unfolding the whole step.
-/

namespace HandlerKit

/-- Changing the last entry of a list. -/
theorem modify_append_length {α : Type} (l : List α) (x : α) (f : α → α) :
    (l ++ [x]).modify l.length f = l ++ [f x] := by
  induction l with
  | nil => rfl
  | cons y l ih => simp [List.modify_succ_cons, ih]

namespace Local

variable (t : Local)

/-! ## What each call changes -/

/-- Whether an address is usable depends on the transport only through termination. -/
theorem check_congr {t t' : Local} (h : t.terminated = t'.terminated) (a : String) :
    t.check a = t'.check a := by
  unfold check
  rw [h]

theorem check_of_terminated {t : Local} (h : t.terminated = true) (a : String) :
    t.check a = .error .terminated := by
  unfold check
  rw [if_pos h]

/-- A live transport accepts exactly the `inproc://` addresses with a name. -/
theorem check_eq_ok_iff {t : Local} {a : String} :
    t.check a = .ok () ↔
      t.terminated = false ∧ (a.startsWith scheme && a.length > scheme.length) = true := by
  unfold check
  cases t.terminated with
  | true => simp
  | false => by_cases hc : (a.startsWith scheme && a.length > scheme.length) = true <;> simp [hc]

@[simp] theorem setQueue_queue (a : String) (q : List Bytes) (a' : String) :
    (t.setQueue a q).queue a' = if a' = a then q else t.queue a' := rfl

@[simp] theorem setQueue_pullers (a : String) (q : List Bytes) :
    (t.setQueue a q).pullers = t.pullers := rfl

@[simp] theorem setQueue_subscribers (a : String) (q : List Bytes) :
    (t.setQueue a q).subscribers = t.subscribers := rfl

@[simp] theorem setQueue_terminated (a : String) (q : List Bytes) :
    (t.setQueue a q).terminated = t.terminated := rfl

@[simp] theorem closePuller_queue (i : Nat) : (t.closePuller i).queue = t.queue := rfl

@[simp] theorem closePuller_subscribers (i : Nat) :
    (t.closePuller i).subscribers = t.subscribers := rfl

@[simp] theorem closePuller_terminated (i : Nat) :
    (t.closePuller i).terminated = t.terminated := rfl

@[simp] theorem fanOut_queue (a : String) (m : Bytes) : (t.fanOut a m).queue = t.queue := rfl

@[simp] theorem fanOut_pullers (a : String) (m : Bytes) : (t.fanOut a m).pullers = t.pullers := rfl

@[simp] theorem fanOut_terminated (a : String) (m : Bytes) :
    (t.fanOut a m).terminated = t.terminated := rfl

@[simp] theorem dropSubscriber_queue (s : Nat) : (t.dropSubscriber s).queue = t.queue := rfl

@[simp] theorem dropSubscriber_pullers (s : Nat) : (t.dropSubscriber s).pullers = t.pullers := rfl

@[simp] theorem dropSubscriber_terminated (s : Nat) :
    (t.dropSubscriber s).terminated = t.terminated := rfl

@[simp] theorem terminate_queue : t.terminate.queue = t.queue := rfl

@[simp] theorem terminate_pullers : t.terminate.pullers = t.pullers := rfl

@[simp] theorem terminate_subscribers : t.terminate.subscribers = t.subscribers := rfl

@[simp] theorem terminate_terminated : t.terminate.terminated = true := rfl

theorem pullOn_of_error {t : Local} {a : String} {e : Error} (h : t.check a = .error e)
    (i : Option Bytes) : t.pullOn i a = (.error e, t) := by
  unfold pullOn
  rw [h]

theorem pullOn_of_ok {t : Local} {a : String} (h : t.check a = .ok ()) (i : Option Bytes) :
    t.pullOn i a =
      (.ok t.pullers.length, { t with pullers := t.pullers ++ [{ addr := a, identity := i }] }) := by
  unfold pullOn
  rw [h]

@[simp] theorem pullOn_queue (i : Option Bytes) (a : String) : (t.pullOn i a).2.queue = t.queue := by
  unfold pullOn
  split <;> rfl

@[simp] theorem pullOn_subscribers (i : Option Bytes) (a : String) :
    (t.pullOn i a).2.subscribers = t.subscribers := by
  unfold pullOn
  split <;> rfl

@[simp] theorem pullOn_terminated (i : Option Bytes) (a : String) :
    (t.pullOn i a).2.terminated = t.terminated := by
  unfold pullOn
  split <;> rfl

@[simp] theorem publishOn_queue (a : String) : (t.publishOn a).2.queue = t.queue := by
  unfold publishOn
  split <;> rfl

@[simp] theorem publishOn_pullers (a : String) : (t.publishOn a).2.pullers = t.pullers := by
  unfold publishOn
  split <;> rfl

@[simp] theorem publishOn_subscribers (a : String) :
    (t.publishOn a).2.subscribers = t.subscribers := by
  unfold publishOn
  split <;> rfl

@[simp] theorem publishOn_terminated (a : String) :
    (t.publishOn a).2.terminated = t.terminated := by
  unfold publishOn
  split <;> rfl

theorem subscribe_of_error {t : Local} {a : String} {e : Error} (h : t.check a = .error e) :
    t.subscribe a = (.error e, t) := by
  unfold subscribe
  rw [h]

theorem subscribe_of_ok {t : Local} {a : String} (h : t.check a = .ok ()) :
    t.subscribe a =
      (.ok t.subscribers.length, { t with subscribers := t.subscribers ++ [{ addr := a }] }) := by
  unfold subscribe
  rw [h]

@[simp] theorem subscribe_queue (a : String) : (t.subscribe a).2.queue = t.queue := by
  unfold subscribe
  split <;> rfl

@[simp] theorem subscribe_pullers (a : String) : (t.subscribe a).2.pullers = t.pullers := by
  unfold subscribe
  split <;> rfl

@[simp] theorem subscribe_terminated (a : String) :
    (t.subscribe a).2.terminated = t.terminated := by
  unfold subscribe
  split <;> rfl

theorem take_of_none {t : Local} {i : Nat} (h : t.pullers[i]? = none) : t.take i = (.idle, t) := by
  unfold take
  rw [h]

theorem take_of_cons {t : Local} {i : Nat} {p : Puller} {m : Bytes} {q : List Bytes}
    (hp : t.pullers[i]? = some p) (hq : t.queue p.addr = m :: q) :
    t.take i = (.ready m, t.setQueue p.addr q) := by
  unfold take
  rw [hp]
  dsimp only
  rw [hq]

theorem take_of_nil {t : Local} {i : Nat} {p : Puller} (hp : t.pullers[i]? = some p)
    (hq : t.queue p.addr = []) :
    t.take i = (if t.terminated then .failed .terminated else .idle, t) := by
  unfold take
  rw [hp]
  dsimp only
  rw [hq]

theorem take_snd_of_idle {t t' : Local} {i : Nat} (h : t.take i = (.idle, t')) : t' = t := by
  unfold take at h
  split at h
  · cases h
    rfl
  · split at h
    · cases h
    · split at h
      · cases h
      · cases h
        rfl

@[simp] theorem take_pullers (i : Nat) : (t.take i).2.pullers = t.pullers := by
  unfold take
  split
  · rfl
  · split <;> rfl

@[simp] theorem take_subscribers (i : Nat) : (t.take i).2.subscribers = t.subscribers := by
  unfold take
  split
  · rfl
  · split <;> rfl

@[simp] theorem take_terminated (i : Nat) : (t.take i).2.terminated = t.terminated := by
  unfold take
  split
  · rfl
  · split <;> rfl

theorem publishTo_of_terminated {t : Local} (h : t.terminated = true) (o : Nat) (m : Bytes) :
    t.publishTo o m = (.error .terminated, t) := by
  unfold publishTo
  rw [if_pos h]

theorem publishTo_of_some {t : Local} {o : Nat} {a : String} (h : t.terminated = false)
    (ho : t.publishers[o]? = some a) (m : Bytes) : t.publishTo o m = (.ok (), t.fanOut a m) := by
  unfold publishTo
  rw [if_neg (by simp [h]), ho]

theorem publishTo_of_none {t : Local} {o : Nat} (h : t.terminated = false)
    (ho : t.publishers[o]? = none) (m : Bytes) : t.publishTo o m = (.ok (), t) := by
  unfold publishTo
  rw [if_neg (by simp [h]), ho]

@[simp] theorem publishTo_queue (o : Nat) (m : Bytes) : (t.publishTo o m).2.queue = t.queue := by
  unfold publishTo
  split
  · rfl
  · split <;> rfl

@[simp] theorem publishTo_pullers (o : Nat) (m : Bytes) :
    (t.publishTo o m).2.pullers = t.pullers := by
  unfold publishTo
  split
  · rfl
  · split <;> rfl

@[simp] theorem publishTo_terminated (o : Nat) (m : Bytes) :
    (t.publishTo o m).2.terminated = t.terminated := by
  unfold publishTo
  split
  · rfl
  · split <;> rfl

@[simp] theorem tryReceive_queue (s : Nat) : (t.tryReceive s).2.queue = t.queue := by
  unfold tryReceive
  split
  · split <;> rfl
  · rfl

@[simp] theorem tryReceive_pullers (s : Nat) : (t.tryReceive s).2.pullers = t.pullers := by
  unfold tryReceive
  split
  · split <;> rfl
  · rfl

@[simp] theorem tryReceive_terminated (s : Nat) :
    (t.tryReceive s).2.terminated = t.terminated := by
  unfold tryReceive
  split
  · split <;> rfl
  · rfl

theorem receive_snd (s : Nat) : (t.receive s).2 = (t.tryReceive s).2 := by
  unfold receive
  split <;> simp_all

@[simp] theorem drain_queue (s : Nat) : (t.drain s).2.queue = t.queue := by
  unfold drain
  split <;> rfl

@[simp] theorem drain_pullers (s : Nat) : (t.drain s).2.pullers = t.pullers := by
  unfold drain
  split <;> rfl

@[simp] theorem drain_terminated (s : Nat) : (t.drain s).2.terminated = t.terminated := by
  unfold drain
  split <;> rfl

/-! Publish endpoints are made only by `publishOn`. -/

@[simp] theorem setQueue_publishers (a : String) (q : List Bytes) :
    (t.setQueue a q).publishers = t.publishers := rfl

@[simp] theorem closePuller_publishers (i : Nat) : (t.closePuller i).publishers = t.publishers := rfl

@[simp] theorem fanOut_publishers (a : String) (m : Bytes) :
    (t.fanOut a m).publishers = t.publishers := rfl

@[simp] theorem dropSubscriber_publishers (s : Nat) :
    (t.dropSubscriber s).publishers = t.publishers := rfl

@[simp] theorem terminate_publishers : t.terminate.publishers = t.publishers := rfl

@[simp] theorem pullOn_publishers (i : Option Bytes) (a : String) :
    (t.pullOn i a).2.publishers = t.publishers := by
  unfold pullOn
  split <;> rfl

@[simp] theorem subscribe_publishers (a : String) : (t.subscribe a).2.publishers = t.publishers := by
  unfold subscribe
  split <;> rfl

@[simp] theorem take_publishers (i : Nat) : (t.take i).2.publishers = t.publishers := by
  unfold take
  split
  · rfl
  · split <;> rfl

@[simp] theorem publishTo_publishers (o : Nat) (m : Bytes) :
    (t.publishTo o m).2.publishers = t.publishers := by
  unfold publishTo
  split
  · rfl
  · split <;> rfl

@[simp] theorem tryReceive_publishers (s : Nat) : (t.tryReceive s).2.publishers = t.publishers := by
  unfold tryReceive
  split
  · split <;> rfl
  · rfl

@[simp] theorem drain_publishers (s : Nat) : (t.drain s).2.publishers = t.publishers := by
  unfold drain
  split <;> rfl

end Local

/-! ## Connections over the in-process transport -/

namespace Connection

variable (t : Local)

/-- Connecting makes a pull endpoint, then a publish endpoint; when the second address is
refused the new pull endpoint is detached again. -/
theorem connect_eq (i : Option Bytes) (a o : String) :
    connect t i a o =
      match t.check a with
      | .error e => (.error e, t)
      | .ok () =>
        match t.check o with
        | .error e =>
          (.error e, { t with pullers := t.pullers ++ [{ addr := a, identity := i, attached := false }] })
        | .ok () =>
          (.ok { identity := i, inboundAddr := a, outboundAddr := o, inbound := t.pullers.length,
                 outbound := t.publishers.length },
            { t with pullers := t.pullers ++ [{ addr := a, identity := i }],
                     publishers := t.publishers ++ [o] }) := by
  unfold connect
  simp only [Transport.pull, Transport.publish, Transport.closeInbound]
  cases ha : t.check a with
  | error e => rw [Local.pullOn_of_error ha]
  | ok u =>
    rw [Local.pullOn_of_ok ha]
    dsimp only
    unfold Local.publishOn
    -- the new pull endpoint leaves termination, so the second check, as it was
    have hc : ({ t with pullers := t.pullers ++ [{ addr := a, identity := i }] } : Local).check o =
        t.check o := Local.check_congr rfl o
    rw [hc]
    cases t.check o with
    | error e =>
      dsimp only
      unfold Local.closePuller
      rw [modify_append_length]
    | ok u => rfl

@[simp] theorem connect_queue (i : Option Bytes) (a o : String) :
    (connect t i a o).2.queue = t.queue := by
  rw [connect_eq]
  split
  · rfl
  · split <;> rfl

@[simp] theorem connect_subscribers (i : Option Bytes) (a o : String) :
    (connect t i a o).2.subscribers = t.subscribers := by
  rw [connect_eq]
  split
  · rfl
  · split <;> rfl

@[simp] theorem connect_terminated (i : Option Bytes) (a o : String) :
    (connect t i a o).2.terminated = t.terminated := by
  rw [connect_eq]
  split
  · rfl
  · split <;> rfl

theorem fromConfig_snd (h : HandlerSection) :
    (fromConfig t h).2 = (connect t (h.senderId.map Bytes.ofString) h.recvAddr h.sendAddr).2 := by
  unfold fromConfig
  split <;> simp_all

@[simp] theorem publishFramed_queue (c : Connection) (msg : Except Error Bytes) :
    (c.publishFramed t msg).2.queue = t.queue := by
  cases msg <;> simp [publishFramed, Transport.send]

@[simp] theorem publishFramed_pullers (c : Connection) (msg : Except Error Bytes) :
    (c.publishFramed t msg).2.pullers = t.pullers := by
  cases msg <;> simp [publishFramed, Transport.send]

@[simp] theorem publishFramed_terminated (c : Connection) (msg : Except Error Bytes) :
    (c.publishFramed t msg).2.terminated = t.terminated := by
  cases msg <;> simp [publishFramed, Transport.send]

/-- A receive takes one message from the inbound endpoint, whatever it makes of it. -/
theorem recv_snd (c : Connection) : (c.recv t).2 = (t.take c.inbound).2 := by
  unfold recv
  simp only [Transport.recv]
  rcases t.take c.inbound with ⟨w, t'⟩
  cases w with
  | ready raw =>
    dsimp only
    cases c.accept raw <;> rfl
  | _ => rfl

@[simp] theorem publishFramed_publishers (c : Connection) (msg : Except Error Bytes) :
    (c.publishFramed t msg).2.publishers = t.publishers := by
  cases msg <;> simp [publishFramed, Transport.send]

end Connection

/-! ## Steps on one connection -/

namespace Handler

variable (h : Handler) (t : Local)

theorem answering_snd (f : Request → Except Error Unit × Local) :
    (h.answering t f).2 = (some h, match h.last with | none => t | some r => (f r).2) := by
  unfold answering
  cases h.last with
  | none => rfl
  | some r => rfl

theorem step_recv_snd : (h.step t .recv).2.2 = (h.conn.recv t).2 := by
  unfold step
  rcases h.conn.recv t with ⟨w, t'⟩
  cases w <;> rfl

theorem step_close : h.step t .close = (.ok .done, none, t.closePuller h.conn.inbound) := rfl

/-- A step other than closing keeps the connection open, on the same endpoints. -/
theorem step_keeps {cs : ConnStep} (hcs : cs ≠ .close) :
    ∃ h', (h.step t cs).2.1 = some h' ∧ h'.conn.inbound = h.conn.inbound ∧
      h'.conn.outbound = h.conn.outbound ∧ h'.conn.outboundAddr = h.conn.outboundAddr := by
  cases cs with
  | recv =>
    unfold step
    rcases h.conn.recv t with ⟨w, t'⟩
    cases w <;> exact ⟨_, rfl, rfl, rfl, rfl⟩
  | reply p => exact ⟨h, by unfold step; rw [answering_snd], rfl, rfl, rfl⟩
  | replyHttp body code status headers =>
    exact ⟨h, by unfold step; rw [answering_snd], rfl, rfl, rfl⟩
  | replyClose => exact ⟨h, by unfold step; rw [answering_snd], rfl, rfl, rfl⟩
  | close => exact absurd rfl hcs
  | _ => exact ⟨_, rfl, rfl, rfl, rfl⟩

/-- The transport a step leaves: a receive takes from the inbound endpoint, a send publishes
through the outbound one, closing detaches the inbound one, and the rest leave it alone. -/
theorem step_transport (cs : ConnStep) :
    (h.step t cs).2.2 = t ∨ (cs = .recv ∧ (h.step t cs).2.2 = (t.take h.conn.inbound).2) ∨
      (cs.sends = true ∧ ∃ msg, (h.step t cs).2.2 = (h.conn.publishFramed t msg).2) ∨
      (cs = .close ∧ (h.step t cs).2.2 = t.closePuller h.conn.inbound) := by
  cases cs with
  | recv => exact .inr (.inl ⟨rfl, by rw [step_recv_snd, Connection.recv_snd]⟩)
  | send s c p => exact .inr (.inr (.inl ⟨rfl, _, rfl⟩))
  | deliver s ids p => exact .inr (.inr (.inl ⟨rfl, _, rfl⟩))
  | reply p =>
    unfold step
    rw [answering_snd]
    split
    · exact .inl rfl
    · exact .inr (.inr (.inl ⟨rfl, _, rfl⟩))
  | replyHttp body code status headers =>
    unfold step
    rw [answering_snd]
    split
    · exact .inl rfl
    · exact .inr (.inr (.inl ⟨rfl, _, rfl⟩))
  | replyClose =>
    unfold step
    rw [answering_snd]
    split
    · exact .inl rfl
    · exact .inr (.inr (.inl ⟨rfl, _, rfl⟩))
  | close => exact .inr (.inr (.inr ⟨rfl, rfl⟩))
  | _ => exact .inl rfl

@[simp] theorem step_terminated (cs : ConnStep) : (h.step t cs).2.2.terminated = t.terminated := by
  rcases step_transport h t cs with h' | ⟨-, h'⟩ | ⟨-, msg, h'⟩ | ⟨-, h'⟩ <;> simp [h']

@[simp] theorem step_publishers (cs : ConnStep) : (h.step t cs).2.2.publishers = t.publishers := by
  rcases step_transport h t cs with h' | ⟨-, h'⟩ | ⟨-, msg, h'⟩ | ⟨-, h'⟩ <;> simp [h']

theorem step_pullers {cs : ConnStep} (hcs : cs ≠ .close) : (h.step t cs).2.2.pullers = t.pullers := by
  rcases step_transport h t cs with h' | ⟨-, h'⟩ | ⟨-, msg, h'⟩ | ⟨rfl, -⟩
  · rw [h']
  · simp [h']
  · simp [h']
  · exact absurd rfl hcs

theorem step_queue {cs : ConnStep} (hcs : cs ≠ .recv) : (h.step t cs).2.2.queue = t.queue := by
  rcases step_transport h t cs with h' | ⟨rfl, -⟩ | ⟨-, msg, h'⟩ | ⟨-, h'⟩
  · rw [h']
  · exact absurd rfl hcs
  · simp [h']
  · simp [h']

end Handler

/-! ## Open connections -/

theorem handlerAt_set_self {hs : List (Option Handler)} {n : Nat} {hd : Handler}
    (h : handlerAt hs n = some hd) (x : Option Handler) : handlerAt (hs.set n x) n = x := by
  unfold handlerAt at h ⊢
  have hn : n < hs.length := by
    cases hx : hs[n]? with
    | none => rw [hx] at h; cases h
    | some y => exact (List.getElem?_eq_some_iff.1 hx).1
  rw [List.getElem?_set_self hn]
  rfl

theorem handlerAt_set_ne {hs : List (Option Handler)} {n n' : Nat} (h : n ≠ n') (x : Option Handler) :
    handlerAt (hs.set n x) n' = handlerAt hs n' := by
  unfold handlerAt
  rw [List.getElem?_set_ne h]

theorem handlerAt_append {hs : List (Option Handler)} {n : Nat} (x : Option Handler) :
    handlerAt (hs ++ [x]) n =
      if n < hs.length then handlerAt hs n else if n = hs.length then x else none := by
  unfold handlerAt
  split
  · rw [List.getElem?_append_left ‹_›]
  · rw [List.getElem?_append_right (Nat.le_of_not_lt ‹_›)]
    split
    · subst ‹n = hs.length›
      simp
    · obtain ⟨k, hk⟩ : ∃ k, n - hs.length = k + 1 := ⟨n - hs.length - 1, by omega⟩
      rw [hk]
      rfl

theorem getElem?_of_handlerAt {hs : List (Option Handler)} {n : Nat} {hd : Handler}
    (h : handlerAt hs n = some hd) : hs[n]? = some (some hd) := by
  unfold handlerAt at h
  cases hx : hs[n]? with
  | none => rw [hx] at h; cases h
  | some y =>
    rw [hx] at h
    cases h
    rfl

/-- Counting the entries of a list that pass a test counts the indices whose entry passes it. -/
theorem length_filter_eq_range {α : Type} (P : α → Bool) :
    ∀ l : List α, (l.filter P).length = ((List.range l.length).filter fun i => (l[i]?).any P).length
  | [] => rfl
  | x :: l => by
    have ih := length_filter_eq_range P l
    rw [List.length_cons, List.range_succ_eq_map, List.filter_cons, List.filter_cons,
      List.filter_map]
    simp only [List.getElem?_cons_zero, Option.any_some, Function.comp_def,
      List.getElem?_cons_succ]
    split <;> simp [ih]

/-! ## Bench steps -/

namespace LocalBench

variable (b : LocalBench)

theorem step_openConn (i : Option Bytes) (a o : String) :
    b.step (.openConn i a o) = b.opened (Connection.connect b.transport i a o) := rfl

theorem step_openConfig_of_error {yaml : String} {e : Error} (h : Config.loadText yaml = .error e) :
    b.step (.openConfig yaml) = (.failed e, b) := by
  unfold step
  dsimp only
  rw [h]

theorem step_openConfig_of_ok {yaml : String} {cfg : HandlerConfig} (h : Config.loadText yaml = .ok cfg) :
    b.step (.openConfig yaml) = b.opened (Connection.fromConfig b.transport cfg.handler) := by
  unfold step
  dsimp only
  rw [h]

theorem step_push (a : String) (m : Bytes) :
    b.step (.push a m) =
      if b.pushSockets.contains a then
        match b.transport.push a m with
        | .ok t => (.ok .done, { b with transport := t })
        | .error e => (.failed e, b)
      else
        match b.transport.pushSocket a with
        | .error e => (.failed e, b)
        | .ok () =>
          match b.transport.push a m with
          | .ok t => (.ok .done, { b with transport := t, pushSockets := b.pushSockets ++ [a] })
          | .error e => (.failed e, { b with pushSockets := b.pushSockets ++ [a] }) := by
  unfold step
  dsimp only
  cases b.pushSockets.contains a with
  | true => rfl
  | false => cases b.transport.pushSocket a <;> rfl

theorem step_pull (a : String) (i : Option Bytes) :
    b.step (.pull a i) =
      match b.transport.pullOn i a with
      | (.ok k, t) =>
        (.ok (.puller b.rawPullers.length), { b with transport := t, rawPullers := b.rawPullers ++ [k] })
      | (.error e, t) => (.failed e, { b with transport := t }) := rfl

theorem step_pullRecv (k : Nat) :
    b.step (.pullRecv k) =
      match b.rawPullers[k]? with
      | some i =>
        match b.transport.take i with
        | (.ready m, t) => (.ok (.message (some m)), { b with transport := t })
        | (.failed e, t) => (.failed e, { b with transport := t })
        | (.idle, _) => (.refused .wouldBlock, b)
      | none => (.refused (.noPuller k), b) := rfl

theorem step_sub (a : String) :
    b.step (.sub a) =
      match b.transport.subscribe a with
      | (.ok s, t) => (.ok (.sub s), { b with transport := t })
      | (.error e, t) => (.failed e, { b with transport := t }) := rfl

theorem step_dropSub (s : Nat) :
    b.step (.dropSub s) =
      match b.subscriber? s with
      | some _ => (.ok .done, { b with transport := b.transport.dropSubscriber s })
      | none => (.refused (.noSubscriber s), b) := rfl

theorem step_tryRecv (s : Nat) :
    b.step (.tryRecv s) =
      match b.subscriber? s with
      | some _ => (.ok (.message (b.transport.tryReceive s).1),
          { b with transport := (b.transport.tryReceive s).2 })
      | none => (.refused (.noSubscriber s), b) := rfl

theorem step_drain (s : Nat) :
    b.step (.drain s) =
      match b.subscriber? s with
      | some _ => (.ok (.messages (b.transport.drain s).1), { b with transport := (b.transport.drain s).2 })
      | none => (.refused (.noSubscriber s), b) := rfl

theorem step_subRecv (s : Nat) :
    b.step (.subRecv s) =
      match b.subscriber? s with
      | some _ =>
        if !b.transport.terminated then (.refused .notTerminated, b)
        else match b.transport.receive s with
          | (.ready m, t) => (.ok (.message (some m)), { b with transport := t })
          | (.failed e, t) => (.failed e, { b with transport := t })
          | (.idle, _) => (.refused .wouldBlock, b)
      | none => (.refused (.noSubscriber s), b) := rfl

theorem step_conn (n : Nat) (cs : ConnStep) :
    b.step (.conn n cs) =
      match handlerAt b.handlers n with
      | some h =>
        ((h.step b.transport cs).1,
          { b with transport := (h.step b.transport cs).2.2,
                   handlers := b.handlers.set n (h.step b.transport cs).2.1 })
      | none => (.refused (.noConnection n), b) := rfl

theorem step_terminate :
    b.step .terminate = (.ok .done, { b with transport := b.transport.terminate }) := rfl

/-- Steps that only report leave the bench as it was. -/
theorem step_pullIdentity_snd (k : Nat) : (b.step (.pullIdentity k)).2 = b := by
  unfold step
  dsimp only
  split <;> rfl

theorem step_pullers_snd (a : String) : (b.step (.pullers a)).2 = b := by
  unfold step
  dsimp only
  split <;> rfl

theorem step_subscribers_snd (a : String) : (b.step (.subscribers a)).2 = b := rfl

theorem step_isTerminated_snd : (b.step .isTerminated).2 = b := rfl

theorem opened_ok (c : Connection) (t : Local) :
    b.opened (.ok c, t) =
      (.ok (.conn b.handlers.length),
        { b with transport := t, handlers := b.handlers ++ [some { conn := c }] }) := rfl

theorem opened_transport (r : Except Error Connection × Local) : (b.opened r).2.transport = r.2 := by
  unfold opened
  split <;> rfl

/-! The transport each step leaves, whatever it answers. -/

theorem step_push_transport (a : String) (m : Bytes) :
    (b.step (.push a m)).2.transport = b.transport ∨
      (b.step (.push a m)).2.transport = b.transport.setQueue a (b.transport.queue a ++ [m]) := by
  have hpush : ∀ t, b.transport.push a m = .ok t → t = b.transport.setQueue a (b.transport.queue a ++ [m]) := by
    intro t ht
    unfold Local.push at ht
    split at ht
    · cases ht
    · cases ht
      rfl
  rw [step_push]
  repeat' split
  all_goals first
    | exact .inl rfl
    | exact .inr (hpush _ ‹_›)

theorem step_pull_transport (a : String) (i : Option Bytes) :
    (b.step (.pull a i)).2.transport = (b.transport.pullOn i a).2 := by
  rw [step_pull]
  split <;> simp_all

theorem step_pullRecv_transport (k : Nat) :
    (b.step (.pullRecv k)).2.transport =
      match b.rawPullers[k]? with
      | some i => (b.transport.take i).2
      | none => b.transport := by
  rw [step_pullRecv]
  cases b.rawPullers[k]? with
  | none => rfl
  | some i =>
    dsimp only
    rcases ht : b.transport.take i with ⟨w, t⟩
    cases w
    · rfl
    · rfl
    · exact (Local.take_snd_of_idle ht).symm

theorem step_sub_transport (a : String) :
    (b.step (.sub a)).2.transport = (b.transport.subscribe a).2 := by
  rw [step_sub]
  split <;> simp_all

theorem step_dropSub_transport (s : Nat) :
    (b.step (.dropSub s)).2.transport =
      if (b.subscriber? s).isSome then b.transport.dropSubscriber s else b.transport := by
  rw [step_dropSub]
  cases b.subscriber? s <;> rfl

theorem step_tryRecv_transport (s : Nat) :
    (b.step (.tryRecv s)).2.transport =
      if (b.subscriber? s).isSome then (b.transport.tryReceive s).2 else b.transport := by
  rw [step_tryRecv]
  cases b.subscriber? s <;> rfl

theorem step_drain_transport (s : Nat) :
    (b.step (.drain s)).2.transport =
      if (b.subscriber? s).isSome then (b.transport.drain s).2 else b.transport := by
  rw [step_drain]
  cases b.subscriber? s <;> rfl

theorem step_subRecv_transport (s : Nat) :
    (b.step (.subRecv s)).2.transport = b.transport ∨
      (b.step (.subRecv s)).2.transport = (b.transport.tryReceive s).2 := by
  rw [step_subRecv]
  cases b.subscriber? s with
  | none => exact .inl rfl
  | some x =>
    dsimp only
    split
    · exact .inl rfl
    · rw [← Local.receive_snd]
      rcases b.transport.receive s with ⟨w, t⟩
      cases w
      · exact .inr rfl
      · exact .inr rfl
      · exact .inl rfl

/-! What the server and the connections of the bench keep. -/

theorem step_pushSockets {s : LocalStep} (hs : ∀ a m, s ≠ .push a m) :
    (b.step s).2.pushSockets = b.pushSockets := by
  cases s with
  | push a m => exact absurd rfl (hs a m)
  | _ =>
    unfold step opened
    dsimp only
    repeat' split
    all_goals rfl

theorem step_rawPullers {s : LocalStep} (hs : ∀ a i, s ≠ .pull a i) :
    (b.step s).2.rawPullers = b.rawPullers := by
  cases s with
  | pull a i => exact absurd rfl (hs a i)
  | push a m =>
    rw [step_push]
    repeat' split
    all_goals rfl
  | _ =>
    unfold step opened
    dsimp only
    repeat' split
    all_goals rfl

theorem step_handlers {s : LocalStep} (hc : ∀ i a o, s ≠ .openConn i a o)
    (hy : ∀ y, s ≠ .openConfig y) (hn : ∀ n cs, s ≠ .conn n cs) :
    (b.step s).2.handlers = b.handlers := by
  cases s with
  | openConn i a o => exact absurd rfl (hc i a o)
  | openConfig y => exact absurd rfl (hy y)
  | conn n cs => exact absurd rfl (hn n cs)
  | push a m =>
    rw [step_push]
    repeat' split
    all_goals rfl
  | _ =>
    unfold step
    dsimp only
    repeat' split
    all_goals rfl

theorem step_conn_transport (n : Nat) (cs : ConnStep) :
    (b.step (.conn n cs)).2.transport =
      match handlerAt b.handlers n with
      | some h => (h.step b.transport cs).2.2
      | none => b.transport := by
  rw [step_conn]
  cases handlerAt b.handlers n <;> rfl

end LocalBench

/-- The transports an attempt to connect can leave: unchanged when the inbound address is
refused, with a new detached pull endpoint when the outbound one is, and otherwise with a new
attached pull endpoint that the connection's inbound handle names. -/
inductive Connects (t : Local) : Except Error Connection × Local → Prop
  | refused (e : Error) : Connects t (.error e, t)
  | detached (e : Error) (p : Puller) (hp : p.attached = false) :
      Connects t (.error e, { t with pullers := t.pullers ++ [p] })
  | opened (c : Connection) (p : Puller) (hc : c.inbound = t.pullers.length)
      (ho : c.outbound = t.publishers.length) (hp : p.attached = true) :
      Connects t
        (.ok c, { t with pullers := t.pullers ++ [p], publishers := t.publishers ++ [c.outboundAddr] })

namespace Connects

variable {t : Local} {r : Except Error Connection × Local}

theorem connect (i : Option Bytes) (a o : String) : Connects t (Connection.connect t i a o) := by
  rw [Connection.connect_eq]
  split
  · exact .refused _
  · split
    · exact .detached _ _ rfl
    · exact .opened _ _ rfl rfl rfl

theorem fromConfig (h : HandlerSection) : Connects t (Connection.fromConfig t h) := by
  unfold Connection.fromConfig
  have hc := Connects.connect (t := t) (h.senderId.map Bytes.ofString) h.recvAddr h.sendAddr
  revert hc
  generalize Connection.connect t (h.senderId.map Bytes.ofString) h.recvAddr h.sendAddr = r
  intro hc
  cases hc with
  | refused e => exact .refused e
  | detached e p hp => exact .detached e p hp
  | opened c p hc ho hp => exact .opened _ p hc ho hp

theorem queue (h : Connects t r) : r.2.queue = t.queue := by
  cases h <;> rfl

theorem subscribers (h : Connects t r) : r.2.subscribers = t.subscribers := by
  cases h <;> rfl

theorem terminated (h : Connects t r) : r.2.terminated = t.terminated := by
  cases h <;> rfl

end Connects

/-! ## What each step leaves alone

Each part of the transport is changed only by the steps that act on it: the publish endpoints
by opening a connection, the pull endpoints by opening one, making a raw puller or closing a
connection, and termination by `terminate`. -/

namespace LocalBench

variable (b : LocalBench)

/-- A step that opens no connection, makes no puller, drives no connection and does not
terminate acts on queues and subscribers only. -/
theorem step_endpoints_eq {st : LocalStep} (hc : ∀ i a o, st ≠ .openConn i a o)
    (hy : ∀ y, st ≠ .openConfig y) (hpl : ∀ a i, st ≠ .pull a i) (hn : ∀ n cs, st ≠ .conn n cs)
    (ht : st ≠ .terminate) :
    (b.step st).2.transport.publishers = b.transport.publishers ∧
      (b.step st).2.transport.pullers = b.transport.pullers ∧
      (b.step st).2.transport.terminated = b.transport.terminated := by
  cases st with
  | openConn i a o => exact absurd rfl (hc i a o)
  | openConfig y => exact absurd rfl (hy y)
  | pull a i => exact absurd rfl (hpl a i)
  | conn n cs => exact absurd rfl (hn n cs)
  | terminate => exact absurd rfl ht
  | push a m => rcases step_push_transport b a m with h | h <;> simp [h]
  | pullIdentity k => rw [step_pullIdentity_snd]; exact ⟨rfl, rfl, rfl⟩
  | pullRecv k => rw [step_pullRecv_transport]; split <;> simp
  | pullers a => rw [step_pullers_snd]; exact ⟨rfl, rfl, rfl⟩
  | sub a => simp [step_sub_transport]
  | dropSub s => rw [step_dropSub_transport]; split <;> simp
  | subscribers a => rw [step_subscribers_snd]; exact ⟨rfl, rfl, rfl⟩
  | tryRecv s => rw [step_tryRecv_transport]; split <;> simp
  | drain s => rw [step_drain_transport]; split <;> simp
  | subRecv s => rcases step_subRecv_transport b s with h | h <;> simp [h]
  | isTerminated => rw [step_isTerminated_snd]; exact ⟨rfl, rfl, rfl⟩

theorem step_publishers_eq {st : LocalStep} (hc : ∀ i a o, st ≠ .openConn i a o)
    (hy : ∀ y, st ≠ .openConfig y) :
    (b.step st).2.transport.publishers = b.transport.publishers := by
  cases st with
  | openConn i a o => exact absurd rfl (hc i a o)
  | openConfig y => exact absurd rfl (hy y)
  | pull a i => simp [step_pull_transport]
  | conn n cs => rw [step_conn_transport]; split <;> simp
  | terminate => rfl
  | _ => refine (step_endpoints_eq b ?_ ?_ ?_ ?_ ?_).1 <;> nofun

theorem step_pullers_eq {st : LocalStep} (hpl : ∀ a i, st ≠ .pull a i) (hc : ∀ i a o, st ≠ .openConn i a o)
    (hy : ∀ y, st ≠ .openConfig y) (hn : ∀ n cs, st ≠ .conn n cs) :
    (b.step st).2.transport.pullers = b.transport.pullers := by
  cases st with
  | openConn i a o => exact absurd rfl (hc i a o)
  | openConfig y => exact absurd rfl (hy y)
  | pull a i => exact absurd rfl (hpl a i)
  | conn n cs => exact absurd rfl (hn n cs)
  | terminate => rfl
  | _ => refine (step_endpoints_eq b ?_ ?_ ?_ ?_ ?_).2.1 <;> nofun

theorem step_terminated_eq {st : LocalStep} (ht : st ≠ .terminate) :
    (b.step st).2.transport.terminated = b.transport.terminated := by
  cases st with
  | openConn i a o =>
    rw [step_openConn, opened_transport]
    exact (Connects.connect i a o).terminated
  | openConfig y =>
    cases hy : Config.loadText y with
    | error e => rw [step_openConfig_of_error b hy]
    | ok cfg =>
      rw [step_openConfig_of_ok b hy, opened_transport]
      exact (Connects.fromConfig _).terminated
  | pull a i => simp [step_pull_transport]
  | conn n cs => rw [step_conn_transport]; split <;> simp
  | terminate => exact absurd rfl ht
  | _ => refine (step_endpoints_eq b ?_ ?_ ?_ ?_ ?_).2.2 <;> nofun

end LocalBench

/-! ## Runs -/

namespace LocalBench

/-- One step of a run: the bench it ran on, the step, how it ended and the bench it left. -/
structure Event where
  before : LocalBench
  step : LocalStep
  outcome : Outcome
  after : LocalBench

/-- The event of running one step on a bench. -/
def event (b : LocalBench) (s : LocalStep) : Event :=
  ⟨b, s, (b.step s).1, (b.step s).2⟩

@[simp] theorem event_outcome (b : LocalBench) (s : LocalStep) : (b.event s).outcome = (b.step s).1 := rfl

/-- Run steps from a bench: the events in order, and the bench left at the end. -/
def trace (b : LocalBench) : List LocalStep → List Event × LocalBench
  | [] => ([], b)
  | s :: ss =>
    let r := (b.step s).2.trace ss
    (b.event s :: r.1, r.2)

theorem foldl_step_eq_trace (b : LocalBench) (acc : List Outcome) : ∀ steps : List LocalStep,
    steps.foldl (fun (acc : LocalBench × List Outcome) s =>
      let (o, b) := acc.1.step s
      (b, o :: acc.2)) (b, acc) =
      ((b.trace steps).2, ((b.trace steps).1.map Event.outcome).reverse ++ acc)
  | [] => rfl
  | s :: ss => by
    rw [List.foldl_cons]
    have ih := foldl_step_eq_trace (b.step s).2 ((b.step s).1 :: acc) ss
    simp only [trace, event, List.map_cons, List.reverse_cons, List.append_assoc,
      List.singleton_append]
    exact ih

/-- The outcomes a bench reports for a run are those of the run's events. -/
theorem run_eq_trace (steps : List LocalStep) :
    run steps = ((({} : LocalBench).trace steps).1.map Event.outcome) := by
  unfold run
  rw [foldl_step_eq_trace]
  simp

/-- An event of a run from `b` runs on `b` or on a bench some earlier event left. -/
theorem trace_before {e : Event} (steps : List LocalStep) :
    ∀ {b : LocalBench}, e ∈ (b.trace steps).1 →
      ∃ pre, (b.trace pre).2 = e.before ∧ e = e.before.event e.step := by
  induction steps with
  | nil => intro b he; cases he
  | cons s ss ih =>
    intro b he
    rcases List.mem_cons.1 he with rfl | he
    · exact ⟨[], rfl, rfl⟩
    · obtain ⟨pre, hpre, he⟩ := ih he
      exact ⟨s :: pre, hpre, he⟩

end LocalBench

end HandlerKit
