import HandlerKit.Proofs.Local.Steps

/-!
# Replies: each one reaches every live subscriber of its address, once

Connections publish replies on their outbound address; the server subscribes to addresses and
reads what was published. Seen from one subscriber, through the outcomes of the bench's steps,
its inbox follows a contract (`Delivers`, `Fanout`): it starts empty when the subscriber is
made, so nothing sent earlier reaches it; every reply framed and sent to its address while the
transport is live is accepted and joins the back, once; a send after termination fails with
`terminated`, and a reply that cannot be framed fails as framing does, and neither reaches
anyone. Polling takes the oldest reply or gives nothing when none waits, draining takes them
all, waiting after termination takes what is left and then fails; a dropped subscriber gets
nothing more.

**Theorem (`replies_fan_out`).** Every run from a fresh bench follows that contract for every
subscriber handle, ending with the transport's own inbox, and the count of subscribers the
server is given for an address is the number of live subscribers on it, or 0 once the
transport is terminated.
-/

namespace HandlerKit

/-! ## The contract -/

/-- What a subscriber handle stands for, seen from outside: nothing yet, a live subscriber of
an address with the replies waiting for it, or a dropped one. -/
inductive Inbox where
  | none
  | live (addr : String) (pending : List Bytes)
  | dropped
  deriving DecidableEq

namespace Inbox

/-- A reply published to `a` joins the inbox of a live subscriber of `a`. -/
def receive (a : String) (m : Bytes) : Inbox → Inbox
  | live a' p => if a' = a then live a' (p ++ [m]) else live a' p
  | i => i

/-- Whether an inbox is that of a live subscriber of `a`. -/
def liveOn (a : String) : Inbox → Bool
  | live a' _ => a' == a
  | _ => false

/-- The inbox a subscriber record stands for. -/
def ofSubscriber : Option Subscriber → Inbox
  | Option.none => none
  | Option.some x => if x.attached then live x.addr x.inbox else dropped

end Inbox

/-- The subscriber a step reads from or drops, if any. -/
def LocalStep.subscriberOf : LocalStep → Option Nat
  | .tryRecv s | .drain s | .subRecv s | .dropSub s => some s
  | _ => none

namespace Handler

/-- The framed reply a connection step sends, if it sends one: a reply needs the request it
answers. -/
def replyOf (h : Handler) : ConnStep → Option (Except Error Bytes)
  | .send s c p => some (Reply.frame s c p)
  | .deliver s ids p => some (Reply.frameMany s ids p)
  | .reply p => h.last.map fun r => Reply.frame r.sender r.connection p
  | .replyHttp body code status headers =>
    h.last.map fun r => Reply.frame r.sender r.connection (Reply.http body code status headers)
  | .replyClose => h.last.map fun r => Reply.frame r.sender r.connection []
  | _ => none

end Handler

namespace LocalBench

/-- The inbox of a subscriber handle. -/
def inboxOf (b : LocalBench) (s : Nat) : Inbox := Inbox.ofSubscriber b.transport.subscribers[s]?

/-- The number of live subscribers on an address. -/
def liveSubscribers (b : LocalBench) (a : String) : Nat :=
  ((List.range b.transport.subscribers.length).filter fun s => (b.inboxOf s).liveOn a).length

/-- The reply a step sends, if it sends one: the outbound address of its connection, and the
framed message or why it could not be framed. -/
def sending (b : LocalBench) : LocalStep → Option (String × Except Error Bytes)
  | .conn n cs =>
    match handlerAt b.handlers n with
    | some h => (h.replyOf cs).map fun msg => (h.conn.outboundAddr, msg)
    | none => none
  | _ => none

/-- One event as subscriber `s` sees it, taking its inbox from `i` to `i'`. -/
inductive Delivers (s : Nat) : Event → Inbox → Inbox → Prop
  /-- A new subscriber starts with nothing waiting. -/
  | join {e : Event} {a : String} (hs : e.step = .sub a) (ho : e.outcome = .ok (.sub s)) :
      Delivers s e .none (.live a [])
  /-- A reply sent while the transport is live is accepted and reaches every live subscriber
  of its address. -/
  | publish {e : Event} {a : String} {m : Bytes} {i : Inbox}
      (hs : e.before.sending e.step = some (a, .ok m)) (hlive : e.before.transport.terminated = false)
      (ho : e.outcome = .ok .done) : Delivers s e i (i.receive a m)
  | refuse {e : Event} {a : String} {m : Bytes} {i : Inbox}
      (hs : e.before.sending e.step = some (a, .ok m)) (hdead : e.before.transport.terminated = true)
      (ho : e.outcome = .failed .terminated) : Delivers s e i i
  /-- A reply that cannot be framed fails as framing does, and is sent to no one. -/
  | unframed {e : Event} {a : String} {err : Error} {i : Inbox}
      (hs : e.before.sending e.step = some (a, .error err)) (ho : e.outcome = .failed err) :
      Delivers s e i i
  | take {e : Event} {a : String} {m : Bytes} {p : List Bytes} (hs : e.step = .tryRecv s)
      (ho : e.outcome = .ok (.message (some m))) : Delivers s e (.live a (m :: p)) (.live a p)
  | takeNone {e : Event} {a : String} (hs : e.step = .tryRecv s)
      (ho : e.outcome = .ok (.message none)) : Delivers s e (.live a []) (.live a [])
  | drain {e : Event} {a : String} {p : List Bytes} (hs : e.step = .drain s)
      (ho : e.outcome = .ok (.messages p)) : Delivers s e (.live a p) (.live a [])
  /-- Once the transport is terminated, waiting takes what is left and then fails. -/
  | recv {e : Event} {a : String} {m : Bytes} {p : List Bytes} (hs : e.step = .subRecv s)
      (hdead : e.before.transport.terminated = true) (ho : e.outcome = .ok (.message (some m))) :
      Delivers s e (.live a (m :: p)) (.live a p)
  | recvEnd {e : Event} {a : String} (hs : e.step = .subRecv s)
      (hdead : e.before.transport.terminated = true) (ho : e.outcome = .failed .terminated) :
      Delivers s e (.live a []) (.live a [])
  | recvEarly {e : Event} {a : String} {p : List Bytes} (hs : e.step = .subRecv s)
      (hlive : e.before.transport.terminated = false) (ho : e.outcome = .refused .notTerminated) :
      Delivers s e (.live a p) (.live a p)
  | drop {e : Event} {a : String} {p : List Bytes} (hs : e.step = .dropSub s)
      (ho : e.outcome = .ok .done) : Delivers s e (.live a p) .dropped
  /-- A subscriber not yet made, or dropped, cannot be read or dropped. -/
  | gone {e : Event} {i : Inbox} (hi : i = .none ∨ i = .dropped) (hs : e.step.subscriberOf = some s)
      (ho : e.outcome = .refused (.noSubscriber s)) : Delivers s e i i
  | skip {e : Event} {i : Inbox} (hsend : e.before.sending e.step = none)
      (hs : e.step.subscriberOf ≠ some s) (hj : ∀ a, e.step = .sub a → e.outcome ≠ .ok (.sub s)) :
      Delivers s e i i

/-- The events of a run as subscriber `s` sees them, from inbox `i` to inbox `i'`. -/
inductive Fanout (s : Nat) : Inbox → List Event → Inbox → Prop
  | nil {i : Inbox} : Fanout s i [] i
  | cons {e : Event} {es : List Event} {i i₁ i' : Inbox} (he : Delivers s e i i₁)
      (h : Fanout s i₁ es i') : Fanout s i (e :: es) i'

end LocalBench

/-! ## Subscriber records, call by call -/

namespace Local

variable {t : Local} {s : Nat}

theorem subscribe_getElem? {a : String} (h : t.check a = .ok ()) (s : Nat) :
    (t.subscribe a).2.subscribers[s]? =
      if s < t.subscribers.length then t.subscribers[s]?
      else if s = t.subscribers.length then some { addr := a } else none := by
  rw [subscribe_of_ok h]
  dsimp only
  split
  · rename_i hs
    exact List.getElem?_append_left hs
  · rename_i hs
    rw [List.getElem?_append_right (Nat.le_of_not_lt hs)]
    split
    · rename_i he
      subst he
      simp
    · rename_i he
      have hpos : 0 < s - t.subscribers.length := by omega
      obtain ⟨k, hk⟩ : ∃ k, s - t.subscribers.length = k + 1 := ⟨_, (Nat.succ_pred_eq_of_pos hpos).symm⟩
      rw [hk]
      rfl

theorem dropSubscriber_getElem? (s' s : Nat) :
    (t.dropSubscriber s').subscribers[s]? =
      if s' = s then (t.subscribers[s]?).map fun x => { x with attached := false }
      else t.subscribers[s]? := by
  unfold dropSubscriber
  rw [List.getElem?_modify]
  split <;> simp

theorem tryReceive_of_cons {x : Subscriber} {m : Bytes} {rest : List Bytes}
    (hx : t.subscribers[s]? = some x) (hi : x.inbox = m :: rest) :
    t.tryReceive s = (some m, { t with subscribers := t.subscribers.set s { x with inbox := rest } }) := by
  unfold tryReceive
  rw [hx]
  dsimp only
  rw [hi]

theorem tryReceive_of_nil {x : Subscriber} (hx : t.subscribers[s]? = some x) (hi : x.inbox = []) :
    t.tryReceive s = (none, t) := by
  unfold tryReceive
  rw [hx]
  dsimp only
  rw [hi]

theorem receive_of_cons {x : Subscriber} {m : Bytes} {rest : List Bytes}
    (hx : t.subscribers[s]? = some x) (hi : x.inbox = m :: rest) :
    t.receive s = (.ready m, { t with subscribers := t.subscribers.set s { x with inbox := rest } }) := by
  unfold receive
  rw [tryReceive_of_cons hx hi]

theorem receive_of_nil {x : Subscriber} (hx : t.subscribers[s]? = some x) (hi : x.inbox = []) :
    t.receive s = (if t.terminated then .failed .terminated else .idle, t) := by
  unfold receive
  rw [tryReceive_of_nil hx hi]

theorem drain_of_some {x : Subscriber} (hx : t.subscribers[s]? = some x) :
    t.drain s = (x.inbox, { t with subscribers := t.subscribers.set s { x with inbox := [] } }) := by
  unfold drain
  rw [hx]

/-- Reading or draining one subscriber leaves every other subscriber's record alone. -/
theorem tryReceive_getElem?_ne {s' : Nat} (h : s' ≠ s) :
    (t.tryReceive s').2.subscribers[s]? = t.subscribers[s]? := by
  unfold tryReceive
  split
  · split
    · exact List.getElem?_set_ne h
    · rfl
  · rfl

theorem drain_getElem?_ne {s' : Nat} (h : s' ≠ s) : (t.drain s').2.subscribers[s]? = t.subscribers[s]? := by
  unfold drain
  split
  · exact List.getElem?_set_ne h
  · rfl

theorem fanOut_getElem? (a : String) (m : Bytes) (s : Nat) :
    (t.fanOut a m).subscribers[s]? = (t.subscribers[s]?).map fun x =>
      if x.attached && x.addr == a then { x with inbox := x.inbox ++ [m] } else x := by
  unfold fanOut
  simp

end Local

namespace Inbox

theorem ofSubscriber_fanOut (a : String) (m : Bytes) (x? : Option Subscriber) :
    ofSubscriber (x?.map fun x => if x.attached && x.addr == a then { x with inbox := x.inbox ++ [m] } else x) =
      (ofSubscriber x?).receive a m := by
  cases x? with
  | none => rfl
  | some x =>
    cases hx : x.attached
    · simp [ofSubscriber, hx, receive]
    · by_cases ha : x.addr = a <;> simp [ofSubscriber, hx, receive, ha]

theorem liveOn_ofSubscriber (x? : Option Subscriber) (a : String) :
    (ofSubscriber x?).liveOn a = x?.any fun x => x.attached && x.addr == a := by
  cases x? with
  | none => rfl
  | some x => cases hx : x.attached <;> simp [ofSubscriber, liveOn, hx]

end Inbox

namespace LocalBench

theorem inboxOf_congr {b b' : LocalBench} (h : b'.transport.subscribers = b.transport.subscribers)
    (s : Nat) : b'.inboxOf s = b.inboxOf s := by
  unfold inboxOf
  rw [h]

theorem subscriber?_eq_some {b : LocalBench} {s : Nat} {x : Subscriber} (h : b.subscriber? s = some x) :
    b.transport.subscribers[s]? = some x ∧ x.attached = true := by
  unfold subscriber? at h
  cases hx : b.transport.subscribers[s]? with
  | none => rw [hx] at h; cases h
  | some y =>
    rw [hx, Option.filter_some] at h
    split at h
    · cases h
      exact ⟨rfl, ‹_›⟩
    · cases h

theorem inboxOf_of_subscriber?_none {b : LocalBench} {s : Nat} (h : b.subscriber? s = none) :
    b.inboxOf s = .none ∨ b.inboxOf s = .dropped := by
  unfold subscriber? at h
  unfold inboxOf
  cases hx : b.transport.subscribers[s]? with
  | none => exact .inl rfl
  | some y =>
    rw [hx, Option.filter_some] at h
    have hy : y.attached = false := by
      cases hy : y.attached
      · rfl
      · rw [if_pos hy] at h
        cases h
    exact .inr (by simp [Inbox.ofSubscriber, hy])

theorem inboxOf_of_subscriber?_some {b : LocalBench} {s : Nat} {x : Subscriber}
    (h : b.subscriber? s = some x) : b.inboxOf s = .live x.addr x.inbox := by
  obtain ⟨hx, ha⟩ := subscriber?_eq_some h
  unfold inboxOf
  rw [hx]
  simp [Inbox.ofSubscriber, ha]

end LocalBench

/-! ## Sending -/

namespace Connection

theorem publishFramed_ok (c : Connection) (t : Local) (m : Bytes) :
    c.publishFramed t (.ok m) = t.publishTo c.outbound m := rfl

theorem publishFramed_error (c : Connection) (t : Local) (e : Error) :
    c.publishFramed t (.error e) = (.error e, t) := rfl

end Connection

namespace Handler

variable {h : Handler}

theorem answering_of_some {r : Request} (hl : h.last = some r) {t : Local}
    (f : Request → Except Error Unit × Local) :
    h.answering t f = (Outcome.ofUnit (f r).1, some h, (f r).2) := by
  unfold answering
  rw [hl]

/-- A connection step that sends a reply publishes it, and its outcome is that of publishing. -/
theorem step_of_replyOf {cs : ConnStep} {msg : Except Error Bytes}
    (hr : h.replyOf cs = some msg) (t : Local) :
    h.step t cs = (Outcome.ofUnit (h.conn.publishFramed t msg).1, some h, (h.conn.publishFramed t msg).2) := by
  cases cs with
  | send sd c p => cases hr; rfl
  | deliver sd ids p => cases hr; rfl
  | reply p =>
    obtain ⟨r, hl, rfl⟩ := Option.map_eq_some_iff.1 hr
    exact answering_of_some hl _
  | replyHttp body code status headers =>
    obtain ⟨r, hl, rfl⟩ := Option.map_eq_some_iff.1 hr
    exact answering_of_some hl _
  | replyClose =>
    obtain ⟨r, hl, rfl⟩ := Option.map_eq_some_iff.1 hr
    exact answering_of_some hl _
  | _ => cases hr

/-- A connection step that sends nothing leaves the subscribers alone. -/
theorem step_subscribers_of_replyOf {cs : ConnStep} (hr : h.replyOf cs = none)
    (t : Local) : (h.step t cs).2.2.subscribers = t.subscribers := by
  cases cs with
  | recv => rw [step_recv_snd, Connection.recv_snd, Local.take_subscribers]
  | send sd c p => cases hr
  | deliver sd ids p => cases hr
  | reply p =>
    have hl : h.last = none := Option.map_eq_none_iff.1 hr
    unfold step
    rw [answering_snd, hl]
  | replyHttp body code status headers =>
    have hl : h.last = none := Option.map_eq_none_iff.1 hr
    unfold step
    rw [answering_snd, hl]
  | replyClose =>
    have hl : h.last = none := Option.map_eq_none_iff.1 hr
    unfold step
    rw [answering_snd, hl]
  | close => rw [step_close]; rfl
  | _ => rfl

end Handler

namespace LocalBench

variable {b : LocalBench} {s : Nat}

/-! ## Connections keep their publish endpoints -/

/-- Every open connection's publish handle names its outbound address. -/
def Wired (b : LocalBench) : Prop :=
  ∀ n h, handlerAt b.handlers n = some h →
    b.transport.publishers[h.conn.outbound]? = some h.conn.outboundAddr

theorem Wired.congr {b' : LocalBench} (hw : b.Wired) (hh : b'.handlers = b.handlers)
    (hp : b'.transport.publishers = b.transport.publishers) : b'.Wired := by
  intro n h hn
  rw [hh] at hn
  rw [hp]
  exact hw n h hn

theorem Wired.opened (hw : b.Wired) {r : Except Error Connection × Local}
    (hr : Connects b.transport r) : (b.opened r).2.Wired := by
  cases hr with
  | refused e => exact hw.congr rfl rfl
  | detached e p hp => exact hw.congr rfl rfl
  | opened c p hc ho hp =>
    -- the new connection's publish handle is the new publish endpoint
    rw [opened_ok]
    intro n h hn
    simp only [handlerAt_append] at hn
    split at hn
    · have hold := hw n h hn
      have hlt : h.conn.outbound < b.transport.publishers.length :=
        (List.getElem?_eq_some_iff.1 hold).1
      simp only
      rw [List.getElem?_append_left hlt, hold]
    · split at hn
      · cases hn
        simp [ho]
      · cases hn

/-- Every step keeps every open connection's publish handle. -/
theorem Wired.step (hw : b.Wired) (st : LocalStep) : (b.step st).2.Wired := by
  cases st with
  | openConn i a o =>
    rw [step_openConn]
    exact hw.opened (Connects.connect i a o)
  | openConfig yaml =>
    cases hy : Config.loadText yaml with
    | error e =>
      rw [step_openConfig_of_error _ hy]
      exact hw
    | ok cfg =>
      rw [step_openConfig_of_ok _ hy]
      exact hw.opened (Connects.fromConfig _)
  | conn n cs =>
    cases hn : handlerAt b.handlers n with
    | none =>
      rw [step_conn, hn]
      exact hw
    | some hd =>
      intro n' h' hn'
      rw [step_conn, hn] at hn' ⊢
      dsimp only at hn' ⊢
      rw [Handler.step_publishers]
      by_cases hnn : n = n'
      · subst hnn
        rw [handlerAt_set_self hn] at hn'
        by_cases hcs : cs = .close
        · subst hcs
          rw [Handler.step_close] at hn'
          cases hn'
        · obtain ⟨h'', hh'', -, hout, haddr⟩ := Handler.step_keeps hd b.transport hcs
          rw [hh''] at hn'
          cases hn'
          rw [hout, haddr]
          exact hw n hd hn
      · rw [handlerAt_set_ne hnn] at hn'
        exact hw n' h' hn'
  | _ => exact hw.congr (step_handlers b nofun nofun nofun) (step_publishers_eq b nofun nofun)

theorem Wired.init : ({} : LocalBench).Wired := fun _ _ h => nomatch h

/-! ## One step, as each subscriber sees it -/

theorem sending_conn_of_some {n : Nat} {h : Handler} (hn : handlerAt b.handlers n = some h)
    (cs : ConnStep) : b.sending (.conn n cs) = (h.replyOf cs).map fun msg => (h.conn.outboundAddr, msg) := by
  simp only [sending, hn]

theorem step_conn_of_some {n : Nat} {h : Handler} (hn : handlerAt b.handlers n = some h) (cs : ConnStep) :
    b.step (.conn n cs) = ((h.step b.transport cs).1,
      { b with transport := (h.step b.transport cs).2.2, handlers := b.handlers.set n (h.step b.transport cs).2.1 }) := by
  rw [step_conn, hn]

/-- A step that leaves the inbox of `s` as it was, sends nothing, and neither reads nor makes
`s`, is one `s` does not see. -/
theorem delivers_of_quiet {st : LocalStep} (hi : (b.step st).2.inboxOf s = b.inboxOf s)
    (hsend : b.sending st = none) (hs : st.subscriberOf ≠ some s)
    (hj : ∀ a, st = .sub a → (b.step st).1 ≠ .ok (.sub s)) :
    Delivers s (b.event st) (b.inboxOf s) ((b.step st).2.inboxOf s) := by
  rw [hi]
  exact .skip hsend hs hj

theorem sending_of_subscriberOf {st : LocalStep} {s' : Nat} (h : st.subscriberOf = some s') :
    b.sending st = none := by
  cases st <;> first | rfl | cases h

/-- Reading or dropping another handle leaves the inbox of `s` as it was. -/
theorem delivers_of_other {st : LocalStep} {s' : Nat} (hst : st.subscriberOf = some s') (hs : s' ≠ s)
    (hrec : (b.step st).2.transport.subscribers[s]? = b.transport.subscribers[s]?) :
    Delivers s (b.event st) (b.inboxOf s) ((b.step st).2.inboxOf s) := by
  refine delivers_of_quiet ?_ (sending_of_subscriberOf hst) (fun h => ?_) fun a ha => ?_
  · unfold inboxOf
    rw [hrec]
  · exact hs (Option.some.inj (hst.symm.trans h))
  · subst ha
    cases hst

/-- Reading or dropping a subscriber that is not there is refused and changes nothing. -/
theorem delivers_of_absent {st : LocalStep} {s' : Nat} (hst : st.subscriberOf = some s')
    (hx : b.subscriber? s' = none) (hstep : b.step st = (.refused (.noSubscriber s'), b)) :
    Delivers s (b.event st) (b.inboxOf s) ((b.step st).2.inboxOf s) := by
  by_cases hs : s' = s
  · subst hs
    rw [hstep]
    exact .gone (inboxOf_of_subscriber?_none hx) hst (by rw [event_outcome, hstep])
  · exact delivers_of_other hst hs (by rw [hstep])

/-- A subscriber record with its inbox replaced stands for a live inbox with the new replies. -/
theorem inboxOf_of_set {b' : LocalBench} {x : Subscriber} (hx : b.transport.subscribers[s]? = some x)
    (ha : x.attached = true) {p : List Bytes}
    (h : b'.transport.subscribers = b.transport.subscribers.set s { x with inbox := p }) :
    b'.inboxOf s = .live x.addr p := by
  unfold inboxOf
  rw [h, List.getElem?_set_self (List.getElem?_eq_some_iff.1 hx).1]
  simp [Inbox.ofSubscriber, ha]

theorem delivers_sub (a : String) :
    Delivers s (b.event (.sub a)) (b.inboxOf s) ((b.step (.sub a)).2.inboxOf s) := by
  cases hc : b.transport.check a with
  | error e =>
    have hstep : b.step (.sub a) = (.failed e, b) := by rw [step_sub, Local.subscribe_of_error hc]
    refine delivers_of_quiet (by rw [hstep]) rfl nofun fun _ _ ho => ?_
    rw [hstep] at ho
    cases ho
  | ok u =>
    -- the new subscriber takes the next number, and every other record stays
    have hstep : (b.step (.sub a)).1 = .ok (.sub b.transport.subscribers.length) := by
      rw [step_sub, Local.subscribe_of_ok hc]
    have hafter : (b.step (.sub a)).2.inboxOf s = Inbox.ofSubscriber
        (if s < b.transport.subscribers.length then b.transport.subscribers[s]?
          else if s = b.transport.subscribers.length then some { addr := a } else none) := by
      unfold inboxOf
      rw [step_sub_transport, Local.subscribe_getElem? hc]
    by_cases hs : s = b.transport.subscribers.length
    · subst hs
      have hnone : b.inboxOf b.transport.subscribers.length = .none := by
        unfold inboxOf
        rw [List.getElem?_eq_none (Nat.le_refl _)]
        rfl
      rw [hafter, if_neg (Nat.lt_irrefl _), if_pos rfl, hnone]
      exact .join rfl hstep
    · have hi : (b.step (.sub a)).2.inboxOf s = b.inboxOf s := by
        rw [hafter, if_neg hs]
        split
        · rfl
        · unfold inboxOf
          rw [List.getElem?_eq_none (by omega)]
      refine delivers_of_quiet hi rfl nofun fun _ _ ho => ?_
      rw [hstep] at ho
      cases ho
      exact hs rfl

theorem delivers_dropSub (s' : Nat) :
    Delivers s (b.event (.dropSub s')) (b.inboxOf s) ((b.step (.dropSub s')).2.inboxOf s) := by
  cases hx : b.subscriber? s' with
  | none => exact delivers_of_absent rfl hx (by rw [step_dropSub, hx])
  | some x =>
    have hstep : b.step (.dropSub s') = (.ok .done, { b with transport := b.transport.dropSubscriber s' }) := by
      rw [step_dropSub, hx]
    by_cases hs : s' = s
    · subst hs
      obtain ⟨hsub, -⟩ := subscriber?_eq_some hx
      have hafter : (b.step (.dropSub s')).2.inboxOf s' = .dropped := by
        rw [hstep]
        unfold inboxOf
        rw [Local.dropSubscriber_getElem?, if_pos rfl, hsub]
        rfl
      rw [hafter, inboxOf_of_subscriber?_some hx]
      exact .drop rfl (by rw [event_outcome, hstep])
    · exact delivers_of_other rfl hs (by rw [hstep, Local.dropSubscriber_getElem?, if_neg hs])

theorem delivers_tryRecv (s' : Nat) :
    Delivers s (b.event (.tryRecv s')) (b.inboxOf s) ((b.step (.tryRecv s')).2.inboxOf s) := by
  cases hx : b.subscriber? s' with
  | none => exact delivers_of_absent rfl hx (by rw [step_tryRecv, hx])
  | some x =>
    have hstep : b.step (.tryRecv s') = (.ok (.message (b.transport.tryReceive s').1),
        { b with transport := (b.transport.tryReceive s').2 }) := by
      rw [step_tryRecv, hx]
    by_cases hs : s' = s
    · subst hs
      obtain ⟨hsub, ha⟩ := subscriber?_eq_some hx
      rw [inboxOf_of_subscriber?_some hx]
      cases hi : x.inbox with
      | nil =>
        have hstep' : b.step (.tryRecv s') = (.ok (.message none), b) := by
          rw [hstep, Local.tryReceive_of_nil hsub hi]
        have hafter : (b.step (.tryRecv s')).2.inboxOf s' = .live x.addr [] := by
          rw [hstep', inboxOf_of_subscriber?_some hx, hi]
        rw [hafter]
        exact .takeNone rfl (by rw [event_outcome, hstep'])
      | cons m rest =>
        have ht := Local.tryReceive_of_cons hsub hi
        rw [inboxOf_of_set hsub ha (by rw [hstep, ht])]
        exact .take rfl (by rw [event_outcome, hstep, ht])
    · exact delivers_of_other rfl hs (by rw [hstep]; exact Local.tryReceive_getElem?_ne hs)

theorem delivers_drain (s' : Nat) :
    Delivers s (b.event (.drain s')) (b.inboxOf s) ((b.step (.drain s')).2.inboxOf s) := by
  cases hx : b.subscriber? s' with
  | none => exact delivers_of_absent rfl hx (by rw [step_drain, hx])
  | some x =>
    have hstep : b.step (.drain s') = (.ok (.messages (b.transport.drain s').1),
        { b with transport := (b.transport.drain s').2 }) := by
      rw [step_drain, hx]
    by_cases hs : s' = s
    · subst hs
      obtain ⟨hsub, ha⟩ := subscriber?_eq_some hx
      have ht := Local.drain_of_some hsub
      rw [inboxOf_of_subscriber?_some hx, inboxOf_of_set hsub ha (by rw [hstep, ht])]
      exact .drain rfl (by rw [event_outcome, hstep, ht])
    · exact delivers_of_other rfl hs (by rw [hstep]; exact Local.drain_getElem?_ne hs)

theorem delivers_subRecv (s' : Nat) :
    Delivers s (b.event (.subRecv s')) (b.inboxOf s) ((b.step (.subRecv s')).2.inboxOf s) := by
  cases hx : b.subscriber? s' with
  | none => exact delivers_of_absent rfl hx (by rw [step_subRecv, hx])
  | some x =>
    cases hd : b.transport.terminated with
    | false =>
      -- before termination waiting is refused and changes nothing
      have hstep : b.step (.subRecv s') = (.refused .notTerminated, b) := by
        rw [step_subRecv, hx]
        dsimp only
        rw [hd]
        rfl
      by_cases hs : s' = s
      · subst hs
        rw [hstep, inboxOf_of_subscriber?_some hx]
        exact .recvEarly rfl hd (by rw [event_outcome, hstep])
      · exact delivers_of_other rfl hs (by rw [hstep])
    | true =>
      by_cases hs : s' = s
      · subst hs
        obtain ⟨hsub, ha⟩ := subscriber?_eq_some hx
        rw [inboxOf_of_subscriber?_some hx]
        cases hi : x.inbox with
        | nil =>
          -- nothing waits: after termination the wait fails
          have hstep : b.step (.subRecv s') = (.failed .terminated, b) := by
            rw [step_subRecv, hx]
            dsimp only
            rw [hd, Local.receive_of_nil hsub hi, hd]
            rfl
          have hafter : (b.step (.subRecv s')).2.inboxOf s' = .live x.addr [] := by
            rw [hstep, inboxOf_of_subscriber?_some hx, hi]
          rw [hafter]
          exact .recvEnd rfl hd (by rw [event_outcome, hstep])
        | cons m rest =>
          have hstep : b.step (.subRecv s') = (.ok (.message (some m)), { b with transport :=
              { b.transport with subscribers := b.transport.subscribers.set s' { x with inbox := rest } } }) := by
            rw [step_subRecv, hx]
            dsimp only
            rw [Local.receive_of_cons hsub hi, hd]
            rfl
          rw [inboxOf_of_set hsub ha (by rw [hstep])]
          exact .recv rfl hd (by rw [event_outcome, hstep])
      · refine delivers_of_other rfl hs ?_
        rcases step_subRecv_transport b s' with ht | ht <;> rw [ht]
        exact Local.tryReceive_getElem?_ne hs


theorem delivers_conn (hw : b.Wired) (n : Nat) (cs : ConnStep) :
    Delivers s (b.event (.conn n cs)) (b.inboxOf s) ((b.step (.conn n cs)).2.inboxOf s) := by
  cases hn : handlerAt b.handlers n with
  | none =>
    have hstep : b.step (.conn n cs) = (.refused (.noConnection n), b) := by rw [step_conn, hn]
    exact delivers_of_quiet (by rw [hstep]) (by simp only [sending, hn]) nofun nofun
  | some h =>
    have hstep := step_conn_of_some hn cs
    have hafter : (b.step (.conn n cs)).2.inboxOf s =
        Inbox.ofSubscriber (h.step b.transport cs).2.2.subscribers[s]? := by
      rw [hstep]
      rfl
    cases hr : h.replyOf cs with
    | none =>
      refine delivers_of_quiet ?_ (by rw [sending_conn_of_some hn, hr]; rfl) nofun nofun
      rw [hafter, Handler.step_subscribers_of_replyOf hr]
      rfl
    | some msg =>
      have hsend := sending_conn_of_some hn cs
      rw [hr] at hsend
      have ho : (b.event (.conn n cs)).outcome = Outcome.ofUnit (h.conn.publishFramed b.transport msg).1 := by
        rw [event_outcome, hstep, Handler.step_of_replyOf hr]
      rw [hafter, Handler.step_of_replyOf hr]
      cases msg with
      | error err =>
        rw [Connection.publishFramed_error] at ho ⊢
        exact .unframed hsend ho
      | ok m =>
        rw [Connection.publishFramed_ok] at ho ⊢
        cases hd : b.transport.terminated with
        | true =>
          rw [Local.publishTo_of_terminated hd] at ho ⊢
          exact .refuse hsend hd ho
        | false =>
          -- the connection's publish handle names its outbound address: the reply fans out there
          rw [Local.publishTo_of_some hd (hw n h hn)] at ho ⊢
          dsimp only
          rw [Local.fanOut_getElem?, Inbox.ofSubscriber_fanOut]
          exact .publish hsend hd ho

/-- The steps that neither make, read, drop nor publish to subscribers leave every subscriber
record alone. -/
theorem step_subscribers_eq {st : LocalStep} (hst : st.subscriberOf = none) (hs : ∀ a, st ≠ .sub a)
    (hc : ∀ n cs, st ≠ .conn n cs) : (b.step st).2.transport.subscribers = b.transport.subscribers := by
  cases st with
  | openConn i a o =>
    rw [step_openConn, opened_transport]
    exact (Connects.connect i a o).subscribers
  | openConfig yaml =>
    cases hy : Config.loadText yaml with
    | error e => rw [step_openConfig_of_error b hy]
    | ok cfg =>
      rw [step_openConfig_of_ok b hy, opened_transport]
      exact (Connects.fromConfig _).subscribers
  | push a m =>
    rcases step_push_transport b a m with h | h
    · rw [h]
    · rw [h, Local.setQueue_subscribers]
  | pull a i => rw [step_pull_transport, Local.pullOn_subscribers]
  | pullIdentity k => rw [step_pullIdentity_snd]
  | pullRecv k =>
    rw [step_pullRecv_transport]
    split
    · rw [Local.take_subscribers]
    · rfl
  | pullers a => rw [step_pullers_snd]
  | subscribers a => rw [step_subscribers_snd]
  | terminate => rfl
  | isTerminated => rw [step_isTerminated_snd]
  | sub a => exact absurd rfl (hs a)
  | conn n cs => exact absurd rfl (hc n cs)
  | _ => cases hst

theorem delivers_of_frame {st : LocalStep} (hst : st.subscriberOf = none) (hs : ∀ a, st ≠ .sub a)
    (hc : ∀ n cs, st ≠ .conn n cs) :
    Delivers s (b.event st) (b.inboxOf s) ((b.step st).2.inboxOf s) := by
  have hsend : b.sending st = none := by
    cases st with
    | conn n cs => exact absurd rfl (hc n cs)
    | _ => rfl
  refine delivers_of_quiet (inboxOf_congr (step_subscribers_eq hst hs hc) s) hsend ?_ fun a h => absurd h (hs a)
  rw [hst]
  nofun

/-- Every step is, for every subscriber handle, one its contract allows. -/
theorem Wired.delivers (hw : b.Wired) (st : LocalStep) :
    Delivers s (b.event st) (b.inboxOf s) ((b.step st).2.inboxOf s) := by
  cases st with
  | sub a => exact delivers_sub a
  | dropSub s' => exact delivers_dropSub s'
  | tryRecv s' => exact delivers_tryRecv s'
  | drain s' => exact delivers_drain s'
  | subRecv s' => exact delivers_subRecv s'
  | conn n cs => exact delivers_conn hw n cs
  | _ => exact delivers_of_frame rfl nofun nofun


/-! ## Runs follow the contract -/

theorem Wired.trace : ∀ {b : LocalBench}, b.Wired → ∀ steps : List LocalStep, (b.trace steps).2.Wired
  | _, hw, [] => hw
  | _, hw, st :: ss => Wired.trace (hw.step st) ss

/-- A run from a bench whose connections keep their publish handles follows the contract of
every subscriber handle. -/
theorem Wired.fanout : ∀ {b : LocalBench}, b.Wired → ∀ (s : Nat) (steps : List LocalStep),
    Fanout s (b.inboxOf s) (b.trace steps).1 ((b.trace steps).2.inboxOf s)
  | _, _, _, [] => .nil
  | _, hw, s, st :: ss => .cons (hw.delivers st) (Wired.fanout (hw.step st) s ss)

/-! ## The subscriber count -/

/-- The subscribers the transport counts on an address are the live subscriber handles on it,
and none once it is terminated. -/
theorem subscriberCount_eq (b : LocalBench) (a : String) :
    b.transport.subscriberCount a = if b.transport.terminated then 0 else b.liveSubscribers a := by
  unfold Local.subscriberCount liveSubscribers
  split
  · rfl
  · rw [length_filter_eq_range]
    congr 1
    apply List.filter_congr
    intro s _
    unfold inboxOf
    rw [Inbox.liveOn_ofSubscriber]

theorem step_subscribers_fst (b : LocalBench) (a : String) :
    (b.step (.subscribers a)).1 = .ok (.count (b.transport.subscriberCount a)) := rfl

/-- Every run of the bench from a fresh one follows, for every subscriber handle, the contract
of replies: the handle starts with no inbox, gets an empty one when the server subscribes, and
from then on holds exactly the replies framed and sent to its address while the transport is
live, each once and in send order, until it is read or dropped; the run ends with the
transport's own inbox. The count of subscribers the server is given is the number of live
subscriber handles on the address, or 0 once the transport is terminated. -/
theorem replies_fan_out (steps : List LocalStep) (s : Nat) :
    Fanout s .none (({} : LocalBench).trace steps).1 ((({} : LocalBench).trace steps).2.inboxOf s) ∧
      ∀ e ∈ (({} : LocalBench).trace steps).1, ∀ a, e.step = .subscribers a →
        e.outcome = .ok (.count (if e.before.transport.terminated then 0 else e.before.liveSubscribers a)) := by
  refine ⟨Wired.init.fanout s steps, fun e he a hs => ?_⟩
  obtain ⟨pre, -, heq⟩ := trace_before steps he
  have ho : e.outcome = (e.before.step e.step).1 := congrArg Event.outcome heq
  rw [ho, hs, step_subscribers_fst, subscriberCount_eq]

/-- One reply sent between two subscriptions to its address: it reaches the subscriber made
before it and not the one made after, and the server counts both subscribers. -/
theorem reply_reaches_earlier_subscriber :
    let steps : List LocalStep := [.sub "inproc://rep", .openConn none "inproc://req" "inproc://rep",
      .conn 0 (.send (Bytes.ofString "srv") (Bytes.ofString "4") (Bytes.ofString "hi")),
      .sub "inproc://rep", .subscribers "inproc://rep"]
    Fanout 0 .none (({} : LocalBench).trace steps).1
        (.live "inproc://rep" [Bytes.ofString "srv 1:4, hi"]) ∧
      Fanout 1 .none (({} : LocalBench).trace steps).1 (.live "inproc://rep" []) ∧
      ∀ e ∈ (({} : LocalBench).trace steps).1, e.step = .subscribers "inproc://rep" →
        e.outcome = .ok (.count 2) := by
  intro steps
  have h0 : (({} : LocalBench).trace steps).2.inboxOf 0 =
      .live "inproc://rep" [Bytes.ofString "srv 1:4, hi"] := by
    decide +kernel
  have h1 : (({} : LocalBench).trace steps).2.inboxOf 1 = .live "inproc://rep" [] := by
    decide +kernel
  refine ⟨h0 ▸ (replies_fan_out steps 0).1, h1 ▸ (replies_fan_out steps 1).1, fun e he hs => ?_⟩
  -- the one `subscribers` step is the last, after both subscriptions
  have he' := he
  simp only [steps, trace, List.mem_cons, List.not_mem_nil, or_false] at he'
  rcases he' with rfl | rfl | rfl | rfl | rfl
  all_goals try cases hs
  rw [(replies_fan_out steps 0).2 _ he _ rfl]
  congr 2
  decide +kernel

end LocalBench

end HandlerKit
