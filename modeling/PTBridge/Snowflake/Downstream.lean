import PTBridge.Snowflake.QueuePacketConn

/-!
# Downstream packets: which goroutine gets them

A writing goroutine looks the queue of its client up once. This file follows the channels that
goroutines and `WriteTo` calls hold, and asks who takes a packet out of which queue.

- `held` are the channels in use. While no expiry removes the record of a channel in use, every
  channel in use is the one `ClientMap` has for its address (`Current`), so `WriteTo` and the
  running goroutines of a client agree on the queue.
- A `serveHTTP` call returns on the first error of either goroutine. If the other one is waiting
  for a packet at that time, nothing tells it: it takes the next packet of the client, and fails
  to write it. `Quiet` says that no such goroutine is left behind.
-/

namespace PTBridge.Snowflake.Serve

open PTBridge.Stream PTBridge.Container PTBridge.Transition

universe u

variable {Addr : Type u}

/-! ## Channels in use -/

/-- The channel the call is about to send on. -/
def WritePc.lookup : WritePc Addr → Option (Lookup Addr)
  | .sending l _ => some l
  | _ => none

/-- The channels that `WriteTo` calls at their select and running goroutines have. -/
def Server.held (s : Server Addr) : List (Lookup Addr) :=
  s.writes.filterMap WritePc.lookup ++ s.calls.filterMap fun c => c.writer.lookup

theorem mem_held {s : Server Addr} {l : Lookup Addr} :
    l ∈ s.held ↔ (∃ pc ∈ s.writes, pc.lookup = some l) ∨
      ∃ c ∈ s.calls, c.writer.lookup = some l := by
  simp only [Server.held, List.mem_append, List.mem_filterMap]

/-- A `WriteTo` call that moves on has its new channel, if any, and the others keep theirs. -/
theorem held_setWrite (s : Server Addr) {t : Server Addr} {w : Nat} {pc : WritePc Addr}
    {l : Lookup Addr} (h : l ∈ t.held) (hwrites : t.writes = s.writes.set w pc)
    (hcalls : t.calls = s.calls) : pc.lookup = some l ∨ l ∈ s.held := by
  rw [mem_held, hwrites, hcalls] at h
  rw [mem_held]
  rcases h with ⟨pc', hpc', hl⟩ | hcall
  · rcases List.mem_or_eq_of_mem_set hpc' with hold | rfl
    · exact Or.inr (Or.inl ⟨pc', hold, hl⟩)
    · exact Or.inl hl
  · exact Or.inr (Or.inr hcall)

theorem held_setCall (s : Server Addr) {t : Server Addr} {k : Nat} {c : ServeCall Addr}
    {l : Lookup Addr} (h : l ∈ t.held) (hwrites : t.writes = s.writes)
    (hcalls : t.calls = s.calls.set k c) : c.writer.lookup = some l ∨ l ∈ s.held := by
  rw [mem_held, hwrites, hcalls] at h
  rw [mem_held]
  rcases h with hwrite | ⟨c', hc', hl⟩
  · exact Or.inr (Or.inl hwrite)
  · rcases List.mem_or_eq_of_mem_set hc' with hold | rfl
    · exact Or.inr (Or.inr ⟨c', hold, hl⟩)
    · exact Or.inl hl

/-- A call whose goroutine keeps its channel adds none. -/
theorem held_setCall_same {s t : Server Addr} {k : Nat} {c c' : ServeCall Addr}
    (hc : s.calls[k]? = some c) (hwrites : t.writes = s.writes)
    (hcalls : t.calls = s.calls.set k c')
    (hsub : ∀ l, c'.writer.lookup = some l → c.writer.lookup = some l) :
    ∀ l ∈ t.held, l ∈ s.held := by
  intro l h
  rcases held_setCall s h hwrites hcalls with hnew | hold
  · exact mem_held.mpr (Or.inr ⟨c, List.mem_of_getElem? hc, hsub l hnew⟩)
  · exact hold

/-- A goroutine receives from a queue of its own client. -/
def Owned (s : Server Addr) : Prop :=
  ∀ c ∈ s.calls, ∀ l, c.writer.lookup = some l → l.addr = c.clientID

theorem owned_setCall {s t : Server Addr} {k : Nat} {c : ServeCall Addr} (h : Owned s)
    (hcalls : t.calls = s.calls.set k c)
    (hc : ∀ l, c.writer.lookup = some l → l.addr = c.clientID) : Owned t := by
  intro c' hc' l hl
  rw [hcalls] at hc'
  rcases List.mem_or_eq_of_mem_set hc' with hold | rfl
  · exact h c' hold l hl
  · exact hc l hl

section Queue

variable [DecidableEq Addr]

/-- What a step does to the map and to the channels in use. -/
inductive MapStep (timeout : Int) (s : Server Addr) (a : Act Addr) (t : Server Addr) : Prop where
  | same (hclients : t.clients = s.clients) (hheld : ∀ l ∈ t.held, l ∈ s.held)
  | looksUp {addr now queue} (hq : s.clients.sendQueue addr now = some (t.clients, queue))
      (hheld : ∀ l ∈ t.held, l = ⟨addr, queue⟩ ∨ l ∈ s.held)
  | expires {now} (ha : a = .conn (.expire now))
      (hm : s.clients.removeExpired now timeout = some t.clients) (hheld : t.held = s.held)

theorem Step.mapStep {timeout : Int} {s t : Server Addr} {a : Act Addr}
    (h : Step timeout s a t) : MapStep timeout s a t := by
  cases h with
  | writeRefused | readRefused => exact .same rfl fun l hl => hl
  | writeEnters =>
    refine .same rfl fun l hl => ?_
    simpa [Server.held, WritePc.lookup] using hl
  | writeLooksUp hw hq =>
    refine .looksUp hq fun l hl => ?_
    rcases held_setWrite s hl rfl rfl with hnew | hold
    · exact Or.inl (Option.some.inj hnew).symm
    · exact Or.inr hold
  | writePuts hw =>
    refine .same rfl fun l hl => ?_
    rcases held_setWrite s hl rfl rfl with hnew | hold
    · cases hnew
    · exact hold
  | readEnters | readTakes | readStops | close => exact .same rfl fun l hl => hl
  | expires hm => exact .expires rfl hm rfl
  | accepts =>
    refine .same rfl fun l hl => ?_
    simpa [Server.held, WriterPc.lookup] using hl
  | readerReads hc | readerFails hc | readerDrops hc | readerGoesOn hc | readerQueues hc
  | finishes hc => exact .same rfl (held_setCall_same hc rfl rfl fun _ hm => hm)
  | writerStarts hc hw hq =>
    refine .looksUp hq fun l hl => ?_
    rcases held_setCall s hl rfl rfl with hnew | hold
    · exact Or.inl (Option.some.inj hnew).symm
    · exact Or.inr hold
  -- a goroutine keeps its channel from one packet to the next: `SendQueue` is not asked again
  | writerReceives hc hw | writerWrites hc hw | writerGoesOn hc hw =>
    refine .same rfl (held_setCall_same hc rfl rfl fun m hm => ?_)
    rw [hw]
    exact hm
  | writerFails hc hw => exact .same rfl (held_setCall_same hc rfl rfl nofun)

/-! ## The channel of a running goroutine -/

/-- Every channel in use is the one the map has for its address. -/
def Current (s : Server Addr) : Prop :=
  ∃ e, Refines s.clients e ∧ ∀ l ∈ s.held, ∃ t, e.entry l.addr = some (t, l.queue)

/-- A round of the expiry loop that would remove the record of a channel in use is not taken. -/
def KeepsHeld (timeout : Int) (s : Server Addr) : Act Addr → Prop
  | .conn (.expire now) =>
      ∀ l ∈ s.held, ∀ r ∈ s.clients.byAge, r.addr = l.addr → Time.sub now r.lastSeen < timeout
  | _ => True

instance (timeout : Int) (s : Server Addr) : ∀ a, Decidable (KeepsHeld timeout s a)
  | .conn (.expire now) => inferInstanceAs (Decidable (∀ l ∈ s.held, ∀ r ∈ s.clients.byAge,
      r.addr = l.addr → Time.sub now r.lastSeen < timeout))
  | .conn (.writeTo _ _) | .conn (.lookup _ _) | .conn (.put _) | .conn (.readFrom _)
  | .conn (.take _) | .conn (.readClosed _) | .conn .close | .accept _ | .reader _ _
  | .writer _ _ | .finish _ => isTrue trivial

/-- `SendQueue` leaves the queue of every address that has one. -/
theorem sendQueue_keeps {e : ExpiringMap Addr} {a : Addr} {t : Time} {q : Nat} (addr : Addr)
    (now : Time) (h : e.entry a = some (t, q)) :
    ∃ t', (e.sendQueue addr now).1.entry a = some (t', q) := by
  by_cases ha : a = addr
  · subst ha
    exact ⟨now, by simp [ExpiringMap.sendQueue, h]⟩
  · refine ⟨t, ?_⟩
    unfold ExpiringMap.sendQueue
    split <;> simpa [Function.update_of_ne ha] using h

/-- The queue `SendQueue` returns is the one the address has afterwards. -/
theorem sendQueue_entry (e : ExpiringMap Addr) (addr : Addr) (now : Time) :
    (e.sendQueue addr now).1.entry addr = some (now, (e.sendQueue addr now).2) := by
  unfold ExpiringMap.sendQueue
  split <;> simp

theorem current_new : Current (Server.new : Server Addr) :=
  ⟨.empty, refines_empty, fun _ hl => absurd hl List.not_mem_nil⟩

theorem current_step {timeout : Int} {s t : Server Addr} {a : Act Addr} (h : Current s)
    (hkeep : KeepsHeld timeout s a) (hstep : step timeout s a = some t) : Current t := by
  obtain ⟨e, href, hcur⟩ := h
  cases (step_cases hstep).mapStep with
  | same hclients hheld =>
    exact ⟨e, hclients ▸ href, fun l hl => hcur l (hheld l hl)⟩
  | @looksUp addr now queue hq hheld =>
    -- the new channel is the one the map has now, and the lookup replaces no other
    obtain ⟨m, hrun, href'⟩ := sendQueue_refines href addr now
    rw [hq] at hrun
    cases hrun
    refine ⟨_, href', fun l hl => ?_⟩
    rcases hheld l hl with rfl | hold
    · exact ⟨now, sendQueue_entry e addr now⟩
    · obtain ⟨t', ht'⟩ := hcur l hold
      exact sendQueue_keeps addr now ht'
  | @expires now ha hm hheld =>
    subst ha
    obtain ⟨m, hrun, href'⟩ := removeExpired_refines href now timeout
    rw [hm] at hrun
    cases hrun
    refine ⟨_, href', fun l hl => ?_⟩
    rw [hheld] at hl
    obtain ⟨t', ht'⟩ := hcur l hl
    -- the record of a channel in use is not due
    have hrecent : Time.sub now t' < timeout :=
      hkeep l hl ⟨l.addr, t', l.queue⟩ ((href.stored l.addr t' l.queue).mpr ht') rfl
    refine ⟨t', ?_⟩
    simp [ExpiringMap.removeExpired, ht', Option.filter, Int.not_le.mpr hrecent]

theorem current_run {timeout : Int} {as : List (Act Addr)} {s : Server Addr}
    (hkeep : Meets (step timeout) (KeepsHeld timeout) .new as)
    (hrun : exec (step timeout) .new as = some s) : Current s :=
  exec_invariant (fun _ _ _ h hk hst => current_step h hk hst) as _ _ current_new hkeep hrun

theorem owned_step {timeout : Int} {s t : Server Addr} {a : Act Addr} (h : Owned s)
    (hstep : step timeout s a = some t) : Owned t := by
  have hown : ∀ {k : Nat} {c : ServeCall Addr}, s.calls[k]? = some c →
      ∀ l, c.writer.lookup = some l → l.addr = c.clientID :=
    fun hc l hl => h _ (List.mem_of_getElem? hc) l hl
  cases step_cases hstep with
  | writeRefused | writeEnters | writeLooksUp | writePuts | readRefused | readEnters | readTakes
  | readStops | close | expires => exact h
  | accepts =>
    intro c hc l hl
    rcases List.mem_append.mp hc with hold | hnew
    · exact h c hold l hl
    · cases List.mem_singleton.mp hnew
      cases hl
  | readerReads hc | readerFails hc | readerDrops hc | readerGoesOn hc | readerQueues hc
  | finishes hc => exact owned_setCall h rfl fun l hl => hown hc l hl
  | writerStarts hc hw hq =>
    refine owned_setCall h rfl fun l hl => ?_
    cases hl
    rfl
  | writerReceives hc hw | writerWrites hc hw | writerGoesOn hc hw =>
    refine owned_setCall h rfl fun l hl => hown hc l ?_
    rw [hw]
    exact hl
  | writerFails hc hw he => exact owned_setCall h rfl nofun

theorem owned_run {timeout : Int} {as : List (Act Addr)} {s : Server Addr}
    (hrun : exec (step timeout) .new as = some s) : Owned s :=
  exec_invariant_all (fun _ _ _ h hst => owned_step h hst) as _ _
    (fun _ hc => absurd hc List.not_mem_nil) hrun

/-- While a goroutine for the address runs, the channel of every `WriteTo` call at its select is
one that a running goroutine for the address receives from. -/
def PutsReachWriter (s : Server Addr) : Prop :=
  ∀ (w : Nat) (l : Lookup Addr) (p : Bytes), s.writes[w]? = some (.sending l p) →
    (∃ c ∈ s.calls, c.clientID = l.addr ∧ c.writer.lookup.isSome) →
      ∃ c ∈ s.calls, c.clientID = l.addr ∧ ∃ m, c.writer.lookup = some m ∧ m.queue = l.queue

/-- If no expiry removes the record of a channel in use, the packets that `WriteTo` puts on a
queue while a goroutine of the client runs are put on the queue it receives from. -/
theorem writeTo_reaches_writer (timeout : Int) (as : List (Act Addr)) (s : Server Addr)
    (hkeep : Meets (step timeout) (KeepsHeld timeout) .new as)
    (hrun : exec (step timeout) .new as = some s) : PutsReachWriter s := by
  obtain ⟨e, -, hcur⟩ := current_run hkeep hrun
  have hown := owned_run hrun
  rintro w l p hw ⟨c, hc, hid, hsome⟩
  obtain ⟨m, hm⟩ := Option.isSome_iff_exists.mp hsome
  refine ⟨c, hc, hid, m, hm, ?_⟩
  -- both have the channel the map has for the address
  obtain ⟨t₁, hl⟩ := hcur l (mem_held.mpr (Or.inl ⟨_, List.mem_of_getElem? hw, rfl⟩))
  obtain ⟨t₂, hm'⟩ := hcur m (mem_held.mpr (Or.inr ⟨c, hc, hm⟩))
  rw [hown c hc m hm, hid, hl] at hm'
  exact (congrArg Prod.snd (Option.some.inj hm')).symm

/-- The client of the runs below. -/
def oneClient : ClientID := ⟨List.replicate 8 7, rfl⟩

/-- A WebSocket of the client is accepted as call `k`, and its goroutine looks the queue up. -/
def serveAt (k : Nat) (now : Time) : List (Act ClientID) :=
  [.accept oneClient, .writer k (.start now)]

/-- Call `w` of `WriteTo`, up to its select. -/
def writeAt (w : Nat) (now : Time) (p : Bytes) : List (Act ClientID) :=
  [.conn (.writeTo oneClient p), .conn (.lookup w now)]

/-- Seconds of `time.Duration`. -/
def seconds (n : Int) : Int := n * 10 ^ 9

/-- A packet every 50 seconds, and an expiry between the first two. -/
def steadyRun : List (Act ClientID) :=
  serveAt 0 0 ++ writeAt 0 (seconds 50) [1] ++
    [.conn (.put 0), .conn (.expire (seconds 90))] ++ writeAt 1 (seconds 100) [2]

/-- Packets that come every 50 seconds keep the record, and the second one goes to the queue of
the goroutine that was started before the first. -/
theorem writeTo_reaches_writer_steady :
    ∃ s, exec (step clientMapTimeout) .new steadyRun = some s ∧
      s.writes = [.done, .sending ⟨oneClient, 0⟩ [2]] ∧
      s.calls.map ServeCall.writer = [.receiving ⟨oneClient, 0⟩] ∧ PutsReachWriter s := by
  have hkeep : Meets (step clientMapTimeout) (KeepsHeld clientMapTimeout) .new steadyRun := by
    decide +kernel
  apply exec_reaches (P := fun s : Server ClientID =>
    s.writes = [.done, .sending ⟨oneClient, 0⟩ [2]] ∧
      s.calls.map ServeCall.writer = [.receiving ⟨oneClient, 0⟩])
  · decide +kernel
  · rintro s hs ⟨hwrites, hcalls⟩
    exact ⟨hwrites, hcalls, writeTo_reaches_writer clientMapTimeout _ s hkeep hs⟩

/-- An expiry after a minute without packets, and then a packet. -/
def silentRun : List (Act ClientID) :=
  serveAt 0 0 ++ [.conn (.expire (seconds 60))] ++ writeAt 0 (seconds 61) [1]

/-- After a silent minute the record is gone. The next packet is put on a new queue, while the
goroutine of the open WebSocket still receives from the old one. -/
theorem expiry_orphans_writer :
    ∃ s t, exec (step clientMapTimeout) .new silentRun = some s ∧
      step clientMapTimeout s (.conn (.put 0)) = some t ∧
      t.calls.map ServeCall.writer = [.receiving ⟨oneClient, 0⟩] ∧
      t.calls.map ServeCall.returned = [false] ∧
      (t.queues 0).buf = [] ∧ (t.queues 1).buf = [(0, [1])] ∧ ¬ PutsReachWriter s := by
  have hrun : (exec (step clientMapTimeout) .new silentRun).any (fun s => decide (
        s.writes[0]? = some (.sending ⟨oneClient, 1⟩ [1]) ∧
        s.calls = [⟨oneClient, .reading, .receiving ⟨oneClient, 0⟩, .make, false⟩]) &&
      (step clientMapTimeout s (.conn (.put 0))).any (fun t => decide (
        t.calls.map ServeCall.writer = [.receiving ⟨oneClient, 0⟩] ∧
        t.calls.map ServeCall.returned = [false] ∧
        (t.queues 0).buf = [] ∧ (t.queues 1).buf = [(0, [1])]))) = true := by decide +kernel
  obtain ⟨s, hs, hat⟩ := (Option.any_eq_true _ _).mp hrun
  obtain ⟨hbefore, hput⟩ := (Bool.and_eq_true _ _).mp hat
  obtain ⟨hwrite, hcalls⟩ := of_decide_eq_true hbefore
  obtain ⟨t, ht, hafter⟩ := (Option.any_eq_true _ _).mp hput
  obtain ⟨hwriters, hopen, hold, hnew⟩ := of_decide_eq_true hafter
  refine ⟨s, t, hs, ht, hwriters, hopen, hold, hnew, fun hreach => ?_⟩
  -- the goroutine of the open call runs, on queue 0; the packet goes to queue 1
  have hrunning : ∃ c ∈ s.calls, c.clientID = oneClient ∧ c.writer.lookup.isSome := by
    rw [hcalls]
    exact ⟨_, List.mem_singleton_self _, rfl, rfl⟩
  obtain ⟨c, hc, -, m, hm, hqueue⟩ := hreach 0 ⟨oneClient, 1⟩ [1] hwrite hrunning
  rw [hcalls] at hc
  cases List.mem_singleton.mp hc
  cases hm
  cases hqueue

end Queue

/-! ## Goroutines that are left behind -/

/-- The goroutine waits for a packet of the queue, or comes to wait for one whatever happens to its
connection: a `Flush` whose bytes were taken returns nil. -/
def WriterPc.waits : WriterPc Addr → Bool
  | .starting => true
  | .receiving _ => true
  | .written _ => true
  | .writing _ _ => false
  | .ended => false

/-- No goroutine of a call that has returned waits for a packet. -/
def Quiet (s : Server Addr) : Prop :=
  ∀ c ∈ s.calls, c.returned = true → c.writer.waits = false

/-- A call returns only if its goroutine has ended, or is in the middle of a packet that its closed
connection will not take. -/
def ReturnsQuietly (s : Server Addr) : Act Addr → Prop
  | .finish k => ∀ c ∈ s.calls[k]?.toList, c.writer.waits = false
  | _ => True

theorem quiet_setCall {s t : Server Addr} {k : Nat} {c : ServeCall Addr} (h : Quiet s)
    (hcalls : t.calls = s.calls.set k c) (hc : c.returned = true → c.writer.waits = false) :
    Quiet t := by
  intro c' hc' hret
  rw [hcalls] at hc'
  rcases List.mem_or_eq_of_mem_set hc' with hold | rfl
  · exact h c' hold hret
  · exact hc hret

section Stale

variable [DecidableEq Addr]

instance (s : Server Addr) : ∀ a, Decidable (ReturnsQuietly s a)
  | .finish k =>
      inferInstanceAs (Decidable (∀ c ∈ s.calls[k]?.toList, c.writer.waits = false))
  | .conn _ | .accept _ | .reader _ _ | .writer _ _ => isTrue trivial

theorem quiet_step {timeout : Int} {s t : Server Addr} {a : Act Addr} (h : Quiet s)
    (hok : ReturnsQuietly s a) (hstep : step timeout s a = some t) : Quiet t := by
  have hquiet : ∀ {k : Nat} {c : ServeCall Addr}, s.calls[k]? = some c →
      c.returned = true → c.writer.waits = false :=
    fun hc hret => h _ (List.mem_of_getElem? hc) hret
  cases step_cases hstep with
  | writeRefused | writeEnters | writeLooksUp | writePuts | readRefused | readEnters | readTakes
  | readStops | close | expires => exact h
  | accepts =>
    intro c hc hret
    rcases List.mem_append.mp hc with hold | hnew
    · exact h c hold hret
    · cases List.mem_singleton.mp hnew
      cases hret
  | readerReads hc | readerFails hc | readerDrops hc | readerGoesOn hc | readerQueues hc =>
    have hwaits := hquiet hc
    exact quiet_setCall h rfl hwaits
  | writerStarts hc hw hq =>
    -- a goroutine that has yet to start belongs to a call that has not returned
    refine quiet_setCall h rfl fun hret => ?_
    have hwaits := hquiet hc hret
    rw [hw] at hwaits
    cases hwaits
  | writerReceives hc hw hq => exact quiet_setCall h rfl fun _ => rfl
  -- bytes are taken only while the call, and so the WebSocket, is open
  | writerWrites hc hw hopen =>
    refine quiet_setCall h rfl fun hret => ?_
    rw [hopen] at hret
    cases hret
  | writerFails hc hw he => exact quiet_setCall h rfl fun _ => rfl
  -- a `Flush` that is about to return belongs to a call that has not returned
  | writerGoesOn hc hw =>
    refine quiet_setCall h rfl fun hret => ?_
    have hwaits := hquiet hc hret
    rw [hw] at hwaits
    cases hwaits
  | @finishes k c errCh hc hopen he =>
    have hwaits : c.writer.waits = false := hok c (by simp [hc])
    exact quiet_setCall h rfl fun _ => hwaits

theorem quiet_run {timeout : Int} {as : List (Act Addr)} {s : Server Addr}
    (hok : Meets (step timeout) ReturnsQuietly .new as)
    (hrun : exec (step timeout) .new as = some s) : Quiet s :=
  exec_invariant (fun _ _ _ h ho hst => quiet_step h ho hst) as _ _
    (fun _ hc => absurd hc List.not_mem_nil) hok hrun

/-- The writing goroutine of a call that has returned takes nothing from any queue. -/
def TakesNothing (timeout : Int) (s : Server Addr) : Prop :=
  ∀ (k : Nat) (c : ServeCall Addr), s.calls[k]? = some c → c.returned = true →
    ∀ (m : WriterMove) (t : Server Addr), step timeout s (.writer k m) = some t →
      t.queues = s.queues ∧ t.received = s.received

/-- If no call returns while its writing goroutine waits for a packet, or is about to, then no
goroutine of a call that has returned ever takes one. -/
theorem returned_takes_nothing (timeout : Int) (as : List (Act Addr)) (s : Server Addr)
    (hok : Meets (step timeout) ReturnsQuietly .new as)
    (hrun : exec (step timeout) .new as = some s) : TakesNothing timeout s := by
  intro k c hc hret m t hstep
  have hwaits := quiet_run hok hrun c (List.mem_of_getElem? hc) hret
  cases step_cases hstep with
  | writerStarts | writerWrites | writerFails | writerGoesOn => exact ⟨rfl, rfl⟩
  -- only a goroutine that waits takes a packet
  | writerReceives hc' hw hq =>
    rw [hc] at hc'
    cases hc'
    rw [hw] at hwaits
    cases hwaits

end Stale

/-- `ReadData` of call 0 fails while its goroutine is in the middle of the second packet. The call
returns, the write fails, and the client comes back. -/
def failedRun : List (Act ClientID) :=
  serveAt 0 0 ++ writeAt 0 1 [1] ++
    [.conn (.put 0), .writer 0 .receive, .writer 0 (.write true), .writer 0 .goOn] ++
    writeAt 1 2 [2] ++
    [.conn (.put 1), .writer 0 .receive, .reader 0 (.read none), .finish 0,
      .writer 0 (.write false)] ++
    serveAt 1 3 ++ writeAt 2 4 [3] ++ [.conn (.put 2)]

/-- The goroutine of call 0 ends with the packet it had, and the next one is left to call 1. -/
theorem returned_takes_nothing_failed :
    ∃ s, exec (step clientMapTimeout) .new failedRun = some s ∧
      s.calls.map ServeCall.returned = [true, false] ∧ (s.queues 0).buf = [(2, [3])] ∧
      TakesNothing clientMapTimeout s := by
  have hok : Meets (step clientMapTimeout) ReturnsQuietly .new failedRun := by decide +kernel
  apply exec_reaches (P := fun s : Server ClientID =>
    s.calls.map ServeCall.returned = [true, false] ∧ (s.queues 0).buf = [(2, [3])])
  · decide +kernel
  · rintro s hs ⟨hreturned, hqueue⟩
    exact ⟨hreturned, hqueue, returned_takes_nothing clientMapTimeout _ s hok hs⟩

/-- The WebSocket of call 0 fails while no packet is there, and the client comes back. -/
def staleRun : List (Act ClientID) :=
  serveAt 0 0 ++ [.reader 0 (.read none), .finish 0] ++ serveAt 1 1 ++ writeAt 0 2 [1] ++
    [.conn (.put 0)]

/-- The WebSocket of call 0 fails while its writing goroutine waits. The client comes back as
call 1, and the next packet for it is taken by the goroutine of call 0. -/
theorem stale_writer_takes_packet :
    ∃ s t, exec (step clientMapTimeout) .new staleRun = some s ∧
      s.calls.map ServeCall.returned = [true, false] ∧
      step clientMapTimeout s (.writer 0 .receive) = some t ∧
      t.received = [(⟨oneClient, 0⟩, 0, [1])] ∧ (t.queues 0).buf = [] ∧
      ¬ TakesNothing clientMapTimeout s := by
  have hrun : (exec (step clientMapTimeout) .new staleRun).any (fun s => decide (
        s.calls.map ServeCall.returned = [true, false] ∧ s.received = []) &&
      (step clientMapTimeout s (.writer 0 .receive)).any (fun t => decide (
        t.received = [(⟨oneClient, 0⟩, 0, [1])] ∧ (t.queues 0).buf = []))) = true := by
    decide +kernel
  obtain ⟨s, hs, hat⟩ := (Option.any_eq_true _ _).mp hrun
  obtain ⟨hbefore, htake⟩ := (Bool.and_eq_true _ _).mp hat
  obtain ⟨hreturned, hnone⟩ := of_decide_eq_true hbefore
  obtain ⟨t, ht, hafter⟩ := (Option.any_eq_true _ _).mp htake
  obtain ⟨hreceived, hqueue⟩ := of_decide_eq_true hafter
  refine ⟨s, t, hs, hreturned, ht, hreceived, hqueue, fun hnothing => ?_⟩
  -- call 0 is the first in the list, and it has returned
  cases hcalls : s.calls with
  | nil =>
    rw [hcalls] at hreturned
    cases hreturned
  | cons c rest =>
    rw [hcalls, List.map_cons, List.cons.injEq] at hreturned
    obtain ⟨-, hsame⟩ := hnothing 0 c (by rw [hcalls]; rfl) hreturned.1 .receive t ht
    rw [hreceived, hnone] at hsame
    cases hsame

end PTBridge.Snowflake.Serve
