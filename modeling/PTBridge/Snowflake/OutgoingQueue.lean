import PTBridge.Snowflake.QueuePacketConn

/-!
# Which packets come out of `OutgoingQueue`

`QueuePacketConn` on its own, with any callers of `WriteTo` and `OutgoingQueue` and any receivers
on the queues they got.

- `step` is the code; `Step` and `step_cases` list what a step can do.
- Each queue is a lossy first-in first-out queue: what was received from it and what it still
  holds is a sublist of what was sent to it (`Fifo`).
- A queue belongs to one address for good, although the map forgets records and makes new queues
  (`Owned`).
- `Routed` follows from the two. The server of `serveHTTP` behaves as such a connection
  (`Behaves`), so that `serve_routed` and `serve_takes_once` hold of it.
-/

namespace PTBridge.Snowflake

open PTBridge.Stream PTBridge.Container PTBridge.Transition
open PTBridge.Snowflake.Serve (Lookup)

universe u

/-! ## State -/

/-- How far a call of `WriteTo` got. -/
inductive WriteStage where
  /-- past its check of `closed` -/
  | entered
  /-- at the select, with the channel `SendQueue` returned -/
  | sending (queue : Nat)
  | done
  deriving DecidableEq

/-- A call of `WriteTo` on an open connection. -/
structure WriteCall (Addr : Type u) where
  addr : Addr
  p : Bytes
  stage : WriteStage
  deriving DecidableEq

/-- The channel a call of `WriteTo` is about to send on. -/
def WriteCall.lookup {Addr : Type u} (x : WriteCall Addr) : Option (Lookup Addr) :=
  match x.stage with
  | .sending queue => some ⟨x.addr, queue⟩
  | _ => none

/-- `QueuePacketConn`, its sending side, with what went through it. -/
structure QueuePacketConn (Addr : Type u) where
  clients : ClientMapInner Addr
  queues : Nat → Chan queueSize (Nat × Bytes)
  closed : Bool
  writes : List (WriteCall Addr)
  /-- What the calls of `OutgoingQueue` returned. -/
  outgoing : List (Lookup Addr)
  /-- Every packet that came to the select of `WriteTo`, with the call and the channel. A packet in
  a queue carries its position in this list. -/
  sent : List (Nat × Lookup Addr × Bytes)
  /-- Every packet that was received, with the result of `OutgoingQueue` it was received from. -/
  received : List (Lookup Addr × Nat × Bytes)

/-! ## Steps -/

/-- A step of a caller, or of the goroutine that `NewClientMap` starts. -/
inductive QueueOp (Addr : Type u) where
  /-- `WriteTo(p, addr)` is called and checks `closed` -/
  | writeTo (addr : Addr) (p : Bytes)
  /-- call `w` of `WriteTo` evaluates `SendQueue(addr)` at time `now` -/
  | lookup (w : Nat) (now : Time)
  /-- the select of call `w` of `WriteTo` -/
  | put (w : Nat)
  /-- `OutgoingQueue(addr)` at time `now` -/
  | outgoingQueue (addr : Addr) (now : Time)
  /-- a receive from the queue that call `h` of `OutgoingQueue` returned -/
  | receive (h : Nat)
  /-- one round of the expiry loop, at time `now` -/
  | expire (now : Time)
  | close
  deriving DecidableEq

namespace QueuePacketConn

variable {Addr : Type u}

/-- `NewQueuePacketConn`. -/
def new : QueuePacketConn Addr := ⟨.empty, fun _ => .make, false, [], [], [], []⟩

/-- The select of call `w` of `WriteTo`: the packet goes into the queue, or is dropped. -/
def put (c : QueuePacketConn Addr) (w : Nat) (l : Lookup Addr) (p : Bytes) :
    QueuePacketConn Addr :=
  { c with
    queues := Function.update c.queues l.queue ((c.queues l.queue).offer (c.sent.length, p))
    sent := c.sent ++ [(w, l, p)]
    writes := c.writes.set w ⟨l.addr, p, .done⟩ }

/-- Packet `i` leaves the queue of `l`, which becomes `q`. -/
def take (c : QueuePacketConn Addr) (l : Lookup Addr) (q : Chan queueSize (Nat × Bytes)) (i : Nat)
    (p : Bytes) : QueuePacketConn Addr :=
  { c with
    queues := Function.update c.queues l.queue q
    received := c.received ++ [(l, i, p)] }

variable [DecidableEq Addr]

def step (timeout : Int) (c : QueuePacketConn Addr) : QueueOp Addr → Option (QueuePacketConn Addr)
  | .writeTo addr p =>
      if c.closed then some c else some { c with writes := c.writes ++ [⟨addr, p, .entered⟩] }
  | .lookup w now =>
      match c.writes[w]? with
      | some ⟨addr, p, .entered⟩ =>
          match c.clients.sendQueue addr now with
          | none => none
          | some (clients, queue) =>
              some { c with clients, writes := c.writes.set w ⟨addr, p, .sending queue⟩ }
      | _ => none
  | .put w =>
      match c.writes[w]? with
      | some ⟨addr, p, .sending queue⟩ => some (c.put w ⟨addr, queue⟩ p)
      | _ => none
  | .outgoingQueue addr now =>
      -- also after `Close`: `OutgoingQueue` does not look at `closed`
      match c.clients.sendQueue addr now with
      | none => none
      | some (clients, queue) => some { c with clients, outgoing := c.outgoing ++ [⟨addr, queue⟩] }
  | .receive h =>
      match c.outgoing[h]? with
      | none => none
      | some l =>
          match (c.queues l.queue).recv with
          | some (some (i, p), q) => some (c.take l q i p)
          | _ => none
  | .expire now =>
      match c.clients.removeExpired now timeout with
      | none => none
      | some clients => some { c with clients }
  | .close => some { c with closed := true }

/-- What a step can do, one constructor for each branch. -/
inductive Step (timeout : Int) (c : QueuePacketConn Addr) :
    QueueOp Addr → QueuePacketConn Addr → Prop where
  | writeRefused {addr p} (hclosed : c.closed = true) : Step timeout c (.writeTo addr p) c
  | writeEnters {addr p} (hopen : c.closed = false) :
      Step timeout c (.writeTo addr p) { c with writes := c.writes ++ [⟨addr, p, .entered⟩] }
  | writeLooksUp {w now addr p clients queue} (hw : c.writes[w]? = some ⟨addr, p, .entered⟩)
      (hq : c.clients.sendQueue addr now = some (clients, queue)) :
      Step timeout c (.lookup w now)
        { c with clients, writes := c.writes.set w ⟨addr, p, .sending queue⟩ }
  | writePuts {w addr p queue} (hw : c.writes[w]? = some ⟨addr, p, .sending queue⟩) :
      Step timeout c (.put w) (c.put w ⟨addr, queue⟩ p)
  | looksUp {addr now clients queue}
      (hq : c.clients.sendQueue addr now = some (clients, queue)) :
      Step timeout c (.outgoingQueue addr now)
        { c with clients, outgoing := c.outgoing ++ [⟨addr, queue⟩] }
  | receives {h l i p q} (hl : c.outgoing[h]? = some l)
      (hq : (c.queues l.queue).recv = some (some (i, p), q)) :
      Step timeout c (.receive h) (c.take l q i p)
  | expires {now clients} (hm : c.clients.removeExpired now timeout = some clients) :
      Step timeout c (.expire now) { c with clients }
  | closes : Step timeout c .close { c with closed := true }

theorem step_cases {timeout : Int} {c c' : QueuePacketConn Addr} {op : QueueOp Addr}
    (h : step timeout c op = some c') : Step timeout c op c' := by
  cases op with
  | writeTo addr p =>
    simp only [step] at h
    split at h
    · rename_i hclosed
      cases h
      exact .writeRefused hclosed
    · rename_i hopen
      cases h
      exact .writeEnters (eq_false_of_ne_true hopen)
  | lookup w now =>
    simp only [step] at h
    split at h
    · rename_i addr p hw
      split at h
      · cases h
      · rename_i clients queue hq
        cases h
        exact .writeLooksUp hw hq
    · cases h
  | put w =>
    simp only [step] at h
    split at h
    · rename_i addr p queue hw
      cases h
      exact .writePuts hw
    · cases h
  | outgoingQueue addr now =>
    simp only [step] at h
    split at h
    · cases h
    · rename_i clients queue hq
      cases h
      exact .looksUp hq
  | receive k =>
    simp only [step] at h
    split at h
    · cases h
    · rename_i l hl
      split at h
      · rename_i i p q hq
        cases h
        exact .receives hl hq
      · cases h
  | expire now =>
    simp only [step] at h
    split at h
    · cases h
    · rename_i clients hm
      cases h
      exact .expires hm
  | close =>
    cases h
    exact .closes

/-- A step that is listed is taken, as a run of length one. -/
theorem Step.run {timeout : Int} {c c' : QueuePacketConn Addr} {op : QueueOp Addr}
    (h : Step timeout c op c') : exec (step timeout) c [op] = some c' := by
  apply exec_cons_some.mpr
  refine ⟨c', ?_, rfl⟩
  cases h with
  | writeRefused hclosed => simp [step, hclosed]
  | writeEnters hopen => simp [step, hopen]
  | writeLooksUp hw hq => simp [step, hw, hq]
  | writePuts hw => simp [step, hw]
  | looksUp hq => simp [step, hq]
  | receives hl hq => simp [step, hl, hq]
  | expires hm => simp [step, hm]
  | closes => rfl

/-! ## Every queue is first in, first out -/

section Fifo

/-- The packets that were received from queue `q`, in order. -/
def taken (c : QueuePacketConn Addr) (q : Nat) : List (Nat × Bytes) :=
  (c.received.filter fun x => x.1.queue = q).map Prod.snd

/-- The packets that were sent to queue `q`, in order. -/
def offered (c : QueuePacketConn Addr) (q : Nat) : List (Nat × Bytes) :=
  (c.sent.zipIdx.filter fun x => x.1.2.1.queue = q).map fun x => (x.2, x.1.2.2)

/-- What came out of a queue, followed by what is in it, was sent to it in this order; some of what
was sent to it may be missing. -/
def Fifo (c : QueuePacketConn Addr) : Prop :=
  ∀ q, (c.taken q ++ (c.queues q).buf).Sublist (c.offered q)

omit [DecidableEq Addr]

theorem offered_snoc {c c' : QueuePacketConn Addr} {w : Nat} {l : Lookup Addr} {p : Bytes}
    (h : c'.sent = c.sent ++ [(w, l, p)]) (q : Nat) :
    c'.offered q = c.offered q ++ if l.queue = q then [(c.sent.length, p)] else [] := by
  simp only [offered, h, List.zipIdx_append, List.filter_append, List.map_append]
  split <;> simp_all

theorem taken_snoc {c c' : QueuePacketConn Addr} {l : Lookup Addr} {i : Nat} {p : Bytes}
    (h : c'.received = c.received ++ [(l, i, p)]) (q : Nat) :
    c'.taken q = c.taken q ++ if l.queue = q then [(i, p)] else [] := by
  simp only [taken, h, List.filter_append, List.map_append]
  split <;> simp_all

theorem mem_offered {c : QueuePacketConn Addr} {q i : Nat} {p : Bytes} :
    (i, p) ∈ c.offered q ↔ ∃ w l, c.sent[i]? = some (w, l, p) ∧ l.queue = q := by
  simp only [offered, List.mem_map, List.mem_filter, decide_eq_true_eq, Prod.mk.injEq]
  constructor
  · rintro ⟨⟨⟨w, l, p'⟩, i'⟩, ⟨hmem, hq⟩, rfl, rfl⟩
    exact ⟨w, l, List.mem_zipIdx_iff_getElem?.mp hmem, hq⟩
  · rintro ⟨w, l, hget, hq⟩
    exact ⟨((w, l, p), i), ⟨List.mem_zipIdx_iff_getElem?.mpr hget, hq⟩, rfl, rfl⟩

/-- Packets are sent in the order of their positions. -/
theorem offered_sorted (c : QueuePacketConn Addr) (q : Nat) :
    (c.offered q).Pairwise fun x y => x.1 < y.1 := by
  have hall : c.sent.zipIdx.Pairwise fun x y => x.2 < y.2 := by
    apply List.pairwise_map.mp
    rw [List.zipIdx_map_snd]
    exact List.pairwise_lt_range'
  exact List.pairwise_map.mpr ((hall.filter _).imp fun h => h)

theorem fifo_new : Fifo (new : QueuePacketConn Addr) := fun _ => List.nil_sublist _

/-- A packet is appended to its queue, or dropped. -/
theorem Fifo.put {c : QueuePacketConn Addr} (h : Fifo c) (w : Nat) (l : Lookup Addr) (p : Bytes) :
    Fifo (c.put w l p) := by
  intro q
  rw [offered_snoc (c := c) rfl q]
  change ((c.taken q) ++ (Function.update c.queues l.queue
    ((c.queues l.queue).offer (c.sent.length, p)) q).buf).Sublist _
  by_cases hq : l.queue = q
  · subst hq
    rw [Function.update_self, if_pos rfl]
    rcases (c.queues l.queue).offer_buf (c.sent.length, p) with hdropped | hkept
    · rw [hdropped]
      exact (h l.queue).trans (List.sublist_append_left _ _)
    · rw [hkept, ← List.append_assoc]
      exact (h l.queue).append (List.Sublist.refl _)
  · rw [Function.update_of_ne (Ne.symm hq), if_neg hq, List.append_nil]
    exact h q

/-- A receive moves the oldest packet from the queue to what was received. -/
theorem Fifo.take {c : QueuePacketConn Addr} {l : Lookup Addr} {i : Nat} {p : Bytes}
    {r : Chan queueSize (Nat × Bytes)} (h : Fifo c)
    (hr : (c.queues l.queue).recv = some (some (i, p), r)) : Fifo (c.take l r i p) := by
  obtain ⟨hbuf, -⟩ := Chan.recv_eq_value.mp hr
  intro q
  rw [taken_snoc (c := c) rfl q]
  change (_ ++ (Function.update c.queues l.queue r q).buf).Sublist (c.offered q)
  by_cases hq : l.queue = q
  · subst hq
    have hlog := h l.queue
    rw [hbuf] at hlog
    rw [Function.update_self, if_pos rfl, List.append_assoc]
    exact hlog
  · rw [Function.update_of_ne (Ne.symm hq), if_neg hq, List.append_nil]
    exact h q

end Fifo

theorem fifo_step {timeout : Int} {c c' : QueuePacketConn Addr} {op : QueueOp Addr} (h : Fifo c)
    (hstep : step timeout c op = some c') : Fifo c' := by
  cases step_cases hstep with
  | writePuts hw => exact h.put _ _ _
  | receives hl hq => exact h.take hq
  | _ => exact h

/-! ## Every queue belongs to one address -/

/-- The map knows no queue that is still to be made, and every queue by its owner's address. -/
def Names (own : Nat → Option Addr) (e : ExpiringMap Addr) : Prop :=
  ∀ a t q, e.entry a = some (t, q) → q < e.fresh ∧ own q = some a

/-- `SendQueue` returns a queue of the address, and a new queue gets an owner. -/
theorem names_sendQueue {own : Nat → Option Addr} {e : ExpiringMap Addr} (h : Names own e) (addr : Addr)
    (now : Time) :
    ∃ own', Names own' (e.sendQueue addr now).1 ∧ (∀ q < e.fresh, own' q = own q) ∧
      e.fresh ≤ (e.sendQueue addr now).1.fresh ∧
      (e.sendQueue addr now).2 < (e.sendQueue addr now).1.fresh ∧
      own' (e.sendQueue addr now).2 = some addr := by
  cases hentry : e.entry addr with
  | some found =>
    obtain ⟨t₀, q₀⟩ := found
    obtain ⟨hlt, hown⟩ := h addr t₀ q₀ hentry
    simp only [ExpiringMap.sendQueue, hentry]
    refine ⟨own, ?_, fun _ _ => rfl, le_refl _, hlt, hown⟩
    intro a t q ha
    by_cases heq : a = addr
    · subst heq
      simp only [Function.update_self, Option.some.injEq, Prod.mk.injEq] at ha
      obtain ⟨-, rfl⟩ := ha
      exact ⟨hlt, hown⟩
    · simp only [Function.update_of_ne heq] at ha
      exact h a t q ha
  | none =>
    simp only [ExpiringMap.sendQueue, hentry]
    refine ⟨Function.update own e.fresh (some addr), ?_, ?_, Nat.le_succ _, Nat.lt_succ_self _,
      Function.update_self _ _ _⟩
    · intro a t q ha
      by_cases heq : a = addr
      · subst heq
        simp only [Function.update_self, Option.some.injEq, Prod.mk.injEq] at ha
        obtain ⟨-, rfl⟩ := ha
        exact ⟨Nat.lt_succ_self _, Function.update_self _ _ _⟩
      · simp only [Function.update_of_ne heq] at ha
        obtain ⟨hlt, hown⟩ := h a t q ha
        refine ⟨Nat.lt_succ_of_lt hlt, ?_⟩
        rw [Function.update_of_ne (Nat.ne_of_lt hlt), hown]
    · intro q hlt
      exact Function.update_of_ne (Nat.ne_of_lt hlt) _ _

omit [DecidableEq Addr] in
theorem names_removeExpired {own : Nat → Option Addr} {e : ExpiringMap Addr} (h : Names own e)
    (now : Time) (timeout : Int) : Names own (e.removeExpired now timeout) := by
  intro a t q ha
  exact h a t q (Option.filter_eq_some_iff.mp ha).1

/-- The results of `SendQueue` that are in use or were used. -/
def Issued (c : QueuePacketConn Addr) (l : Lookup Addr) : Prop :=
  (∃ x ∈ c.writes, x.lookup = some l) ∨ l ∈ c.outgoing ∨ (∃ x ∈ c.sent, x.2.1 = l) ∨
    ∃ x ∈ c.received, x.1 = l

/-- What a step does to the map and to the results of `SendQueue`. -/
inductive MapStep (timeout : Int) (c c' : QueuePacketConn Addr) : Prop where
  | same (hclients : c'.clients = c.clients) (hissued : ∀ l, c'.Issued l → c.Issued l)
  | looksUp {addr now queue} (hq : c.clients.sendQueue addr now = some (c'.clients, queue))
      (hissued : ∀ l, c'.Issued l → l = ⟨addr, queue⟩ ∨ c.Issued l)
  | expires {now} (hm : c.clients.removeExpired now timeout = some c'.clients)
      (hissued : ∀ l, c'.Issued l → c.Issued l)

theorem Step.mapStep {timeout : Int} {c c' : QueuePacketConn Addr} {op : QueueOp Addr}
    (h : Step timeout c op c') : MapStep timeout c c' := by
  cases h with
  | writeRefused | closes => exact .same rfl fun l hl => hl
  | writeEnters hopen =>
    refine .same rfl fun l hl => ?_
    rcases hl with ⟨x, hx, hxl⟩ | hrest
    · rcases List.mem_append.mp hx with hold | hnew
      · exact Or.inl ⟨x, hold, hxl⟩
      · rw [List.mem_singleton.mp hnew] at hxl
        cases hxl
    · exact Or.inr hrest
  | @writeLooksUp w now addr p clients queue hw hq =>
    refine .looksUp hq fun l hl => ?_
    rcases hl with ⟨x, hx, hxl⟩ | hrest
    · rcases List.mem_or_eq_of_mem_set hx with hold | rfl
      · exact Or.inr (Or.inl ⟨x, hold, hxl⟩)
      · exact Or.inl (Option.some.inj hxl).symm
    · exact Or.inr (Or.inr hrest)
  | @writePuts w addr p queue hw =>
    -- the channel a packet is sent on was the call's own
    have hown : c.Issued ⟨addr, queue⟩ := Or.inl ⟨_, List.mem_of_getElem? hw, rfl⟩
    refine .same rfl fun l hl => ?_
    rcases hl with ⟨x, hx, hxl⟩ | hout | ⟨x, hx, hxl⟩ | hrest
    · rcases List.mem_or_eq_of_mem_set hx with hold | rfl
      · exact Or.inl ⟨x, hold, hxl⟩
      · cases hxl
    · exact Or.inr (Or.inl hout)
    · rcases List.mem_append.mp hx with hold | hnew
      · exact Or.inr (Or.inr (Or.inl ⟨x, hold, hxl⟩))
      · rw [List.mem_singleton.mp hnew] at hxl
        exact hxl ▸ hown
    · exact Or.inr (Or.inr (Or.inr hrest))
  | looksUp hq =>
    refine .looksUp hq fun l hl => ?_
    rcases hl with hwrite | hout | hrest
    · exact Or.inr (Or.inl hwrite)
    · rcases List.mem_append.mp hout with hold | hnew
      · exact Or.inr (Or.inr (Or.inl hold))
      · exact Or.inl (List.mem_singleton.mp hnew)
    · exact Or.inr (Or.inr (Or.inr hrest))
  | @receives k m i p q hm hq =>
    refine .same rfl fun l hl => ?_
    rcases hl with hwrite | hout | hsent | ⟨x, hx, hxl⟩
    · exact Or.inl hwrite
    · exact Or.inr (Or.inl hout)
    · exact Or.inr (Or.inr (Or.inl hsent))
    · rcases List.mem_append.mp hx with hold | hnew
      · exact Or.inr (Or.inr (Or.inr ⟨x, hold, hxl⟩))
      · rw [List.mem_singleton.mp hnew] at hxl
        exact Or.inr (Or.inl (hxl ▸ List.mem_of_getElem? hm))
  | expires hm => exact .expires hm fun l hl => hl

/-- There is an owner for every queue, and `SendQueue` has returned it for that address only. -/
def Owned (c : QueuePacketConn Addr) : Prop :=
  ∃ e own, Refines c.clients e ∧ Names own e ∧
    ∀ l, c.Issued l → l.queue < e.fresh ∧ own l.queue = some l.addr

theorem owned_new : Owned (new : QueuePacketConn Addr) := by
  refine ⟨.empty, fun _ => none, refines_empty, ?_, ?_⟩
  · intro a t q h
    cases h
  · rintro l (⟨x, hx, -⟩ | hx | ⟨x, hx, -⟩ | ⟨x, hx, -⟩) <;> cases hx

theorem owned_step {timeout : Int} {c c' : QueuePacketConn Addr} {op : QueueOp Addr} (h : Owned c)
    (hstep : step timeout c op = some c') : Owned c' := by
  obtain ⟨e, own, href, hnames, hissued⟩ := h
  cases (step_cases hstep).mapStep with
  | same hclients hold =>
    exact ⟨e, own, hclients ▸ href, hnames, fun l hl => hissued l (hold l hl)⟩
  | @looksUp addr now queue hq hold =>
    obtain ⟨m, hrun, href'⟩ := sendQueue_refines href addr now
    rw [hq] at hrun
    cases hrun
    obtain ⟨own', hnames', hagree, hgrow, hlt, hown⟩ := names_sendQueue hnames addr now
    refine ⟨_, own', href', hnames', fun l hl => ?_⟩
    rcases hold l hl with rfl | hbefore
    · exact ⟨hlt, hown⟩
    · -- a queue that was made before keeps its owner
      obtain ⟨hl₁, hl₂⟩ := hissued l hbefore
      exact ⟨Nat.lt_of_lt_of_le hl₁ hgrow, (hagree _ hl₁).trans hl₂⟩
  | @expires now hm hold =>
    obtain ⟨m, hrun, href'⟩ := removeExpired_refines href now timeout
    rw [hm] at hrun
    cases hrun
    exact ⟨_, own, href', names_removeExpired hnames now timeout,
      fun l hl => hissued l (hold l hl)⟩

/-- Two results of `SendQueue` with the same queue are for the same address. -/
theorem Owned.addr_eq {c : QueuePacketConn Addr} (h : Owned c) {l m : Lookup Addr}
    (hl : c.Issued l) (hm : c.Issued m) (hq : l.queue = m.queue) : l.addr = m.addr := by
  obtain ⟨e, own, -, -, hissued⟩ := h
  apply Option.some.inj
  rw [← (hissued l hl).2, ← (hissued m hm).2, hq]

/-! ## Every packet is that of one call of `WriteTo` -/

/-- A packet that was sent is that of its call, and a call sends once. -/
structure FromCalls (c : QueuePacketConn Addr) : Prop where
  args : ∀ (i w : Nat) (l : Lookup Addr) (p : Bytes), c.sent[i]? = some (w, l, p) →
    c.writes[w]? = some ⟨l.addr, p, .done⟩
  once : (c.sent.map Prod.fst).Nodup

omit [DecidableEq Addr] in
theorem fromCalls_new : FromCalls (new : QueuePacketConn Addr) where
  args i w l p h := by cases h
  once := List.nodup_nil

theorem fromCalls_step {timeout : Int} {c c' : QueuePacketConn Addr} {op : QueueOp Addr}
    (h : FromCalls c) (hstep : step timeout c op = some c') : FromCalls c' := by
  -- a call that has not sent yet has no packet among those sent
  have hnot : ∀ {w : Nat} {x : WriteCall Addr}, c.writes[w]? = some x → x.stage ≠ .done →
      ∀ (i v : Nat) (l : Lookup Addr) (p : Bytes), c.sent[i]? = some (v, l, p) → v ≠ w := by
    rintro w x hw hstage i v l p hi rfl
    have hdone := h.args i v l p hi
    rw [hw] at hdone
    cases hdone
    exact hstage rfl
  cases step_cases hstep with
  | writeEnters hopen =>
    refine ⟨fun i w l p hi => ?_, h.once⟩
    exact pool_snoc_old (h.args i w l p hi)
  | @writeLooksUp w now addr p clients queue hw hq =>
    refine ⟨fun i v l p' hi => ?_, h.once⟩
    have hv := hnot hw (by simp) i v l p' hi
    change (c.writes.set w _)[v]? = _
    rw [List.getElem?_set_ne (Ne.symm hv)]
    exact h.args i v l p' hi
  | @writePuts w addr p queue hw =>
    constructor
    · intro i v l p' hi
      rcases pool_snoc_some hi with hold | ⟨-, hnew⟩
      · have hv := hnot hw (by simp) i v l p' hold
        change (c.writes.set w _)[v]? = _
        rw [List.getElem?_set_ne (Ne.symm hv)]
        exact h.args i v l p' hold
      · cases hnew
        exact pool_set_self hw
    · change ((c.sent ++ [(w, (⟨addr, queue⟩ : Lookup Addr), p)]).map Prod.fst).Nodup
      rw [List.map_append, List.map_singleton, List.nodup_append]
      refine ⟨h.once, List.nodup_singleton w, ?_⟩
      intro v hv v' hv' heq
      obtain ⟨⟨v'', l, p'⟩, hmem, rfl⟩ := List.mem_map.mp hv
      obtain ⟨i, hi⟩ := List.mem_iff_getElem?.mp hmem
      exact hnot hw (by simp) i _ l p' hi (heq.trans (List.mem_singleton.mp hv'))
  | _ => exact ⟨h.args, h.once⟩

/-! ## Clients are kept apart -/

/-- What came out of the queues that `OutgoingQueue` returned. -/
structure Routed (c : QueuePacketConn Addr) : Prop where
  /-- A packet that was received is that of a call of `WriteTo` for the address. -/
  same : ∀ (l : Lookup Addr) (i : Nat) (p : Bytes), (l, i, p) ∈ c.received →
    ∃ (w : Nat) (m : Lookup Addr), c.sent[i]? = some (w, m, p) ∧
      c.writes[w]? = some ⟨l.addr, p, .done⟩
  /-- No two receives return the packet of one call. -/
  once : (c.sent.map Prod.fst).Nodup ∧ (c.received.map fun x => x.2.1).Nodup
  /-- Packets of one queue are received in the order in which they were written. -/
  ordered : ∀ q, ((c.taken q).map Prod.fst).Pairwise (· < ·)

section Routing

variable {c : QueuePacketConn Addr}

omit [DecidableEq Addr] in
/-- What was received from a queue was sent to it. -/
theorem Fifo.taken_sublist (h : Fifo c) (q : Nat) : (c.taken q).Sublist (c.offered q) :=
  (List.sublist_append_left _ _).trans (h q)

omit [DecidableEq Addr] in
theorem Fifo.sent_of_received (h : Fifo c) {l : Lookup Addr} {i : Nat} {p : Bytes}
    (hmem : (l, i, p) ∈ c.received) : ∃ w m, c.sent[i]? = some (w, m, p) ∧ m.queue = l.queue := by
  have htaken : (i, p) ∈ c.taken l.queue :=
    List.mem_map.mpr ⟨(l, i, p), List.mem_filter.mpr ⟨hmem, by simp⟩, rfl⟩
  exact mem_offered.mp ((h.taken_sublist l.queue).subset htaken)

omit [DecidableEq Addr] in
theorem Fifo.taken_sorted (h : Fifo c) (q : Nat) : ((c.taken q).map Prod.fst).Pairwise (· < ·) :=
  List.pairwise_map.mpr ((c.offered_sorted q).sublist (h.taken_sublist q))

/-- If equal values of `g` have equal values of `f`, and `g` repeats no value among the entries
with one value of `f`, then it repeats none at all. -/
theorem nodup_map_of_fibers {α β γ : Type*} [DecidableEq γ] {f : α → γ} {g : α → β} :
    ∀ {xs : List α}, (∀ x ∈ xs, ∀ y ∈ xs, g x = g y → f x = f y) →
      (∀ z, ((xs.filter fun x => f x = z).map g).Nodup) → (xs.map g).Nodup := by
  intro xs
  induction xs with
  | nil =>
    intro _ _
    exact List.nodup_nil
  | cons x xs ih =>
    intro hsame hfiber
    rw [List.map_cons, List.nodup_cons]
    constructor
    · -- an equal value further on would be in the same fiber
      intro hmem
      obtain ⟨y, hy, hgy⟩ := List.mem_map.mp hmem
      have hfy : f y = f x :=
        hsame y (List.mem_cons_of_mem _ hy) x List.mem_cons_self hgy
      have hnodup := hfiber (f x)
      rw [List.filter_cons_of_pos (by simp), List.map_cons, List.nodup_cons] at hnodup
      exact hnodup.1 (List.mem_map.mpr ⟨y, List.mem_filter.mpr ⟨hy, by simpa using hfy⟩, hgy⟩)
    · apply ih
      · intro y hy z hz
        exact hsame y (List.mem_cons_of_mem _ hy) z (List.mem_cons_of_mem _ hz)
      · intro z
        have hnodup := hfiber z
        rw [List.filter_cons] at hnodup
        split at hnodup
        · exact hnodup.tail
        · exact hnodup

omit [DecidableEq Addr] in
theorem Fifo.received_nodup (h : Fifo c) : (c.received.map fun x => x.2.1).Nodup := by
  apply nodup_map_of_fibers (f := fun x => x.1.queue)
  · -- a packet was sent to one queue only
    rintro ⟨l, i, p⟩ hx ⟨m, j, q⟩ hy hij
    obtain rfl : i = j := hij
    obtain ⟨w, l', hl', hlq⟩ := h.sent_of_received hx
    obtain ⟨v, m', hm', hmq⟩ := h.sent_of_received hy
    rw [hl'] at hm'
    cases hm'
    exact hlq.symm.trans hmq
  · intro q
    have hsorted := h.taken_sorted q
    rw [taken, List.map_map] at hsorted
    exact hsorted.imp fun hlt => Nat.ne_of_lt hlt

/-- The invariant of the connection. -/
structure Apart (c : QueuePacketConn Addr) : Prop where
  fifo : Fifo c
  owned : Owned c
  calls : FromCalls c

theorem apart_run {timeout : Int} {ops : List (QueueOp Addr)}
    (hrun : exec (step timeout) .new ops = some c) : Apart c := by
  apply exec_invariant_all (I := Apart) _ ops _ _ ⟨fifo_new, owned_new, fromCalls_new⟩ hrun
  intro c₁ op c₂ h hstep
  exact ⟨fifo_step h.fifo hstep, owned_step h.owned hstep, fromCalls_step h.calls hstep⟩

theorem Apart.routed (h : Apart c) : Routed c where
  same l i p hmem := by
    obtain ⟨w, m, hsent, hq⟩ := h.fifo.sent_of_received hmem
    -- the queue has one owner, so the packet was written to the same address
    have haddr : m.addr = l.addr := by
      apply h.owned.addr_eq _ _ hq
      · exact Or.inr (Or.inr (Or.inl ⟨_, List.mem_of_getElem? hsent, rfl⟩))
      · exact Or.inr (Or.inr (Or.inr ⟨_, hmem, rfl⟩))
    refine ⟨w, m, hsent, ?_⟩
    rw [← haddr]
    exact h.calls.args i w m p hsent
  once := ⟨h.calls.once, h.fifo.received_nodup⟩
  ordered := h.fifo.taken_sorted

end Routing

/-- Whatever the callers of `WriteTo` and `OutgoingQueue`, the receivers and the expiry do, the
packets that come out of the queues of an address are those of distinct calls of `WriteTo` for that
address, and come out of each queue in the order in which they were written. -/
theorem clients_kept_apart (timeout : Int) (ops : List (QueueOp Addr)) (c : QueuePacketConn Addr)
    (hrun : exec (step timeout) .new ops = some c) : Routed c := by
  have hapart : Apart c := apart_run hrun
  exact hapart.routed

/-- Two clients; the first is forgotten after a minute and gets a second queue. -/
def twoClients : List (QueueOp Bool) :=
  [.outgoingQueue false 0, .outgoingQueue true 0,
    .writeTo false [1], .lookup 0 1, .put 0, .writeTo true [2], .lookup 1 1, .put 1,
    .receive 0, .expire (60 * 10 ^ 9 + 1), .outgoingQueue false (61 * 10 ^ 9),
    .writeTo false [3], .lookup 2 (61 * 10 ^ 9), .put 2, .receive 2, .receive 1]

theorem clients_kept_apart_two :
    ∃ c, exec (step Serve.clientMapTimeout) .new twoClients = some c ∧
      c.received = [(⟨false, 0⟩, 0, [1]), (⟨false, 2⟩, 2, [3]), (⟨true, 1⟩, 1, [2])] ∧
      Routed c := by
  apply exec_reaches (P := fun c : QueuePacketConn Bool =>
    c.received = [(⟨false, 0⟩, 0, [1]), (⟨false, 2⟩, 2, [3]), (⟨true, 1⟩, 1, [2])])
  · decide +kernel
  · intro c hc hreceived
    exact ⟨hreceived, clients_kept_apart Serve.clientMapTimeout twoClients c hc⟩

end QueuePacketConn

/-! ## The server of `serveHTTP` -/

namespace Serve

variable {Addr : Type u}

/-- A call of `WriteTo` as the server has it. -/
def writePc (x : WriteCall Addr) : WritePc Addr :=
  match x.stage with
  | .entered => .entered x.addr x.p
  | .sending queue => .sending ⟨x.addr, queue⟩ x.p
  | .done => .done

/-- The connection has done what the server has, and its receivers include the goroutines of
`serveHTTP`. -/
structure Behaves (s : Server Addr) (c : QueuePacketConn Addr) : Prop where
  clients : s.clients = c.clients
  queues : s.queues = c.queues
  closed : s.closed = c.closed
  writes : s.writes = c.writes.map writePc
  written : s.written = c.sent.map fun x => (x.2.1.addr, x.2.2)
  received : s.received = c.received
  held : ∀ k ∈ s.calls, ∀ l, k.writer.lookup = some l → l ∈ c.outgoing

theorem behaves_new : Behaves (Server.new : Server Addr) .new :=
  ⟨rfl, rfl, rfl, rfl, rfl, rfl, fun _ hk => absurd hk List.not_mem_nil⟩

section Simulation

variable {s t : Server Addr} {c : QueuePacketConn Addr}

/-- A step of a `serveHTTP` call that keeps or drops its channel is no step of the connection. -/
theorem Behaves.setCall (h : Behaves s c) {k : Nat} {x x' : ServeCall Addr}
    (hx : s.calls[k]? = some x) (hsub : ∀ l, x'.writer.lookup = some l → x.writer.lookup = some l) :
    Behaves (s.setCall k x') c := by
  refine ⟨h.clients, h.queues, h.closed, h.writes, h.written, h.received, ?_⟩
  intro y hy l hl
  rcases List.mem_or_eq_of_mem_set hy with hold | rfl
  · exact h.held y hold l hl
  · exact h.held x (List.mem_of_getElem? hx) l (hsub l hl)

/-- A call of `WriteTo` before its lookup. -/
theorem Behaves.entered (h : Behaves s c) {w : Nat} {addr : Addr} {p : Bytes}
    (hw : s.writes[w]? = some (.entered addr p)) : c.writes[w]? = some ⟨addr, p, .entered⟩ := by
  rw [h.writes, List.getElem?_map, Option.map_eq_some_iff] at hw
  obtain ⟨⟨a, b, stage⟩, hget, hpc⟩ := hw
  cases stage <;> simp only [writePc, WritePc.entered.injEq, reduceCtorEq] at hpc
  obtain ⟨rfl, rfl⟩ := hpc
  exact hget

/-- A call of `WriteTo` at its select. -/
theorem Behaves.sending (h : Behaves s c) {w : Nat} {l : Lookup Addr} {p : Bytes}
    (hw : s.writes[w]? = some (.sending l p)) :
    c.writes[w]? = some ⟨l.addr, p, .sending l.queue⟩ := by
  rw [h.writes, List.getElem?_map, Option.map_eq_some_iff] at hw
  obtain ⟨⟨a, b, stage⟩, hget, hpc⟩ := hw
  cases stage <;> simp only [writePc, WritePc.sending.injEq, reduceCtorEq] at hpc
  obtain ⟨rfl, rfl⟩ := hpc
  exact hget

variable [DecidableEq Addr]

/-- Every step of the server is one of the connection, or none. -/
theorem Behaves.step {timeout : Int} {a : Act Addr} (h : Behaves s c)
    (hstep : Step timeout s a t) :
    ∃ ops c', exec (QueuePacketConn.step timeout) c ops = some c' ∧ Behaves t c' := by
  cases hstep with
  | writeRefused | readRefused => exact ⟨[], c, rfl, h⟩
  | @writeEnters addr p hopen =>
    have hopen' : c.closed = false := by rw [← h.closed, hopen]
    refine ⟨[.writeTo addr p], _, (QueuePacketConn.Step.writeEnters hopen').run, ?_⟩
    exact ⟨h.clients, h.queues, h.closed, by simp [h.writes, writePc], h.written, h.received,
      h.held⟩
  | writeLooksUp hw hq =>
    rw [h.clients] at hq
    refine ⟨_, _, (QueuePacketConn.Step.writeLooksUp (h.entered hw) hq).run, ?_⟩
    exact ⟨rfl, h.queues, h.closed, by simp [Server.setWrite, h.writes, List.map_set, writePc],
      h.written, h.received, h.held⟩
  | writePuts hw =>
    have hlen : s.written.length = c.sent.length := by rw [h.written, List.length_map]
    refine ⟨_, _, (QueuePacketConn.Step.writePuts (h.sending hw)).run, h.clients, ?_, h.closed, ?_,
      ?_, h.received, h.held⟩
    · simp [Server.setWrite, Server.put, QueuePacketConn.put, h.queues, hlen]
    · simp [Server.setWrite, Server.put, QueuePacketConn.put, h.writes, List.map_set, writePc]
    · simp [Server.setWrite, Server.put, QueuePacketConn.put, h.written]
  | readEnters | readTakes | readStops =>
    exact ⟨[], c, rfl, h.clients, h.queues, h.closed, h.writes, h.written, h.received, h.held⟩
  | close =>
    exact ⟨_, _, QueuePacketConn.Step.closes.run, h.clients, h.queues, rfl, h.writes, h.written,
      h.received, h.held⟩
  | expires hm =>
    rw [h.clients] at hm
    exact ⟨_, _, (QueuePacketConn.Step.expires hm).run, rfl, h.queues, h.closed, h.writes,
      h.written, h.received, h.held⟩
  | accepts =>
    refine ⟨[], c, rfl, h.clients, h.queues, h.closed, h.writes, h.written, h.received, ?_⟩
    intro y hy l hl
    rcases List.mem_append.mp hy with hold | hnew
    · exact h.held y hold l hl
    · rw [List.mem_singleton.mp hnew] at hl
      cases hl
  | readerReads hc | readerFails hc | readerDrops hc | readerGoesOn hc | finishes hc =>
    exact ⟨[], c, rfl, h.setCall hc fun _ hl => hl⟩
  | @readerQueues k x p hc hr =>
    have hset : Behaves (s.setCall k { x with reader := .reading }) c := h.setCall hc fun _ hl => hl
    exact ⟨[], c, rfl, hset.clients, hset.queues, hset.closed, hset.writes, hset.written,
      hset.received, hset.held⟩
  | writerStarts hc hw hq =>
    rw [h.clients] at hq
    refine ⟨_, _, (QueuePacketConn.Step.looksUp hq).run, rfl, h.queues, h.closed, h.writes,
      h.written, h.received, ?_⟩
    intro y hy l hl
    rcases List.mem_or_eq_of_mem_set hy with hold | rfl
    · exact List.mem_append_left _ (h.held y hold l hl)
    · cases hl
      exact List.mem_append_right _ (List.mem_singleton_self _)
  | @writerReceives k x l i p q hc hw hq =>
    rw [h.queues] at hq
    -- the goroutine's channel is a result of `OutgoingQueue`
    have hl : l ∈ c.outgoing := h.held x (List.mem_of_getElem? hc) l (by rw [hw]; rfl)
    obtain ⟨j, hj⟩ := List.mem_iff_getElem?.mp hl
    have hset : Behaves (s.setCall k { x with writer := .writing l p }) c :=
      h.setCall hc fun m hm => by rw [hw]; exact hm
    refine ⟨_, _, (QueuePacketConn.Step.receives hj hq).run, h.clients, ?_, h.closed, h.writes,
      h.written, ?_, hset.held⟩
    · simp [Server.setCall, Server.take, QueuePacketConn.take, h.queues]
    · simp [Server.setCall, Server.take, QueuePacketConn.take, h.received]
  | writerWrites hc hw | writerGoesOn hc hw =>
    exact ⟨[], c, rfl, h.setCall hc fun m hm => by rw [hw]; exact hm⟩
  | writerFails hc hw => exact ⟨[], c, rfl, h.setCall hc nofun⟩

/-- The server behaves as a connection whose invariant holds. -/
theorem exists_apart {timeout : Int} {as : List (Act Addr)}
    (hrun : exec (Serve.step timeout) .new as = some s) :
    ∃ c : QueuePacketConn Addr, c.Apart ∧ Behaves s c := by
  obtain ⟨ops, c, hops, hbehaves⟩ :=
    exec_simulates (fun _ _ _ _ h hs => Behaves.step h (step_cases hs)) as _ _ _ behaves_new hrun
  exact ⟨c, QueuePacketConn.apart_run hops, hbehaves⟩

/-- What a goroutine of `serveHTTP` takes for its client was written to that client. -/
theorem serve_routed {timeout : Int} {as : List (Act Addr)}
    (hrun : exec (Serve.step timeout) .new as = some s) {l : Lookup Addr} {i : Nat} {p : Bytes}
    (hmem : (l, i, p) ∈ s.received) : s.written[i]? = some (l.addr, p) := by
  obtain ⟨c, hapart, hbehaves⟩ := exists_apart hrun
  rw [hbehaves.received] at hmem
  obtain ⟨w, m, hsent, hwrite⟩ := hapart.routed.same l i p hmem
  have hargs := hapart.calls.args i w m p hsent
  rw [hwrite, Option.some.injEq, WriteCall.mk.injEq] at hargs
  rw [hbehaves.written, List.getElem?_map, hsent, Option.map_some, hargs.1]

/-- However many WebSockets a client has, a packet for it is taken once. -/
theorem serve_takes_once {timeout : Int} {as : List (Act Addr)}
    (hrun : exec (Serve.step timeout) .new as = some s) :
    (s.received.map fun x => x.2.1).Nodup := by
  obtain ⟨c, hapart, hbehaves⟩ := exists_apart hrun
  rw [hbehaves.received]
  exact hapart.fifo.received_nodup

end Simulation

end Serve

end PTBridge.Snowflake
