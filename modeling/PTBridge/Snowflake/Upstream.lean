import PTBridge.Snowflake.Redial

/-!
# Packets from a client to the server, across redials

Each packet of `WriteTo` goes through the one send queue to the writing goroutine of one
connection, as a chunk into that connection's WebSocket, and out of it again by `serveHTTP`,
wherever the WebSocket is cut.

- `Conn.Fine`: what a WebSocket took begins the token, the client id and the packets its
  goroutine wrote; it is all of that while the goroutine can still write.
- `Ordered`: a packet is in the queue or was taken by one goroutine, and the order of the `WriteTo`
  calls is kept on the way.
- `Delivers` states what the server gets, `upstream_packets_intact` that it does in every run.
-/

namespace PTBridge.Snowflake.Redial

open PTBridge.Stream PTBridge.Container PTBridge.Transition

/-! ## What is on a WebSocket -/

/-- The packet a writing goroutine holds. -/
def WriterPc.hand : WriterPc → List (Nat × Bytes)
  | .writing i p => [(i, p)]
  | _ => []

/-- The goroutine can still write. -/
def WriterPc.live : WriterPc → Bool
  | .selecting => true
  | .writing _ _ => true
  | _ => false

/-- The packets of one connection have all been written to it in full, or the last write failed. -/
structure Conn.Fine (id : ClientID) (c : Conn) : Prop where
  wire : c.writes.flatten <+: preamble id ++ encodeAll (c.carried.map Prod.snd)
  live : c.writer.live = true →
    c.bw = .new ∧ c.writes.flatten = preamble id ++ encodeAll (c.carried.map Prod.snd)
  accepted : ∀ f ∈ c.carried, (encodeData f.2).isSome = true

/-- The two writes of `WrapWebSocketDial`. -/
theorem writePreamble_spec {id : ClientID} {room : Option Nat} {ok : Bool} {writes : List Bytes}
    (h : writePreamble id room = (ok, writes)) :
    writes.flatten <+: preamble id ∧ (ok = true → writes.flatten = preamble id) := by
  obtain ⟨hbytes, hall⟩ := Sink.write_bytes ⟨[], room⟩ token
  unfold writePreamble at h
  -- the token may be cut, and then nothing follows it
  split at h
  · rename_i n k hwrite
    rw [hwrite] at hbytes
    cases h
    refine ⟨?_, fun hok => absurd hok Bool.false_ne_true⟩
    have htaken : k.writes.flatten = token.take n := hbytes
    rw [htaken]
    exact (List.take_prefix _ _).trans (List.prefix_append _ _)
  · rename_i n k hwrite
    rw [hwrite] at hbytes hall
    have htoken : k.bytes = token := by
      rw [hbytes, hall rfl]
      rfl
    obtain ⟨hbytes', hall'⟩ := k.write_bytes id.bytes
    split at h
    rename_i m ok' k' hwrite'
    rw [hwrite'] at hbytes' hall'
    cases h
    have htaken : k'.writes.flatten = token ++ id.bytes.take m := hbytes'.trans (by rw [htoken])
    rw [htaken]
    refine ⟨(List.prefix_append_right_inj _).mpr (List.take_prefix _ _), fun hok => ?_⟩
    rw [hall' hok]
    rfl

variable {id : ClientID} {s s' : RedialPacketConn} {a : Act} {c c' : Conn}

/-- A change that leaves the written data alone and revives no goroutine. -/
theorem Conn.Fine.quiet (h : c.Fine id) (hwrites : c'.writes = c.writes) (hbw : c'.bw = c.bw)
    (hcarried : c'.carried = c.carried) (hlive : c'.writer.live = true → c.writer.live = true) :
    c'.Fine id := by
  obtain ⟨hwire, hgood, haccepted⟩ := h
  rw [← hwrites, ← hcarried] at hwire
  refine ⟨hwire, fun hl => ?_, fun f hf => ?_⟩
  · rw [hwrites, hbw, hcarried]
    exact hgood (hlive hl)
  · rw [hcarried] at hf
    exact haccepted f hf

/-- `conn.WriteTo` adds its packet to what is on the WebSocket, or fails. -/
theorem Conn.Fine.wrote {i : Nat} {p : Bytes} {room : Option Nat} {ok : Bool} {bw : BufWriter}
    {k : Sink} (h : c.Fine id) (hw : c.writer = .writing i p)
    (hwrite : writePacket p c.bw ⟨c.writes, room⟩ = (ok, bw, k)) :
    Conn.Fine id { c with
      writes := k.writes
      bw
      writer := if ok then .selecting else .reporting
      carried := if (encodeData p).isSome then c.carried ++ [(i, p)] else c.carried } := by
  -- the goroutine was live, so everything before this packet is out
  obtain ⟨hnew, hwire⟩ := h.live (by rw [hw]; rfl)
  rw [hnew] at hwrite
  cases henc : encodeData p with
  | none =>
    -- nothing is written, and the goroutine ends
    rw [writePacket_tooLong henc] at hwrite
    cases hwrite
    exact ⟨h.wire, nofun, h.accepted⟩
  | some enc =>
    obtain ⟨hpart, hall⟩ := writePacket_spec henc hwrite
    have hsnoc : preamble id ++ encodeAll ((c.carried ++ [(i, p)]).map Prod.snd) =
        (⟨c.writes, room⟩ : Sink).bytes ++ enc := by
      rw [List.map_append, List.map_singleton, encodeAll_snoc henc, ← List.append_assoc, ← hwire]
      rfl
    refine ⟨?_, fun hl => ?_, ?_⟩
    · change k.bytes <+: preamble id ++ encodeAll ((c.carried ++ [(i, p)]).map Prod.snd)
      rw [hsnoc]
      exact hpart
    · cases ok with
      | false => cases hl
      | true =>
        obtain ⟨hbw, hbytes⟩ := hall rfl
        refine ⟨hbw, ?_⟩
        change k.bytes = preamble id ++ encodeAll ((c.carried ++ [(i, p)]).map Prod.snd)
        rw [hsnoc, hbytes]
    · intro f hf
      rcases List.mem_append.mp hf with hf | hf
      · exact h.accepted f hf
      · cases List.mem_singleton.mp hf
        rw [henc]
        rfl

/-- Every connection is fine. -/
def AllFine (id : ClientID) (conns : List Conn) : Prop :=
  ∀ (d : Nat) (c : Conn), conns[d]? = some c → c.Fine id

theorem AllFine.set {conns : List Conn} {d : Nat} (h : AllFine id conns) (hc' : c'.Fine id) :
    AllFine id (conns.set d c') := by
  intro e x hx
  rcases pool_set_some hx with ⟨-, rfl⟩ | ⟨-, hx⟩
  · exact hc'
  · exact h e x hx

theorem AllFine.snoc {conns : List Conn} (h : AllFine id conns) (hc' : c'.Fine id) :
    AllFine id (conns ++ [c']) := by
  intro e x hx
  rcases pool_snoc_some hx with hx | ⟨-, rfl⟩
  · exact h e x hx
  · exact hc'

theorem AllFine.step (h : AllFine id s.conns) (hs : Step id s a s') : AllFine id s'.conns := by
  cases hs with
  | writeTo _ => exact h
  | writeRefused _ _ => exact h
  | readFrom => exact h
  | close => exact h
  | loopEnds _ _ => exact h
  | loopDials _ _ => exact h
  | dialFailed _ => exact h
  -- a new connection carries its preamble and no packet
  | dialed _ hpre =>
    obtain ⟨-, hall⟩ := writePreamble_spec hpre
    have hbytes := hall rfl
    have hempty : preamble id ++ encodeAll [] = preamble id := List.append_nil _
    refine h.snoc ⟨?_, fun _ => ⟨rfl, ?_⟩, nofun⟩
    · change _ <+: preamble id ++ encodeAll []
      simp only [hempty, hbytes, List.prefix_refl]
    · change _ = preamble id ++ encodeAll []
      rw [hempty, hbytes]
  | dialCut _ hpre =>
    obtain ⟨hpart, -⟩ := writePreamble_spec hpre
    exact h.snoc ⟨hpart.trans (List.prefix_append _ _), nofun, nofun⟩
  -- the goroutines and `exchange` only move on
  | exchangeReadErr _ hc _ => exact h.set ((h _ _ hc).quiet rfl rfl rfl fun hl => hl)
  | exchangeReadDone _ _ _ => exact h
  | exchangeWriteErr _ hc _ => exact h.set ((h _ _ hc).quiet rfl rfl rfl nofun)
  | exchangeWriteDone _ _ _ => exact h
  | connClosed _ hc => exact h.set ((h _ _ hc).quiet rfl rfl rfl fun hl => hl)
  | readerQuit hc _ _ => exact h.set ((h _ _ hc).quiet rfl rfl rfl fun hl => hl)
  | readerWriteErr hc _ _ => exact h.set ((h _ _ hc).quiet rfl rfl rfl nofun)
  | readerWriteDone hc _ _ => exact h.set ((h _ _ hc).quiet rfl rfl rfl fun hl => hl)
  | readerGoesOn hc _ _ _ => exact h.set ((h _ _ hc).quiet rfl rfl rfl fun hl => hl)
  | readFailed hc _ => exact h.set ((h _ _ hc).quiet rfl rfl rfl fun hl => hl)
  | readPacket hc _ _ => exact h.set ((h _ _ hc).quiet rfl rfl rfl fun hl => hl)
  | packetQueued hc _ => exact h.set ((h _ _ hc).quiet rfl rfl rfl fun hl => hl)
  | writerQuit hc _ _ => exact h.set ((h _ _ hc).quiet rfl rfl rfl nofun)
  | writerReadErr hc _ _ => exact h.set ((h _ _ hc).quiet rfl rfl rfl nofun)
  | writerReadDone hc _ _ => exact h.set ((h _ _ hc).quiet rfl rfl rfl nofun)
  | took hc hw _ => exact h.set ((h _ _ hc).quiet rfl rfl rfl fun _ => by rw [hw]; rfl)
  | wrote hc hw _ hwrite => exact h.set ((h _ _ hc).wrote hw hwrite)

/-! ## Where the packets are -/

/-- The packets a connection's writing goroutine took from the queue and did not refuse. -/
def Conn.taken (c : Conn) : List (Nat × Bytes) := c.carried ++ c.writer.hand

/-- Every packet is on its way on one path, and in the order of its `WriteTo` call. -/
structure Ordered (queue : List (Nat × Bytes)) (conns : List Conn) (written : List Bytes) :
    Prop where
  queued : (queue.map Prod.fst).Pairwise (· < ·)
  conn : ∀ (d : Nat) (c : Conn), conns[d]? = some c → (c.taken.map Prod.fst).Pairwise (· < ·)
  /-- What was taken came before what is still queued. -/
  before : ∀ (d : Nat) (c : Conn), conns[d]? = some c → ∀ x ∈ c.taken, ∀ y ∈ queue, x.1 < y.1
  /-- No two connections took the same packet. -/
  apart : ∀ (d e : Nat) (c c' : Conn), conns[d]? = some c → conns[e]? = some c' → d ≠ e →
    ∀ x ∈ c.taken, ∀ y ∈ c'.taken, x.1 ≠ y.1
  known : ∀ x ∈ queue, written[x.1]? = some x.2
  source : ∀ (d : Nat) (c : Conn), conns[d]? = some c → ∀ x ∈ c.taken, written[x.1]? = some x.2

variable {queue queue' : List (Nat × Bytes)} {conns : List Conn} {written : List Bytes} {d : Nat}

/-- Index of a written packet. -/
theorem lt_of_known {i : Nat} {p : Bytes} (h : written[i]? = some p) : i < written.length :=
  (List.getElem?_eq_some_iff.mp h).1

theorem Ordered.refused (h : Ordered queue conns written) (p : Bytes) :
    Ordered queue conns (written ++ [p]) where
  queued := h.queued
  conn := h.conn
  before := h.before
  apart := h.apart
  known x hx := pool_snoc_old (h.known x hx)
  source d c hc x hx := pool_snoc_old (h.source d c hc x hx)

/-- A new packet at the end of the queue. -/
theorem Ordered.enqueue (h : Ordered queue conns written) (p : Bytes) :
    Ordered (queue ++ [(written.length, p)]) conns (written ++ [p]) where
  queued := by
    rw [List.map_append, List.pairwise_append]
    refine ⟨h.queued, List.pairwise_singleton _ _, ?_⟩
    intro i hi j hj
    obtain ⟨x, hx, rfl⟩ := List.mem_map.mp hi
    cases List.mem_singleton.mp hj
    exact lt_of_known (h.known x hx)
  conn := h.conn
  before d c hc x hx y hy := by
    rcases List.mem_append.mp hy with hy | hy
    · exact h.before d c hc x hx y hy
    · cases List.mem_singleton.mp hy
      exact lt_of_known (h.source d c hc x hx)
  apart := h.apart
  known x hx := by
    rcases List.mem_append.mp hx with hx | hx
    · exact pool_snoc_old (h.known x hx)
    · cases List.mem_singleton.mp hx
      exact pool_snoc_new
  source d c hc x hx := pool_snoc_old (h.source d c hc x hx)

/-- A connection that changes: it keeps packets it had, and may take some from the queue. -/
theorem Ordered.set (h : Ordered queue conns written) (hc : conns[d]? = some c)
    (hqueue : queue'.Sublist queue) (hsorted : (c'.taken.map Prod.fst).Pairwise (· < ·))
    (hfrom : ∀ x ∈ c'.taken, x ∈ c.taken ∨ x ∈ queue)
    (hbefore : ∀ x ∈ c'.taken, ∀ y ∈ queue', x.1 < y.1) :
    Ordered queue' (conns.set d c') written := by
  -- a packet of the changed connection is in no other one
  have hother : ∀ (e : Nat) (c'' : Conn), conns[e]? = some c'' → e ≠ d → ∀ x ∈ c'.taken,
      ∀ y ∈ c''.taken, x.1 ≠ y.1 := by
    intro e c'' he hne x hx y hy
    rcases hfrom x hx with hx | hx
    · exact h.apart d e c c'' hc he (Ne.symm hne) x hx y hy
    · exact Nat.ne_of_gt (h.before e c'' he y hy x hx)
  -- each field, for the changed connection and for the others
  refine ⟨?_, ?_, ?_, ?_, fun x hx => h.known x (hqueue.subset hx), ?_⟩
  · exact h.queued.sublist (hqueue.map _)
  · intro e x hx
    rcases pool_set_some hx with ⟨-, rfl⟩ | ⟨-, hx⟩
    · exact hsorted
    · exact h.conn e x hx
  · intro e x hx
    rcases pool_set_some hx with ⟨-, rfl⟩ | ⟨-, hx⟩
    · exact hbefore
    · exact fun y hy z hz => h.before e x hx y hy z (hqueue.subset hz)
  · intro e f x y hx hy hne
    rcases pool_set_some hx with ⟨rfl, rfl⟩ | ⟨hed, hxe⟩ <;>
      rcases pool_set_some hy with ⟨rfl, rfl⟩ | ⟨hfd, hyf⟩
    · exact absurd rfl hne
    · exact hother f y hyf hfd
    · exact fun u hu v hv => Ne.symm (hother e x hxe hed v hv u hu)
    · exact h.apart e f x y hxe hyf hne
  · intro e x hx
    rcases pool_set_some hx with ⟨-, rfl⟩ | ⟨-, hx⟩
    · exact fun y hy => (hfrom y hy).elim (h.source d c hc y) (h.known y)
    · exact h.source e x hx

/-- A connection that only loses packets. -/
theorem Ordered.shrink (h : Ordered queue conns written) (hc : conns[d]? = some c)
    (hsub : c'.taken.Sublist c.taken) : Ordered queue (conns.set d c') written :=
  h.set hc (List.Sublist.refl _) ((h.conn d c hc).sublist (hsub.map _))
    (fun _ hx => Or.inl (hsub.subset hx)) fun x hx => h.before d c hc x (hsub.subset hx)

/-- A connection that was just dialed. -/
theorem Ordered.snoc (h : Ordered queue conns written) (hnew : c'.taken = []) :
    Ordered queue (conns ++ [c']) written where
  queued := h.queued
  conn d x hx := by
    rcases pool_snoc_some hx with hx | ⟨-, rfl⟩
    · exact h.conn d x hx
    · rw [hnew]
      exact .nil
  before d x hx := by
    rcases pool_snoc_some hx with hx | ⟨-, rfl⟩
    · exact h.before d x hx
    · rw [hnew]
      exact nofun
  apart d e x y hx hy hne := by
    rcases pool_snoc_some hx with hx | ⟨-, rfl⟩
    · rcases pool_snoc_some hy with hy | ⟨-, rfl⟩
      · exact h.apart d e x y hx hy hne
      · rw [hnew]
        exact fun _ _ => nofun
    · rw [hnew]
      exact nofun
  known := h.known
  source d x hx := by
    rcases pool_snoc_some hx with hx | ⟨-, rfl⟩
    · exact h.source d x hx
    · rw [hnew]
      exact nofun

/-- The head of the queue goes to the goroutine that takes it. -/
theorem Ordered.took {i : Nat} {p : Bytes} (h : Ordered ((i, p) :: queue) conns written)
    (hc : conns[d]? = some c) (hw : c.writer = .selecting) :
    Ordered queue (conns.set d { c with writer := .writing i p }) written := by
  have htaken : c.taken = c.carried := by rw [Conn.taken, hw]; exact List.append_nil _
  have hconn := h.conn d c hc
  have hbefore := h.before d c hc
  rw [htaken] at hconn hbefore
  have hqueued := List.pairwise_cons.mp h.queued
  have hnew : ∀ x ∈ c.carried ++ [(i, p)], x ∈ c.carried ∨ x = (i, p) := by
    intro x hx
    rw [List.mem_append, List.mem_singleton] at hx
    exact hx
  -- the packet is newer than what the connection has and older than what stays queued
  refine h.set hc (List.sublist_cons_self _ _) ?_ ?_ ?_
  · change ((c.carried ++ [(i, p)]).map Prod.fst).Pairwise (· < ·)
    rw [List.map_append, List.pairwise_append]
    refine ⟨hconn, List.pairwise_singleton _ _, ?_⟩
    intro j hj k hk
    obtain ⟨x, hx, rfl⟩ := List.mem_map.mp hj
    cases List.mem_singleton.mp hk
    exact hbefore x hx (i, p) List.mem_cons_self
  · intro x hx
    rw [htaken]
    rcases hnew x hx with hx | rfl
    · exact Or.inl hx
    · exact Or.inr List.mem_cons_self
  · intro x hx y hy
    rcases hnew x hx with hx | rfl
    · exact hbefore x hx y (List.mem_cons_of_mem _ hy)
    · exact hqueued.1 y.1 (List.mem_map_of_mem hy)

theorem Ordered.step (h : Ordered s.sendQueue.buf s.conns s.written) (hs : Step id s a s') :
    Ordered s'.sendQueue.buf s'.conns s'.written := by
  -- most steps leave the packets of a connection as they are
  have hsame : ∀ {d : Nat} {c c' : Conn}, s.conns[d]? = some c → c'.carried = c.carried →
      c'.writer.hand = c.writer.hand → Ordered s.sendQueue.buf (s.conns.set d c') s.written := by
    intro d c c' hc hcarried hhand
    refine h.shrink hc ?_
    rw [Conn.taken, Conn.taken, hcarried, hhand]
  cases hs with
  | writeTo p =>
    rcases s.sendQueue.offer_buf (s.written.length, p) with hbuf | hbuf
    · dsimp only
      rw [hbuf]
      exact h.refused p
    · dsimp only
      rw [hbuf]
      exact h.enqueue p
  | writeRefused p _ => exact h.refused p
  | readFrom => exact h
  | close => exact h
  | loopEnds _ _ => exact h
  | loopDials _ _ => exact h
  | dialFailed _ => exact h
  | dialed _ _ => exact h.snoc rfl
  | dialCut _ _ => exact h.snoc rfl
  | exchangeReadErr _ hc _ => exact hsame hc rfl rfl
  | exchangeReadDone _ _ _ => exact h
  | exchangeWriteErr _ hc hw => exact hsame hc rfl (by rw [hw]; rfl)
  | exchangeWriteDone _ _ _ => exact h
  | connClosed _ hc => exact hsame hc rfl rfl
  | readerQuit hc _ _ => exact hsame hc rfl rfl
  | readerWriteErr hc _ hw => exact hsame hc rfl (by rw [hw]; rfl)
  | readerWriteDone hc _ _ => exact hsame hc rfl rfl
  | readerGoesOn hc _ _ _ => exact hsame hc rfl rfl
  | readFailed hc _ => exact hsame hc rfl rfl
  | readPacket hc _ _ => exact hsame hc rfl rfl
  | packetQueued hc _ => exact hsame hc rfl rfl
  | writerQuit hc hw _ => exact hsame hc rfl (by rw [hw]; rfl)
  | writerReadErr hc hw _ => exact hsame hc rfl (by rw [hw]; rfl)
  | writerReadDone hc hw _ => exact hsame hc rfl (by rw [hw]; rfl)
  | took hc hw hq =>
    rw [hq] at h
    exact h.took hc hw
  -- the packet goes from the hand to the carried ones, or is refused
  | @wrote d c i p room ok bw k hc hw _ _ =>
    refine h.shrink hc ?_
    have hhand : (if ok then WriterPc.selecting else WriterPc.reporting).hand = [] := by
      cases ok <;> rfl
    have htaken : c.taken = c.carried ++ [(i, p)] := by rw [Conn.taken, hw]; rfl
    rw [htaken, Conn.taken, hhand, List.append_nil]
    dsimp only
    split
    · exact List.Sublist.refl _
    · exact List.sublist_append_left _ _

/-! ## Every run -/

theorem upstream_run {acts : List Act} (hrun : exec (step id) .new acts = some s) :
    AllFine id s.conns ∧ Ordered s.sendQueue.buf s.conns s.written := by
  refine exec_invariant_all (I := fun t => AllFine id t.conns ∧
    Ordered t.sendQueue.buf t.conns t.written) ?_ acts .new s ?_ hrun
  · rintro t a t' ⟨hfine, hord⟩ hs
    exact ⟨hfine.step (step_cases hs), hord.step (step_cases hs)⟩
  · have hnone : ∀ (d : Nat) (c : Conn), RedialPacketConn.new.conns[d]? ≠ some c := by
      intro d c hc
      simp [RedialPacketConn.new] at hc
    exact ⟨fun d c hc => absurd hc (hnone d c),
      { queued := .nil
        conn := fun d c hc => absurd hc (hnone d c)
        before := fun d c hc => absurd hc (hnone d c)
        apart := fun d _ c _ hc => absurd hc (hnone d c)
        known := nofun
        source := fun d c hc => absurd hc (hnone d c) }⟩

/-- What the server makes of the WebSockets of a client: `queued d` are the calls of `QueueIncoming`
for connection `d`, and `index d` says which packets of `WriteTo` these are. -/
structure Delivers (id : ClientID) (s : RedialPacketConn) (queued : Nat → List (Bytes × Bytes))
    (index : Nat → List Nat) : Prop where
  /-- Each call is for a packet that was written, byte for byte, under the client's id. -/
  packets : ∀ (d : Nat) (c : Conn), s.conns[d]? = some c →
    (queued d).map (fun q => (some q.1, q.2)) = (index d).map fun i => (s.written[i]?, id.bytes)
  /-- No packet comes from two WebSockets. -/
  apart : ∀ d e, d ≠ e → ∀ i ∈ index d, i ∉ index e
  /-- No packet comes twice from one WebSocket, and they come in the order of `WriteTo`. -/
  order : ∀ d, (index d).Pairwise (· < ·)
  /-- They are the first packets that were written to the WebSocket. -/
  first : ∀ (d : Nat) (c : Conn), s.conns[d]? = some c → index d <+: c.carried.map Prod.fst

/-- The indices of the packets that were written to connection `d`. -/
def RedialPacketConn.sentOn (s : RedialPacketConn) (d : Nat) : List Nat :=
  match s.conns[d]? with
  | none => []
  | some c => c.carried.map Prod.fst

theorem sentOn_some (h : s.conns[d]? = some c) : s.sentOn d = c.carried.map Prod.fst := by
  rw [RedialPacketConn.sentOn, h]

theorem sentOn_none (h : s.conns[d]? = none) : s.sentOn d = [] := by
  rw [RedialPacketConn.sentOn, h]

theorem mem_sentOn {i : Nat} (h : i ∈ s.sentOn d) :
    ∃ c, s.conns[d]? = some c ∧ ∃ x ∈ c.carried, x.1 = i := by
  cases hc : s.conns[d]? with
  | none =>
    rw [sentOn_none hc] at h
    cases h
  | some c =>
    rw [sentOn_some hc] at h
    exact ⟨c, rfl, List.mem_map.mp h⟩

/-- In every run, wherever each WebSocket is cut and however its bytes arrive: the server queues
packets that were written, each at most once, unchanged, in order, under the client's id. -/
theorem upstream_packets_intact (id : ClientID) (acts : List Act) (s : RedialPacketConn)
    (hrun : exec (step id) .new acts = some s) (arrived : Nat → List Bytes × ReadError)
    (hcut : ∀ (d : Nat) (c : Conn), s.conns[d]? = some c →
      (arrived d).1.flatten <+: (messages c.writes).flatten) :
    ∃ index, Delivers id s
      (fun d => serveIncoming (pipeReader (arrived d).1 (arrived d).2)) index := by
  obtain ⟨hfine, hord⟩ := upstream_run hrun
  -- the number of packets that come through on each connection
  have hcount : ∀ d, ∃ n, ∀ (c : Conn), s.conns[d]? = some c →
      serveIncoming (pipeReader (arrived d).1 (arrived d).2) =
        ((c.carried.map Prod.snd).take n).map (·, id.bytes) := by
    intro d
    cases hc : s.conns[d]? with
    | none => exact ⟨0, nofun⟩
    | some c =>
      have hwire := hcut d c hc
      rw [messages_flatten] at hwire
      obtain ⟨n, hn⟩ := serveIncoming_cut (pipeReader_plain (arrived d).1 (arrived d).2)
        (fun p hp => by
          obtain ⟨f, hf, rfl⟩ := List.mem_map.mp hp
          exact (hfine d c hc).accepted f hf)
        (by
          rw [pipeReader_bytes]
          exact hwire.trans (hfine d c hc).wire)
      exact ⟨n, fun c' hc' => by cases hc'; exact hn⟩
  choose count hcount using hcount
  have hmem : ∀ d, ∀ i ∈ (s.sentOn d).take (count d), ∃ c, s.conns[d]? = some c ∧
      ∃ x ∈ c.taken, x.1 = i := by
    intro d i hi
    obtain ⟨c, hc, x, hx, hxi⟩ := mem_sentOn (List.mem_of_mem_take hi)
    exact ⟨c, hc, x, List.mem_append_left _ hx, hxi⟩
  -- the first packets of each connection, by the indices they were taken with
  refine ⟨fun d => (s.sentOn d).take (count d), ?_, ?_, ?_, ?_⟩
  · intro d c hc
    rw [hcount d c hc, sentOn_some hc, ← List.map_take, ← List.map_take, List.map_map, List.map_map,
      List.map_map]
    refine List.map_congr_left fun x hx => ?_
    have hsource := hord.source d c hc x (List.mem_append_left _ (List.mem_of_mem_take hx))
    simp only [Function.comp_apply, hsource]
  · intro d e hne i hi hi'
    obtain ⟨c, hc, x, hx, rfl⟩ := hmem d i hi
    obtain ⟨c', hc', y, hy, hxy⟩ := hmem e x.1 hi'
    exact hord.apart d e c c' hc hc' hne x hx y hy hxy.symm
  · intro d
    refine List.Pairwise.sublist (List.take_sublist _ _) ?_
    cases hc : s.conns[d]? with
    | none => rw [sentOn_none hc]; exact .nil
    | some c =>
      rw [sentOn_some hc]
      exact (hord.conn d c hc).sublist ((List.sublist_append_left _ _).map _)
  · intro d c hc
    rw [sentOn_some hc]
    exact List.take_prefix _ _

/-- The client of the run below. -/
def someClient : ClientID := ⟨[1, 2, 3, 4, 5, 6, 7, 8], rfl⟩

/-- `dialLoop` opens a connection that does not fail. -/
def dialOne : List Act := [.dial .check, .dial (.dialed none)]

/-- Packet `p` goes out on connection `d`. -/
def sendOn (d : Nat) (p : Bytes) : List Act :=
  [.writeTo p, .writer d .take, .writer d (.write none)]

/-- The reading goroutine of connection `d` gets an error, and the loop goes on without it. -/
def dropConn (d : Nat) : List Act :=
  [.reader d .goOn, .reader d (.read none), .dial .readErr, .dial .closeConn]

/-- The first `n` bytes of each WebSocket arrive, in one piece. -/
def firstBytes (s : RedialPacketConn) (n d : Nat) : List Bytes × ReadError :=
  match s.conns[d]? with
  | none => ([], .eof)
  | some c => ([(messages c.writes).flatten.take n], .eof)

/-- Two packets on two WebSockets that are cut right behind their packet; one byte less, and the
packet does not come. -/
theorem upstream_packets_intact_redial :
    ∃ s, exec (step someClient) .new (dialOne ++ sendOn 0 [1, 2] ++ dropConn 0 ++ dialOne ++
        sendOn 1 [3, 4]) = some s ∧
      [0, 1].map (fun d => serveIncoming (pipeReader (firstBytes s 19 d).1 (firstBytes s 19 d).2)) =
        [[([1, 2], someClient.bytes)], [([3, 4], someClient.bytes)]] ∧
      [0, 1].map (fun d => serveIncoming (pipeReader (firstBytes s 18 d).1 (firstBytes s 18 d).2)) =
        [[], []] ∧
      ∃ index, Delivers someClient s
        (fun d => serveIncoming (pipeReader (firstBytes s 19 d).1 (firstBytes s 19 d).2)) index := by
  apply exec_reaches (P := fun s : RedialPacketConn =>
    [0, 1].map (fun d => serveIncoming (pipeReader (firstBytes s 19 d).1 (firstBytes s 19 d).2)) =
        [[([1, 2], someClient.bytes)], [([3, 4], someClient.bytes)]] ∧
      [0, 1].map (fun d => serveIncoming (pipeReader (firstBytes s 18 d).1 (firstBytes s 18 d).2)) =
        [[], []])
  · decide +kernel
  · rintro s hs ⟨hwhole, hnone⟩
    have hcut : ∀ (d : Nat) (c : Conn), s.conns[d]? = some c →
        (firstBytes s 19 d).1.flatten <+: (messages c.writes).flatten := by
      intro d c hc
      rw [firstBytes, hc, List.flatten_singleton]
      exact List.take_prefix _ _
    exact ⟨hwhole, hnone, upstream_packets_intact someClient _ s hs (firstBytes s 19) hcut⟩

end PTBridge.Snowflake.Redial
