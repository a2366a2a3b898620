import PTBridge.Snowflake.Downlink
import PTBridge.Snowflake.Downstream
import PTBridge.Snowflake.OutgoingQueue

/-!
# What the client gets of the server's packets

- `Logged`: which `serveHTTP` call took a packet, and from which queue.
- `Wire.Fine`: what a `serveHTTP` call put on its WebSocket begins the packets it took.
- `Tracks`: what the client read on a connection begins what was put on it.
- `Queued`: what `ReadFrom` returned of one connection is a part of what was read on it, in the same
  order.
- `Arrives` says what the callers of `ReadFrom` get, `downlink_packets_intact` that they do in every
  run.
-/

namespace PTBridge.Snowflake.Downlink

open PTBridge.Stream PTBridge.Container PTBridge.Transition
open PTBridge.Snowflake.Serve (Server Lookup ServeCall clientMapTimeout)
open PTBridge.Snowflake.Redial (RedialPacketConn packetSize)

variable {id : ClientID} {s s' : System} {a : Act}

/-! ## The server's part -/

/-- The server's part of a run is a run of the server. -/
def Projects (s : System) : Prop :=
  ∃ as, exec (Serve.step clientMapTimeout) .new as = some s.server

theorem Projects.snoc {a : Serve.Act ClientID} (h : Projects s)
    (hserver : Serve.step clientMapTimeout s.server a = some s'.server) : Projects s' := by
  obtain ⟨as, hrun⟩ := h
  refine ⟨as ++ [a], exec_append_some.mpr ⟨_, hrun, ?_⟩⟩
  simp [exec, hserver]

theorem Projects.step (h : Projects s) (hs : Step id s a s') : Projects s' := by
  cases hs with
  | server _ hserver => exact h.snoc hserver
  | receive _ _ hserver => exact h.snoc hserver
  | wrote _ _ _ hserver => exact h.snoc hserver
  | writeFailed _ _ _ hserver => exact h.snoc hserver
  | accept _ _ _ hserver => exact h.snoc hserver
  | client _ _ => exact h
  | read _ _ _ => exact h
  | readFailed _ => exact h
  | readFrom _ => exact h

/-- The calls of `serveHTTP` after a step of the server that moves no packet: a writing goroutine
stands where it stood, has looked its queue up or comes back from `Flush`, and a new one starts. -/
inductive CallsMove (calls calls' : List (ServeCall ClientID)) : Prop where
  | same (hcalls : calls' = calls)
  | set {k c c'} (hc : calls[k]? = some c) (hcalls : calls' = calls.set k c')
      (hid : c'.clientID = c.clientID)
      (hw : c'.writer = c.writer ∨
        (c.writer = .starting ∧ ∃ q, c'.writer = .receiving ⟨c.clientID, q⟩) ∨
        ∃ l, c.writer = .written l ∧ c'.writer = .receiving l)
  | snoc {c} (hcalls : calls' = calls ++ [c]) (hw : c.writer = .starting)

theorem calls_move {server server' : Server ClientID} {a : Serve.Act ClientID}
    (h : Serve.Step clientMapTimeout server a server') (ha : movesPacket a = false) :
    server'.received = server.received ∧ CallsMove server.calls server'.calls := by
  cases h with
  | writeRefused | writeEnters | writeLooksUp | writePuts | readRefused | readEnters | readTakes
  | readStops | close | expires => exact ⟨rfl, .same rfl⟩
  | accepts => exact ⟨rfl, .snoc rfl rfl⟩
  | readerReads hc | readerFails hc | readerDrops hc | readerGoesOn hc | readerQueues hc
  | finishes hc => exact ⟨rfl, .set hc rfl rfl (Or.inl rfl)⟩
  | writerStarts hc hw _ => exact ⟨rfl, .set hc rfl rfl (Or.inr (Or.inl ⟨hw, _, rfl⟩))⟩
  | writerGoesOn hc hw => exact ⟨rfl, .set hc rfl rfl (Or.inr (Or.inr ⟨_, hw, rfl⟩))⟩
  | writerReceives | writerWrites | writerFails => cases ha

/-! ## Which call took a packet -/

/-- The log of what the writing goroutines took: the server's own, with the number of the call. A
goroutine takes from one queue, which is its client's. -/
structure Logged (s : System) : Prop where
  received : s.taken.map Prod.snd = s.server.received
  owner : ∀ e ∈ s.taken, ∃ c, s.server.calls[e.1]? = some c ∧ c.writer ≠ .starting ∧
    e.2.1.addr = c.clientID ∧ ∀ l, c.writer.lookup = some l → e.2.1 = l
  oneQueue : ∀ e ∈ s.taken, ∀ f ∈ s.taken, e.1 = f.1 → e.2.1 = f.2.1

/-- A call moves on and takes nothing. -/
theorem Logged.set {k : Nat} {c c' : ServeCall ClientID} (h : Logged s)
    (hc : s.server.calls[k]? = some c) (htaken : s'.taken = s.taken)
    (hreceived : s'.server.received = s.server.received)
    (hcalls : s'.server.calls = s.server.calls.set k c') (hid : c'.clientID = c.clientID)
    (hw : c.writer ≠ .starting → c'.writer ≠ .starting ∧
      ∀ l, c'.writer.lookup = some l → c.writer.lookup = some l) : Logged s' where
  received := by rw [htaken, hreceived, h.received]
  owner e he := by
    rw [htaken] at he
    obtain ⟨x, hx, hstarted, haddr, hlookup⟩ := h.owner e he
    rw [hcalls]
    by_cases hk : e.1 = k
    · subst hk
      rw [hc] at hx
      cases hx
      obtain ⟨hstarted', hsub⟩ := hw hstarted
      exact ⟨c', pool_set_self hc, hstarted', by rw [hid, haddr], fun l hl => hlookup l (hsub l hl)⟩
    · exact ⟨x, by rw [List.getElem?_set_ne (Ne.symm hk), hx], hstarted, haddr, hlookup⟩
  oneQueue e he f hf := by
    rw [htaken] at he hf
    exact h.oneQueue e he f hf

/-- A call starts. -/
theorem Logged.snoc {c : ServeCall ClientID} (h : Logged s) (htaken : s'.taken = s.taken)
    (hreceived : s'.server.received = s.server.received)
    (hcalls : s'.server.calls = s.server.calls ++ [c]) : Logged s' where
  received := by rw [htaken, hreceived, h.received]
  owner e he := by
    rw [htaken] at he
    obtain ⟨x, hx, hrest⟩ := h.owner e he
    exact ⟨x, by rw [hcalls]; exact pool_snoc_old hx, hrest⟩
  oneQueue e he f hf := by
    rw [htaken] at he hf
    exact h.oneQueue e he f hf

/-- A goroutine takes a packet from its queue. -/
theorem Logged.took {k i : Nat} {c : ServeCall ClientID} {l : Lookup ClientID} {p : Bytes}
    {q : Chan queueSize (Nat × Bytes)} (h : Logged s) (hown : Serve.Owned s.server)
    (hc : s.server.calls[k]? = some c) (hw : c.writer = .receiving l) :
    Logged { s with
      server := (s.server.take l q i p).setCall k { c with writer := .writing l p }
      taken := s.taken ++ [(k, l, i, p)] } where
  received := by simp [Server.setCall, Server.take, h.received]
  owner e he := by
    simp only [Server.setCall, Server.take]
    rcases List.mem_append.mp he with he | he
    · obtain ⟨x, hx, hstarted, haddr, hlookup⟩ := h.owner e he
      by_cases hk : e.1 = k
      · subst hk
        rw [hc] at hx
        cases hx
        refine ⟨_, pool_set_self hc, by simp, haddr, fun m hm => ?_⟩
        cases hm
        exact hlookup l (by rw [hw]; rfl)
      · exact ⟨x, by rw [List.getElem?_set_ne (Ne.symm hk), hx], hstarted, haddr, hlookup⟩
    · cases List.mem_singleton.mp he
      refine ⟨_, pool_set_self hc, by simp, ?_, fun m hm => ?_⟩
      · exact hown c (List.mem_of_getElem? hc) l (by rw [hw]; rfl)
      · cases hm
        rfl
  oneQueue e he f hf hef := by
    -- the queue of the new entry is the one the goroutine has had since it started
    have hqueue : ∀ g ∈ s.taken, g.1 = k → g.2.1 = l := by
      rintro g hg rfl
      obtain ⟨x, hx, -, -, hlookup⟩ := h.owner g hg
      rw [hc] at hx
      cases hx
      exact hlookup l (by rw [hw]; rfl)
    rcases List.mem_append.mp he with he | he <;> rcases List.mem_append.mp hf with hf | hf
    · exact h.oneQueue e he f hf hef
    · cases List.mem_singleton.mp hf
      exact hqueue e he hef
    · cases List.mem_singleton.mp he
      exact (hqueue f hf hef.symm).symm
    · cases List.mem_singleton.mp he
      cases List.mem_singleton.mp hf
      rfl

theorem Logged.step (h : Logged s) (hown : Serve.Owned s.server) (hs : Step id s a s') :
    Logged s' := by
  cases hs with
  | server ha hserver =>
    obtain ⟨hreceived, hmove⟩ := calls_move (Serve.step_cases hserver) ha
    cases hmove with
    | same hcalls =>
      exact ⟨by rw [hreceived]; exact h.received, by rw [hcalls]; exact h.owner, h.oneQueue⟩
    | set hc hcalls hid hw =>
      refine h.set hc rfl hreceived hcalls hid fun hstarted => ?_
      rcases hw with hw | ⟨hstarting, -⟩ | ⟨l, hwritten, hw⟩
      · rw [hw]
        exact ⟨hstarted, fun l hl => hl⟩
      · exact absurd hstarting hstarted
      · rw [hw, hwritten]
        exact ⟨nofun, fun l hl => hl⟩
    | snoc hcalls _ => exact h.snoc rfl hreceived hcalls
  | receive hc hw _ => exact h.took hown hc hw
  | wrote hc hw _ _ => exact h.set hc rfl rfl rfl rfl fun _ => ⟨nofun, fun l hl => by rw [hw]; exact hl⟩
  | writeFailed hc _ _ _ => exact h.set hc rfl rfl rfl rfl fun _ => ⟨nofun, nofun⟩
  | accept _ _ _ _ => exact h.snoc rfl rfl rfl
  | client _ _ => exact ⟨h.received, h.owner, h.oneQueue⟩
  | read _ _ _ => exact ⟨h.received, h.owner, h.oneQueue⟩
  | readFailed _ => exact ⟨h.received, h.owner, h.oneQueue⟩
  | readFrom _ => exact ⟨h.received, h.owner, h.oneQueue⟩

/-! ## What is on a WebSocket -/

/-- What the writing goroutine of one call has done with the packets `taken` it took. -/
structure Wire.Fine (pc : Serve.WriterPc ClientID) (w : Wire) (taken : List (Nat × Bytes)) :
    Prop where
  wire : w.writes.flatten <+: encodeAll (w.carried.map Prod.snd)
  live : pc ≠ .ended → w.bw = .new ∧ w.writes.flatten = encodeAll (w.carried.map Prod.snd)
  accepted : ∀ f ∈ w.carried, (encodeData f.2).isSome = true
  first : w.carried <+: taken
  /-- Between two packets everything that was taken has been written. -/
  idle : pc ≠ .ended → (∀ l p, pc ≠ .writing l p) → taken = w.carried
  writing : ∀ l p, pc = .writing l p → ∃ i, taken = w.carried ++ [(i, p)]

theorem Wire.fine_new : Wire.Fine .starting .new [] :=
  ⟨List.nil_prefix, fun _ => ⟨rfl, rfl⟩, nofun, List.nil_prefix, fun _ _ => rfl, nofun⟩

/-- The goroutine moves on and has nothing in its hands. -/
theorem Wire.Fine.idles {pc pc' : Serve.WriterPc ClientID} {w : Wire} {taken : List (Nat × Bytes)}
    (h : w.Fine pc taken) (hpc : pc ≠ .ended) (hidle : ∀ l p, pc ≠ .writing l p)
    (hidle' : ∀ l p, pc' ≠ .writing l p) : w.Fine pc' taken :=
  ⟨h.wire, fun _ => h.live hpc, h.accepted, h.first, fun _ _ => h.idle hpc hidle,
    fun l p hw => absurd hw (hidle' l p)⟩

theorem Wire.Fine.takes {l : Lookup ClientID} {w : Wire} {taken : List (Nat × Bytes)} {i : Nat}
    {p : Bytes} (h : w.Fine (.receiving l) taken) : w.Fine (.writing l p) (taken ++ [(i, p)]) where
  wire := h.wire
  live _ := h.live nofun
  accepted := h.accepted
  first := h.first.trans (List.prefix_append _ _)
  idle _ hidle := absurd rfl (hidle l p)
  writing m q hw := by
    cases hw
    exact ⟨i, by rw [h.idle nofun nofun]⟩

/-- `WriteData` and `Flush` add the packet to what is on the WebSocket, or fail. -/
theorem Wire.Fine.writes {l : Lookup ClientID} {w : Wire} {taken : List (Nat × Bytes)} {p : Bytes}
    {room : Option Nat} {ok : Bool} {bw : BufWriter} {sink : Sink} (h : w.Fine (.writing l p) taken)
    (hwrite : writePacket p w.bw ⟨w.writes, room⟩ = (ok, bw, sink)) :
    Wire.Fine (if ok then .written l else .ended)
      { bw
        writes := sink.writes
        carried := if (encodeData p).isSome then taken else w.carried } taken := by
  -- the goroutine was live, so everything before this packet is out
  obtain ⟨hnew, hwire⟩ := h.live nofun
  obtain ⟨i, htaken⟩ := h.writing l p rfl
  rw [hnew] at hwrite
  cases henc : encodeData p with
  | none =>
    -- nothing is written, and the goroutine ends
    rw [writePacket_tooLong henc] at hwrite
    cases hwrite
    exact ⟨h.wire, fun hpc => absurd rfl hpc, h.accepted, h.first, fun hpc => absurd rfl hpc, nofun⟩
  | some enc =>
    obtain ⟨hpart, hall⟩ := writePacket_spec henc hwrite
    have hsnoc : encodeAll (taken.map Prod.snd) = (⟨w.writes, room⟩ : Sink).bytes ++ enc := by
      rw [htaken, List.map_append, List.map_singleton, encodeAll_snoc henc, ← hwire]
      rfl
    rw [← hsnoc] at hpart hall
    have haccepted : ∀ f ∈ taken, (encodeData f.2).isSome = true := by
      rw [htaken]
      intro f hf
      rcases List.mem_append.mp hf with hf | hf
      · exact h.accepted f hf
      · cases List.mem_singleton.mp hf
        rw [henc]
        rfl
    cases ok with
    | true =>
      exact ⟨hpart, fun _ => hall rfl, haccepted, List.prefix_refl _, fun _ _ => rfl, nofun⟩
    | false =>
      exact ⟨hpart, fun hpc => absurd rfl hpc, haccepted, List.prefix_refl _,
        fun hpc => absurd rfl hpc, nofun⟩

/-- Every call is fine, and nothing was done for a call that has not begun. -/
structure Wired (s : System) : Prop where
  fine : ∀ (k : Nat) (c : ServeCall ClientID), s.server.calls[k]? = some c →
    (s.wires k).Fine c.writer (s.takenBy k)
  fresh : ∀ k, s.server.calls.length ≤ k → s.wires k = .new ∧ s.takenBy k = []

/-- Call `k` moves on. -/
theorem Wired.set {k : Nat} {c c' : ServeCall ClientID} (h : Wired s)
    (hc : s.server.calls[k]? = some c) (hcalls : s'.server.calls = s.server.calls.set k c')
    (hfine : (s'.wires k).Fine c'.writer (s'.takenBy k))
    (hother : ∀ j, j ≠ k → s'.wires j = s.wires j ∧ s'.takenBy j = s.takenBy j) : Wired s' where
  fine j x hx := by
    rw [hcalls] at hx
    rcases pool_set_some hx with ⟨rfl, rfl⟩ | ⟨hne, hx⟩
    · exact hfine
    · rw [(hother j hne).1, (hother j hne).2]
      exact h.fine j x hx
  fresh j hj := by
    rw [hcalls, List.length_set] at hj
    obtain ⟨hlt, -⟩ := List.getElem?_eq_some_iff.mp hc
    obtain ⟨hwire, htaken⟩ := hother j (by omega)
    rw [hwire, htaken]
    exact h.fresh j hj

/-- A call starts. -/
theorem Wired.snoc {c : ServeCall ClientID} (h : Wired s)
    (hcalls : s'.server.calls = s.server.calls ++ [c]) (hw : c.writer = .starting)
    (hwires : s'.wires = s.wires) (htaken : s'.taken = s.taken) : Wired s' where
  fine k x hx := by
    rw [hwires, System.takenBy, htaken]
    rw [hcalls] at hx
    rcases pool_snoc_some hx with hx | ⟨rfl, rfl⟩
    · exact h.fine k x hx
    · obtain ⟨hwire, hnone⟩ := h.fresh s.server.calls.length (Nat.le_refl _)
      rw [System.takenBy] at hnone
      rw [hwire, hnone, hw]
      exact Wire.fine_new
  fresh k hk := by
    rw [hwires, System.takenBy, htaken]
    rw [hcalls, List.length_append] at hk
    exact h.fresh k (by omega)

theorem takenBy_snoc_self (s : System) (k : Nat) (l : Lookup ClientID) (i : Nat) (p : Bytes) :
    (ofKey (s.taken ++ [(k, l, i, p)]) k).map Prod.snd = s.takenBy k ++ [(i, p)] := by
  rw [ofKey_snoc_self, List.map_append]
  rfl

theorem Wired.step (h : Wired s) (hs : Step id s a s') : Wired s' := by
  cases hs with
  | server ha hserver =>
    obtain ⟨-, hmove⟩ := calls_move (Serve.step_cases hserver) ha
    cases hmove with
    | same hcalls => exact ⟨by rw [hcalls]; exact h.fine, by rw [hcalls]; exact h.fresh⟩
    | set hc hcalls _ hw =>
      refine h.set hc hcalls ?_ fun j _ => ⟨rfl, rfl⟩
      have hfine := h.fine _ _ hc
      rcases hw with hw | ⟨hstarting, q, hw⟩ | ⟨l, hwritten, hw⟩
      · rw [hw]
        exact hfine
      · rw [hstarting] at hfine
        rw [hw]
        exact hfine.idles nofun nofun nofun
      · rw [hwritten] at hfine
        rw [hw]
        exact hfine.idles nofun nofun nofun
    | snoc hcalls hw => exact h.snoc hcalls hw rfl rfl
  | @receive k c l i p q hc hw _ =>
    refine h.set hc rfl ?_ fun j hj => ⟨rfl, ?_⟩
    · have hfine := h.fine k c hc
      rw [hw] at hfine
      rw [System.takenBy, takenBy_snoc_self]
      exact hfine.takes
    · simp only [System.takenBy, ofKey_snoc_other _ _ hj]
  | @wrote k c l p room bw sink hc hw hwrite _ =>
    refine h.set hc rfl ?_ fun j hj => ⟨Function.update_of_ne hj _ _, rfl⟩
    have hfine := h.fine k c hc
    rw [hw] at hfine
    simp only [System.setWire, Function.update_self]
    exact hfine.writes hwrite
  | @writeFailed k c l p room bw sink errCh hc hw hwrite _ =>
    refine h.set hc rfl ?_ fun j hj => ⟨Function.update_of_ne hj _ _, rfl⟩
    have hfine := h.fine k c hc
    rw [hw] at hfine
    simp only [System.setWire, Function.update_self]
    exact hfine.writes hwrite
  | accept _ _ _ _ => exact h.snoc rfl rfl rfl rfl
  | client _ _ => exact ⟨h.fine, h.fresh⟩
  | read _ _ _ => exact ⟨h.fine, h.fresh⟩
  | readFailed _ => exact ⟨h.fine, h.fresh⟩
  | readFrom _ => exact ⟨h.fine, h.fresh⟩

/-! ## What the client reads -/

/-- The packets on the WebSocket of connection `d`. -/
def System.carriedOn (s : System) (d : Nat) : List (Nat × Bytes) :=
  match (s.links d).call with
  | none => []
  | some k => (s.wires k).carried

/-- From the first part of a stream of packets `ReadData` gets the first packet, if any. -/
theorem readData_next {ps : List Bytes} {r r' : Reader} {p : Bytes} (hr : r.Plain)
    (hps : ∀ q ∈ ps, (encodeData q).isSome = true) (hbytes : r.bytes <+: encodeAll ps)
    (h : readData r = (.ok p, r')) :
    ∃ ps' enc, ps = p :: ps' ∧ encodeData p = some enc ∧ r.bytes = enc ++ r'.bytes := by
  cases ps with
  | nil =>
    -- nothing was written, and `ReadData` fails
    have hnil : r.bytes = [] := List.prefix_nil.mp hbytes
    have hdec := readPrefix_plain hr
    rw [hnil] at hdec
    obtain ⟨err, r'', herr⟩ := hdec
    rw [readData_error herr] at h
    cases h
  | cons q ps =>
    obtain ⟨enc, henc⟩ := Option.isSome_iff_exists.mp (hps q List.mem_cons_self)
    have hall : encodeAll (q :: ps) = enc ++ encodeAll ps := by simp [encodeAll, henc]
    rw [hall] at hbytes
    rcases begin_append_cases hbytes with ⟨hcut, hshort⟩ | ⟨rest, hrest, -⟩
    · obtain ⟨err, r'', herr⟩ := readData_cut hr henc hcut hshort
      rw [herr] at h
      cases h
    · obtain ⟨r'', hread, hat⟩ := readData_encode hr henc hrest
      rw [hread] at h
      cases h
      exact ⟨ps, enc, rfl, henc, by rw [hat.bytes, hrest]⟩

/-- What was read on the connections of the client: the first packets of their WebSockets, and
exactly their bytes. The WebSockets of two connections are served by two calls. -/
structure Tracks (id : ClientID) (s : System) : Prop where
  consumed : ∀ d, (s.links d).consumed = (encodeAll (ofKey s.pulled d)).length
  first : ∀ d, ofKey s.pulled d <+: (s.carriedOn d).map Prod.snd
  call : ∀ d k, (s.links d).call = some k →
    ∃ c, s.server.calls[k]? = some c ∧ c.clientID = id
  apart : ∀ d e k, (s.links d).call = some k → (s.links e).call = some k → d = e

/-- A call that moves on keeps its client. -/
theorem set_kept {calls : List (ServeCall ClientID)} {k : Nat} {c c' : ServeCall ClientID}
    (hc : calls[k]? = some c) (hid : c'.clientID = c.clientID) (j : Nat) (x : ServeCall ClientID)
    (hx : calls[j]? = some x) :
    ∃ x', (calls.set k c')[j]? = some x' ∧ x'.clientID = x.clientID := by
  by_cases hjk : j = k
  · subst hjk
    rw [hc] at hx
    cases hx
    exact ⟨c', pool_set_self hc, hid⟩
  · exact ⟨x, by rw [List.getElem?_set_ne (Ne.symm hjk), hx], rfl⟩

/-- Calls keep their client. -/
theorem CallsMove.kept {calls calls' : List (ServeCall ClientID)} (h : CallsMove calls calls')
    {k : Nat} {c : ServeCall ClientID} (hc : calls[k]? = some c) :
    ∃ c', calls'[k]? = some c' ∧ c'.clientID = c.clientID := by
  cases h with
  | same hcalls => exact ⟨c, by rw [hcalls, hc], rfl⟩
  | set hx hcalls hid _ =>
    rw [hcalls]
    exact set_kept hx hid k c hc
  | snoc hcalls _ => exact ⟨c, by rw [hcalls]; exact pool_snoc_old hc, rfl⟩

/-- A step of the server: calls keep their client, and what is on a WebSocket stays there. -/
theorem Tracks.serves (h : Tracks id s) (hlinks : s'.links = s.links) (hpulled : s'.pulled = s.pulled)
    (hcalls : ∀ (k : Nat) (c : ServeCall ClientID), s.server.calls[k]? = some c →
      ∃ c', s'.server.calls[k]? = some c' ∧ c'.clientID = c.clientID)
    (hcarried : ∀ k, (s.wires k).carried <+: (s'.wires k).carried) : Tracks id s' where
  consumed d := by rw [hlinks, hpulled, h.consumed]
  first d := by
    rw [hpulled]
    refine (h.first d).trans (List.IsPrefix.map Prod.snd ?_)
    rw [System.carriedOn, System.carriedOn, hlinks]
    cases (s.links d).call with
    | none => exact List.prefix_refl _
    | some k => exact hcarried k
  call d k hk := by
    rw [hlinks] at hk
    obtain ⟨c, hc, hid⟩ := h.call d k hk
    obtain ⟨c', hc', hid'⟩ := hcalls k c hc
    exact ⟨c', hc', hid'.trans hid⟩
  apart d e k := by
    rw [hlinks]
    exact h.apart d e k

/-- After a write the WebSocket has what it had. -/
theorem Wired.carried_grows {k : Nat} {c : ServeCall ClientID} (h : Wired s)
    (hc : s.server.calls[k]? = some c) (p : Bytes) {bw : BufWriter} {writes : List Bytes} (j : Nat) :
    (s.wires j).carried <+: (Function.update s.wires k
      { bw, writes, carried := if (encodeData p).isSome then s.takenBy k
          else (s.wires k).carried } j).carried := by
  by_cases hjk : j = k
  · subst hjk
    rw [Function.update_self]
    dsimp only
    split
    · exact (h.fine j c hc).first
    · exact List.prefix_refl _
  · rw [Function.update_of_ne hjk]

/-- `serveHTTP` begins for the WebSocket of connection `d`. -/
theorem Tracks.accepts {d : Nat} {c : ServeCall ClientID} (h : Tracks id s)
    (hlink : (s.links d).call = none) (hid : c.clientID = id)
    (hlinks : s'.links =
      Function.update s.links d { s.links d with call := some s.server.calls.length })
    (hcalls : s'.server.calls = s.server.calls ++ [c]) (hpulled : s'.pulled = s.pulled)
    (hwires : s'.wires = s.wires) : Tracks id s' where
  consumed e := by
    rw [hlinks, hpulled, ← h.consumed e]
    by_cases hed : e = d
    · subst hed
      simp
    · simp [Function.update_of_ne hed]
  first e := by
    rw [hpulled, System.carriedOn, hlinks, hwires]
    by_cases hed : e = d
    · -- nothing was read before the call began
      subst hed
      have hnone := h.first e
      rw [System.carriedOn, hlink, List.map_nil, List.prefix_nil] at hnone
      rw [hnone]
      exact List.nil_prefix
    · rw [Function.update_of_ne hed]
      exact h.first e
  call e k hk := by
    rw [hlinks] at hk
    rw [hcalls]
    by_cases hed : e = d
    · subst hed
      rw [Function.update_self] at hk
      cases hk
      exact ⟨c, pool_snoc_new, hid⟩
    · rw [Function.update_of_ne hed] at hk
      obtain ⟨x, hx, hxid⟩ := h.call e k hk
      exact ⟨x, pool_snoc_old hx, hxid⟩
  apart e f k he hf := by
    -- the number of the new call is in use nowhere else
    have hfresh : ∀ g, (s.links g).call ≠ some s.server.calls.length := by
      intro g hg
      obtain ⟨x, hx, -⟩ := h.call g _ hg
      obtain ⟨hlt, -⟩ := List.getElem?_eq_some_iff.mp hx
      exact Nat.lt_irrefl _ hlt
    rw [hlinks] at he hf
    by_cases hed : e = d <;> by_cases hfd : f = d
    · rw [hed, hfd]
    · subst hed
      rw [Function.update_self] at he
      cases he
      rw [Function.update_of_ne hfd] at hf
      exact absurd hf (hfresh f)
    · subst hfd
      rw [Function.update_self] at hf
      cases hf
      rw [Function.update_of_ne hed] at he
      exact absurd he (hfresh e)
    · rw [Function.update_of_ne hed] at he
      rw [Function.update_of_ne hfd] at hf
      exact h.apart e f k he hf

theorem encodeAll_append (ps qs : List Bytes) : encodeAll (ps ++ qs) = encodeAll ps ++ encodeAll qs := by
  simp [encodeAll, List.filterMap_append]

/-- What is on the WebSocket of a connection begins its packets, which `WriteData` accepted. -/
theorem Wired.bytesOn (hwired : Wired s) (h : Tracks id s) (d : Nat) :
    s.bytesOn d <+: encodeAll ((s.carriedOn d).map Prod.snd) ∧
      ∀ f ∈ s.carriedOn d, (encodeData f.2).isSome = true := by
  rw [System.bytesOn, System.carriedOn]
  cases hcall : (s.links d).call with
  | none => exact ⟨List.nil_prefix, nofun⟩
  | some k =>
    obtain ⟨c, hc, -⟩ := h.call d k hcall
    exact ⟨(hwired.fine k c hc).wire, (hwired.fine k c hc).accepted⟩

/-- `ReadData` returns a packet on connection `d`. -/
theorem Tracks.reads {d : Nat} {pieces : List Bytes} {err : ReadError} {p : Bytes} {reader : Reader}
    (h : Tracks id s) (hwired : Wired s)
    (hpieces : pieces.flatten <+: (s.bytesOn d).drop (s.links d).consumed)
    (hread : readData (pipeReader pieces err) = (.ok p, reader))
    (hlinks : s'.links = Function.update s.links d { s.links d with
      consumed := (s.links d).consumed + (pieces.flatten.length - reader.bytes.length) })
    (hpulled : s'.pulled = s.pulled ++ [(d, p)]) (hserver : s'.server = s.server)
    (hwires : s'.wires = s.wires) : Tracks id s' := by
  obtain ⟨hbytes, haccepted⟩ := hwired.bytesOn h d
  -- what follows on the WebSocket begins the packets that were not read yet
  obtain ⟨rest, hrest⟩ := h.first d
  have hunread : pieces.flatten <+: encodeAll rest := by
    have hdrop := hpieces.trans (hbytes.drop (s.links d).consumed)
    rw [← hrest, encodeAll_append, h.consumed d, List.drop_left] at hdrop
    exact hdrop
  obtain ⟨rest', enc, hnext, henc, hsplit⟩ := readData_next (pipeReader_plain pieces err)
    (fun q hq => by
      have hmem : q ∈ (s.carriedOn d).map Prod.snd := hrest ▸ List.mem_append_right _ hq
      obtain ⟨f, hf, rfl⟩ := List.mem_map.mp hmem
      exact haccepted f hf)
    (by rw [pipeReader_bytes]; exact hunread) hread
  rw [pipeReader_bytes] at hsplit
  have hcall : ∀ e, (s'.links e).call = (s.links e).call := by
    intro e
    rw [hlinks]
    by_cases hed : e = d
    · subst hed
      simp
    · simp [Function.update_of_ne hed]
  refine ⟨fun e => ?_, fun e => ?_, fun e k hk => ?_, fun e f k he hf => ?_⟩
  · rw [hlinks, hpulled]
    by_cases hed : e = d
    · subst hed
      rw [Function.update_self, ofKey_snoc_self, encodeAll_snoc henc, List.length_append, hsplit,
        List.length_append, Nat.add_sub_cancel, h.consumed e]
    · rw [Function.update_of_ne hed, ofKey_snoc_other _ _ hed, h.consumed e]
  · rw [hpulled, System.carriedOn, hcall, hwires]
    by_cases hed : e = d
    · subst hed
      rw [ofKey_snoc_self, ← System.carriedOn, ← hrest, hnext]
      exact (List.prefix_append_right_inj _).mpr ⟨rest', rfl⟩
    · rw [ofKey_snoc_other _ _ hed]
      exact h.first e
  · rw [hserver]
    exact h.call e k ((hcall e).symm.trans hk)
  · exact h.apart e f k ((hcall e).symm.trans he) ((hcall f).symm.trans hf)

theorem Tracks.step (h : Tracks id s) (hwired : Wired s) (hs : Step id s a s') : Tracks id s' := by
  cases hs with
  | server ha hserver =>
    obtain ⟨-, hmove⟩ := calls_move (Serve.step_cases hserver) ha
    exact h.serves rfl rfl (fun _ _ hc => hmove.kept hc) fun _ => List.prefix_refl _
  | receive hc _ _ => exact h.serves rfl rfl (set_kept hc rfl) fun _ => List.prefix_refl _
  | wrote hc _ _ _ => exact h.serves rfl rfl (set_kept hc rfl) (hwired.carried_grows hc _)
  | writeFailed hc _ _ _ => exact h.serves rfl rfl (set_kept hc rfl) (hwired.carried_grows hc _)
  | accept _ hlink _ _ => exact h.accepts hlink rfl rfl rfl rfl rfl
  | client _ _ => exact ⟨h.consumed, h.first, h.call, h.apart⟩
  | read hpieces hread _ => exact h.reads hwired hpieces hread rfl rfl rfl rfl
  | readFailed _ => exact ⟨h.consumed, h.first, h.call, h.apart⟩
  | readFrom _ => exact ⟨h.consumed, h.first, h.call, h.apart⟩

/-! ## What `ReadFrom` returns -/

/-- The packet in the hands of the reading goroutine. -/
def hand : Redial.ReaderPc → List Bytes
  | .queueing p => [p]
  | _ => []

/-- The packet in the hands of the reading goroutine of connection `d`. -/
def handOf (conns : List Redial.Conn) (d : Nat) : List Bytes :=
  match conns[d]? with
  | none => []
  | some c => hand c.reader

theorem handOf_eq {conns : List Redial.Conn} {d : Nat} {c : Redial.Conn}
    (hc : conns[d]? = some c) : handOf conns d = hand c.reader := by
  rw [handOf, hc]

theorem handOf_set {conns conns' : List Redial.Conn} {d : Nat} {c c' : Redial.Conn}
    (hc : conns[d]? = some c) (hconns : conns' = conns.set d c')
    (hhand : hand c'.reader = hand c.reader) (e : Nat) : handOf conns' e = handOf conns e := by
  subst hconns
  by_cases hed : e = d
  · subst hed
    rw [handOf_eq (pool_set_self hc), handOf_eq hc, hhand]
  · rw [handOf, handOf, List.getElem?_set_ne (Ne.symm hed)]

/-- A goroutine that was just started has nothing in its hands. -/
theorem handOf_snoc {conns : List Redial.Conn} {c : Redial.Conn} (hhand : hand c.reader = [])
    (e : Nat) : handOf (conns ++ [c]) e = handOf conns e := by
  cases hx : (conns ++ [c])[e]? with
  | none =>
    rw [List.getElem?_eq_none_iff, List.length_append] at hx
    have hnone : conns[e]? = none := List.getElem?_eq_none (by omega)
    rw [handOf, handOf, hnone, List.getElem?_eq_none (by rw [List.length_append]; exact hx)]
  | some x =>
    rw [handOf_eq hx]
    rcases pool_snoc_some hx with hold | ⟨rfl, rfl⟩
    · rw [handOf_eq hold]
    · rw [hhand, handOf, List.getElem?_eq_none (Nat.le_refl _)]

/-- What a step of the client other than `ReadData` and `ReadFrom` does with its packets: nothing,
or a reading goroutine sends its packet to the receive queue. -/
inductive QueueMove (c c' : RedialPacketConn) : Prop where
  | same (hqueue : c'.recvQueue = c.recvQueue) (hhand : ∀ e, handOf c'.conns e = handOf c.conns e)
  | queued {d p} (hqueue : c'.recvQueue = c.recvQueue.offer (d, p)) (hhas : handOf c.conns d = [p])
      (hself : handOf c'.conns d = [])
      (hother : ∀ e, e ≠ d → handOf c'.conns e = handOf c.conns e)

theorem queue_move {c c' : RedialPacketConn} {b : Redial.Act} (h : Redial.Step id c b c')
    (hb : takesPacket b = false) : QueueMove c c' := by
  cases h with
  | readFrom | readPacket | readFailed => cases hb
  | writeTo | writeRefused | close | loopEnds | loopDials | dialFailed | exchangeReadDone
  | exchangeWriteDone => exact .same rfl fun _ => rfl
  | dialed | dialCut => exact .same rfl fun e => handOf_snoc rfl e
  -- a goroutine that moves on has no packet before and after
  | exchangeReadErr _ hc hr | readerQuit hc hr | readerWriteErr hc hr | readerWriteDone hc hr
  | readerGoesOn hc hr => exact .same rfl fun e => handOf_set hc rfl (by rw [hr]; rfl) e
  | writerReadErr hc _ hr => exact .same rfl fun e => handOf_set hc rfl (by rw [hr]; rfl) e
  | exchangeWriteErr _ hc | connClosed _ hc => exact .same rfl fun e => handOf_set hc rfl (by rfl) e
  | writerQuit hc | writerReadDone hc | took hc | wrote hc =>
    exact .same rfl fun e => handOf_set hc rfl (by rfl) e
  | packetQueued hc hr =>
    refine .queued rfl ?_ ?_ fun e hne => ?_
    · rw [handOf_eq hc, hr]
      rfl
    · exact handOf_eq (pool_set_self hc)
    · rw [handOf, handOf, RedialPacketConn.setConn_conns, List.getElem?_set_ne (Ne.symm hne)]

/-- The client loses packets, and keeps the order of those that come in on one connection: what was
returned of it, what is queued and what the goroutine holds is a part of what was read. -/
def Queued (s : System) : Prop :=
  ∃ packets : List (Nat × Bytes),
    List.Forall₂ (fun r p => r.conn = p.1 ∧ r.data = p.2.take r.size) s.returned packets ∧
    ∀ d, (ofKey (packets ++ s.client.recvQueue.buf) d ++ handOf s.client.conns d).Sublist
      ((ofKey s.pulled d).map (List.take packetSize))

/-- The packet of a goroutine is queued, or dropped. -/
theorem queued_sublist {packets queue : List (Nat × Bytes)} {d : Nat} {p : Bytes}
    {read : List Bytes} (h : (ofKey (packets ++ queue) d ++ [p]).Sublist read) :
    (ofKey (packets ++ (queue ++ [(d, p)])) d ++ []).Sublist read ∧
      (ofKey (packets ++ queue) d ++ []).Sublist read := by
  rw [← List.append_assoc, ofKey_snoc_self, List.append_nil, List.append_nil]
  exact ⟨h, (List.sublist_append_left _ _).trans h⟩

theorem Queued.client {client : RedialPacketConn} (h : Queued s)
    (hmove : QueueMove s.client client) : Queued { s with client } := by
  obtain ⟨packets, hreturned, hsub⟩ := h
  refine ⟨packets, hreturned, fun e => ?_⟩
  dsimp only
  cases hmove with
  | same hqueue hhand =>
    rw [hqueue, hhand e]
    exact hsub e
  | @queued d p hqueue hhas hself hother =>
    rw [hqueue]
    by_cases hed : e = d
    · subst hed
      have hheld := hsub e
      rw [hhas] at hheld
      obtain ⟨hkept, hdropped⟩ := queued_sublist hheld
      rw [hself]
      rcases s.client.recvQueue.offer_buf (e, p) with hbuf | hbuf
      · rw [hbuf]
        exact hdropped
      · rw [hbuf]
        exact hkept
    · rw [hother e hed]
      rcases s.client.recvQueue.offer_buf (d, p) with hbuf | hbuf
      · rw [hbuf]
        exact hsub e
      · rw [hbuf, ← List.append_assoc, ofKey_snoc_other _ _ hed]
        exact hsub e

/-- `ReadData` has a packet, and the goroutine holds it. -/
theorem Queued.pulls {d : Nat} {p : Bytes} {client : RedialPacketConn} (h : Queued s)
    (hclient : Redial.Step id s.client (.reader d (.read (some p))) client)
    (hs : s'.client = client) (hreturned : s'.returned = s.returned)
    (hpulled : s'.pulled = s.pulled ++ [(d, p)]) : Queued s' := by
  obtain ⟨packets, hpackets, hsub⟩ := h
  refine ⟨packets, by rw [hreturned]; exact hpackets, fun e => ?_⟩
  rw [hs, hpulled]
  cases hclient with
  | @readPacket _ c _ hc hr _ =>
    have hnone : handOf s.client.conns d = [] := by
      rw [handOf_eq hc, hr]
      rfl
    by_cases hed : e = d
    · subst hed
      have hbefore := hsub e
      rw [hnone, List.append_nil] at hbefore
      rw [ofKey_snoc_self, List.map_append, RedialPacketConn.setConn_conns,
        handOf_eq (pool_set_self hc)]
      exact hbefore.append (List.Sublist.refl _)
    · rw [ofKey_snoc_other _ _ hed, handOf, RedialPacketConn.setConn_conns,
        List.getElem?_set_ne (Ne.symm hed)]
      exact hsub e

theorem Queued.step (h : Queued s) (hs : Step id s a s') : Queued s' := by
  cases hs with
  | server _ _ => exact h
  | receive _ _ _ => exact h
  | wrote _ _ _ _ => exact h
  | writeFailed _ _ _ _ => exact h
  | accept _ _ _ _ => exact h
  | client ha hclient => exact h.client (queue_move hclient ha)
  | read _ _ hclient => exact h.pulls hclient rfl rfl rfl
  | readFailed hclient =>
    cases hclient with
    | readFailed hc hr =>
      exact h.client (.same rfl fun e => handOf_set hc rfl (by rw [hr]; rfl) e)
  | @readFrom n d data q hq =>
    obtain ⟨packets, hreturned, hsub⟩ := h
    refine ⟨packets ++ [(d, data)], ?_, fun e => ?_⟩
    · exact List.rel_append hreturned (.cons ⟨rfl, rfl⟩ .nil)
    · rw [List.append_assoc, List.singleton_append, ← hq]
      exact hsub e

/-! ## Every run -/

structure Sound (id : ClientID) (s : System) : Prop where
  projects : Projects s
  logged : Logged s
  wired : Wired s
  tracks : Tracks id s
  queued : Queued s

theorem sound_new (id : ClientID) : Sound id .new where
  projects := ⟨[], rfl⟩
  logged := ⟨rfl, nofun, nofun⟩
  wired := ⟨nofun, fun _ _ => ⟨rfl, rfl⟩⟩
  tracks := ⟨fun _ => rfl, fun _ => List.nil_prefix, nofun, nofun⟩
  queued := ⟨[], .nil, fun _ => List.nil_sublist _⟩

theorem Sound.step (h : Sound id s) (hs : Step id s a s') : Sound id s' := by
  obtain ⟨as, hrun⟩ := h.projects
  exact ⟨h.projects.step hs, h.logged.step (Serve.owned_run hrun) hs, h.wired.step hs,
    h.tracks.step h.wired hs, h.queued.step hs⟩

theorem sound_run {acts : List Act} (hrun : exec (step id) .new acts = some s) : Sound id s :=
  exec_invariant_all (fun _ _ _ h hs => h.step (step_cases hs)) acts _ _ (sound_new id) hrun

/-- A writing goroutine takes packets in the order of the `WriteTo` calls. -/
theorem Sound.takenBy_sorted (h : Sound id s) (k : Nat) :
    ((s.takenBy k).map Prod.fst).Pairwise (· < ·) := by
  obtain ⟨as, hrun⟩ := h.projects
  obtain ⟨c, hapart, hbehaves⟩ := Serve.exists_apart hrun
  cases hfirst : ofKey s.taken k with
  | nil => simp [System.takenBy, hfirst]
  | cons e es =>
    -- all of them come from the queue of the first
    have hqueue : ∀ x ∈ ofKey s.taken k, x.1.queue = e.1.queue := by
      intro x hx
      have he : e ∈ ofKey s.taken k := hfirst ▸ List.mem_cons_self
      have hsame := h.logged.oneQueue _ (mem_ofKey.mp hx) _ (mem_ofKey.mp he) rfl
      exact congrArg Lookup.queue hsame
    have hsub : (ofKey s.taken k).Sublist
        (c.received.filter fun x => x.1.queue = e.1.queue) := by
      rw [← hbehaves.received, ← h.logged.received]
      have hfilter := (ofKey_sublist s.taken k).filter fun x => decide (x.1.queue = e.1.queue)
      rwa [List.filter_eq_self.mpr fun x hx => decide_eq_true (hqueue x hx)] at hfilter
    exact (hapart.fifo.taken_sorted e.1.queue).sublist ((hsub.map _).map _)

/-- A packet on a WebSocket of the client was taken by the call at its other end. -/
theorem Sound.mem_carriedOn (h : Sound id s) {d : Nat} {x : Nat × Bytes} (hx : x ∈ s.carriedOn d) :
    ∃ k l, (s.links d).call = some k ∧ (k, l, x) ∈ s.taken ∧ l.addr = id := by
  rw [System.carriedOn] at hx
  cases hcall : (s.links d).call with
  | none =>
    rw [hcall] at hx
    cases hx
  | some k =>
    rw [hcall] at hx
    obtain ⟨c, hc, hid⟩ := h.tracks.call d k hcall
    have htaken := (h.wired.fine k c hc).first.subset hx
    obtain ⟨⟨l, y⟩, hy, rfl⟩ := List.mem_map.mp htaken
    obtain ⟨c', hc', -, haddr, -⟩ := h.logged.owner _ (mem_ofKey.mp hy)
    rw [hc] at hc'
    cases hc'
    exact ⟨k, l, rfl, mem_ofKey.mp hy, haddr.trans hid⟩

theorem Sound.carriedOn_sorted (h : Sound id s) (d : Nat) :
    ((s.carriedOn d).map Prod.fst).Pairwise (· < ·) := by
  rw [System.carriedOn]
  cases hcall : (s.links d).call with
  | none => exact .nil
  | some k =>
    obtain ⟨c, hc, -⟩ := h.tracks.call d k hcall
    exact (h.takenBy_sorted k).sublist ((h.wired.fine k c hc).first.sublist.map _)

/-- No packet is on two WebSockets of the client. -/
theorem Sound.carriedOn_apart (h : Sound id s) {d e : Nat} {x y : Nat × Bytes}
    (hx : x ∈ s.carriedOn d) (hy : y ∈ s.carriedOn e) (hxy : x.1 = y.1) : d = e := by
  obtain ⟨k, l, hd, hk, -⟩ := h.mem_carriedOn hx
  obtain ⟨j, m, he, hj, -⟩ := h.mem_carriedOn hy
  -- the position of a packet is in the log once
  obtain ⟨as, hrun⟩ := h.projects
  have hnodup := Serve.serve_takes_once hrun
  rw [← h.logged.received, List.map_map] at hnodup
  have hsame := List.inj_on_of_nodup_map hnodup hk hj hxy
  cases hsame
  exact h.tracks.apart d e k hd he

/-- What the callers of `ReadFrom` get. An entry of `trace` is the connection a packet came in on,
its position among the packets of `WriteTo`, and the packet. -/
structure Arrives (id : ClientID) (s : System) (trace : List (Nat × Nat × Bytes)) : Prop where
  /-- Each packet is returned whole, up to the buffers of the reading goroutine and the caller. -/
  packets : List.Forall₂
    (fun r t => r.conn = t.1 ∧ r.data = (t.2.2.take packetSize).take r.size) s.returned trace
  /-- It was written to this client. -/
  source : ∀ t ∈ trace, s.server.written[t.2.1]? = some (id, t.2.2)
  /-- No packet comes twice. -/
  once : (trace.map fun t => t.2.1).Nodup
  /-- What comes in on a WebSocket is a part of what the server put on it. -/
  carried : ∀ d, (ofKey trace d).Sublist (s.carriedOn d)
  /-- Packets that come in on one WebSocket come in the order of `WriteTo`. -/
  order : ∀ d, ((ofKey trace d).map Prod.fst).Pairwise (· < ·)

/-- In every run, however many WebSockets the client has and wherever each of them breaks: what
`ReadFrom` returns are packets that were written to the client, each at most once, and in the order
of `WriteTo` for those that come in on one WebSocket. -/
theorem downlink_packets_intact (id : ClientID) (acts : List Act) (s : System)
    (hrun : exec (step id) .new acts = some s) : ∃ trace, Arrives id s trace := by
  have h := sound_run hrun
  obtain ⟨as, hserver⟩ := h.projects
  obtain ⟨packets, hreturned, hsub⟩ := h.queued
  -- the packets returned of one connection are some of those on its WebSocket
  have hpackets : ∀ d, (ofKey packets d).Sublist
      ((s.carriedOn d).map fun x => x.2.take packetSize) := by
    intro d
    have hreturned := (List.sublist_append_left (ofKey packets d)
      (ofKey s.client.recvQueue.buf d)).trans (List.sublist_append_left _ (handOf s.client.conns d))
    rw [← ofKey_append] at hreturned
    have hread := (h.tracks.first d).sublist.map (List.take packetSize)
    rw [List.map_map] at hread
    exact (hreturned.trans (hsub d)).trans hread
  obtain ⟨trace, rfl, hcarried⟩ := exists_sources hpackets
  have hmem : ∀ t ∈ trace, t.2 ∈ s.carriedOn t.1 := fun t ht =>
    (hcarried t.1).subset (mem_ofKey.mpr ht)
  have horder : ∀ d, ((ofKey trace d).map Prod.fst).Pairwise (· < ·) := fun d =>
    (h.carriedOn_sorted d).sublist ((hcarried d).map _)
  refine ⟨trace, ?_, fun t ht => ?_, ?_, hcarried, horder⟩
  · rw [List.forall₂_map_right_iff] at hreturned
    exact hreturned
  · obtain ⟨k, l, -, htaken, haddr⟩ := h.mem_carriedOn (hmem t ht)
    have hreceived : (l, t.2) ∈ s.server.received := by
      rw [← h.logged.received]
      exact List.mem_map_of_mem htaken
    rw [Serve.serve_routed hserver hreceived, haddr]
  · apply QueuePacketConn.nodup_map_of_fibers (f := fun t : Nat × Nat × Bytes => t.1)
    · intro t ht u hu htu
      exact h.carriedOn_apart (hmem t ht) (hmem u hu) htu
    · intro d
      have hsorted := horder d
      rw [ofKey, List.map_map] at hsorted
      exact hsorted.imp fun hlt => Nat.ne_of_lt hlt

/-- The client of the run below. -/
def aClient : ClientID := ⟨[9, 8, 7, 6, 5, 4, 3, 2], rfl⟩

/-- `dialLoop` opens connection `d`, and the server starts call `d` for it. -/
def openLink (d : Nat) : List Act :=
  [.client (.dial .check), .client (.dial (.dialed none)), .accept d, .server (.writer d (.start 0))]

/-- Call `w` of `WriteTo` writes `p`, which call `k` takes and writes. -/
def sendDown (w k : Nat) (p : Bytes) (room : Option Nat) : List Act :=
  [.server (.conn (.writeTo aClient p)), .server (.conn (.lookup w 0)), .server (.conn (.put w)),
    .receive k, .write k room]

/-- `ReadData` on connection `d`. -/
def pullDown (d : Nat) (pieces : List Bytes) : List Act :=
  [.client (.reader d .goOn), .read d pieces .eof]

/-- One packet is returned, the next one is in the hands of the reading goroutine, and a third is
cut with its WebSocket. -/
def firstLink : List Act :=
  openLink 0 ++ sendDown 0 0 [1, 2] none ++ pullDown 0 [[0x82], [1, 2]] ++
    [.client (.reader 0 .queue), .readFrom 10, .server (.writer 0 .goOn)] ++
    sendDown 1 0 [8] none ++ pullDown 0 [[0x81, 8]] ++ [.server (.writer 0 .goOn)] ++
    sendDown 2 0 [3, 4] (some 2)

/-- A write of the client fails, and `dialLoop` gives the connection up. -/
def giveUp : List Act :=
  [.client (.writeTo [0]), .client (.writer 0 .take), .client (.writer 0 (.write (some 0))),
    .client (.dial .writeErr), .client (.dial .closeConn)]

/-- A packet comes in on the next WebSocket and overtakes the one of the old connection. -/
def secondLink : List Act :=
  openLink 1 ++ sendDown 3 1 [5, 6, 7] none ++ pullDown 1 [[0x83, 5], [6, 7]] ++
    [.client (.reader 1 .queue), .client (.reader 0 .queue), .readFrom 2, .readFrom 10]

theorem downlink_packets_intact_redial :
    ∃ s, exec (step aClient) .new (firstLink ++ giveUp ++ secondLink) = some s ∧
      s.returned = [⟨10, 0, [1, 2]⟩, ⟨2, 1, [5, 6]⟩, ⟨10, 0, [8]⟩] ∧
      ∃ trace, Arrives aClient s trace := by
  apply exec_reaches (P := fun s : System =>
    s.returned = [⟨10, 0, [1, 2]⟩, ⟨2, 1, [5, 6]⟩, ⟨10, 0, [8]⟩])
  · decide +kernel
  · intro s hs hreturned
    exact ⟨hreturned, downlink_packets_intact aClient _ s hs⟩

end PTBridge.Snowflake.Downlink
