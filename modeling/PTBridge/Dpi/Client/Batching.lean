import PTBridge.Dpi.Client.TunnelWrite

/-!
# Batches and acknowledgements

What happens to the requests that `pumpWrite` receives: they are put into batches in the order in
which they come, each batch is passed to `SendData` once, and its result is sent to the callers that
are in it.

- `write_origin` and `write_keeps` say what a step does to a call of `Write`.
- `Queued`, `Ledger`, `Filled` and `Acked` are the invariants: where a request is, how the batches
  account for what was received, what the batches contain, and which acknowledgements were sent.
- `write_batching` is assembled from them.
-/

namespace PTBridge.Dpi.TunnelWriter

open PTBridge.Stream PTBridge.Container PTBridge.Transition

variable {s s' : TunnelWriter} {a : Act} {k : Nat} {w w' : WriteCall}

/-! ## What a step does to a call of `Write` -/

/-- How a call of `Write` comes out of a step. -/
structure CallStep (s : TunnelWriter) (a : Act) (k : Nat) (w w' : WriteCall) : Prop where
  data : w'.data = w.data
  queueing : w'.stage = .queueing → w.stage = .queueing
  acked : w'.acked = w.acked ∨
    a = .pump .ack ∧ ∃ err last i, s.pump = .flushing err last i ∧ s.acks[i]? = some k ∧
      w'.acked = w.acked ++ [err]
  returned : ∀ n, w'.stage = .returned (.ok n) → w.stage = .returned (.ok n) ∨
    (n = w.data.length ∧ none ∈ w.acked)

theorem CallStep.refl (s : TunnelWriter) (a : Act) (k : Nat) (w : WriteCall) :
    CallStep s a k w w :=
  ⟨rfl, id, Or.inl rfl, fun _ h => Or.inl h⟩

/-- The calls of a state and its successor, where one call has moved. -/
theorem origin_set {j : Nat} {x x' : WriteCall} (hj : s.writes[j]? = some x)
    (h : (s.writes.set j x')[k]? = some w') (hx : CallStep s a j x x') :
    ∃ w, s.writes[k]? = some w ∧ CallStep s a k w w' := by
  rcases pool_set_some h with ⟨rfl, rfl⟩ | ⟨-, hold⟩
  · exact ⟨x, hj, hx⟩
  · exact ⟨w', hold, .refl s a k w'⟩

/-- A call after a step is a new one, or has moved as `CallStep` says. -/
theorem write_origin (hstep : Step s a s') (h : s'.writes[k]? = some w') :
    (k = s.writes.length ∧ ∃ b, w' = ⟨b, .queueing, []⟩) ∨
      ∃ w, s.writes[k]? = some w ∧ CallStep s a k w w' := by
  have hsame : ∀ {w'}, s.writes[k]? = some w' →
      (k = s.writes.length ∧ ∃ b, w' = ⟨b, .queueing, []⟩) ∨
        ∃ w, s.writes[k]? = some w ∧ CallStep s a k w w' :=
    fun hw => Or.inr ⟨_, hw, .refl s _ k _⟩
  cases hstep with
  | @wrote b =>
    rcases pool_snoc_some h with hold | ⟨hk, rfl⟩
    · exact hsame hold
    · exact Or.inl ⟨hk, b, rfl⟩
  | enqueued hj => exact Or.inr (origin_set hj h ⟨rfl, nofun, Or.inl rfl, nofun⟩)
  | refused hj => exact Or.inr (origin_set hj h ⟨rfl, nofun, Or.inl rfl, nofun⟩)
  | @collected j data err acked r hj hok =>
    refine Or.inr (origin_set hj h ⟨rfl, nofun, Or.inl rfl, fun n hn => Or.inr ?_⟩)
    cases hn
    rcases hok with ⟨hr, rfl⟩ | ⟨e, hr, -⟩
    · cases hr
      exact ⟨rfl, List.mem_cons_self⟩
    · cases hr
  | abandoned hj => exact Or.inr (origin_set hj h ⟨rfl, nofun, Or.inl rfl, nofun⟩)
  | acknowledged hpc hi hj =>
    exact Or.inr (origin_set hj h ⟨rfl, id, Or.inr ⟨rfl, _, _, _, hpc, hi, rfl⟩, fun _ => Or.inl⟩)
  | fired | took | tookFirst | tookFull | tickedEmpty | ticked | stopped | flushLast | issuedData
  | replied | flushedOk | flushedErr | left | closeCalls | entered | passed | closedCh | closedConn
  | closeReplied | closedReader => exact hsame h

/-- No call is lost. -/
theorem length_writes_le (hstep : Step s a s') : s.writes.length ≤ s'.writes.length := by
  cases hstep with
  | wrote => simp
  | enqueued | refused | collected | abandoned | acknowledged =>
    exact (List.length_set).ge
  | fired | took | tookFirst | tookFull | tickedEmpty | ticked | stopped | flushLast | issuedData
  | replied | flushedOk | flushedErr | left | closeCalls | entered | passed | closedCh | closedConn
  | closeReplied | closedReader => exact Nat.le_refl _

theorem write_keeps (hstep : Step s a s') (h : s.writes[k]? = some w) :
    ∃ w', s'.writes[k]? = some w' ∧ CallStep s a k w w' := by
  obtain ⟨hlt, -⟩ := List.getElem?_eq_some_iff.mp h
  have hlt' := Nat.lt_of_lt_of_le hlt (length_writes_le hstep)
  refine ⟨s'.writes[k], List.getElem?_eq_getElem hlt', ?_⟩
  rcases write_origin hstep (List.getElem?_eq_getElem hlt') with ⟨hk, -⟩ | ⟨w₀, hw₀, hcall⟩
  · omega
  · rw [h] at hw₀
    cases hw₀
    exact hcall

theorem dataOf_step (hstep : Step s a s') (h : s.writes[k]? = some w) :
    s'.dataOf k = s.dataOf k := by
  obtain ⟨w', hw', hcall⟩ := write_keeps hstep h
  simp [dataOf, h, hw', hcall.data]

/-! ## Where a request is -/

/-- A request is queued once, by a call that has left its first select. -/
structure Queued (s : TunnelWriter) : Prop where
  nodup : (s.dequeued ++ s.writeCh.buf).Nodup
  call : ∀ k ∈ s.dequeued ++ s.writeCh.buf, ∃ w, s.writes[k]? = some w ∧ w.stage ≠ .queueing

theorem queued_new : Queued .new := ⟨List.nodup_nil, nofun⟩

/-- A step that leaves the requests in their order. -/
theorem Queued.keep (h : Queued s) (hstep : Step s a s')
    (hsame : s'.dequeued ++ s'.writeCh.buf = s.dequeued ++ s.writeCh.buf) : Queued s' := by
  constructor
  · rw [hsame]
    exact h.nodup
  · intro k hk
    rw [hsame] at hk
    obtain ⟨w, hw, hstage⟩ := h.call k hk
    obtain ⟨w', hw', hcall⟩ := write_keeps hstep hw
    exact ⟨w', hw', fun hq => hstage (hcall.queueing hq)⟩

/-- A request that is received goes from the front of the channel to the end of `dequeued`. -/
theorem take_requests {ch : Chan 64 Nat} (hrecv : s.writeCh.recv = some (some k, ch)) :
    (s.take k ch).dequeued ++ (s.take k ch).writeCh.buf = s.dequeued ++ s.writeCh.buf := by
  rw [(Chan.recv_eq_value.mp hrecv).1]
  exact List.append_assoc _ _ _

theorem queued_step (h : Queued s) (hstep : Step s a s') : Queued s' := by
  cases hstep with
  | @enqueued j data acked ch hj hsend =>
    obtain ⟨-, -, hbuf, -⟩ := Chan.send_eq_some.mp hsend
    -- a call at its first select is not queued yet
    have hnew : j ∉ s.dequeued ++ s.writeCh.buf := by
      intro hmem
      obtain ⟨w, hw, hstage⟩ := h.call j hmem
      rw [hj] at hw
      cases hw
      exact hstage rfl
    constructor
    · change (s.dequeued ++ ch.buf).Nodup
      rw [hbuf, ← List.append_assoc]
      exact List.nodup_append_comm.mp (List.nodup_cons.mpr ⟨hnew, h.nodup⟩)
    · intro k hk
      change k ∈ s.dequeued ++ ch.buf at hk
      rw [hbuf, ← List.append_assoc] at hk
      rcases List.mem_append.mp hk with hold | hk
      · obtain ⟨w, hw, hstage⟩ := h.call k hold
        obtain ⟨w', hw', hcall⟩ := write_keeps (.enqueued hj hsend) hw
        exact ⟨w', hw', fun hq => hstage (hcall.queueing hq)⟩
      · cases List.mem_singleton.mp hk
        exact ⟨_, pool_set_self hj, nofun⟩
  | took hpc hrecv hsmall ht =>
    exact h.keep (.took hpc hrecv hsmall ht) (take_requests hrecv)
  | tookFirst hpc hrecv hsmall ht =>
    exact h.keep (.tookFirst hpc hrecv hsmall ht) (take_requests hrecv)
  | tookFull hpc hrecv hfull => exact h.keep (.tookFull hpc hrecv hfull) (take_requests hrecv)
  | wrote => exact h.keep .wrote rfl
  | refused hk hclosed => exact h.keep (.refused hk hclosed) rfl
  | collected hk hok => exact h.keep (.collected hk hok) rfl
  | abandoned hk hclosed => exact h.keep (.abandoned hk hclosed) rfl
  | acknowledged hpc hi hk => exact h.keep (.acknowledged hpc hi hk) rfl
  | fired | tickedEmpty | ticked | stopped | flushLast | issuedData | replied | flushedOk
  | flushedErr | left | closeCalls | entered | passed | closedCh | closedConn | closeReplied
  | closedReader => exact ⟨h.nodup, h.call⟩

/-! ## The batches account for what was received -/

/-- The requests of the batch are those of a call of `SendData`. -/
def busy (s : TunnelWriter) : Bool :=
  match s.pump with
  | .sending _ _ | .flushing _ _ _ => true
  | _ => false

/-- `SendData` has not returned yet. -/
def inSendData (s : TunnelWriter) : Bool :=
  match s.pump with
  | .sending _ _ => true
  | _ => false

/-- What was received is in the batches, in order, and then in the batch that is being filled. -/
structure Ledger (s : TunnelWriter) : Prop where
  order : s.dequeued = s.batches.flatMap Batch.reqs ++ if s.busy then [] else s.acks
  current : s.busy = true → ∃ earlier, s.batches = earlier ++ [⟨s.acks, s.batch⟩]
  results : s.results.length + s.inSendData.toNat = s.batches.length
  verdict : ∀ err last i, s.pump = .flushing err last i → s.results.getLast? = some err

theorem ledger_new : Ledger .new where
  order := rfl
  current := nofun
  results := rfl
  verdict := nofun

/-- A step without a new request or batch. -/
theorem Ledger.advance (h : Ledger s) (hdeq : s'.dequeued = s.dequeued)
    (hbatches : s'.batches = s.batches)
    (hopen : (if s'.busy then [] else s'.acks) = if s.busy then [] else s.acks)
    (hcurrent : s'.busy = true → s.busy = true ∧ s'.acks = s.acks ∧ s'.batch = s.batch)
    (hresults : s'.results.length + s'.inSendData.toNat = s.results.length + s.inSendData.toNat)
    (hverdict : ∀ err last i, s'.pump = .flushing err last i → s'.results.getLast? = some err) :
    Ledger s' := by
  refine ⟨?_, fun hbusy => ?_, ?_, hverdict⟩
  · rw [hdeq, hbatches, hopen]
    exact h.order
  · obtain ⟨hbusy', hacks, hbatch⟩ := hcurrent hbusy
    rw [hbatches, hacks, hbatch]
    exact h.current hbusy'
  · rw [hresults, hbatches]
    exact h.results

/-- A step outside of `pumpWrite`. -/
theorem Ledger.keep (h : Ledger s) (hpump : s'.pump = s.pump) (hacks : s'.acks = s.acks)
    (hbatch : s'.batch = s.batch) (hdeq : s'.dequeued = s.dequeued)
    (hbatches : s'.batches = s.batches) (hresults : s'.results = s.results) : Ledger s' := by
  have hbusy : s'.busy = s.busy := by simp [busy, hpump]
  have hin : s'.inSendData = s.inSendData := by simp [inSendData, hpump]
  apply h.advance hdeq hbatches
  · rw [hbusy, hacks]
  · rw [hbusy]
    exact fun hb => ⟨hb, hacks, hbatch⟩
  · rw [hresults, hin]
  · rw [hpump, hresults]
    exact h.verdict

/-- `pumpWrite` receives a request at the select. -/
theorem Ledger.take (h : Ledger s) (hpc : s.pump = .top) (k : Nat) (ch : Chan 64 Nat) :
    Ledger (s.take k ch) := by
  have htop : s.busy = false := by simp [busy, hpc]
  have htop' : (s.take k ch).busy = false := htop
  constructor
  · have horder := h.order
    rw [htop] at horder
    rw [htop']
    change s.dequeued ++ [k] = s.batches.flatMap Batch.reqs ++ (s.acks ++ [k])
    rw [horder]
    exact List.append_assoc _ _ _
  · rw [htop']
    nofun
  · exact h.results
  · exact h.verdict

/-- `SendData` is called from the select. -/
theorem Ledger.sendBatch (h : Ledger s) (hpc : s.pump = .top) (last : Bool) :
    Ledger (s.sendBatch last) := by
  have htop : s.busy = false := by simp [busy, hpc]
  have hin : s.inSendData = false := by simp [inSendData, hpc]
  constructor
  · have horder := h.order
    rw [htop] at horder
    change s.dequeued = (s.batches ++ [(⟨s.acks, s.batch⟩ : Batch)]).flatMap Batch.reqs ++ []
    rw [horder]
    simp
  · exact fun _ => ⟨s.batches, rfl⟩
  · have hresults := h.results
    rw [hin] at hresults
    change s.results.length + 1 = (s.batches ++ [(⟨s.acks, s.batch⟩ : Batch)]).length
    rw [List.length_append, ← hresults]
    rfl
  · nofun

theorem ledger_step (h : Ledger s) (hstep : Step s a s') : Ledger s' := by
  cases hstep with
  | wrote | enqueued | refused | collected | abandoned | fired | closeCalls | entered | passed
  | closedCh | closedConn | closeReplied | closedReader => exact h.keep rfl rfl rfl rfl rfl rfl
  | took hpc => exact h.take hpc _ _
  | @tookFirst k ch hpc => exact (h.take hpc k ch).keep rfl rfl rfl rfl rfl rfl
  | tookFull hpc => exact (h.take hpc _ _).sendBatch hpc false
  | tickedEmpty => exact h.keep rfl rfl rfl rfl rfl rfl
  | ticked hpc =>
    have hspent : Ledger { s with timer := .spent } := h.keep rfl rfl rfl rfl rfl rfl
    exact hspent.sendBatch hpc false
  | flushLast hpc => exact h.sendBatch hpc true
  | stopped hpc =>
    exact h.advance rfl rfl (by simp [busy, hpc]) nofun (by simp [inSendData, hpc]) nofun
  | issuedData hpc =>
    exact h.advance rfl rfl (by simp [busy, hpc]) (fun _ => ⟨by simp [busy, hpc], rfl, rfl⟩)
      (by simp [inSendData, hpc]) nofun
  | @replied isOut last err hpc =>
    refine h.advance rfl rfl (by simp [busy, hpc]) (fun _ => ⟨by simp [busy, hpc], rfl, rfl⟩)
      (by simp [inSendData, hpc]) ?_
    intro err' last' i hflush
    cases hflush
    exact List.getLast?_concat
  | acknowledged hpc =>
    refine h.advance rfl rfl (by simp [busy, hpc])
      (fun _ => ⟨by simp [busy, hpc], rfl, rfl⟩) (by simp [inSendData, hpc, setWrite]) ?_
    intro err' last' i hflush
    cases hflush
    exact h.verdict _ _ _ hpc
  | flushedOk hpc hi hnext =>
    rcases hnext with rfl | rfl
    · exact h.advance rfl rfl (by simp [busy, hpc, reset]) nofun
        (by simp [inSendData, hpc, reset]) nofun
    · exact h.advance rfl rfl (by simp [busy, hpc, reset]) nofun
        (by simp [inSendData, hpc, reset]) nofun
  | flushedErr hpc =>
    exact h.advance rfl rfl (by simp [busy, hpc, reset]) nofun (by simp [inSendData, hpc, reset])
      nofun
  | left hpc =>
    exact h.advance rfl rfl (by simp [busy, hpc]) nofun (by simp [inSendData, hpc]) nofun

theorem Ledger.mem_of_reqs (h : Ledger s) {b : Batch} (hb : b ∈ s.batches) (hk : k ∈ b.reqs) :
    k ∈ s.dequeued := by
  rw [h.order]
  exact List.mem_append_left _ (List.mem_flatMap.mpr ⟨b, hb, hk⟩)

/-- The requests of the current batch are the last ones received. -/
theorem Ledger.acks_suffix (h : Ledger s) : ∃ earlier, s.dequeued = earlier ++ s.acks := by
  have horder := h.order
  cases hbusy : s.busy with
  | false =>
    rw [hbusy] at horder
    exact ⟨_, horder⟩
  | true =>
    obtain ⟨earlier, hbatches⟩ := h.current hbusy
    rw [hbusy, hbatches] at horder
    exact ⟨earlier.flatMap Batch.reqs, by simpa using horder⟩

theorem Ledger.mem_of_acks (h : Ledger s) (hk : k ∈ s.acks) : k ∈ s.dequeued := by
  obtain ⟨earlier, heq⟩ := h.acks_suffix
  rw [heq]
  exact List.mem_append_right _ hk

theorem Ledger.acks_nodup (h : Ledger s) (hq : Queued s) : s.acks.Nodup := by
  obtain ⟨earlier, heq⟩ := h.acks_suffix
  have hnodup := hq.nodup.of_append_left
  rw [heq] at hnodup
  exact hnodup.of_append_right

/-- While the acknowledgements are sent, the current batch is the last one, and `err` its result. -/
theorem Ledger.verdict_at (h : Ledger s) {err : Option TransportError} {last : Bool} {i : Nat}
    (hpc : s.pump = .flushing err last i) :
    ∃ j : Nat, s.batches[j]? = some ⟨s.acks, s.batch⟩ ∧ s.results[j]? = some err := by
  have hbusy : s.busy = true := by simp [busy, hpc]
  have hin : s.inSendData = false := by simp [inSendData, hpc]
  obtain ⟨earlier, hbatches⟩ := h.current hbusy
  have hlen := h.results
  have hlast := h.verdict err last i hpc
  rw [hin, hbatches, List.length_append] at hlen
  refine ⟨earlier.length, ?_, ?_⟩
  · rw [hbatches]
    exact List.getElem?_concat_length
  · rw [List.getLast?_eq_getElem?] at hlast
    rw [← hlast]
    congr 1
    simp at hlen
    omega

/-! ## What the batches contain -/

structure Filled (s : TunnelWriter) : Prop where
  payload : ∀ b ∈ s.batches, b.payload = b.reqs.flatMap s.dataOf
  batch : s.batch = s.acks.flatMap s.dataOf

theorem filled_new : Filled .new := ⟨nofun, rfl⟩

/-- A step of a caller, which leaves the data of the requests as it is. -/
theorem Filled.keep (h : Filled s) (hq : Queued s) (hl : Ledger s) (hstep : Step s a s')
    (hbatches : s'.batches = s.batches) (hacks : s'.acks = s.acks) (hbatch : s'.batch = s.batch) :
    Filled s' := by
  have hdata : ∀ k ∈ s.dequeued, s'.dataOf k = s.dataOf k := by
    intro k hk
    obtain ⟨w, hw, -⟩ := hq.call k (List.mem_append_left _ hk)
    exact dataOf_step hstep hw
  constructor
  · intro b hb
    rw [hbatches] at hb
    rw [h.payload b hb]
    exact List.flatMap_congr fun k hk => (hdata k (hl.mem_of_reqs hb hk)).symm
  · rw [hbatch, hacks, h.batch]
    exact List.flatMap_congr fun k hk => (hdata k (hl.mem_of_acks hk)).symm

theorem Filled.take (h : Filled s) (k : Nat) (ch : Chan 64 Nat) : Filled (s.take k ch) := by
  refine ⟨h.payload, ?_⟩
  change s.batch ++ s.dataOf k = (s.acks ++ [k]).flatMap s.dataOf
  rw [List.flatMap_append, ← h.batch, List.flatMap_singleton]

theorem Filled.sendBatch (h : Filled s) (last : Bool) : Filled (s.sendBatch last) := by
  refine ⟨fun b hb => ?_, h.batch⟩
  rcases List.mem_append.mp hb with hold | hnew
  · exact h.payload b hold
  · rw [List.mem_singleton.mp hnew]
    exact h.batch

theorem filled_step (h : Filled s) (hq : Queued s) (hl : Ledger s) (hstep : Step s a s') :
    Filled s' := by
  cases hstep with
  | wrote => exact h.keep hq hl .wrote rfl rfl rfl
  | enqueued hk hsend => exact h.keep hq hl (.enqueued hk hsend) rfl rfl rfl
  | refused hk hclosed => exact h.keep hq hl (.refused hk hclosed) rfl rfl rfl
  | collected hk hok => exact h.keep hq hl (.collected hk hok) rfl rfl rfl
  | abandoned hk hclosed => exact h.keep hq hl (.abandoned hk hclosed) rfl rfl rfl
  | acknowledged hpc hi hk => exact h.keep hq hl (.acknowledged hpc hi hk) rfl rfl rfl
  | took => exact h.take _ _
  | @tookFirst k ch => exact ⟨(h.take k ch).payload, (h.take k ch).batch⟩
  | tookFull => exact (h.take _ _).sendBatch false
  | ticked =>
    have hspent : Filled { s with timer := .spent } := ⟨h.payload, h.batch⟩
    exact hspent.sendBatch false
  | flushLast => exact h.sendBatch true
  | flushedOk => exact ⟨h.payload, rfl⟩
  | flushedErr => exact ⟨h.payload, rfl⟩
  | fired | tickedEmpty | stopped | issuedData | replied | left | closeCalls | entered | passed
  | closedCh | closedConn | closeReplied | closedReader => exact ⟨h.payload, h.batch⟩

/-! ## Acknowledgements -/

/-- The requests of the current batch that have no acknowledgement yet. -/
def owed (s : TunnelWriter) : List Nat :=
  match s.pump with
  | .flushing _ _ i => s.acks.drop i
  | _ => s.acks

/-- `SendData` was called with a batch that has request `k` in it, and returned `err`. -/
def Fate (s : TunnelWriter) (k : Nat) (err : Option TransportError) : Prop :=
  ∃ (j : Nat) (b : Batch), s.batches[j]? = some b ∧ k ∈ b.reqs ∧ s.results[j]? = some err

structure Acked (s : TunnelWriter) : Prop where
  settled : ∀ (k : Nat) (w : WriteCall), s.writes[k]? = some w → w.acked ≠ [] →
    k ∈ s.dequeued ∧ k ∉ s.owed
  truthful : ∀ (k : Nat) (w : WriteCall), s.writes[k]? = some w → w.acked = [] ∨
    ∃ err, w.acked = [err] ∧ s.Fate k err
  returned : ∀ (k : Nat) (w : WriteCall) (n : Nat), s.writes[k]? = some w →
    w.stage = .returned (.ok n) → n = w.data.length ∧ none ∈ w.acked

theorem acked_new : Acked .new where
  settled := nofun
  truthful := nofun
  returned := nofun

/-- The logs only grow. -/
theorem logs_step (hstep : Step s a s') :
    s.batches <+: s'.batches ∧ s.results <+: s'.results ∧ s.dequeued <+: s'.dequeued := by
  have hrefl : s.batches <+: s.batches ∧ s.results <+: s.results ∧ s.dequeued <+: s.dequeued :=
    ⟨List.prefix_rfl, List.prefix_rfl, List.prefix_rfl⟩
  cases hstep with
  | took | tookFirst => exact ⟨List.prefix_rfl, List.prefix_rfl, List.prefix_append _ _⟩
  | tookFull => exact ⟨List.prefix_append _ _, List.prefix_rfl, List.prefix_append _ _⟩
  | ticked | flushLast => exact ⟨List.prefix_append _ _, List.prefix_rfl, List.prefix_rfl⟩
  | replied => exact ⟨List.prefix_rfl, List.prefix_append _ _, List.prefix_rfl⟩
  | wrote | enqueued | refused | collected | abandoned | fired | tickedEmpty | stopped | issuedData
  | acknowledged | flushedOk | flushedErr | left | closeCalls | entered | passed | closedCh
  | closedConn | closeReplied | closedReader => exact hrefl

/-- A request that was received and is not owed an acknowledgement is owed none after a step. -/
theorem owed_step (hq : Queued s) (hstep : Step s a s') (hk : k ∈ s.dequeued) (hno : k ∉ s.owed) :
    k ∉ s'.owed := by
  -- a request that comes in now was not received before
  have htake : ∀ {j ch}, s.pump = .top → s.writeCh.recv = some (some j, ch) → k ∉ s.acks ++ [j] := by
    intro j ch hpc hrecv hmem
    have hacks : k ∉ s.acks := by simpa [owed, hpc] using hno
    rcases List.mem_append.mp hmem with hold | hnew
    · exact hacks hold
    · cases List.mem_singleton.mp hnew
      have hbuf : k ∈ s.writeCh.buf := by
        rw [(Chan.recv_eq_value.mp hrecv).1]
        exact List.mem_cons_self
      exact (List.nodup_append.mp hq.nodup).2.2 k hk k hbuf rfl
  cases hstep with
  | took hpc hrecv => simpa [owed, TunnelWriter.take, hpc] using htake hpc hrecv
  | tookFirst hpc hrecv => simpa [owed, TunnelWriter.take, hpc] using htake hpc hrecv
  | tookFull hpc hrecv =>
    simpa [owed, TunnelWriter.take, TunnelWriter.sendBatch] using htake hpc hrecv
  | ticked hpc => simpa [owed, TunnelWriter.sendBatch, hpc] using hno
  | flushLast hpc => simpa [owed, TunnelWriter.sendBatch, hpc] using hno
  | tickedEmpty hpc => simpa [owed, hpc] using hno
  | stopped hpc => simpa [owed, hpc] using hno
  | issuedData hpc => simpa [owed, hpc] using hno
  | replied hpc => simpa [owed, hpc] using hno
  | @acknowledged err last i j w hpc =>
    have hdrop : k ∉ s.acks.drop i := by simpa [owed, hpc] using hno
    change k ∉ s.acks.drop (i + 1)
    rw [← List.drop_drop]
    exact fun hmem => hdrop (List.mem_of_mem_drop hmem)
  | flushedOk hpc hi hnext => rcases hnext with rfl | rfl <;> exact List.not_mem_nil
  | flushedErr => exact List.not_mem_nil
  | left hpc => simpa [owed, hpc] using hno
  | wrote | enqueued | refused | collected | abandoned | fired | closeCalls | entered | passed
  | closedCh | closedConn | closeReplied | closedReader => exact hno

theorem acked_step (h : Acked s) (hq : Queued s) (hl : Ledger s) (hstep : Step s a s') :
    Acked s' := by
  obtain ⟨hbatches, hresults, hdeq⟩ := logs_step hstep
  -- what was said of an acknowledgement stays true
  have hkeep : ∀ {k err}, s.Fate k err → s'.Fate k err := by
    rintro k err ⟨j, b, hb, hk, herr⟩
    exact ⟨j, b, pool_grown hbatches hb, hk, pool_grown hresults herr⟩
  -- the request at the head of those owed has no acknowledgement yet
  have hfresh : ∀ {err last i k w}, s.pump = .flushing err last i → s.acks[i]? = some k →
      s.writes[k]? = some w → w.acked = [] := by
    intro err last i k w hpc hi hw
    by_contra hne
    obtain ⟨-, hno⟩ := h.settled k w hw hne
    apply hno
    have howed : s.owed = s.acks.drop i := by simp [owed, hpc]
    rw [howed]
    exact List.mem_iff_getElem?.mpr ⟨0, by simpa using hi⟩
  constructor
  · intro k w' hw' hne
    rcases write_origin hstep hw' with ⟨-, b, rfl⟩ | ⟨w, hw, hcall⟩
    · exact absurd rfl hne
    · rcases hcall.acked with hsame | ⟨rfl, err, last, i, hpc, hi, -⟩
      · rw [hsame] at hne
        obtain ⟨hk, hno⟩ := h.settled k w hw hne
        exact ⟨hdeq.subset hk, owed_step hq hstep hk hno⟩
      · -- the acknowledgement is sent now, and once
        cases hstep with
        | acknowledged hpc' hi' hw'' =>
          rw [hpc] at hpc'
          cases hpc'
          refine ⟨hl.mem_of_acks (List.mem_of_getElem? hi), ?_⟩
          change k ∉ s.acks.drop (i + 1)
          exact pool_nodup_drop (hl.acks_nodup hq) hi
  · intro k w' hw'
    rcases write_origin hstep hw' with ⟨-, b, rfl⟩ | ⟨w, hw, hcall⟩
    · exact Or.inl rfl
    · rcases hcall.acked with hsame | ⟨rfl, err, last, i, hpc, hi, happ⟩
      · rw [hsame]
        rcases h.truthful k w hw with hnil | ⟨err, hack, hfate⟩
        · exact Or.inl hnil
        · exact Or.inr ⟨err, hack, hkeep hfate⟩
      · obtain ⟨j, hb, herr⟩ := hl.verdict_at hpc
        have hfate : s.Fate k err := ⟨j, _, hb, List.mem_of_getElem? hi, herr⟩
        rw [happ, hfresh hpc hi hw]
        exact Or.inr ⟨err, rfl, hkeep hfate⟩
  · intro k w' n hw' hstage
    rcases write_origin hstep hw' with ⟨-, b, rfl⟩ | ⟨w, hw, hcall⟩
    · cases hstage
    · have hmem : none ∈ w.acked → none ∈ w'.acked := by
        rcases hcall.acked with hsame | ⟨-, err, last, i, -, -, happ⟩
        · rw [hsame]
          exact id
        · rw [happ]
          exact List.mem_append_left _
      rw [hcall.data]
      rcases hcall.returned n hstage with hold | ⟨hn, hnone⟩
      · obtain ⟨hn, hnone⟩ := h.returned k w n hw hold
        exact ⟨hn, hmem hnone⟩
      · exact ⟨hn, hmem hnone⟩

/-! ## Whole runs -/

/-- The four invariants together. -/
structure Batched (s : TunnelWriter) : Prop where
  queued : Queued s
  ledger : Ledger s
  filled : Filled s
  acked : Acked s

theorem batched_new : Batched .new := ⟨queued_new, ledger_new, filled_new, acked_new⟩

theorem Batched.step (h : Batched s) (hstep : Step s a s') : Batched s' where
  queued := queued_step h.queued hstep
  ledger := ledger_step h.ledger hstep
  filled := filled_step h.filled h.queued h.ledger hstep
  acked := acked_step h.acked h.queued h.ledger hstep

theorem batched_run {acts : List Act} (hrun : exec TunnelWriter.step .new acts = some s) :
    Batched s :=
  exec_invariant_all (fun _ _ _ h hs => h.step (step_cases hs)) acts _ _ batched_new hrun

/-- A call that has returned success was in a batch for which `SendData` returned nil. -/
theorem Batched.fate (h : Batched s) {n : Nat} (hk : s.writes[k]? = some w)
    (hstage : w.stage = .returned (.ok n)) : n = w.data.length ∧ s.Fate k none := by
  obtain ⟨hn, hnone⟩ := h.acked.returned k w n hk hstage
  refine ⟨hn, ?_⟩
  rcases h.acked.truthful k w hk with hnil | ⟨err, hone, hfate⟩
  · rw [hnil] at hnone
    cases hnone
  · rw [hone] at hnone
    cases List.mem_singleton.mp hnone
    exact hfate

/-- Batching preserves the order and acknowledges truthfully. The batches passed to `SendData` hold
the requests in the order in which they were received, each request once and with its bytes
together; every acknowledgement is sent at most once; and a `Write` that returns success was in a
batch for which `SendData` returned nil. -/
theorem write_batching (acts : List Act) (s : TunnelWriter) (hrun : exec step .new acts = some s) :
    s.batches.flatMap Batch.reqs <+: s.dequeued ∧ s.dequeued.Nodup ∧
      (∀ b ∈ s.batches, b.payload = b.reqs.flatMap s.dataOf) ∧
      s.batches.flatMap Batch.payload = (s.batches.flatMap Batch.reqs).flatMap s.dataOf ∧
      (∀ w ∈ s.writes, w.acked.length ≤ 1) ∧
      ∀ (k : Nat) (w : WriteCall) (n : Nat), s.writes[k]? = some w →
        w.stage = .returned (.ok n) → n = w.data.length ∧ s.Fate k none := by
  have h := batched_run hrun
  refine ⟨?_, h.queued.nodup.of_append_left, h.filled.payload, ?_, fun w hw => ?_, ?_⟩
  · rw [h.ledger.order]
    exact List.prefix_append _ _
  · rw [List.flatMap_assoc]
    exact List.flatMap_congr h.filled.payload
  · obtain ⟨k, hk⟩ := List.mem_iff_getElem?.mp hw
    rcases h.acked.truthful k w hk with hnil | ⟨err, hone, -⟩
    · simp [hnil]
    · simp [hone]
  · exact fun k w n hk hstage => h.fate hk hstage

/-- Two writes, of two bytes and of one, that share a batch. -/
def twoWrites : List Act :=
  [.write [1, 2], .write [3], .enqueue 1, .enqueue 0, .pump .recv, .pump .recv, .fire, .pump .tick,
    .pump .issue, .pump (.reply none), .pump .ack, .pump .ack, .pump .flushed, .collect 0]

theorem write_batching_two :
    ∃ s, exec step .new twoWrites = some s ∧ s.batches = [⟨[1, 0], [3, 1, 2]⟩] ∧
      s.batches.flatMap Batch.reqs <+: s.dequeued ∧ s.writes[0]? =
        some ⟨[1, 2], .returned (.ok 2), [none]⟩ ∧ s.Fate 0 none := by
  apply exec_reaches (P := fun s : TunnelWriter => s.batches = [⟨[1, 0], [3, 1, 2]⟩] ∧
    s.writes[0]? = some ⟨[1, 2], .returned (.ok 2), [none]⟩)
  · decide +kernel
  · rintro s hs ⟨hbatches, hwrite⟩
    obtain ⟨horder, -, -, -, -, hreturned⟩ := write_batching _ s hs
    exact ⟨hbatches, horder, hwrite, (hreturned 0 _ 2 hwrite rfl).2⟩

end PTBridge.Dpi.TunnelWriter
