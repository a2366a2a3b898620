import PTBridge.Dpi.Client.TunnelWrite

/-!
# Upload data and the close of its connection

`Close` sends the close request from its caller's goroutine, while `pumpWrite` notices `closeCh` in
its own and flushes what it has collected. Nothing orders the two requests.

- `CloseLast` says that no data request went out after a close request.
- `Pending` says that `pumpWrite` has data to send, or is about to.
- `close_after_data`: it is enough that no close request goes out while data is pending, and that
  `pumpWrite` collects no more data afterwards. `pending_data_can_follow_close` says that otherwise
  the data can go out.
-/

namespace PTBridge.Dpi.TunnelWriter

open PTBridge.Stream PTBridge.Container PTBridge.Transition

/-- No data after a close. -/
def CloseLast (issued : List Msg) : Prop :=
  issued.Pairwise fun m m' => m = .close → ∀ payload, m' ≠ .data payload

/-- `pumpWrite` has a batch that it has not begun to send, or whose request is not out yet. -/
def Pending (s : TunnelWriter) : Prop :=
  match s.pump with
  | .top => s.batch ≠ []
  | .sending false _ => True
  | _ => False

/-- A close request goes out only when no data is pending, and after one only empty requests are
received. -/
def ClosesDrained (s : TunnelWriter) : Act → Prop
  | .closer _ (.conn isOut) => isOut = true → ¬ s.Pending
  | .pump .recv => .close ∈ s.issued → ∀ k ∈ s.writeCh.buf.head?, s.dataOf k = []
  | _ => True

instance (s : TunnelWriter) : Decidable s.Pending :=
  match h : s.pump with
  | .top => decidable_of_iff (s.batch ≠ []) (by simp [Pending, h])
  | .sending false _ => isTrue (by simp [Pending, h])
  | .sending true _ => isFalse (by simp [Pending, h])
  | .flushing _ _ _ => isFalse (by simp [Pending, h])
  | .closing _ => isFalse (by simp [Pending, h])
  | .done => isFalse (by simp [Pending, h])

instance (s : TunnelWriter) : ∀ a, Decidable (ClosesDrained s a)
  | .closer _ (.conn isOut) => inferInstanceAs (Decidable (isOut = true → ¬ s.Pending))
  | .pump .recv =>
      inferInstanceAs
        (Decidable (.close ∈ s.issued → ∀ k ∈ s.writeCh.buf.head?, s.dataOf k = []))
  | .closer _ .enter | .closer _ .closeCh | .closer _ .reply | .closer _ .reader => isTrue trivial
  | .pump .tick | .pump .closed | .pump .issue | .pump (.reply _) | .pump .ack
  | .pump .flushed | .pump .leave => isTrue trivial
  | .write _ | .enqueue _ | .refuse _ | .collect _ | .abandon _ | .fire | .close => isTrue trivial

variable {s s' : TunnelWriter} {a : Act}

theorem closeLast_data {issued : List Msg} {payload : Bytes} (h : CloseLast issued)
    (hno : .close ∉ issued) : CloseLast (issued ++ [.data payload]) := by
  apply List.pairwise_append.mpr
  refine ⟨h, List.pairwise_singleton _ _, fun m hm m' _ hclose => ?_⟩
  subst hclose
  exact absurd hm hno

theorem closeLast_close {issued : List Msg} (h : CloseLast issued) :
    CloseLast (issued ++ [.close]) := by
  apply List.pairwise_append.mpr
  refine ⟨h, List.pairwise_singleton _ _, fun m _ m' hm' _ payload => ?_⟩
  rw [List.mem_singleton.mp hm']
  nofun

/-- Once a close request is out, nothing is pending any more. -/
structure Ordered (s : TunnelWriter) : Prop where
  order : CloseLast s.issued
  drained : .close ∈ s.issued → ¬ s.Pending

theorem ordered_new : Ordered .new := ⟨List.Pairwise.nil, nofun⟩

/-- A step that sends no request and leaves nothing pending that was not. -/
theorem Ordered.keep (h : Ordered s) (hissued : s'.issued = s.issued)
    (hpending : s'.Pending → s.Pending) : Ordered s' := by
  constructor
  · rw [hissued]
    exact h.order
  · rw [hissued]
    exact fun hclose hp => h.drained hclose (hpending hp)

/-- Receiving a request with a batch that is empty, and stays empty after a close. -/
theorem Ordered.take (h : Ordered s) (hpc : s.pump = .top) {k : Nat} {ch : Chan 64 Nat}
    (hrecv : s.writeCh.recv = some (some k, ch)) (hok : ClosesDrained s (.pump .recv))
    (hclose : .close ∈ s.issued) : (s.take k ch).batch = [] := by
  have hempty : s.batch = [] := by
    have hnot := h.drained hclose
    simpa [Pending, hpc] using hnot
  have hhead : s.writeCh.buf.head? = some k := by
    rw [(Chan.recv_eq_value.mp hrecv).1]
    rfl
  have hdata : s.dataOf k = [] := hok hclose k hhead
  change s.batch ++ s.dataOf k = []
  rw [hempty, hdata, List.append_nil]

theorem ordered_step (h : Ordered s) (hok : ClosesDrained s a) (hstep : Step s a s') :
    Ordered s' := by
  cases hstep with
  | wrote | enqueued | refused | collected | abandoned | fired => exact h.keep rfl id
  | took hpc hrecv =>
    refine ⟨h.order, fun hclose => ?_⟩
    have hempty := h.take hpc hrecv hok hclose
    change ¬ Pending (s.take _ _)
    simp [Pending, show (s.take _ _).pump = .top from hpc, hempty]
  | tookFirst hpc hrecv =>
    refine ⟨h.order, fun hclose => ?_⟩
    have hempty := h.take hpc hrecv hok hclose
    simp [Pending, show (s.take _ _).pump = .top from hpc, hempty]
  | tookFull hpc hrecv hfull =>
    refine ⟨h.order, fun hclose => ?_⟩
    have hempty := h.take hpc hrecv hok hclose
    rw [hempty] at hfull
    cases hfull
  | tickedEmpty => exact h.keep rfl id
  | ticked hpc ht hbatch => exact h.keep rfl fun _ => by simpa [Pending, hpc] using hbatch
  | stopped => exact h.keep rfl False.elim
  | flushLast hpc hclosed hbatch =>
    exact h.keep rfl fun _ => by simpa [Pending, hpc] using hbatch
  | issuedData hpc =>
    have hpending : s.Pending := by simp [Pending, hpc]
    have hno : .close ∉ s.issued := fun hclose => h.drained hclose hpending
    exact ⟨closeLast_data h.order hno, fun _ => not_false⟩
  | replied => exact h.keep rfl False.elim
  | acknowledged => exact h.keep rfl False.elim
  | flushedOk hpc hi hnext =>
    rcases hnext with rfl | rfl
    · exact h.keep rfl False.elim
    · exact h.keep rfl fun hp => absurd rfl hp
  | flushedErr => exact h.keep rfl False.elim
  | left => exact h.keep rfl False.elim
  | closeCalls | entered | passed | closedCh | closeReplied | closedReader => exact h.keep rfl id
  | @closedConn k isOut hk =>
    cases isOut with
    | false => exact h.keep rfl id
    | true => exact ⟨closeLast_close h.order, fun _ => hok rfl⟩

/-- If close requests go out with nothing pending and no data is collected behind them, no data
request follows a close request. -/
theorem close_after_data (acts : List Act) (s : TunnelWriter)
    (hok : Meets step ClosesDrained .new acts) (hrun : exec step .new acts = some s) :
    CloseLast s.issued := by
  have hordered : Ordered s :=
    exec_invariant (fun _ _ _ h ho hs => ordered_step h ho (step_cases hs)) acts _ _ ordered_new
      hok hrun
  exact hordered.order

/-- The `Close` of caller `k`, to the end. -/
def closing (k : Nat) : List Act :=
  [.closer k .enter, .closer k .closeCh, .closer k (.conn true), .closer k .reply,
    .closer k .reader]

/-- A `Write` of one byte, received by `pumpWrite`. -/
def writeOne : List Act := [.write [7], .enqueue 0, .pump .recv]

/-- The byte is sent when the timer ticks. -/
def tickOne : List Act :=
  [.fire, .pump .tick, .pump .issue, .pump (.reply none), .pump .ack, .pump .flushed, .collect 0]

/-- The connection is closed after the batch is sent. -/
theorem close_after_data_sequential :
    ∃ s, exec step .new (writeOne ++ tickOne ++ [.close] ++ closing 0 ++ [.pump .closed]) = some s ∧
      s.issued = [.data [7], .close] ∧ CloseLast s.issued := by
  apply exec_reaches (P := fun s : TunnelWriter => s.issued = [.data [7], .close])
  · decide +kernel
  · intro s hs hissued
    exact ⟨hissued, close_after_data _ s (by decide +kernel) hs⟩

/-- `Close` tells the server while the byte is still in the batch, and `pumpWrite` sends the byte
after that. -/
theorem flush_follows_close :
    ∃ s, exec step .new (writeOne ++ [.close] ++ closing 0 ++ [.pump .closed, .pump .issue]) =
        some s ∧
      s.issued = [.close, .data [7]] ∧ ¬ CloseLast s.issued := by
  apply exec_reaches (P := fun s : TunnelWriter => s.issued = [.close, .data [7]])
  · decide +kernel
  · intro s hs hissued
    refine ⟨hissued, fun hlast => ?_⟩
    rw [hissued] at hlast
    exact (List.pairwise_cons.mp hlast).1 _ List.mem_cons_self rfl [7] rfl

/-! ## The condition is needed -/

/-- Data that is pending when a close request is out can still be sent. -/
theorem pending_data_can_follow_close {acts : List Act} (hrun : exec step .new acts = some s)
    (hclose : .close ∈ s.issued) (hpending : s.Pending) :
    ∃ more s', exec step s more = some s' ∧ ¬ CloseLast s'.issued := by
  have hch : s.closeCh = true := (closeOk_run hrun).out hclose
  -- from any such state the request goes out behind the close
  have hissue : ∀ (u : TunnelWriter) (last : Bool), u.pump = .sending false last →
      u.issued = s.issued → ∃ u', step u (.pump .issue) = some u' ∧ ¬ CloseLast u'.issued := by
    intro u last hpc hissued
    refine ⟨{ u with pump := .sending true last, issued := u.issued ++ [.data u.batch] }, ?_, ?_⟩
    · simp only [step, pumpStep, hpc]
    · intro hlast
      have hcross := (List.pairwise_append.mp hlast).2.2
      exact hcross _ (hissued ▸ hclose) _ List.mem_cons_self rfl u.batch rfl
  cases hpc : s.pump with
  | top =>
    -- the flush after `closeCh`
    have hbatch : s.batch ≠ [] := by simpa [Pending, hpc] using hpending
    have hflush : step s (.pump .closed) = some (s.sendBatch true) := by
      simp only [step, pumpStep, hpc, hch, hbatch, ↓reduceIte]
    obtain ⟨u', hu', hbad⟩ := hissue (s.sendBatch true) true rfl rfl
    refine ⟨[.pump .closed, .pump .issue], u', ?_, hbad⟩
    exact exec_cons_some.mpr ⟨_, hflush, exec_cons_some.mpr ⟨u', hu', rfl⟩⟩
  | sending isOut last =>
    cases isOut with
    | false =>
      obtain ⟨u', hu', hbad⟩ := hissue s last hpc rfl
      exact ⟨[.pump .issue], u', exec_cons_some.mpr ⟨u', hu', rfl⟩, hbad⟩
    | true => simp [Pending, hpc] at hpending
  | flushing | closing | done => simp [Pending, hpc] at hpending

end PTBridge.Dpi.TunnelWriter
