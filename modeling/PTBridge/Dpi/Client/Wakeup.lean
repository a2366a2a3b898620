import PTBridge.Dpi.Client.TunnelWrite

/-!
# The wake-up of `pumpWrite`

A request that `pumpWrite` has received is acknowledged by a flush, and the flush comes from the
timer unless the batch fills up first. The timer is armed only while it is nil, and only a flush
sets it to nil; a tick that finds the batch empty flushes nothing.

- `Wakes`: at the select, requests without acknowledgement have a timer that is still to tick.
- `Armed` is the invariant of runs whose ticks find data, and `pumpWrite_wakes` follows from it.
- `empty_tick_loses_wakeup`: a tick that finds the batch empty always breaks it.
-/

namespace PTBridge.Dpi.TunnelWriter

open PTBridge.Container PTBridge.Transition

/-- At the select, unacknowledged requests or a batch come with a timer that has not delivered its
tick. -/
def Wakes (s : TunnelWriter) : Prop :=
  s.pump = .top → s.acks ≠ [] ∨ s.batch ≠ [] → s.timer = .armed ∨ s.timer = .fired

/-- The tick is received with data in the batch. -/
def TicksFull (s : TunnelWriter) : Act → Prop
  | .pump .tick => s.batch ≠ []
  | _ => True

instance (s : TunnelWriter) : ∀ a, Decidable (TicksFull s a)
  | .pump .tick => inferInstanceAs (Decidable (s.batch ≠ []))
  | .pump .recv | .pump .closed | .pump .issue | .pump (.reply _) | .pump .ack | .pump .flushed
  | .pump .leave => isTrue trivial
  | .write _ | .enqueue _ | .refuse _ | .collect _ | .abandon _ | .fire | .close | .closer _ _ =>
      isTrue trivial

variable {s s' : TunnelWriter} {a : Act}

/-- Without requests there is nothing to send and no timer. -/
structure Idle (s : TunnelWriter) : Prop where
  batch : s.pump = .top → s.acks = [] → s.batch = []
  timer : s.pump = .top → s.acks = [] → s.timer = .nil

theorem idle_new : Idle .new := ⟨fun _ _ => rfl, fun _ _ => rfl⟩

/-- A step that leaves `pumpWrite` and its variables as they are. -/
theorem Idle.keep (h : Idle s) (hpump : s'.pump = s.pump) (hacks : s'.acks = s.acks)
    (hbatch : s'.batch = s.batch) (htimer : s'.timer = s.timer) : Idle s' := by
  constructor
  · rw [hpump, hacks, hbatch]
    exact h.batch
  · rw [hpump, hacks, htimer]
    exact h.timer

/-- A step after which there are requests, or `pumpWrite` is not at the select. -/
theorem Idle.of_busy (h : s.pump = .top → s.acks ≠ []) : Idle s :=
  ⟨fun hpc hacks => absurd hacks (h hpc), fun hpc hacks => absurd hacks (h hpc)⟩

theorem take_acks_ne_nil (s : TunnelWriter) (k : Nat) (ch : Chan 64 Nat) : (s.take k ch).acks ≠ [] :=
  List.append_ne_nil_of_right_ne_nil _ (List.cons_ne_nil k [])

theorem idle_step (h : Idle s) (hstep : Step s a s') : Idle s' := by
  cases hstep with
  | wrote | enqueued | refused | collected | abandoned => exact h.keep rfl rfl rfl rfl
  | fired ht =>
    -- a timer that runs belongs to a request
    apply Idle.of_busy
    intro hpc hacks
    rw [h.timer hpc hacks] at ht
    cases ht
  | @took k ch | @tookFirst k ch => exact .of_busy fun _ => take_acks_ne_nil s k ch
  | tookFull => exact .of_busy nofun
  | tickedEmpty hpc ht =>
    apply Idle.of_busy
    intro _ hacks
    rw [h.timer hpc hacks] at ht
    cases ht
  | ticked => exact .of_busy nofun
  | stopped => exact .of_busy nofun
  | flushLast => exact .of_busy nofun
  | issuedData => exact .of_busy nofun
  | replied => exact .of_busy nofun
  | acknowledged => exact .of_busy nofun
  | flushedOk => exact ⟨fun _ _ => rfl, fun _ _ => rfl⟩
  | flushedErr => exact .of_busy nofun
  | left => exact .of_busy nofun
  | closeCalls | entered | passed | closedCh | closedConn | closeReplied | closedReader =>
    exact h.keep rfl rfl rfl rfl

theorem idle_run {acts : List Act} (hrun : exec step .new acts = some s) : Idle s :=
  exec_invariant_all (fun _ _ _ h hs => idle_step h (step_cases hs)) acts _ _ idle_new hrun

/-- Requests at the select come with a timer that is still to tick. -/
structure Armed (s : TunnelWriter) : Prop extends Idle s where
  armed : s.pump = .top → s.acks ≠ [] → s.timer = .armed ∨ s.timer = .fired

theorem armed_new : Armed .new := ⟨idle_new, fun _ hacks => absurd rfl hacks⟩

theorem armed_step (h : Armed s) (hok : TicksFull s a) (hstep : Step s a s') : Armed s' := by
  refine ⟨idle_step h.toIdle hstep, ?_⟩
  cases hstep with
  | wrote | enqueued | refused | collected | abandoned => exact h.armed
  | fired => exact fun _ _ => Or.inr rfl
  | took hpc hrecv hsmall ht =>
    -- a timer that is not nil was armed for an earlier request
    intro _ _
    apply h.armed hpc
    exact fun hacks => ht (h.timer hpc hacks)
  | tookFirst => exact fun _ _ => Or.inl rfl
  | tookFull => exact nofun
  | tickedEmpty hpc ht hbatch => exact absurd hbatch hok
  | ticked => exact nofun
  | stopped => exact nofun
  | flushLast => exact nofun
  | issuedData => exact nofun
  | replied => exact nofun
  | acknowledged => exact nofun
  | flushedOk => exact fun _ hacks => absurd rfl hacks
  | flushedErr => exact nofun
  | left => exact nofun
  | closeCalls | entered | passed | closedCh | closedConn | closeReplied | closedReader =>
    exact h.armed

/-- If every tick finds data in the batch, `pumpWrite` always has a wake-up for what it has
received. -/
theorem pumpWrite_wakes (acts : List Act) (s : TunnelWriter)
    (hok : Meets step TicksFull .new acts) (hrun : exec step .new acts = some s) : Wakes s := by
  have harmed : Armed s :=
    exec_invariant (fun _ _ _ h ho hs => armed_step h ho (step_cases hs)) acts _ _ armed_new hok hrun
  intro hpc hwork
  apply harmed.armed hpc
  intro hacks
  rcases hwork with hne | hne
  · exact hne hacks
  · exact hne (harmed.batch hpc hacks)

/-- A `Write` of one byte next to an empty one: the tick finds the byte. -/
theorem pumpWrite_wakes_two :
    ∃ s, exec step .new [.write [], .enqueue 0, .pump .recv, .write [7], .enqueue 1, .pump .recv,
        .fire] = some s ∧
      s.acks = [0, 1] ∧ s.timer = .fired ∧ Wakes s := by
  apply exec_reaches (P := fun s : TunnelWriter => s.acks = [0, 1] ∧ s.timer = .fired)
  · decide +kernel
  · rintro s hs ⟨hacks, htimer⟩
    exact ⟨hacks, htimer, pumpWrite_wakes _ s (by decide +kernel) hs⟩

/-- An empty `Write` is received, and the tick finds the batch empty. The byte that is written
after that joins a batch that nothing wakes up for. -/
theorem empty_write_loses_wakeup :
    ∃ s, exec step .new [.write [], .enqueue 0, .pump .recv, .fire, .pump .tick, .write [7],
        .enqueue 1, .pump .recv] = some s ∧
      s.pump = .top ∧ s.acks = [0, 1] ∧ s.batch = [7] ∧ s.timer = .spent ∧ ¬ Wakes s := by
  apply exec_reaches (P := fun s : TunnelWriter => s.pump = .top ∧ s.acks = [0, 1] ∧
    s.batch = [7] ∧ s.timer = .spent)
  · decide +kernel
  · rintro s hs ⟨hpc, hacks, hbatch, htimer⟩
    refine ⟨hpc, hacks, hbatch, htimer, fun hwakes => ?_⟩
    have hbad := hwakes hpc (Or.inl (by simp [hacks]))
    simp [htimer] at hbad

/-- Every tick that finds the batch empty leaves requests without a wake-up. -/
theorem empty_tick_loses_wakeup {acts : List Act} (hrun : exec step .new acts = some s)
    (hempty : ¬ TicksFull s a) (hstep : step s a = some s') : ¬ Wakes s' := by
  have hidle := idle_run hrun
  cases step_cases hstep with
  | tickedEmpty hpc ht hbatch =>
    have hacks : s.acks ≠ [] := by
      intro hacks
      rw [hidle.timer hpc hacks] at ht
      cases ht
    intro hwakes
    rcases hwakes hpc (Or.inl hacks) with hbad | hbad <;> cases hbad
  | ticked hpc ht hbatch => exact absurd hbatch hempty
  | wrote | enqueued | refused | collected | abandoned | fired | took | tookFirst | tookFull
  | stopped | flushLast | issuedData | replied | acknowledged | flushedOk | flushedErr | left
  | closeCalls | entered | passed | closedCh | closedConn | closeReplied | closedReader =>
    exact absurd trivial hempty

end PTBridge.Dpi.TunnelWriter
