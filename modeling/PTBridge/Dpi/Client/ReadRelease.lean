import PTBridge.Dpi.Client.TunnelConn

/-!
# What `Close` leaves for the callers of `tunnelConn.Read`

`Read` waits on `readCh` alone; unlike `Write` it has no case for `closeCh`. So a caller gets out
only if there is data left or if `pumpRead` closed `readCh`, and `pumpRead` closes it on one of its
four exits: a stream error that it meets before the `Close`.

- `Unblocked` is what a caller of `Read` needs; `unblocked_iff` links it to the step function.
- `Releases` is the property: after a `Close` and the end of `pumpRead`, no caller is left waiting.
- `close_releases_readers` proves it for runs in which `Close` comes after the end of `pumpRead`.
- `early_close_strands` says what any earlier `Close` does: `readCh` stays open for ever, and once
  it is drained no call of `Read` returns again.
-/

namespace PTBridge.Dpi

open PTBridge.Stream PTBridge.Container PTBridge.Transition

namespace TunnelConn

variable {decrypt : Bytes → Except CryptoError Bytes} {tc tc' : TunnelConn} {a : Act}

/-! ## The property -/

/-- There is something for a call of `Read` to return. -/
def Unblocked (tc : TunnelConn) : Prop :=
  tc.readBuf ≠ [] ∨ tc.readCh.buf ≠ [] ∨ tc.readCh.closed = true

instance (tc : TunnelConn) : Decidable (Unblocked tc) :=
  inferInstanceAs (Decidable (_ ∨ _ ∨ _))

/-- Once `closeCh` is closed and `pumpRead` has returned, no call of `Read` is left waiting. -/
def Releases (tc : TunnelConn) : Prop :=
  tc.closeCh = true → tc.pump = .done → Unblocked tc

instance (tc : TunnelConn) : Decidable (Releases tc) :=
  inferInstanceAs (Decidable (_ → _ → _))

/-- No call of `Read` returns any more, whatever the goroutines do. -/
def Stranded (decrypt : Bytes → Except CryptoError Bytes) (tc : TunnelConn) : Prop :=
  ∀ (acts : List Act) (tc' : TunnelConn),
    exec (step decrypt) tc acts = some tc' → tc'.reads = tc.reads

/-- A call of `Read` is enabled exactly if there is something to return. -/
theorem unblocked_iff (m : Nat) : Unblocked tc ↔ (step decrypt tc (.read m)).isSome = true := by
  constructor
  · intro h
    exact readStep_isSome h
  · intro h
    obtain ⟨tc', hs⟩ := Option.isSome_iff_exists.mp h
    cases step_cases hs with
    | readBuffered hbuf => exact Or.inl hbuf
    | readEnd _ _ hclosed => exact Or.inr (Or.inr hclosed)
    | readChunk _ hch _ => exact Or.inr (Or.inl (by rw [hch]; exact List.cons_ne_nil _ _))

/-! ## Close after the end of `pumpRead` -/

/-- `Close` is called only once `pumpRead` has returned. -/
def ClosesLate (tc : TunnelConn) (a : Act) : Prop :=
  a = .close → tc.pump = .done

instance (tc : TunnelConn) (a : Act) : Decidable (ClosesLate tc a) :=
  inferInstanceAs (Decidable (_ → _))

/-- `pumpRead` ends by closing `readCh`, and no `Close` gets in its way. -/
structure EndedFirst (tc : TunnelConn) : Prop where
  ended : tc.pump = .done → tc.readCh.closed = true
  closed : tc.closeCh = true → tc.pump = .done

theorem endedFirst_new (body : Reader) : EndedFirst (.new body) :=
  ⟨nofun, nofun⟩

theorem EndedFirst.preserved (hI : EndedFirst tc) (hok : ClosesLate tc a)
    (hs : Step decrypt tc a tc') : EndedFirst tc' := by
  -- a goroutine that is still at work has seen no `Close`
  have hopen : ∀ p, tc.pump = p → p ≠ .done → tc.closeCh ≠ true := by
    intro p hpc hp hclosed
    exact hp (hpc.symm.trans (hI.closed hclosed))
  cases hs with
  | checked hpc _ => exact ⟨nofun, fun h => absurd h (hopen _ hpc nofun)⟩
  | stopped hpc hclosed => exact absurd hclosed (hopen _ hpc nofun)
  | @fetched got err reader hpc _ =>
    refine ⟨fun h => absurd h ?_, fun h => absurd h (hopen _ hpc nofun)⟩
    exact afterFetch_ne_done got err
  | @sent dup err ch hpc _ =>
    refine ⟨fun h => absurd h ?_, fun h => absurd h (hopen _ hpc nofun)⟩
    exact afterRead_ne_done err
  | quit hpc hclosed => exact absurd hclosed (hopen _ hpc nofun)
  | left hpc hclosed => exact absurd hclosed (hopen _ hpc nofun)
  | finished _ _ => exact ⟨fun _ => rfl, fun _ => rfl⟩
  | readBuffered _ => exact ⟨hI.ended, hI.closed⟩
  | readEnd _ _ _ => exact ⟨hI.ended, hI.closed⟩
  | readChunk _ _ hch => exact ⟨fun h => hch.trans (hI.ended h), hI.closed⟩
  | closed _ => exact ⟨hI.ended, fun _ => hok rfl⟩
  | closedReader _ => exact ⟨hI.ended, hI.closed⟩

/-- If `Close` is only called once `pumpRead` has returned, then after it no call of `Read` is left
waiting, for every body, every outcome of `Decrypt` and every interleaving. -/
theorem close_releases_readers (decrypt : Bytes → Except CryptoError Bytes) (body : Reader)
    (acts : List Act) (tc : TunnelConn) (hlate : Meets (step decrypt) ClosesLate (.new body) acts)
    (hrun : exec (step decrypt) (.new body) acts = some tc) : Releases tc := by
  have hI : EndedFirst tc :=
    exec_invariant (fun _ _ _ hi hok hs => EndedFirst.preserved hi hok (step_cases hs)) acts _ tc
      (endedFirst_new body) hlate hrun
  intro _ hdone
  exact Or.inr (Or.inr (hI.ended hdone))

/-- A stream that ends, and a `Close` after it. -/
theorem close_releases_reader_at_end :
    ∃ tc, exec (step Encryptor.plain.decrypt) (.new [])
        [.pump .check, .pump .fetch, .pump .finish, .close] = some tc ∧
      (tc.closeCh = true ∧ tc.pump = .done) ∧ Releases tc := by
  apply exec_reaches (P := fun tc : TunnelConn => tc.closeCh = true ∧ tc.pump = .done)
  · decide +kernel
  · intro tc htc hend
    exact ⟨hend, close_releases_readers _ [] _ tc (by decide +kernel) htc⟩

/-! ## Close before the end of `pumpRead` -/

/-- `Close` came while `readCh` was open. -/
def ClosedEarly (tc : TunnelConn) : Prop :=
  tc.closeCh = true ∧ tc.readCh.closed = false

/-- After an early `Close` nobody closes `readCh`: `pumpRead` sees `closeCh` first. -/
theorem ClosedEarly.preserved (hI : ClosedEarly tc) (hs : Step decrypt tc a tc') :
    ClosedEarly tc' := by
  obtain ⟨hclose, hopen⟩ := hI
  cases hs with
  | sent _ hsend =>
    obtain ⟨-, -, -, hclosed⟩ := Chan.send_eq_some.mp hsend
    exact ⟨hclose, hclosed.trans hopen⟩
  | finished _ hno =>
    rw [hno] at hclose
    cases hclose
  | readChunk _ _ hch => exact ⟨hclose, hch.trans hopen⟩
  | closed _ => exact ⟨rfl, hopen⟩
  | _ => exact ⟨hclose, hopen⟩

/-- The state in which a caller waits for good: nothing is left, and nobody is left to add to it
or to close `readCh`. -/
structure Drained (tc : TunnelConn) : Prop where
  early : ClosedEarly tc
  pump : tc.pump = .done
  readBuf : tc.readBuf = []
  queue : tc.readCh.buf = []

theorem Drained.blocked (hI : Drained tc) : ¬ Unblocked tc := by
  rintro (hbuf | hqueue | hclosed)
  · exact hbuf hI.readBuf
  · exact hqueue hI.queue
  · rw [hI.early.2] at hclosed
    cases hclosed

theorem Drained.preserved (hI : Drained tc) (hs : Step decrypt tc a tc') :
    Drained tc' ∧ tc'.reads = tc.reads := by
  have hpump : ∀ p, tc.pump = p → p = .done := fun p hpc => hpc.symm.trans hI.pump
  have hearly := hI.early.preserved hs
  cases hs with
  | checked hpc _ => cases hpump _ hpc
  | stopped hpc _ => cases hpump _ hpc
  | fetched hpc _ => cases hpump _ hpc
  | sent hpc _ => cases hpump _ hpc
  | quit hpc _ => cases hpump _ hpc
  | left hpc _ => cases hpump _ hpc
  | finished hpc _ => cases hpump _ hpc
  | readBuffered hbuf => exact absurd (Or.inl hbuf) hI.blocked
  | readEnd _ _ hclosed => exact absurd (Or.inr (Or.inr hclosed)) hI.blocked
  | readChunk _ hch _ =>
    rw [hI.queue] at hch
    cases hch
  | closed _ => exact ⟨⟨hearly, hI.pump, hI.readBuf, hI.queue⟩, rfl⟩
  | closedReader _ => exact ⟨⟨hearly, hI.pump, hI.readBuf, hI.queue⟩, rfl⟩

theorem Drained.stranded (hI : Drained tc) : Stranded decrypt tc := by
  intro acts tc' hrun
  have hrest : Drained tc' ∧ tc'.reads = tc.reads :=
    exec_invariant_all (I := fun t => Drained t ∧ t.reads = tc.reads)
      (fun s a s' hs hstep => by
        obtain ⟨hnext, hsame⟩ := hs.1.preserved (step_cases hstep)
        exact ⟨hnext, hsame.trans hs.2⟩)
      acts tc tc' ⟨hI, rfl⟩ hrun
  exact hrest.2

/-- However a run goes on after an early `Close`: once `pumpRead` has returned and the data is
used up, no call of `Read` ever returns. -/
theorem early_close_strands {acts : List Act} (hearly : ClosedEarly tc)
    (hrun : exec (step decrypt) tc acts = some tc') (hpump : tc'.pump = .done)
    (hbuf : tc'.readBuf = []) (hqueue : tc'.readCh.buf = []) :
    ¬ Releases tc' ∧ Stranded decrypt tc' := by
  have hearly' : ClosedEarly tc' :=
    exec_invariant_all (fun _ _ _ hi hs => ClosedEarly.preserved hi (step_cases hs)) acts tc tc'
      hearly hrun
  have hdrained : Drained tc' := ⟨hearly', hpump, hbuf, hqueue⟩
  exact ⟨fun h => hdrained.blocked (h hearly'.1 hpump), hdrained.stranded⟩

/-- `Close` on a new connection: `pumpRead` returns at its first check, `readCh` stays open, and a
call of `Read` waits for good. -/
theorem close_strands_reader :
    ∃ tc, exec (step Encryptor.plain.decrypt) (.new []) [.close, .pump .check] = some tc ∧
      ¬ Releases tc ∧ Stranded Encryptor.plain.decrypt tc := by
  apply exec_reaches (P := fun tc : TunnelConn => (tc.closeCh = true ∧ tc.readCh.closed = false) ∧
    tc.pump = .done ∧ tc.readBuf = [] ∧ tc.readCh.buf = [])
  · decide +kernel
  · rintro tc - ⟨hearly, hpump, hbuf, hqueue⟩
    exact @early_close_strands _ tc tc [] hearly rfl hpump hbuf hqueue

end TunnelConn

end PTBridge.Dpi
