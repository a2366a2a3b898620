import PTBridge.Dpi.Client.StreamReader

/-!
# Slices in `streamReader.Read`

The same loop as `StreamReader.read`, with everything its slice expressions depend on: the scratch
buffer `sr.buf` with its capacity, and a check at each slice. `Decrypt` may answer each call in its
own way, so a list of calls sees any sequence of plaintexts and errors.

- `framePayload_eq_none_iff` says which plaintexts make the header arithmetic wrap into a panic.
- `StreamState.read` is a call; `read_eq` says that it is `StreamReader.read`, so the scratch
  buffer never makes a difference.
- `streamReader_safe_iff` is about any body, any answers of `Decrypt` and any list of buffers.
-/

namespace PTBridge.Dpi

open PTBridge.Stream

/-! ## The header arithmetic -/

/-- The plaintext has a payload and announces a length for it that wraps `10 + payloadLen`. -/
def Wraps (dec : Bytes) : Prop :=
  10 < dec.length ∧ 2 ^ 32 - 10 ≤ (uint32 ((dec.take 10).drop 6)).toNat

instance (dec : Bytes) : Decidable (Wraps dec) :=
  inferInstanceAs (Decidable (_ ∧ _))

/-- The slice that takes the payload is out of range exactly if the sum before it wraps. -/
theorem framePayload_eq_none_iff (dec : Bytes) : framePayload dec = none ↔ Wraps dec := by
  unfold framePayload Wraps
  by_cases hlong : 10 < dec.length
  · rw [if_pos hlong, slice_eq_some ⟨by decide, by omega⟩]
    dsimp only
    generalize uint32 ((dec.take 10).drop 6) = payloadLen
    have hsum : (10 + payloadLen).toNat = (10 + payloadLen.toNat) % 2 ^ 32 := by
      rw [UInt32.toNat_add]
      rfl
    have hlt := payloadLen.toNat_lt
    by_cases hwrap : 2 ^ 32 - 10 ≤ payloadLen.toNat
    · -- the sum is one of 0..9: within the plaintext, but below the start of the slice
      have hsmall : (10 + payloadLen).toNat < 10 := by omega
      rw [if_pos (by omega), slice_eq_none (by omega)]
      exact ⟨fun _ => ⟨hlong, hwrap⟩, fun _ => rfl⟩
    · have hbig : 10 ≤ (10 + payloadLen).toNat := by omega
      refine ⟨fun h => ?_, fun h => absurd h.2 hwrap⟩
      split at h
      · rename_i hfits
        rw [slice_eq_some ⟨hbig, hfits⟩] at h
        cases h
      · cases h
  · rw [if_neg hlong]
    exact ⟨nofun, fun h => absurd h.1 hlong⟩

/-! ## The loop with its scratch buffer -/

/-- `streamReader` with all its fields, and the plaintexts it has seen. -/
structure StreamState where
  sr : StreamReader
  /-- `cap(sr.buf)`, or `none` for `nil` -/
  bufCap : Option Nat
  /-- The calls of `Decrypt` so far. -/
  decrypts : Nat
  /-- The plaintexts that `Decrypt` returned. -/
  opened : List Bytes

/-- The capacity of `sr.buf` once it was made large enough for `encLen` bytes. -/
def ensureCap (bufCap : Option Nat) (encLen : Nat) : Nat :=
  match bufCap with
  | none => encLen
  | some c => if c < encLen then encLen else c

theorem le_ensureCap (bufCap : Option Nat) (encLen : Nat) : encLen ≤ ensureCap bufCap encLen := by
  cases bufCap with
  | none => exact Nat.le_refl _
  | some c =>
    simp only [ensureCap]
    split <;> omega

namespace StreamState

/-- `DownloadStream` returns a reader without a buffer. -/
def new (body : Reader) : StreamState := ⟨.new body, none, 0, []⟩

/-- The reader after `sr.decrypted = nil`, `sr.off = 0` and reads from the body. -/
def setBody (x : StreamState) (body : Reader) : StreamState := { x with sr := ⟨body, [], 0⟩ }

/-- A round of the loop that reads a frame; `none` goes round again. -/
def round (decrypt : Nat → Bytes → Except CryptoError Bytes) (x : StreamState) :
    Option StreamError × StreamState :=
  match readFull 4 x.sr.body with
  | (_, some err, body) => (some (.read err), x.setBody body)
  | (lenBuf, none, body) =>
      let encLen := (uint32 lenBuf).toNat
      if maxEncLen < encLen then (some .closedPipe, x.setBody body)
      else
        let bufCap := ensureCap x.bufCap encLen
        let x := { x with bufCap := some bufCap }
        -- `sr.buf[:encLen]` may reach past the length of `sr.buf`, but not past its capacity
        if bufCap < encLen then (some .panic, x.setBody body)
        else
          match readFull encLen body with
          | (_, some err, body) => (some (.read err), x.setBody body)
          | (buf, none, body) =>
              match decrypt x.decrypts buf with
              | .error err =>
                  (some (.decrypt err), { x.setBody body with decrypts := x.decrypts + 1 })
              | .ok dec =>
                  let x :=
                    { x.setBody body with
                      decrypts := x.decrypts + 1
                      opened := x.opened ++ [dec] }
                  match framePayload dec with
                  | none => (some .panic, x)
                  | some payload => (none, { x with sr := ⟨body, payload, 0⟩ })

variable {decrypt : Nat → Bytes → Except CryptoError Bytes} {x y : StreamState} {m : Nat}

/-- How a round ends: without a plaintext and with an ordinary error, or with a plaintext whose
payload it keeps, if the slice is in range. -/
inductive Round (decrypt : Nat → Bytes → Except CryptoError Bytes) (x : StreamState) :
    Option StreamError → StreamState → Prop where
  | failed {err body bufCap decrypts} (herr : err ≠ .panic)
      (hnext : nextFrame (decrypt x.decrypts) x.sr.body = (.error err, body)) :
      Round decrypt x (some err) ⟨⟨body, [], 0⟩, bufCap, decrypts, x.opened⟩
  | wrapped {dec body bufCap} (hnone : framePayload dec = none)
      (hnext : nextFrame (decrypt x.decrypts) x.sr.body = (.error .panic, body)) :
      Round decrypt x (some .panic)
        ⟨⟨body, [], 0⟩, bufCap, x.decrypts + 1, x.opened ++ [dec]⟩
  | opened {dec payload body bufCap} (hsome : framePayload dec = some payload)
      (hnext : nextFrame (decrypt x.decrypts) x.sr.body = (.ok payload, body)) :
      Round decrypt x none ⟨⟨body, payload, 0⟩, bufCap, x.decrypts + 1, x.opened ++ [dec]⟩

/-- A round is a round of `StreamReader.read`: `sr.buf[:encLen]` is always in range. -/
theorem round_cases {err : Option StreamError} (h : round decrypt x = (err, y)) :
    Round decrypt x err y := by
  unfold round at h
  split at h
  · rename_i b e body hlen
    cases h
    exact .failed (by simp) (by simp only [nextFrame, hlen])
  · rename_i lenBuf body hlen
    dsimp only at h
    split at h
    · rename_i hmax
      cases h
      exact .failed (by simp) (by simp only [nextFrame, hlen, hmax, ↓reduceIte])
    · rename_i hmax
      rw [if_neg (Nat.not_lt.mpr (le_ensureCap _ _))] at h
      split at h
      · rename_i b e body' henc
        cases h
        exact .failed (by simp) (by simp only [nextFrame, hlen, hmax, ↓reduceIte, henc])
      · rename_i buf body' henc
        split at h
        · rename_i e hdec
          cases h
          exact .failed (by simp) (by simp only [nextFrame, hlen, hmax, ↓reduceIte, henc, hdec])
        · rename_i dec hdec
          split at h
          · rename_i hnone
            cases h
            exact .wrapped hnone
              (by simp only [nextFrame, hlen, hmax, ↓reduceIte, henc, hdec, hnone])
          · rename_i payload hsome
            cases h
            exact .opened hsome
              (by simp only [nextFrame, hlen, hmax, ↓reduceIte, henc, hdec, hsome])

/-- A round that goes round again has taken bytes off the body. -/
theorem round_lt (h : round decrypt x = (none, y)) :
    y.sr.body.bytes.length < x.sr.body.bytes.length := by
  cases round_cases h with
  | opened _ hnext => exact nextFrame_lt hnext

/-- `sr.Read(p)` with `len(p) = m`. -/
def read (decrypt : Nat → Bytes → Except CryptoError Bytes) (m : Nat) (x : StreamState) :
    Bytes × Option StreamError × StreamState :=
  if x.sr.off < x.sr.decrypted.length then
    match slice x.sr.decrypted x.sr.off x.sr.decrypted.length with
    | none => ([], some .panic, x)
    | some rest =>
        let got := rest.take m
        (got, none, { x with sr := { x.sr with off := x.sr.off + got.length } })
  else
    match _h : round decrypt x with
    | (some err, y) => ([], some err, y)
    | (none, y) => read decrypt m y
termination_by x.sr.body.bytes.length
decreasing_by exact round_lt ‹_›

/-- A call with decrypted bytes left; `sr.decrypted[sr.off:]` is in range. -/
theorem read_left (h : x.sr.off < x.sr.decrypted.length) :
    x.read decrypt m = ((x.sr.decrypted.drop x.sr.off).take m, none,
      { x with
        sr :=
          { x.sr with off := x.sr.off + ((x.sr.decrypted.drop x.sr.off).take m).length } }) := by
  rw [read, if_pos h, slice_eq_some ⟨Nat.le_of_lt h, Nat.le_refl _⟩, List.take_length]

theorem read_failed (h : ¬ x.sr.off < x.sr.decrypted.length) {err : StreamError}
    (hround : round decrypt x = (some err, y)) : x.read decrypt m = ([], some err, y) := by
  rw [read, if_neg h]
  split
  · rename_i err' y' hround'
    rw [hround] at hround'
    cases hround'
    rfl
  · rename_i y' hround'
    rw [hround] at hround'
    cases hround'

theorem read_next (h : ¬ x.sr.off < x.sr.decrypted.length)
    (hround : round decrypt x = (none, y)) : x.read decrypt m = y.read decrypt m := by
  rw [read, if_neg h]
  split
  · rename_i err' y' hround'
    rw [hround] at hround'
    cases hround'
  · rename_i y' hround'
    rw [hround] at hround'
    cases hround'
    rfl

/-- With a `Decrypt` that depends on its argument only, a call is `StreamReader.read`. -/
theorem read_eq (decrypt : Bytes → Except CryptoError Bytes) (m : Nat) (x : StreamState) :
    (x.read (fun _ => decrypt) m).1 = (x.sr.read decrypt m).1 ∧
      (x.read (fun _ => decrypt) m).2.1 = (x.sr.read decrypt m).2.1 ∧
      (x.read (fun _ => decrypt) m).2.2.sr = (x.sr.read decrypt m).2.2 := by
  -- along the rounds of the loop
  induction hn : x.sr.body.bytes.length using Nat.strong_induction_on generalizing x with
  | _ n ih =>
    by_cases hleft : x.sr.off < x.sr.decrypted.length
    · rw [read_left hleft, StreamReader.read_left hleft]
      exact ⟨rfl, rfl, rfl⟩
    · have hdone := Nat.le_of_not_lt hleft
      obtain ⟨⟨err, y⟩, hround⟩ : ∃ p, round (fun _ => decrypt) x = p := ⟨_, rfl⟩
      cases round_cases hround with
      | failed _ hnext =>
        rw [read_failed hleft hround, StreamReader.read_failed hdone hnext]
        exact ⟨rfl, rfl, rfl⟩
      | wrapped _ hnext =>
        rw [read_failed hleft hround, StreamReader.read_failed hdone hnext]
        exact ⟨rfl, rfl, rfl⟩
      | opened _ hnext =>
        rw [read_next hleft hround, StreamReader.read_next hdone hnext]
        exact ih _ (hn ▸ round_lt hround) _ rfl

/-! ## What a call returns -/

/-- The data is a piece of the payload of one of the plaintexts. -/
def FromFrame (opened : List Bytes) (data : Bytes) : Prop :=
  ∃ dec ∈ opened, ∃ payload, framePayload dec = some payload ∧ data <:+: payload

theorem FromFrame.mono {opened more : List Bytes} {data : Bytes} (h : FromFrame opened data) :
    FromFrame (opened ++ more) data := by
  obtain ⟨dec, hmem, hpay⟩ := h
  exact ⟨dec, List.mem_append_left more hmem, hpay⟩

/-- What `sr.decrypted` holds is the payload of a plaintext. -/
def Kept (x : StreamState) : Prop :=
  x.sr.decrypted = [] ∨ ∃ dec ∈ x.opened, framePayload dec = some x.sr.decrypted

/-- A call from `x` that returns `got` and `err` and leaves `y`. -/
structure Returns (x : StreamState) (got : Bytes) (err : Option StreamError) (y : StreamState) :
    Prop where
  kept : Kept y
  /-- The plaintexts of this call: it panics exactly if one of them wraps. -/
  opened : ∃ new, y.opened = x.opened ++ new ∧ (err = some .panic ↔ ∃ dec ∈ new, Wraps dec)
  data : err = none → FromFrame y.opened got

theorem read_returns (decrypt : Nat → Bytes → Except CryptoError Bytes) (m : Nat)
    (x : StreamState) (hkept : Kept x) :
    Returns x (x.read decrypt m).1 (x.read decrypt m).2.1 (x.read decrypt m).2.2 := by
  induction hn : x.sr.body.bytes.length using Nat.strong_induction_on generalizing x with
  | _ n ih =>
    by_cases hleft : x.sr.off < x.sr.decrypted.length
    · rw [read_left hleft]
      refine ⟨hkept, ⟨[], by simp, by simp⟩, fun _ => ?_⟩
      rcases hkept with hnil | ⟨dec, hmem, hpay⟩
      · rw [hnil] at hleft
        exact absurd hleft (Nat.not_lt_zero _)
      · refine ⟨dec, hmem, _, hpay, ?_⟩
        exact (List.take_prefix _ _).isInfix.trans (List.drop_suffix _ _).isInfix
    · obtain ⟨⟨err, y⟩, hround⟩ : ∃ p, round decrypt x = p := ⟨_, rfl⟩
      cases round_cases hround with
      | failed herr _ =>
        rw [read_failed hleft hround]
        refine ⟨Or.inl rfl, ⟨[], by simp, ?_⟩, nofun⟩
        simp [herr]
      | @wrapped dec _ _ hnone _ =>
        rw [read_failed hleft hround]
        refine ⟨Or.inl rfl, ⟨[dec], rfl, ?_⟩, nofun⟩
        simpa using (framePayload_eq_none_iff dec).mp hnone
      | @opened dec payload _ _ hsome _ =>
        rw [read_next hleft hround]
        have hlt := round_lt hround
        obtain ⟨hkept', ⟨new, hnew, hpanic⟩, hdata⟩ :=
          ih _ (hn ▸ hlt) _ (Or.inr ⟨dec, by simp, hsome⟩) rfl
        refine ⟨hkept', ⟨dec :: new, by simp [hnew], ?_⟩, hdata⟩
        -- the plaintext of this round does not wrap
        have hfine : ¬ Wraps dec := by
          rw [← framePayload_eq_none_iff, hsome]
          exact nofun
        simp [hpanic, hfine]

/-! ## Any list of calls -/

/-- Calls of `Read` with buffers of these sizes, up to a panic. -/
def reads (decrypt : Nat → Bytes → Except CryptoError Bytes) :
    List Nat → StreamState → List (Bytes × Option StreamError) × StreamState
  | [], x => ([], x)
  | m :: ms, x =>
      match x.read decrypt m with
      | (got, some .panic, y) => ([(got, some .panic)], y)
      | (got, err, y) =>
          let rest := reads decrypt ms y
          ((got, err) :: rest.1, rest.2)

/-- A call that did not panic, and returned an error or data from a frame. -/
def Safe (opened : List Bytes) (r : Bytes × Option StreamError) : Prop :=
  r.2 ≠ some .panic ∧ (r.2 = none → FromFrame opened r.1)

variable {got : Bytes} {err : Option StreamError} {ms : List Nat}

theorem reads_panic (h : x.read decrypt m = (got, some .panic, y)) :
    reads decrypt (m :: ms) x = ([(got, some .panic)], y) := by
  simp only [reads, h]

theorem reads_cons (h : x.read decrypt m = (got, err, y)) (herr : err ≠ some .panic) :
    reads decrypt (m :: ms) x = ((got, err) :: (reads decrypt ms y).1, (reads decrypt ms y).2) := by
  simp only [reads, h]

/-- The calls together: data comes from frames, and one of them panics exactly if a plaintext
wraps. -/
theorem reads_return (ms : List Nat) :
    ∀ x : StreamState, Kept x →
      ∃ new, (reads decrypt ms x).2.opened = x.opened ++ new ∧
        (∀ r ∈ (reads decrypt ms x).1, r.2 = none →
          FromFrame (reads decrypt ms x).2.opened r.1) ∧
        ((∃ r ∈ (reads decrypt ms x).1, r.2 = some .panic) ↔ ∃ dec ∈ new, Wraps dec) := by
  induction ms with
  | nil =>
    intro x _
    exact ⟨[], by simp [reads], by simp [reads], by simp [reads]⟩
  | cons m ms ih =>
    intro x hkept
    obtain ⟨hkept', ⟨new, hnew, hpanic⟩, hdata⟩ := read_returns decrypt m x hkept
    obtain ⟨⟨got, err, y⟩, hread⟩ : ∃ p, x.read decrypt m = p := ⟨_, rfl⟩
    rw [hread] at hkept' hnew hpanic hdata
    by_cases herr : err = some .panic
    · -- the panic is in this call, and there is no other
      subst herr
      rw [reads_panic hread]
      exact ⟨new, hnew, by simp, by simpa using hpanic⟩
    · obtain ⟨more, hmore, hrest, hpanic'⟩ := ih y hkept'
      rw [reads_cons hread herr]
      have hall : (reads decrypt ms y).2.opened = x.opened ++ (new ++ more) := by
        rw [hmore, hnew, List.append_assoc]
      refine ⟨new ++ more, hall, ?_, ?_⟩
      · rintro r hr hnone
        rcases List.mem_cons.mp hr with rfl | hr
        · dsimp only
          rw [hmore]
          exact (hdata hnone).mono
        · exact hrest r hr hnone
      · have hfine : ¬ ∃ dec ∈ new, Wraps dec := fun h => herr (hpanic.mpr h)
        simp only [List.exists_mem_cons_iff, herr, false_or, hpanic', List.mem_append, or_and_right,
          exists_or, hfine]

/-- For every body, every sequence of answers of `Decrypt` and every list of buffers: no slice is
out of range and each call returns data from a frame or an error, exactly if no plaintext the calls
see announces a payload length that wraps. -/
theorem streamReader_safe_iff (decrypt : Nat → Bytes → Except CryptoError Bytes) (body : Reader)
    (ms : List Nat) :
    (∀ r ∈ (reads decrypt ms (.new body)).1, Safe (reads decrypt ms (.new body)).2.opened r) ↔
      ∀ dec ∈ (reads decrypt ms (.new body)).2.opened, ¬ Wraps dec := by
  obtain ⟨new, hnew, hdata, hpanic⟩ := @reads_return decrypt ms (.new body) (Or.inl rfl)
  have hnew' : (reads decrypt ms (.new body)).2.opened = new := hnew
  constructor
  · intro h dec hdec hwraps
    rw [hnew'] at hdec
    obtain ⟨r, hr, hrpanic⟩ := hpanic.mpr ⟨dec, hdec, hwraps⟩
    exact (h r hr).1 hrpanic
  · intro h r hr
    refine ⟨fun hrpanic => ?_, hdata r hr⟩
    obtain ⟨dec, hdec, hwraps⟩ := hpanic.mp ⟨r, hr, hrpanic⟩
    rw [← hnew'] at hdec
    exact h dec hdec hwraps

/-- A frame whose header announces `2^32 - 1` bytes of payload. -/
def wrappingFrame : Bytes :=
  let sealed := Encryptor.plain.sealed .zero (streamHeader msgData 1 0xFFFFFFFF ++ [7])
  putUint32 (UInt32.ofNat sealed.length) ++ sealed

/-- The first call on a body with that frame slices `dec[10:9]`. -/
theorem wrapping_frame_panics :
    (reads (fun _ => Encryptor.plain.decrypt) [1] (.new [⟨wrappingFrame, none⟩])).1 =
      [([], some .panic)] := by
  have hround : (round (fun _ => Encryptor.plain.decrypt) (.new [⟨wrappingFrame, none⟩])).1 =
      some .panic := by
    decide +kernel
  rw [reads_panic (read_failed (by decide) (Prod.ext hround rfl))]

end StreamState

end PTBridge.Dpi
