import PTBridge.Stream.Bytes

/-!
# Writers

An `io.Writer` that may fail after any number of bytes, and `bufio.Writer` on top of one.

- `Sink` takes bytes until its room is used up.
- `BufWriter.write` and `BufWriter.flush` are `bufio.Writer`: after an error it writes no more.
- `BufWriter.Accounts` says where the bytes are that were written: in the sink and the buffer, or,
  after an error, the sink has the first of them.
-/

namespace PTBridge.Stream

/-- The receiving end of `Write` calls. -/
structure Sink where
  /-- What each call took. -/
  writes : List Bytes
  /-- The number of bytes after which a call fails; `none` if none fails. -/
  room : Option Nat
  deriving DecidableEq, Repr

namespace Sink

/-- All the bytes that were taken. -/
def bytes (k : Sink) : Bytes := k.writes.flatten

/-- `w.Write(b)`: the count, whether it succeeded, and the sink afterwards. -/
def write (k : Sink) (b : Bytes) : Nat × Bool × Sink :=
  match k.room with
  | none => (b.length, true, { k with writes := k.writes ++ [b] })
  | some n =>
      if b.length ≤ n then (b.length, true, ⟨k.writes ++ [b], some (n - b.length)⟩)
      else (n, false, ⟨k.writes ++ [b.take n], some 0⟩)

/-- A call takes a first part of its argument, and all of it if it succeeds. -/
theorem write_bytes (k : Sink) (b : Bytes) :
    (k.write b).2.2.bytes = k.bytes ++ b.take (k.write b).1 ∧
      ((k.write b).2.1 = true → b.take (k.write b).1 = b) := by
  unfold write bytes
  split
  · simp
  · split <;> simp

end Sink

/-- The buffer of `bufio.NewWriter`. -/
def bufferSize : Nat := 4096

/-- `bufio.Writer`: the buffered bytes, and whether a write has failed. -/
structure BufWriter where
  buf : Bytes
  failed : Bool
  deriving DecidableEq, Repr

namespace BufWriter

/-- `bufio.NewWriter`. -/
def new : BufWriter := ⟨[], false⟩

/-- A write that goes past the empty buffer. -/
def direct (p : Bytes) (k : Sink) : BufWriter × Sink :=
  match k.write p with
  | (_, ok, k') => (⟨[], !ok⟩, k')

/-- `b.Flush()`. -/
def flush (w : BufWriter) (k : Sink) : BufWriter × Sink :=
  if w.failed then (w, k)
  else if w.buf = [] then (w, k)
  else
    match k.write w.buf with
    | (n, ok, k') => if ok then (⟨[], false⟩, k') else (⟨w.buf.drop n, true⟩, k')

/-- `b.Write(p)`. The loop of the source runs at most twice: once to fill and flush the buffer, and
once for what then does not fit into it. -/
def write (w : BufWriter) (p : Bytes) (k : Sink) : BufWriter × Sink :=
  if w.failed then (w, k)
  else if p.length ≤ bufferSize - w.buf.length then (⟨w.buf ++ p, false⟩, k)
  else if w.buf = [] then direct p k
  else
    let n := bufferSize - w.buf.length
    match flush ⟨w.buf ++ p.take n, false⟩ k with
    | (w', k') =>
        if w'.failed then (w', k')
        else if (p.drop n).length ≤ bufferSize then (⟨p.drop n, false⟩, k')
        else direct (p.drop n) k'

/-- Where the bytes of `total` are that were written so far. -/
def Accounts (w : BufWriter) (k : Sink) (total : Bytes) : Prop :=
  (w.failed = false ∧ k.bytes ++ w.buf = total) ∨ (w.failed = true ∧ k.bytes <+: total)

variable {w : BufWriter} {k : Sink} {total : Bytes}

theorem Accounts.le (h : Accounts w k total) : k.bytes <+: total := by
  rcases h with ⟨-, rfl⟩ | ⟨-, hle⟩
  · exact List.prefix_append _ _
  · exact hle

theorem direct_accounts (hk : k.bytes = total) (p : Bytes) :
    Accounts (direct p k).1 (direct p k).2 (total ++ p) := by
  obtain ⟨hbytes, hall⟩ := k.write_bytes p
  unfold direct Accounts
  dsimp only
  -- a write that fails has taken some first part
  cases hok : (k.write p).2.1 with
  | true => exact Or.inl ⟨rfl, by rw [hbytes, hall hok, hk, List.append_nil]⟩
  | false =>
    refine Or.inr ⟨rfl, ?_⟩
    rw [hbytes, hk]
    exact (List.prefix_append_right_inj _).mpr (List.take_prefix _ _)

/-- A flush writes the buffer out, or fails. -/
theorem flush_accounts (h : Accounts w k total) :
    Accounts (w.flush k).1 (w.flush k).2 total ∧
      ((w.flush k).1.failed = false → (w.flush k).1.buf = []) := by
  unfold flush
  split
  · rename_i hfailed
    exact ⟨h, fun hok => by rw [hfailed] at hok; cases hok⟩
  · rename_i hfailed
    split
    · rename_i hempty
      exact ⟨h, fun _ => hempty⟩
    · -- the buffer goes out as one write
      rcases h with ⟨-, htotal⟩ | ⟨hbad, -⟩
      · obtain ⟨hbytes, hall⟩ := k.write_bytes w.buf
        dsimp only
        cases hok : (k.write w.buf).2.1 with
        | true =>
          refine ⟨Or.inl ⟨rfl, ?_⟩, fun _ => rfl⟩
          rw [if_pos rfl, hbytes, hall hok, List.append_nil, htotal]
        | false =>
          refine ⟨Or.inr ⟨rfl, ?_⟩, fun hgood => (by cases hgood)⟩
          rw [if_neg nofun, hbytes, ← htotal]
          exact (List.prefix_append_right_inj _).mpr (List.take_prefix _ _)
      · exact absurd hbad hfailed

/-- A write adds its argument to the account. -/
theorem write_accounts (h : Accounts w k total) (p : Bytes) :
    Accounts (w.write p k).1 (w.write p k).2 (total ++ p) := by
  rcases h with ⟨hgood, htotal⟩ | ⟨hfailed, hle⟩
  · unfold write
    rw [if_neg (by rw [hgood]; nofun)]
    split
    · -- it fits
      exact Or.inl ⟨rfl, by rw [← List.append_assoc, htotal]⟩
    · split
      · -- nothing is buffered, so the slice goes past the buffer
        rename_i hempty
        rw [hempty, List.append_nil] at htotal
        exact direct_accounts htotal p
      · -- the buffer is filled up and flushed
        have hfill : Accounts ⟨w.buf ++ p.take (bufferSize - w.buf.length), false⟩ k
            (total ++ p.take (bufferSize - w.buf.length)) :=
          Or.inl ⟨rfl, by rw [← List.append_assoc, htotal]⟩
        have hsplit : total ++ p = total ++ p.take (bufferSize - w.buf.length) ++
            p.drop (bufferSize - w.buf.length) := by
          rw [List.append_assoc, List.take_append_drop]
        obtain ⟨hflush, hempty⟩ := flush_accounts hfill
        dsimp only
        rw [hsplit]
        split
        · rename_i hbad
          exact Or.inr ⟨hbad, hflush.le.trans (List.prefix_append _ _)⟩
        · rename_i hok
          -- the flush left nothing, and the rest of the slice is buffered or written
          have hsink := hflush.resolve_right fun hbad => hok hbad.1
          rw [hempty hsink.1, List.append_nil] at hsink
          split
          · exact Or.inl ⟨rfl, by rw [hsink.2]⟩
          · exact direct_accounts hsink.2 _
  · unfold write
    rw [if_pos hfailed]
    exact Or.inr ⟨hfailed, hle.trans (List.prefix_append _ _)⟩

end BufWriter

end PTBridge.Stream
