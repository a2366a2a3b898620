import PTBridge.Stream.Reader
import PTBridge.Stream.Writer

/-!
# Programs that read or write a stream

A function that reads from an `io.Reader` step by step and returns at the first error is a program
over the reader, and one that writes to an `io.Writer` is a program over the sink.

- `Reads p enc a`: in front of the bytes `enc`, in whatever pieces they are delivered, `p` returns
  `a` and leaves what comes behind them.
- `Emits e p enc`: `p` writes `enc`, or fails with `e` because the sink does.
- `bind_ok`, `Reads.bind` and `Emits.bind` take sequences apart and put them together.
-/

namespace PTBridge.Stream

section Bind

variable {ε σ α β : Type}

/-- A sequence succeeds if both of its parts do. -/
theorem bind_ok {p : EStateM ε σ α} {f : α → EStateM ε σ β} {s s' : σ} {b : β} :
    (p >>= f) s = .ok b s' ↔ ∃ a s₁, p s = .ok a s₁ ∧ f a s₁ = .ok b s' := by
  change EStateM.bind p f s = _ ↔ _
  unfold EStateM.bind
  cases p s with
  | ok a s₁ => simp
  | error e s₁ => simp

variable {p : EStateM ε σ α} {f : α → EStateM ε σ β} {s s' : σ}

/-- The first part succeeds, and the second goes on from there. -/
theorem bind_of_ok {a : α} (h : p s = .ok a s') : (p >>= f) s = f a s' := by
  change EStateM.bind p f s = _
  simp [EStateM.bind, h]

theorem bind_of_error {e : ε} (h : p s = .error e s') : (p >>= f) s = .error e s' := by
  change EStateM.bind p f s = _
  simp [EStateM.bind, h]

end Bind

/-! ## Reading -/

section Read

variable {ε α β : Type}

/-- A program that reads. -/
abbrev ReadM (ε : Type) := EStateM ε Reader

/-- `io.ReadFull` into an array of `m` bytes, where an error is returned as `e`. -/
def readArray (e : ReadError → ε) (m : Nat) : ReadM ε Bytes := fun r =>
  match readFull m r with
  | (b, none, r') => .ok b r'
  | (_, some err, r') => .error (e err) r'

theorem readArray_ok {e : ReadError → ε} {m : Nat} {r r' : Reader} {b : Bytes}
    (h : readArray e m r = .ok b r') : b.length = m ∧ r.bytes = b ++ r'.bytes := by
  unfold readArray at h
  split at h
  · rename_i b₁ r₁ hread
    cases h
    obtain ⟨hlen, hb, hrest, -⟩ := readFull_ok hread
    rw [hb, hrest, List.take_append_drop]
    exact ⟨List.length_take_of_le hlen, rfl⟩
  · cases h

def Reads (p : ReadM ε α) (enc : Bytes) (a : α) : Prop :=
  ∀ (r : Reader) (rest : Bytes), r.bytes = enc ++ rest →
    ∃ r', p r = .ok a r' ∧ r'.bytes = rest ∧ r'.final = r.final

theorem Reads.pure (a : α) : Reads (Pure.pure a : ReadM ε α) [] a :=
  fun r _ h => ⟨r, rfl, h, rfl⟩

theorem Reads.bind {p : ReadM ε α} {f : α → ReadM ε β} {x y : Bytes} {a : α} {b : β}
    (hp : Reads p x a) (hf : Reads (f a) y b) : Reads (p >>= f) (x ++ y) b := by
  intro r rest hr
  rw [List.append_assoc] at hr
  obtain ⟨r₁, hp₁, hbytes₁, hfinal₁⟩ := hp r _ hr
  obtain ⟨r₂, hf₂, hbytes₂, hfinal₂⟩ := hf r₁ rest hbytes₁
  exact ⟨r₂, bind_ok.mpr ⟨a, r₁, hp₁, hf₂⟩, hbytes₂, hfinal₂.trans hfinal₁⟩

/-- The last step only computes the result. -/
theorem Reads.map {p : ReadM ε α} {x : Bytes} {a : α} (f : α → β) (hp : Reads p x a) :
    Reads (p >>= fun a => Pure.pure (f a)) x (f a) := by
  have hpure : Reads (Pure.pure (f a) : ReadM ε β) [] (f a) := Reads.pure (f a)
  rw [← List.append_nil x]
  exact hp.bind hpure

theorem reads_readArray (e : ReadError → ε) {m : Nat} {b : Bytes} (h : b.length = m) :
    Reads (readArray e m) b b := by
  intro r rest hr
  have hlen : m ≤ r.bytes.length := by
    rw [hr, List.length_append]
    omega
  obtain ⟨r', hread, hbytes, hfinal⟩ := readFull_enough hlen
  subst h
  rw [hr, List.take_left] at hread
  rw [hr, List.drop_left] at hbytes
  refine ⟨r', ?_, hbytes, hfinal⟩
  unfold readArray
  rw [hread]

end Read

/-! ## Writing -/

section Write

variable {ε : Type}

/-- A program that writes. -/
abbrev WriteM (ε : Type) := EStateM ε Sink

/-- `w.Write(b)`, where an error is returned as `e`. -/
def put (e : ε) (b : Bytes) : WriteM ε Unit := fun k =>
  match k.write b with
  | (_, true, k') => .ok () k'
  | (_, false, k') => .error e k'

def Emits (e : ε) (p : WriteM ε Unit) (enc : Bytes) : Prop :=
  ∀ k : Sink,
    (∃ k', p k = .ok () k' ∧ k'.bytes = k.bytes ++ enc ∧ (k.room = none → k'.room = none)) ∨
      ∃ k', p k = .error e k' ∧ k.room ≠ none

theorem Emits.pure (e : ε) : Emits e (Pure.pure ()) [] :=
  fun k => Or.inl ⟨k, rfl, (List.append_nil _).symm, id⟩

theorem emits_put (e : ε) (b : Bytes) : Emits e (put e b) b := by
  intro k
  obtain ⟨hbytes, hall⟩ := k.write_bytes b
  unfold put
  split
  · rename_i n k' hwrite
    rw [hwrite] at hbytes hall
    refine Or.inl ⟨k', rfl, by rw [hbytes, hall rfl], fun hroom => ?_⟩
    simp only [Sink.write, hroom] at hwrite
    cases hwrite
    rfl
  · rename_i n k' hwrite
    refine Or.inr ⟨k', rfl, fun hroom => ?_⟩
    simp only [Sink.write, hroom] at hwrite
    cases hwrite

theorem Emits.bind {e : ε} {p q : WriteM ε Unit} {x y : Bytes} (hp : Emits e p x)
    (hq : Emits e q y) : Emits e (p >>= fun _ => q) (x ++ y) := by
  intro k
  rcases hp k with ⟨k₁, hp₁, hbytes₁, hroom₁⟩ | ⟨k₁, hp₁, hroom₁⟩
  · -- the first part has written, and the second decides
    have hrun : (p >>= fun _ => q) k = q k₁ := by
      change EStateM.bind p _ k = _
      simp [EStateM.bind, hp₁]
    rw [hrun]
    rcases hq k₁ with ⟨k₂, hq₂, hbytes₂, hroom₂⟩ | ⟨k₂, hq₂, hroom₂⟩
    · refine Or.inl ⟨k₂, hq₂, ?_, fun hroom => hroom₂ (hroom₁ hroom)⟩
      rw [hbytes₂, hbytes₁, List.append_assoc]
    · exact Or.inr ⟨k₂, hq₂, fun hroom => hroom₂ (hroom₁ hroom)⟩
  · refine Or.inr ⟨k₁, ?_, hroom₁⟩
    change EStateM.bind p _ k = _
    simp [EStateM.bind, hp₁]

end Write

end PTBridge.Stream
