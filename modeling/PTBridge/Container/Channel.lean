import Mathlib.Data.List.Basic

/-!
# Buffered channels

A channel of capacity `cap` holds the values that were sent and not yet received, oldest
first, and remembers whether it was closed. A `send` into a full channel and a `recv` from
an empty open one have no successor: the goroutine waits. A receiver that is already waiting
gets the value as if it had passed through the empty buffer.
-/

namespace PTBridge.Container

universe u

/-- A channel made by `make(chan α, cap)`. -/
structure Chan (cap : Nat) (α : Type u) where
  /-- Values sent and not yet received, oldest first. -/
  buf : List α
  /-- `close` was called. -/
  closed : Bool
  /-- The buffer never exceeds the capacity. -/
  fits : buf.length ≤ cap
  deriving DecidableEq

namespace Chan

variable {cap : Nat} {α : Type u}

/-- `make(chan α, cap)`. -/
def make : Chan cap α := ⟨[], false, Nat.zero_le _⟩

/-- The channel has no free slot. -/
def Full (c : Chan cap α) : Prop := c.buf.length = cap

instance (c : Chan cap α) : Decidable c.Full := inferInstanceAs (Decidable (_ = _))

/-- `c <- x`, when it can proceed now. Sending on a closed channel panics in Go; it has no
successor here. -/
def send (c : Chan cap α) (x : α) : Option (Chan cap α) :=
  if h : c.closed = false ∧ c.buf.length < cap then
    some ⟨c.buf ++ [x], c.closed, by
      rw [List.length_append]
      exact h.2⟩
  else none

/-- `x, ok := <-c`, when it can proceed now: `none` stands for `ok = false`. -/
def recv (c : Chan cap α) : Option (Option α × Chan cap α) :=
  match h : c.buf with
  | x :: xs =>
      some (some x, ⟨xs, c.closed, by have := c.fits; rw [h] at this; simp at this; omega⟩)
  | [] => if c.closed then some (none, c) else none

/-- `close(c)`. -/
def close (c : Chan cap α) : Chan cap α := { c with closed := true }

@[simp] theorem make_buf : (make : Chan cap α).buf = [] := rfl

@[simp] theorem make_closed : (make : Chan cap α).closed = false := rfl

@[simp] theorem close_buf (c : Chan cap α) : c.close.buf = c.buf := rfl

@[simp] theorem close_closed (c : Chan cap α) : c.close.closed = true := rfl

theorem send_eq_some {c c' : Chan cap α} {x : α} :
    c.send x = some c' ↔
      c.closed = false ∧ c.buf.length < cap ∧ c'.buf = c.buf ++ [x] ∧ c'.closed = c.closed := by
  unfold send
  constructor
  · intro h
    split at h
    · rename_i hc
      cases h
      exact ⟨hc.1, hc.2, rfl, rfl⟩
    · cases h
  · rintro ⟨hopen, hroom, hbuf, hclosed⟩
    rw [dif_pos ⟨hopen, hroom⟩]
    obtain ⟨buf, closed, fits⟩ := c'
    simp only at hbuf hclosed
    subst hbuf hclosed
    rfl

/-- A receive that returns a value takes the oldest one. -/
theorem recv_eq_value {c c' : Chan cap α} {x : α} :
    c.recv = some (some x, c') ↔ c.buf = x :: c'.buf ∧ c'.closed = c.closed := by
  obtain ⟨buf, closed, fits⟩ := c
  obtain ⟨buf', closed', fits'⟩ := c'
  cases buf with
  | nil => cases closed <;> simp [recv]
  | cons y ys =>
    simp only [recv, Option.some.injEq, Prod.mk.injEq, Chan.mk.injEq, List.cons.injEq]
    constructor
    · rintro ⟨rfl, rfl, rfl⟩
      exact ⟨⟨rfl, rfl⟩, rfl⟩
    · rintro ⟨⟨rfl, rfl⟩, rfl⟩
      exact ⟨rfl, rfl, rfl⟩

/-- A receive that reports `ok = false` found the channel drained and closed, and leaves it. -/
theorem recv_eq_closed {c c' : Chan cap α} :
    c.recv = some (none, c') ↔ c.buf = [] ∧ c.closed = true ∧ c' = c := by
  obtain ⟨buf, closed, fits⟩ := c
  cases buf with
  | nil => cases closed <;> simp [recv, eq_comm]
  | cons y ys => simp [recv]

/-- A receive waits exactly on an empty open channel. -/
theorem recv_eq_none {c : Chan cap α} : c.recv = none ↔ c.buf = [] ∧ c.closed = false := by
  obtain ⟨buf, closed, fits⟩ := c
  cases buf with
  | nil => cases closed <;> simp [recv]
  | cons y ys => simp [recv]

/-- A send with a `default` case: a full channel drops the value. -/
def offer (c : Chan cap α) (x : α) : Chan cap α := (c.send x).getD c

theorem offer_buf (c : Chan cap α) (x : α) :
    (c.offer x).buf = c.buf ∨ (c.offer x).buf = c.buf ++ [x] := by
  cases h : c.send x with
  | none => exact Or.inl (by rw [offer, h]; rfl)
  | some c' =>
    refine Or.inr ?_
    rw [offer, h]
    exact (send_eq_some.mp h).2.2.1

/-- The channel after its oldest value was received. -/
def tail (c : Chan cap α) : Chan cap α :=
  ⟨c.buf.tail, c.closed, Nat.le_trans (by simp) c.fits⟩

@[simp] theorem tail_buf (c : Chan cap α) : c.tail.buf = c.buf.tail := rfl

@[simp] theorem tail_closed (c : Chan cap α) : c.tail.closed = c.closed := rfl

/-- A channel with room can hold one more value. -/
theorem exists_send {c : Chan cap α} (hroom : c.buf.length < cap) (x : α) :
    ∃ c' : Chan cap α, c'.buf = c.buf ++ [x] ∧ c'.closed = c.closed :=
  ⟨⟨c.buf ++ [x], c.closed, by rw [List.length_append]; exact hroom⟩, rfl, rfl⟩

end Chan

end PTBridge.Container
