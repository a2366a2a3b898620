import PTBridge.Stream.Pipe

/-!
# What goes through a pipe

- `Mutex` says which call of `Write` is in its loop.
- `Flow` is the invariant: the calls of `Read` read what was offered, in the order in which the
  writers got the mutex, as long as no write was cut off by a close before another one
  (`Contiguous`).
- `Answered` is the part of it that says what the calls of `Read` have returned.
- An open pipe is contiguous, and so is one whose writers come one at a time (`Sequential`).
- `Errors` says where the error of a call comes from.
-/

namespace PTBridge.Stream

open PTBridge.Transition

universe u

namespace Pipe

variable {ε : Type u}

/-! ## The mutex -/

/-- The calls of `Write` that have got the mutex, in order. -/
def calls (p : Pipe ε) : List (PipeWrite ε) := entries p.writes p.order

/-- The holder of the mutex is the last call that got it, and the only one in its loop. -/
structure Mutex (p : Pipe ε) : Prop where
  nodup : p.order.Nodup
  bound : ∀ w ∈ p.order, w < p.writes.length
  fresh : ∀ w x, p.writes[w]? = some x → x.stage = .entering ∨ x.stage = .locking → w ∉ p.order
  untaken : ∀ w x, p.writes[w]? = some x → w ∉ p.order → x.taken = 0
  served : ∀ w x, p.writes[w]? = some x → x.stage = .returned none → w ∈ p.order
  held : ∀ w, p.holder = some w → ∃ earlier, p.order = earlier ++ [w]
  sending : ∀ w x, p.writes[w]? = some x → x.stage = .sending → p.holder = some w

section Mutex

variable {p p' : Pipe ε} {w : Nat} {x y : PipeWrite ε}

theorem mutex_new : Mutex (new : Pipe ε) := by
  constructor <;> simp [new]

theorem Mutex.same (h : Mutex p) (hw : p'.writes = p.writes) (ho : p'.order = p.order)
    (hh : p'.holder = p.holder) : Mutex p' := by
  constructor
  · rw [ho]
    exact h.nodup
  · rw [ho, hw]
    exact h.bound
  · rw [ho, hw]
    exact h.fresh
  · rw [ho, hw]
    exact h.untaken
  · rw [ho, hw]
    exact h.served
  · rw [ho, hh]
    exact h.held
  · rw [hw, hh]
    exact h.sending

theorem Mutex.write (h : Mutex p) (b : Bytes) (hw : p'.writes = p.writes ++ [⟨b, 0, .entering⟩])
    (ho : p'.order = p.order) (hh : p'.holder = p.holder) : Mutex p' := by
  constructor
  · rw [ho]
    exact h.nodup
  · intro v hv
    rw [ho] at hv
    have := h.bound v hv
    rw [hw, List.length_append]
    omega
  · intro v z hz hstage
    rw [hw] at hz
    rw [ho]
    rcases pool_snoc_some hz with hold | ⟨rfl, -⟩
    · exact h.fresh v z hold hstage
    · intro hmem
      exact absurd (h.bound _ hmem) (Nat.lt_irrefl _)
  · intro v z hz hno
    rw [hw] at hz
    rw [ho] at hno
    rcases pool_snoc_some hz with hold | ⟨-, rfl⟩
    · exact h.untaken v z hold hno
    · rfl
  · intro v z hz hstage
    rw [hw] at hz
    rw [ho]
    rcases pool_snoc_some hz with hold | ⟨-, rfl⟩
    · exact h.served v z hold hstage
    · cases hstage
  · rw [ho, hh]
    exact h.held
  · intro v z hz hstage
    rw [hw] at hz
    rw [hh]
    rcases pool_snoc_some hz with hold | ⟨-, rfl⟩
    · exact h.sending v z hold hstage
    · cases hstage

/-- A call that has not got the mutex waits for it or is refused. -/
theorem Mutex.outside (h : Mutex p) (hx : p.writes[w]? = some x) (hout : w ∉ p.order)
    (htaken : y.taken = x.taken) (hstage : y.stage = .locking ∨ ∃ e, y.stage = .returned (some e))
    (hw : p'.writes = p.writes.set w y) (ho : p'.order = p.order) (hh : p'.holder = p.holder) :
    Mutex p' := by
  constructor
  · rw [ho]
    exact h.nodup
  · rw [ho, hw, List.length_set]
    exact h.bound
  · intro v z hz hfresh
    rw [hw] at hz
    rw [ho]
    rcases pool_set_some hz with ⟨rfl, -⟩ | ⟨-, hold⟩
    · exact hout
    · exact h.fresh v z hold hfresh
  · intro v z hz hno
    rw [hw] at hz
    rw [ho] at hno
    rcases pool_set_some hz with ⟨rfl, rfl⟩ | ⟨-, hold⟩
    · rw [htaken]
      exact h.untaken v x hx hout
    · exact h.untaken v z hold hno
  · intro v z hz hserved
    rw [hw] at hz
    rw [ho]
    rcases pool_set_some hz with ⟨-, rfl⟩ | ⟨-, hold⟩
    · rcases hstage with hlocking | ⟨e, herr⟩
      · rw [hlocking] at hserved
        cases hserved
      · rw [herr] at hserved
        cases hserved
    · exact h.served v z hold hserved
  · rw [ho, hh]
    exact h.held
  · intro v z hz hsending
    rw [hw] at hz
    rw [hh]
    rcases pool_set_some hz with ⟨-, rfl⟩ | ⟨-, hold⟩
    · rcases hstage with hlocking | ⟨e, herr⟩
      · rw [hlocking] at hsending
        cases hsending
      · rw [herr] at hsending
        cases hsending
    · exact h.sending v z hold hsending

theorem Mutex.lock (h : Mutex p) (hx : p.writes[w]? = some x) (hout : w ∉ p.order)
    (hfree : p.holder = none) (hstage : y.stage = .sending) (hw : p'.writes = p.writes.set w y)
    (ho : p'.order = p.order ++ [w]) (hh : p'.holder = some w) : Mutex p' := by
  have hlt : w < p.writes.length := (List.getElem?_eq_some_iff.mp hx).1
  constructor
  · rw [ho]
    exact List.nodup_append.mpr ⟨h.nodup, List.nodup_singleton w, fun a ha b hb hab => hout (by
      rw [List.mem_singleton.mp hb] at hab
      exact hab ▸ ha)⟩
  · intro v hv
    rw [ho] at hv
    rw [hw, List.length_set]
    rcases List.mem_append.mp hv with hold | hnew
    · exact h.bound v hold
    · cases List.mem_singleton.mp hnew
      exact hlt
  · intro v z hz hfresh hmem
    rw [hw] at hz
    rw [ho] at hmem
    rcases pool_set_some hz with ⟨-, rfl⟩ | ⟨hne, hold⟩
    · rw [hstage] at hfresh
      rcases hfresh with hfresh | hfresh <;> cases hfresh
    · rcases List.mem_append.mp hmem with hin | hnew
      · exact h.fresh v z hold hfresh hin
      · exact hne (List.mem_singleton.mp hnew)
  · intro v z hz hno
    rw [hw] at hz
    rw [ho] at hno
    rcases pool_set_some hz with ⟨rfl, -⟩ | ⟨-, hold⟩
    · exact absurd (List.mem_append_right _ (List.mem_singleton_self v)) hno
    · exact h.untaken v z hold fun hin => hno (List.mem_append_left _ hin)
  · intro v z hz hserved
    rw [hw] at hz
    rw [ho]
    rcases pool_set_some hz with ⟨rfl, -⟩ | ⟨-, hold⟩
    · exact List.mem_append_right _ (List.mem_singleton_self v)
    · exact List.mem_append_left _ (h.served v z hold hserved)
  · intro v hv
    rw [hh] at hv
    cases hv
    exact ⟨p.order, ho⟩
  · intro v z hz hsending
    rw [hw] at hz
    rcases pool_set_some hz with ⟨rfl, -⟩ | ⟨-, hold⟩
    · exact hh
    · -- nobody was in the loop
      rw [h.sending v z hold hsending] at hfree
      cases hfree

/-- The holder goes on or returns. -/
theorem Mutex.turn (h : Mutex p) (hx : p.writes[w]? = some x) (hheld : p.holder = some w)
    (hstage : (y.stage = .sending ∧ p'.holder = some w) ∨
      ((∃ e, y.stage = .returned e) ∧ p'.holder = none))
    (hw : p'.writes = p.writes.set w y) (ho : p'.order = p.order) : Mutex p' := by
  obtain ⟨earlier, horder⟩ := h.held w hheld
  have hin : w ∈ p.order := by
    rw [horder]
    exact List.mem_append_right _ (List.mem_singleton_self w)
  constructor
  · rw [ho]
    exact h.nodup
  · rw [ho, hw, List.length_set]
    exact h.bound
  · intro v z hz hfresh
    rw [hw] at hz
    rw [ho]
    rcases pool_set_some hz with ⟨-, rfl⟩ | ⟨-, hold⟩
    · rcases hstage with ⟨hs, -⟩ | ⟨⟨e, hs⟩, -⟩ <;> rw [hs] at hfresh <;>
        rcases hfresh with hfresh | hfresh <;> cases hfresh
    · exact h.fresh v z hold hfresh
  · intro v z hz hno
    rw [hw] at hz
    rw [ho] at hno
    rcases pool_set_some hz with ⟨rfl, -⟩ | ⟨-, hold⟩
    · exact absurd hin hno
    · exact h.untaken v z hold hno
  · intro v z hz hserved
    rw [hw] at hz
    rw [ho]
    rcases pool_set_some hz with ⟨rfl, -⟩ | ⟨-, hold⟩
    · exact hin
    · exact h.served v z hold hserved
  · intro v hv
    rcases hstage with ⟨-, hh⟩ | ⟨-, hh⟩ <;> rw [hh] at hv <;> cases hv
    exact ⟨earlier, by rw [ho, horder]⟩
  · intro v z hz hsending
    rw [hw] at hz
    rcases pool_set_some hz with ⟨rfl, rfl⟩ | ⟨hne, hold⟩
    · rcases hstage with ⟨-, hh⟩ | ⟨⟨e, hs⟩, -⟩
      · exact hh
      · rw [hs] at hsending
        cases hsending
    · have hv := h.sending v z hold hsending
      rw [hheld] at hv
      exact absurd (Option.some.inj hv).symm hne

/-- The holder's call is the last one. -/
theorem Mutex.calls_held (h : Mutex p) (hx : p.writes[w]? = some x) (hheld : p.holder = some w)
    (hw : p'.writes = p.writes.set w y) (ho : p'.order = p.order) :
    ∃ earlier, p.calls = earlier ++ [x] ∧ p'.calls = earlier ++ [y] := by
  obtain ⟨earlier, horder⟩ := h.held w hheld
  have hout : w ∉ earlier := by
    have hnodup := h.nodup
    rw [horder] at hnodup
    intro hin
    exact (List.nodup_append.mp hnodup).2.2 w hin w (List.mem_singleton_self w) rfl
  refine ⟨entries p.writes earlier, ?_, ?_⟩
  · rw [calls, horder, entries_append, entries_single hx]
  · rw [calls, ho, hw, horder, entries_append, entries_set_other hout,
      entries_single (pool_set_self hx)]

theorem Mutex.calls_dropLast (h : Mutex p) :
    p.calls.dropLast = entries p.writes p.order.dropLast := by
  rcases List.eq_nil_or_concat p.order with hnil | ⟨earlier, w, horder⟩
  · rw [calls, hnil]
    rfl
  · rw [List.concat_eq_append] at horder
    have hin : w ∈ p.order := by
      rw [horder]
      exact List.mem_append_right _ (List.mem_singleton_self w)
    have hlt := h.bound w hin
    rw [calls, horder, entries_append, entries_single (List.getElem?_eq_getElem hlt),
      List.dropLast_concat, List.dropLast_concat]

end Mutex

/-! ## What the readers get -/

/-- No call of `Write` got the mutex after one that had been cut off. -/
def Contiguous (p : Pipe ε) : Prop := ∀ x ∈ p.calls.dropLast, x.stage = .returned none

/-- What the calls of `Read` have returned is what `moved` says. -/
structure Answered (p : Pipe ε) : Prop where
  once : (p.moved.map Handover.reader).Nodup
  bytes : ∀ (r m : Nat) (b : Bytes),
    p.reads[r]? = some ⟨m, .returned b none⟩ ↔ ⟨r, m, b⟩ ∈ p.moved
  fits : ∀ x ∈ p.moved, x.data.length ≤ x.size
  -- a call that fails returns no bytes
  failed : ∀ (r m : Nat) (b : Bytes) (e : PipeError ε),
    p.reads[r]? = some ⟨m, .returned b (some e)⟩ → b = []

section Answered

variable {p p' : Pipe ε}

theorem answered_new : Answered (new : Pipe ε) := by
  constructor <;> simp [new]

theorem Answered.same (h : Answered p) (hr : p'.reads = p.reads) (hm : p'.moved = p.moved) :
    Answered p' := by
  constructor
  · rw [hm]
    exact h.once
  · rw [hr, hm]
    exact h.bytes
  · rw [hm]
    exact h.fits
  · rw [hr]
    exact h.failed

theorem Answered.read (h : Answered p) (m : Nat) :
    Answered { p with reads := p.reads ++ [⟨m, .entering⟩] } where
  once := h.once
  bytes r k b := by
    rw [← h.bytes]
    constructor
    · intro hz
      rcases pool_snoc_some hz with hold | ⟨-, heq⟩
      · exact hold
      · cases heq
    · exact pool_snoc_old
  fits := h.fits
  failed r k b e hz := by
    rcases pool_snoc_some hz with hold | ⟨-, heq⟩
    · exact h.failed r k b e hold
    · cases heq

/-- A call of `Read` that has not returned anything stands elsewhere or has failed. -/
theorem Answered.set {r : Nat} {z z' : PipeRead ε} (h : Answered p) (hz : p.reads[r]? = some z)
    (hold : ∀ b, z.stage ≠ .returned b none) (hnew : ∀ b, z'.stage ≠ .returned b none)
    (hfail : ∀ b e, z'.stage = .returned b (some e) → b = []) :
    Answered { p with reads := p.reads.set r z' } where
  once := h.once
  bytes i m b := by
    rw [← h.bytes]
    by_cases hi : r = i
    · subst hi
      rw [pool_set_self hz, hz]
      constructor
      · intro heq
        cases heq
        exact absurd rfl (hnew b)
      · intro heq
        cases heq
        exact absurd rfl (hold b)
    · rw [List.getElem?_set_ne hi]
  fits := h.fits
  failed i m b e hi := by
    rcases pool_set_some hi with ⟨-, rfl⟩ | ⟨-, hother⟩
    · exact hfail b e rfl
    · exact h.failed i m b e hother

theorem Answered.transfer {w r m : Nat} {x : PipeWrite ε} (h : Answered p)
    (hr : p.reads[r]? = some ⟨m, .waiting⟩) : Answered (p.handOver w r m x) where
  once := by
    -- a call that waits has not returned
    have hnew : r ∉ p.moved.map Handover.reader := by
      intro hmem
      obtain ⟨y, hy, rfl⟩ := List.mem_map.mp hmem
      have hret := (h.bytes y.reader y.size y.data).mpr hy
      rw [hr] at hret
      cases hret
    have hsnoc := h.once.concat hnew
    rw [List.concat_eq_append] at hsnoc
    rw [handOver, List.map_append]
    exact hsnoc
  bytes i k c := by
    simp only [handOver, List.mem_append, List.mem_singleton]
    rw [← h.bytes]
    by_cases hi : r = i
    · subst hi
      rw [pool_set_self hr, hr]
      simp [eq_comm]
    · rw [List.getElem?_set_ne hi]
      simp [Ne.symm hi]
  fits y hy := by
    rcases List.mem_append.mp hy with hold | hnew
    · exact h.fits y hold
    · cases List.mem_singleton.mp hnew
      exact List.length_take_le _ _
  failed i k c e hi := by
    rcases pool_set_some hi with ⟨-, heq⟩ | ⟨-, hother⟩
    · cases heq
    · exact h.failed i k c e hother

end Answered

/-- The invariant of the pipe. -/
structure Flow (p : Pipe ε) : Prop where
  mutex : Mutex p
  taken_le : ∀ (w : Nat) (x : PipeWrite ε), p.writes[w]? = some x → x.taken ≤ x.data.length
  -- only a close makes a call of `Write` fail
  opened : p.done = false → ∀ (w : Nat) (x : PipeWrite ε) (e : PipeError ε),
    p.writes[w]? = some x → x.stage ≠ .returned (some e)
  answered : p.Answered
  flow : p.Contiguous → ReadSeq p.moved (offered p.calls) (unread p.calls)

section Flow

variable {p p' : Pipe ε} {a : Act ε} {w : Nat} {x y : PipeWrite ε}

theorem flow_new : Flow (new : Pipe ε) where
  mutex := mutex_new
  taken_le := by simp [new]
  opened := by simp [new]
  answered := answered_new
  flow := fun _ => rfl

/-- Taking from the call in front is a read. -/
theorem read_unread {m : Nat} (x : PipeWrite ε) (hstage : x.stage = .sending)
    (hle : x.taken ≤ x.data.length) :
    read m x.unread = ((x.data.drop x.taken).take m, none,
      (x.advance ((x.data.drop x.taken).take m).length).unread) := by
  have hlen : (x.data.drop x.taken).length = x.data.length - x.taken := List.length_drop
  simp only [PipeWrite.unread, hstage, PipeWrite.advance]
  by_cases hm : m < (x.data.drop x.taken).length
  · have hmore : ¬ x.data.length ≤ x.taken + m := by omega
    simp only [read, hm, ↓reduceIte, List.length_take, Nat.min_eq_left hm.le, hmore,
      List.drop_drop]
  · have hall : x.data.length ≤ x.taken + (x.data.drop x.taken).length := by omega
    simp only [read, hm, ↓reduceIte, List.take_of_length_le (Nat.le_of_not_lt hm), hall]

theorem unread_served {xs : List (PipeWrite ε)} (h : ∀ x ∈ xs, x.stage = .returned none) :
    unread xs = [] := by
  refine List.flatMap_eq_nil_iff.mpr fun x hx => ?_
  rw [PipeWrite.unread, h x hx]

/-- A step that leaves the calls and what was read as they are. -/
theorem Flow.keep (h : Flow p) (hcalls : p'.calls = p.calls) (hmoved : p'.moved = p.moved)
    (hc : p'.Contiguous) : ReadSeq p'.moved (offered p'.calls) (unread p'.calls) := by
  rw [hmoved, hcalls]
  refine h.flow ?_
  rw [Contiguous, hcalls] at hc
  exact hc

/-- A change on the readers' side that is not a transfer. -/
theorem Flow.reader (h : Flow p) (hw : p'.writes = p.writes) (ho : p'.order = p.order)
    (hh : p'.holder = p.holder) (hmoved : p'.moved = p.moved)
    (hopen : p'.done = false → p.done = false) (hanswered : p'.Answered) : Flow p' where
  mutex := h.mutex.same hw ho hh
  taken_le := by
    rw [hw]
    exact h.taken_le
  opened hno := by
    rw [hw]
    exact h.opened (hopen hno)
  answered := hanswered
  flow := h.keep (by rw [calls, calls, hw, ho]) hmoved

/-- A step of a call that does not have the mutex. -/
theorem Flow.outside (h : Flow p) (hx : p.writes[w]? = some x)
    (hfresh : x.stage = .entering ∨ x.stage = .locking) (hy : y.taken = x.taken ∧ y.data = x.data)
    (hstage : y.stage = .locking ∨ (p.done = true ∧ ∃ e, y.stage = .returned (some e)))
    (hw : p' = { p with writes := p.writes.set w y }) : Flow p' := by
  have hout := h.mutex.fresh w x hx hfresh
  subst hw
  constructor
  · exact h.mutex.outside hx hout hy.1 (hstage.imp_right And.right) rfl rfl rfl
  · intro v z hz
    rcases pool_set_some hz with ⟨-, rfl⟩ | ⟨-, hold⟩
    · rw [hy.1, hy.2]
      exact h.taken_le w x hx
    · exact h.taken_le v z hold
  · intro hopen v z e hz herr
    rcases pool_set_some hz with ⟨-, rfl⟩ | ⟨-, hold⟩
    · rcases hstage with hlock | ⟨hdone, -⟩
      · rw [hlock] at herr
        cases herr
      · rw [hdone] at hopen
        cases hopen
    · exact h.opened hopen v z e hold herr
  · exact h.answered.same rfl rfl
  · exact h.keep (entries_set_other hout) rfl

theorem Flow.write (h : Flow p) (b : Bytes) :
    Flow { p with writes := p.writes ++ [⟨b, 0, .entering⟩] } where
  mutex := h.mutex.write b rfl rfl rfl
  taken_le v z hz := by
    rcases pool_snoc_some hz with hold | ⟨-, rfl⟩
    · exact h.taken_le v z hold
    · exact Nat.zero_le _
  opened hopen v z e hz herr := by
    rcases pool_snoc_some hz with hold | ⟨-, rfl⟩
    · exact h.opened hopen v z e hold herr
    · cases herr
  answered := h.answered.same rfl rfl
  flow := h.keep (entries_snoc h.mutex.bound) rfl

theorem Flow.lock {n : Nat} {b : Bytes} (h : Flow p) (hx : p.writes[w]? = some ⟨b, n, .locking⟩)
    (hfree : p.holder = none) :
    Flow { p with
      writes := p.writes.set w ⟨b, n, .sending⟩, holder := some w, order := p.order ++ [w] } := by
  have hout := h.mutex.fresh w _ hx (Or.inr rfl)
  have htaken : n = 0 := h.mutex.untaken w _ hx hout
  constructor
  · exact h.mutex.lock hx hout hfree rfl rfl rfl rfl
  · intro v z hz
    rcases pool_set_some hz with ⟨-, rfl⟩ | ⟨-, hold⟩
    · exact h.taken_le w ⟨b, n, .locking⟩ hx
    · exact h.taken_le v z hold
  · intro hopen v z e hz herr
    rcases pool_set_some hz with ⟨-, rfl⟩ | ⟨-, hold⟩
    · cases herr
    · exact h.opened hopen v z e hold herr
  · exact h.answered.same rfl rfl
  · intro hc
    have hcalls : entries (p.writes.set w ⟨b, n, .sending⟩) (p.order ++ [w]) =
        p.calls ++ [⟨b, n, .sending⟩] := by
      rw [entries_append, entries_set_other hout, entries_single (pool_set_self hx)]
      rfl
    simp only [Contiguous, calls, hcalls, List.dropLast_concat] at hc
    -- the new call comes behind what is unread
    have hseq := (h.flow fun z hz => hc z (List.mem_of_mem_dropLast hz)).append [⟨b, none⟩]
    simp only [calls, hcalls]
    simpa [offered, unread, PipeWrite.unread, htaken, calls] using hseq

/-- A step of the call that has the mutex. -/
theorem Flow.turn (h : Flow p) (hx : p.writes[w]? = some x) (hheld : p.holder = some w)
    (hstage : (y.stage = .sending ∧ p'.holder = some w) ∨
      ((∃ e, y.stage = .returned e) ∧ p'.holder = none))
    (hdata : y.data = x.data) (hle : y.taken ≤ y.data.length)
    (hfail : ∀ e, y.stage = .returned (some e) → p'.done = true)
    (hw : p'.writes = p.writes.set w y) (ho : p'.order = p.order) (hd : p'.done = p.done)
    (hanswered : p'.Answered)
    (hflow : ∀ r, ReadSeq p.moved r x.unread → ReadSeq p'.moved r y.unread) : Flow p' := by
  constructor
  · exact h.mutex.turn hx hheld hstage hw ho
  · intro v z hz
    rw [hw] at hz
    rcases pool_set_some hz with ⟨-, rfl⟩ | ⟨-, hold⟩
    · exact hle
    · exact h.taken_le v z hold
  · intro hopen v z e hz herr
    rw [hw] at hz
    rcases pool_set_some hz with ⟨-, rfl⟩ | ⟨-, hold⟩
    · rw [hfail e herr] at hopen
      cases hopen
    · exact h.opened (hd ▸ hopen) v z e hold herr
  · exact hanswered
  · intro hc
    obtain ⟨earlier, hcalls, hcalls'⟩ := h.mutex.calls_held hx hheld hw ho
    rw [Contiguous, hcalls', List.dropLast_concat] at hc
    have hseq := h.flow (by rw [Contiguous, hcalls, List.dropLast_concat]; exact hc)
    -- nothing is unread but the rest of the last call
    have hunread : ∀ z : PipeWrite ε, unread (earlier ++ [z]) = z.unread := by
      intro z
      have hnil := unread_served hc
      simp only [unread] at hnil ⊢
      rw [List.flatMap_append, hnil, List.nil_append, List.flatMap_singleton]
    have hoffered : offered (earlier ++ [y]) = offered (earlier ++ [x]) := by
      simp [offered, hdata]
    rw [hcalls, hunread] at hseq
    rw [hcalls', hunread, hoffered]
    exact hflow _ hseq

theorem Flow.abort {n : Nat} {b : Bytes} (h : Flow p) (hx : p.writes[w]? = some ⟨b, n, .sending⟩)
    (hdone : p.done = true) :
    Flow { p with
      writes := p.writes.set w ⟨b, n, .returned (some p.writeCloseError)⟩, holder := none } :=
  h.turn (y := ⟨b, n, .returned (some p.writeCloseError)⟩) hx (h.mutex.sending w _ hx rfl)
    (Or.inr ⟨⟨_, rfl⟩, rfl⟩) rfl (h.taken_le w ⟨b, n, .sending⟩ hx) (fun _ _ => hdone) rfl rfl rfl
    (h.answered.same rfl rfl) (fun _ hseq => hseq)

theorem Flow.transfer {n r m : Nat} {b : Bytes} (h : Flow p) (hheld : p.holder = some w)
    (hx : p.writes[w]? = some ⟨b, n, .sending⟩) (hr : p.reads[r]? = some ⟨m, .waiting⟩) :
    Flow (p.handOver w r m ⟨b, n, .sending⟩) := by
  have hle := h.taken_le w _ hx
  refine h.turn (y := PipeWrite.advance ⟨b, n, .sending⟩ ((b.drop n).take m).length) hx hheld ?_ rfl
    ?_ ?_ rfl rfl rfl (h.answered.transfer hr) ?_
  · -- the call returns, and the mutex is free, once all of it is taken
    simp only [handOver, PipeWrite.advance]
    split
    · exact Or.inr ⟨⟨_, rfl⟩, rfl⟩
    · exact Or.inl ⟨rfl, rfl⟩
  · dsimp only [PipeWrite.advance] at hle ⊢
    rw [List.length_take, List.length_drop]
    omega
  · intro e herr
    dsimp only [PipeWrite.advance] at herr
    split at herr <;> cases herr
  · intro source hseq
    exact ReadSeq.snoc (h := ⟨r, m, (b.drop n).take m⟩) hseq (read_unread _ rfl hle)

/-- Every step keeps the invariant. -/
theorem Flow.step (h : Flow p) (hs : Step p a p') : Flow p' := by
  cases hs with
  | write b => exact h.write b
  | @refuse w n b hx hdone =>
    exact h.outside (y := ⟨b, n, .returned (some p.writeCloseError)⟩) hx (Or.inl rfl) ⟨rfl, rfl⟩
      (Or.inr ⟨hdone, _, rfl⟩) rfl
  | @enter w n b hx hopen =>
    exact h.outside (y := ⟨b, n, .locking⟩) hx (Or.inl rfl) ⟨rfl, rfl⟩ (Or.inl rfl) rfl
  | lock hx hfree => exact h.lock hx hfree
  | abort hx hdone => exact h.abort hx hdone
  | read m => exact h.reader rfl rfl rfl rfl id (h.answered.read m)
  | refuseRead hx hdone =>
    refine h.reader rfl rfl rfl rfl id (h.answered.set hx nofun nofun ?_)
    intro b e heq
    cases heq
    rfl
  | begin hx hopen => exact h.reader rfl rfl rfl rfl id (h.answered.set hx nofun nofun nofun)
  | stop hx hdone =>
    refine h.reader rfl rfl rfl rfl id (h.answered.set hx nofun nofun ?_)
    intro b e heq
    cases heq
    rfl
  | transfer hheld hx hr => exact h.transfer hheld hx hr
  | closeRead err => exact h.reader rfl rfl rfl rfl nofun (h.answered.same rfl rfl)
  | closeWrite err => exact h.reader rfl rfl rfl rfl nofun (h.answered.same rfl rfl)

/-- Only a close cuts a call off. -/
theorem Flow.contiguous (h : Flow p) (hopen : p.done = false) : p.Contiguous := by
  intro x hx
  rw [h.mutex.calls_dropLast] at hx
  obtain ⟨w, hw, hget⟩ := List.mem_filterMap.mp hx
  have hin : w ∈ p.order := List.mem_of_mem_dropLast hw
  cases hstage : x.stage with
  | entering => exact absurd hin (h.mutex.fresh w x hget (Or.inl hstage))
  | locking => exact absurd hin (h.mutex.fresh w x hget (Or.inr hstage))
  | sending =>
    -- the call in its loop is the last one
    obtain ⟨earlier, horder⟩ := h.mutex.held w (h.mutex.sending w x hget hstage)
    have hnodup := h.mutex.nodup
    rw [horder] at hw hnodup
    rw [List.dropLast_concat] at hw
    exact absurd rfl ((List.nodup_append.mp hnodup).2.2 w hw w (List.mem_singleton_self w))
  | returned err =>
    cases err with
    | none => rfl
    | some e => exact absurd hstage (h.opened hopen w x e hget)

end Flow

/-! ## One writer at a time -/

/-- The calls of `Write` take turns: every call but the last has returned. They got the mutex in the
order of the calls, and none got it after one that failed. -/
structure Sequential (p : Pipe ε) : Prop where
  earlier : ∀ (w : Nat) (x : PipeWrite ε), p.writes[w]? = some x → w + 1 < p.writes.length →
    ∃ err, x.stage = .returned err
  inOrder : p.order = List.range p.order.length
  failed : ∀ (w v : Nat) (x y : PipeWrite ε) (e : PipeError ε), p.writes[w]? = some x →
    x.stage = .returned (some e) → p.writes[v]? = some y → w < v →
    v ∉ p.order ∧ y.stage ≠ .locking

section Sequential

variable {p p' : Pipe ε} {a : Act ε} {w : Nat} {x y : PipeWrite ε}

theorem sequential_new : Sequential (new : Pipe ε) where
  earlier := by simp [new]
  inOrder := rfl
  failed := by simp [new]

/-- A call that has not returned is the last one. -/
theorem Sequential.last (h : Sequential p) (hx : p.writes[w]? = some x)
    (hstage : ∀ err, x.stage ≠ .returned err) : w + 1 = p.writes.length := by
  have hlt : w < p.writes.length := (List.getElem?_eq_some_iff.mp hx).1
  rcases Nat.lt_or_ge (w + 1) p.writes.length with hless | hge
  · obtain ⟨err, hret⟩ := h.earlier w x hx hless
    exact absurd hret (hstage err)
  · omega

/-- Before a call that got the mutex, or waits for it, no call has failed. -/
theorem Sequential.served (h : Sequential p) (hy : p.writes[w]? = some y)
    (hgot : w ∈ p.order ∨ y.stage = .locking) {v : Nat} (hx : p.writes[v]? = some x)
    (hvw : v < w) : x.stage = .returned none := by
  have hlt : w < p.writes.length := (List.getElem?_eq_some_iff.mp hy).1
  obtain ⟨err, hret⟩ := h.earlier v x hx (by omega)
  cases err with
  | none => exact hret
  | some e =>
    obtain ⟨hout, hstage⟩ := h.failed v w x y e hx hret hy hvw
    rcases hgot with hin | hlocking
    · exact absurd hin hout
    · exact absurd hlocking hstage

/-- The call that has not returned goes on. -/
theorem Sequential.set (h : Sequential p) (hf : Flow p) (hx : p.writes[w]? = some x)
    (hstage : ∀ err, x.stage ≠ .returned err) (hnew : y.stage = .locking → p.done = false)
    (hw : p'.writes = p.writes.set w y) (ho : p'.order = p.order) : Sequential p' where
  earlier v z hz hless := by
    have hlast := h.last hx hstage
    rw [hw] at hz hless
    rw [List.length_set] at hless
    rcases pool_set_some hz with ⟨rfl, -⟩ | ⟨-, hold⟩
    · omega
    · exact h.earlier v z hold hless
  inOrder := by
    rw [ho]
    exact h.inOrder
  failed v u z z' e hz hfail hz' hvu := by
    have hlast := h.last hx hstage
    have hu : u < p.writes.length := by
      rw [← List.length_set (i := w) (a := y), ← hw]
      exact (List.getElem?_eq_some_iff.mp hz').1
    rw [hw] at hz hz'
    rw [ho]
    -- the call that failed is an earlier one
    have hzold : p.writes[v]? = some z := by
      rcases pool_set_some hz with ⟨rfl, -⟩ | ⟨-, hold⟩
      · omega
      · exact hold
    rcases pool_set_some hz' with ⟨rfl, rfl⟩ | ⟨-, hold'⟩
    · refine ⟨(h.failed v u z x e hzold hfail hx hvu).1, fun hlocking => ?_⟩
      exact hf.opened (hnew hlocking) v z e hzold hfail
    · exact h.failed v u z z' e hzold hfail hold' hvu

theorem Sequential.same (h : Sequential p) (hw : p'.writes = p.writes) (ho : p'.order = p.order) :
    Sequential p' := by
  constructor
  · rw [hw]
    exact h.earlier
  · rw [ho]
    exact h.inOrder
  · rw [hw, ho]
    exact h.failed

theorem Sequential.length_order (h : Sequential p) (hm : Mutex p) :
    p.order.length ≤ p.writes.length := by
  by_contra hgt
  have hin : p.writes.length ∈ p.order := by
    rw [h.inOrder, List.mem_range]
    omega
  exact absurd (hm.bound _ hin) (Nat.lt_irrefl _)

theorem Sequential.lock {n : Nat} {b : Bytes} (h : Sequential p) (hf : Flow p)
    (hx : p.writes[w]? = some ⟨b, n, .locking⟩) :
    Sequential { p with
      writes := p.writes.set w ⟨b, n, .sending⟩, holder := some w, order := p.order ++ [w] } := by
  have hset : Sequential { p with writes := p.writes.set w ⟨b, n, .sending⟩ } :=
    h.set (y := ⟨b, n, .sending⟩) hf hx nofun nofun rfl rfl
  have hlast := h.last hx nofun
  have hserved : ∀ v z, p.writes[v]? = some z → v < w → z.stage = .returned none :=
    fun v z hz hvw => h.served hx (Or.inr rfl) hz hvw
  refine ⟨hset.earlier, ?_, ?_⟩
  · -- every call before `w` has got the mutex
    have hle : w ≤ p.order.length := by
      by_contra hgt
      have hget := List.getElem?_eq_getElem (l := p.writes) (i := p.order.length) (by omega)
      have hin := hf.mutex.served _ _ hget (hserved _ _ hget (by omega))
      rw [h.inOrder, List.mem_range, List.length_range] at hin
      exact absurd hin (Nat.lt_irrefl _)
    have hout := hf.mutex.fresh w _ hx (Or.inr rfl)
    rw [h.inOrder, List.mem_range] at hout
    have hnext : w = p.order.length := by omega
    dsimp only
    rw [List.length_append, List.length_singleton, List.range_succ, ← h.inOrder, ← hnext]
  · intro v u z z' e hz hfail hz' hvu
    have hu : u < p.writes.length := by
      rw [← List.length_set (i := w) (a := ⟨b, n, .sending⟩)]
      exact (List.getElem?_eq_some_iff.mp hz').1
    rcases pool_set_some hz with ⟨rfl, -⟩ | ⟨-, hold⟩
    · omega
    · rw [hserved v z hold (by omega)] at hfail
      cases hfail

/-- A step keeps this, if no call starts before the last one has returned. -/
theorem Sequential.step (h : Sequential p) (hf : Flow p) (hs : Step p a p')
    (hturn : ∀ b, a = .write b → ∀ (w : Nat) (x : PipeWrite ε), p.writes[w]? = some x →
      ∃ err, x.stage = .returned err) : Sequential p' := by
  cases hs with
  | write b =>
    refine ⟨fun v z hz hless => ?_, h.inOrder, fun v u z z' e hz hfail hz' hvu => ?_⟩
    · rcases pool_snoc_some hz with hold | ⟨rfl, -⟩
      · exact hturn b rfl v z hold
      · rw [List.length_append, List.length_singleton] at hless
        omega
    · have hzold : p.writes[v]? = some z := by
        rcases pool_snoc_some hz with hold | ⟨-, rfl⟩
        · exact hold
        · cases hfail
      rcases pool_snoc_some hz' with hold' | ⟨rfl, rfl⟩
      · exact h.failed v u z z' e hzold hfail hold' hvu
      · exact ⟨fun hin => absurd (hf.mutex.bound _ hin) (Nat.lt_irrefl _), nofun⟩
  | @refuse w n b hx hdone =>
    exact h.set (y := ⟨b, n, .returned (some p.writeCloseError)⟩) hf hx nofun nofun rfl rfl
  | @enter w n b hx hopen =>
    exact h.set (y := ⟨b, n, .locking⟩) hf hx nofun (fun _ => hopen) rfl rfl
  | lock hx hfree => exact h.lock hf hx
  | @abort w n b hx hdone =>
    exact h.set (y := ⟨b, n, .returned (some p.writeCloseError)⟩) hf hx nofun nofun rfl rfl
  | read m => exact h.same rfl rfl
  | refuseRead hx hdone => exact h.same rfl rfl
  | begin hx hopen => exact h.same rfl rfl
  | stop hx hdone => exact h.same rfl rfl
  | @transfer w r n m b hheld hx hr =>
    refine h.set (y := PipeWrite.advance ⟨b, n, .sending⟩ ((b.drop n).take m).length) hf hx nofun ?_
      rfl rfl
    intro hlocking
    dsimp only [PipeWrite.advance] at hlocking
    split at hlocking <;> cases hlocking
  | closeRead err => exact h.same rfl rfl
  | closeWrite err => exact h.same rfl rfl

theorem Sequential.calls (h : Sequential p) (hm : Mutex p) :
    p.calls = p.writes.take p.order.length := by
  rw [Pipe.calls]
  nth_rewrite 1 [h.inOrder]
  exact entries_range (h.length_order hm)

/-- With one writer at a time the readers read what was written, call by call. -/
theorem Sequential.readSeq (h : Sequential p) (hf : Flow p) :
    ReadSeq p.moved (offered p.writes) (unread p.writes) := by
  have hle := h.length_order hf.mutex
  have hcalls := h.calls hf.mutex
  have hcont : p.Contiguous := by
    intro x hx
    rw [hcalls] at hx
    obtain ⟨i, hi, hget⟩ := List.mem_iff_getElem.mp hx
    rw [List.length_dropLast, List.length_take] at hi
    rw [List.getElem_dropLast, List.getElem_take] at hget
    -- the last call that got the mutex comes later
    have hlast : p.order.length - 1 ∈ p.order := by
      rw [h.inOrder, List.mem_range, List.length_range]
      omega
    have hlt : p.order.length - 1 < p.writes.length := by omega
    exact h.served (List.getElem?_eq_getElem hlt) (Or.inl hlast)
      (List.getElem?_eq_some_iff.mpr ⟨by omega, hget⟩) (by omega)
  -- a call that has not got the mutex has all its data
  have hrest : ∀ x ∈ p.writes.drop p.order.length, x.unread = [⟨x.data, none⟩] := by
    intro x hx
    obtain ⟨i, hi⟩ := List.mem_iff_getElem?.mp hx
    rw [List.getElem?_drop] at hi
    have hout : p.order.length + i ∉ p.order := by
      rw [h.inOrder, List.mem_range, List.length_range]
      omega
    have htaken := hf.mutex.untaken _ x hi hout
    unfold PipeWrite.unread
    split
    · rename_i hstage
      exact absurd (hf.mutex.served _ x hi hstage) hout
    · rw [htaken, List.drop_zero]
  have hunread :
      unread (p.writes.drop p.order.length) = offered (p.writes.drop p.order.length) := by
    rw [unread, offered, List.map_eq_flatMap]
    exact List.flatMap_congr hrest
  have hseq := (hf.flow hcont).append (offered (p.writes.drop p.order.length))
  nth_rewrite 2 [← hunread] at hseq
  rw [hcalls] at hseq
  simp only [offered, unread, ← List.map_append, ← List.flatMap_append,
    List.take_append_drop] at hseq
  exact hseq

end Sequential

/-! ## Errors -/

/-- A call that fails returns `ErrClosedPipe` or the error that the other side has closed with. -/
structure Errors (p : Pipe ε) : Prop where
  read : ∀ (r m : Nat) (b : Bytes) (e : PipeError ε),
    p.reads[r]? = some ⟨m, .returned b (some e)⟩ → e = .closedPipe ∨ p.werr = some e
  write : ∀ (w n : Nat) (b : Bytes) (e : PipeError ε),
    p.writes[w]? = some ⟨b, n, .returned (some e)⟩ → e = .closedPipe ∨ p.rerr = some e

section Errors

variable {p p' : Pipe ε} {a : Act ε}

theorem errors_new : Errors (new : Pipe ε) := by
  constructor <;> simp [new]

theorem readCloseError_cases (p : Pipe ε) :
    p.readCloseError = .closedPipe ∨ p.werr = some p.readCloseError := by
  unfold readCloseError
  split
  · rename_i hwerr
    exact Or.inr hwerr
  · exact Or.inl rfl

theorem writeCloseError_cases (p : Pipe ε) :
    p.writeCloseError = .closedPipe ∨ p.rerr = some p.writeCloseError := by
  unfold writeCloseError
  split
  · rename_i hrerr
    exact Or.inr hrerr
  · exact Or.inl rfl

theorem Errors.setRead {r : Nat} {z : PipeRead ε} (h : Errors p)
    (hz : ∀ b e, z.stage = .returned b (some e) → e = p.readCloseError) :
    Errors { p with reads := p.reads.set r z } where
  read i m b e hi := by
    rcases pool_set_some hi with ⟨-, rfl⟩ | ⟨-, hold⟩
    · rw [hz b e rfl]
      exact p.readCloseError_cases
    · exact h.read i m b e hold
  write := h.write

theorem Errors.setWrite {w : Nat} {x : PipeWrite ε} (h : Errors p)
    (hx : ∀ e, x.stage = .returned (some e) → e = p.writeCloseError) :
    Errors { p with writes := p.writes.set w x } where
  read := h.read
  write i n b e hi := by
    rcases pool_set_some hi with ⟨-, rfl⟩ | ⟨-, hold⟩
    · rw [hx e rfl]
      exact p.writeCloseError_cases
    · exact h.write i n b e hold

theorem Errors.step (h : Errors p) (hs : Step p a p') : Errors p' := by
  cases hs with
  | write b =>
    refine ⟨h.read, fun i n c e hi => ?_⟩
    rcases pool_snoc_some hi with hold | ⟨-, heq⟩
    · exact h.write i n c e hold
    · cases heq
  | refuse hx hdone =>
    refine h.setWrite fun e he => ?_
    cases he
    rfl
  | enter hx hopen => exact h.setWrite nofun
  | @lock w n b hx hfree =>
    have hset := h.setWrite (w := w) (x := ⟨b, n, .sending⟩) nofun
    exact ⟨hset.read, hset.write⟩
  | @abort w n b hx hdone =>
    have hset := h.setWrite (w := w) (x := ⟨b, n, .returned (some p.writeCloseError)⟩) fun e he => by
      cases he
      rfl
    exact ⟨hset.read, hset.write⟩
  | read m =>
    refine ⟨fun i k c e hi => ?_, h.write⟩
    rcases pool_snoc_some hi with hold | ⟨-, heq⟩
    · exact h.read i k c e hold
    · cases heq
  | refuseRead hx hdone =>
    refine h.setRead fun b e he => ?_
    cases he
    rfl
  | begin hx hopen => exact h.setRead nofun
  | stop hx hdone =>
    refine h.setRead fun b e he => ?_
    cases he
    rfl
  | @transfer w r n m b hheld hx hr =>
    have hread := h.setRead (r := r) (z := ⟨m, .returned ((b.drop n).take m) none⟩) nofun
    have hwrite := h.setWrite (w := w)
      (x := PipeWrite.advance ⟨b, n, .sending⟩ ((b.drop n).take m).length) fun e he => by
        dsimp only [PipeWrite.advance] at he
        split at he <;> cases he
    exact ⟨hread.read, hwrite.write⟩
  | closeRead err =>
    refine ⟨h.read, fun i n c e hi => (h.write i n c e hi).imp_right fun hold => ?_⟩
    rw [closeRead, hold]
    rfl
  | closeWrite err =>
    refine ⟨fun i m c e hi => (h.read i m c e hi).imp_right fun hold => ?_, h.write⟩
    rw [closeWrite, hold]
    rfl

end Errors

end Pipe

end PTBridge.Stream
