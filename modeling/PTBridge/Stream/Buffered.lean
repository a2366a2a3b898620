import PTBridge.Stream.Reader

/-!
# Buffered readers

A `bufio.Reader` on a connection, and a parser that reads through it. The parser takes what it
needs from the buffer; the connection keeps what no `Read` has returned. What lies between the two
is in the buffer only.

- `Incoming` is what arrives on a connection, in the pieces in which the network delivers it. Behind
  the last piece the stream has ended, or a `Read` waits.
- `Scanner` is a parser that stops at the last byte of what it parses.
- `receive` runs a scanner on a connection. `receive_scanned` says which bytes it reads, which of
  them stay in the buffer, and which stay in the connection.
- `drain` reads all that arrives, and `discard` a fixed number of bytes through the buffer.
-/

namespace PTBridge.Stream

/-! ## Connections -/

/-- How a stream goes on behind the bytes that have arrived. -/
inductive Tail where
  /-- the peer may send more, and a `Read` waits for it -/
  | pending
  | ended (err : ReadError)
  deriving DecidableEq

/-- What arrives on a connection. A `Read` returns bytes of one piece. -/
structure Incoming where
  pieces : List Bytes
  tail : Tail
  nonempty : ∀ p ∈ pieces, p ≠ []

namespace Incoming

/-- The bytes that arrive and were not read. -/
def bytes (c : Incoming) : Bytes := c.pieces.flatten

theorem nonempty_cut {p : Bytes} {ps : List Bytes} {m : Nat} (h : ∀ q ∈ p :: ps, q ≠ [])
    (hlong : m < p.length) : ∀ q ∈ p.drop m :: ps, q ≠ [] := by
  intro q hq
  rcases List.mem_cons.mp hq with rfl | hq
  · exact List.ne_nil_of_length_pos (by rw [List.length_drop]; omega)
  · exact h q (List.mem_cons_of_mem p hq)

/-- `conn.Read(p)` with `len(p) = m`: the bytes and the connection afterwards. -/
def read (m : Nat) : Incoming → Except Tail (Bytes × Incoming)
  | ⟨[], t, _⟩ => .error t
  | ⟨p :: ps, t, h⟩ =>
      if hlong : m < p.length then .ok (p.take m, ⟨p.drop m :: ps, t, nonempty_cut h hlong⟩)
      else .ok (p, ⟨ps, t, fun q hq => h q (List.mem_cons_of_mem p hq)⟩)

variable {c c' : Incoming} {m : Nat} {data : Bytes}

/-- A `Read` takes the next piece, or as much of it as fits. -/
theorem read_cases (h : c.read m = .ok (data, c')) :
    ∃ p ps, c.pieces = p :: ps ∧ c'.tail = c.tail ∧
      ((m < p.length ∧ data = p.take m ∧ c'.pieces = p.drop m :: ps) ∨
        (data = p ∧ c'.pieces = ps)) := by
  obtain ⟨pieces, t, hne⟩ := c
  cases pieces with
  | nil => cases h
  | cons p ps =>
    refine ⟨p, ps, rfl, ?_⟩
    by_cases hlong : m < p.length
    · simp only [read, hlong, ↓reduceDIte, Except.ok.injEq, Prod.mk.injEq] at h
      obtain ⟨rfl, rfl⟩ := h
      exact ⟨rfl, .inl ⟨hlong, rfl, rfl⟩⟩
    · simp only [read, hlong, ↓reduceDIte, Except.ok.injEq, Prod.mk.injEq] at h
      obtain ⟨rfl, rfl⟩ := h
      exact ⟨rfl, .inr ⟨rfl, rfl⟩⟩

/-- A `Read` takes the next bytes, and at least one of them. -/
theorem read_ok (h : c.read m = .ok (data, c')) :
    c.bytes = data ++ c'.bytes ∧ c'.tail = c.tail ∧ (0 < m → data ≠ []) := by
  obtain ⟨p, ps, hpieces, htail, ⟨hlong, rfl, hrest⟩ | ⟨rfl, hrest⟩⟩ := read_cases h
  · refine ⟨?_, htail, fun hm => List.ne_nil_of_length_pos ?_⟩
    · simp [bytes, hpieces, hrest, ← List.append_assoc]
    · rw [List.length_take]
      omega
  · refine ⟨?_, htail, fun _ => c.nonempty data (by simp [hpieces])⟩
    rw [bytes, bytes, hpieces, hrest, List.flatten_cons]

/-- A `Read` that returns no bytes has found none. -/
theorem read_error {t : Tail} (h : c.read m = .error t) : c.bytes = [] ∧ t = c.tail := by
  obtain ⟨pieces, t', hne⟩ := c
  cases pieces with
  | nil =>
    cases h
    exact ⟨rfl, rfl⟩
  | cons p ps =>
    simp only [read] at h
    split at h <;> cases h

/-- A `Read` into a buffer makes the rest shorter. -/
theorem read_lt (hm : 0 < m) (h : c.read m = .ok (data, c')) :
    c'.bytes.length < c.bytes.length := by
  obtain ⟨hbytes, -, hne⟩ := read_ok h
  have hpos := List.length_pos_iff.mpr (hne hm)
  rw [hbytes, List.length_append]
  omega

/-- A `Read` does not go past the end of a piece. -/
theorem read_within {as bs : List Bytes} (hpieces : c.pieces = as ++ bs) (has : as ≠ [])
    (h : c.read m = .ok (data, c')) :
    ∃ as', c'.pieces = as' ++ bs ∧ as.flatten = data ++ as'.flatten := by
  obtain ⟨q, as, rfl⟩ := List.exists_cons_of_ne_nil has
  obtain ⟨p, ps, hfirst, -, hread⟩ := read_cases h
  rw [hpieces, List.cons_append, List.cons.injEq] at hfirst
  obtain ⟨rfl, rfl⟩ := hfirst
  rcases hread with ⟨-, rfl, hrest⟩ | ⟨rfl, hrest⟩
  · exact ⟨q.drop m :: as, hrest, by simp [← List.append_assoc]⟩
  · exact ⟨as, hrest, rfl⟩

/-- A connection that has returned its error. -/
def finished (err : ReadError) : Incoming := ⟨[], .ended err, by simp⟩

/-- The same bytes on a connection whose peer has not ended its stream. -/
def stillOpen (c : Incoming) : Incoming := { c with tail := .pending }

theorem read_stillOpen (h : c.read m = .ok (data, c')) :
    c.stillOpen.read m = .ok (data, c'.stillOpen) := by
  obtain ⟨pieces, t, hne⟩ := c
  cases pieces with
  | nil => cases h
  | cons p ps =>
    by_cases hlong : m < p.length
    · simp only [read, hlong, ↓reduceDIte, Except.ok.injEq, Prod.mk.injEq, stillOpen] at h ⊢
      obtain ⟨rfl, rfl⟩ := h
      exact ⟨rfl, rfl⟩
    · simp only [read, hlong, ↓reduceDIte, Except.ok.injEq, Prod.mk.injEq, stillOpen] at h ⊢
      obtain ⟨rfl, rfl⟩ := h
      exact ⟨rfl, rfl⟩

theorem read_stillOpen_error {t : Tail} (h : c.read m = .error t) :
    c.stillOpen.read m = .error .pending := by
  obtain ⟨pieces, t', hne⟩ := c
  cases pieces with
  | nil => rfl
  | cons p ps =>
    simp only [read] at h
    split at h <;> cases h

end Incoming

/-! ## Parsers -/

/-- What a parser makes of some bytes: it is in need of more, or it is done and has not looked at
the rest. -/
inductive Scan (σ α : Type) where
  | more (s : σ)
  | done (a : α) (rest : Bytes)

/-- The size of the buffer of `bufio.NewReader`. -/
def bufSize : Nat := 4096

/-- A parser that goes from byte to byte, and stops by itself. -/
structure Scanner (σ α : Type) where
  start : σ
  /-- The state behind the next byte, or the result. -/
  next : σ → UInt8 → σ ⊕ α
  /-- How many bytes the parser has seen and still leaves in the buffer. -/
  held : σ → Nat
  held_lt : ∀ s, held s < bufSize

namespace Scanner

variable {σ α : Type} (sc : Scanner σ α)

def scan : σ → Bytes → Scan σ α
  | s, [] => .more s
  | s, b :: bs =>
      match sc.next s b with
      | .inl s' => scan s' bs
      | .inr a => .done a bs

/-- The bytes are just those that the parser needs for its result. -/
def Scans (s : σ) (bs : Bytes) (a : α) : Prop := sc.scan s bs = .done a []

variable {sc} {s s' : σ} {a : α} {xs ys rest : Bytes}

theorem scan_append_more (h : sc.scan s xs = .more s') : sc.scan s (xs ++ ys) = sc.scan s' ys := by
  induction xs generalizing s with
  | nil =>
    cases h
    rfl
  | cons x xs ih =>
    simp only [List.cons_append, scan] at h ⊢
    cases hnext : sc.next s x with
    | inl s₁ =>
      rw [hnext] at h
      exact ih h
    | inr a =>
      rw [hnext] at h
      cases h

theorem scan_append_done (h : sc.scan s xs = .done a rest) :
    sc.scan s (xs ++ ys) = .done a (rest ++ ys) := by
  induction xs generalizing s with
  | nil => cases h
  | cons x xs ih =>
    simp only [List.cons_append, scan] at h ⊢
    cases hnext : sc.next s x with
    | inl s₁ =>
      rw [hnext] at h
      exact ih h
    | inr a' =>
      rw [hnext] at h
      cases h
      rfl

/-- A parser that still needs bytes needs those that are left of its input. -/
theorem Scans.of_more (h : sc.Scans s (xs ++ ys) a) (hmore : sc.scan s xs = .more s') :
    sc.Scans s' ys a := by
  unfold Scans at h ⊢
  rwa [scan_append_more hmore] at h

/-- A parser stops nowhere but at the end of what it needs. -/
theorem Scans.done_eq {a' : α} (h : sc.Scans s (xs ++ ys) a)
    (hdone : sc.scan s xs = .done a' rest) : a' = a ∧ rest = [] ∧ ys = [] := by
  unfold Scans at h
  rw [scan_append_done hdone] at h
  simp only [Scan.done.injEq, List.append_eq_nil_iff] at h
  exact ⟨h.1, h.2.1, h.2.2⟩

theorem Scans.append (h : sc.Scans s xs a) (ys : Bytes) :
    sc.scan s (xs ++ ys) = .done a ys := by
  rw [scan_append_done h, List.nil_append]

end Scanner

/-! ## Parsing through a buffer -/

/-- A `bufio.Reader`: what it has read ahead, and the connection behind. -/
structure Buffered where
  buf : Bytes
  conn : Incoming

/-- How a parser gets on that reads through a buffer; `reads` is what each `Read` of the connection
has returned. -/
inductive Received (α : Type) where
  | done (a : α) (reads : List Bytes) (br : Buffered)
  /-- a `Read` waits, or returns the error of the connection -/
  | stopped (reads : List Bytes) (t : Tail)

namespace Received

variable {α : Type}

def afterRead (data : Bytes) : Received α → Received α
  | .done a reads br => .done a (data :: reads) br
  | .stopped reads t => .stopped (data :: reads) t

def reads : Received α → List Bytes
  | .done _ reads _ => reads
  | .stopped reads _ => reads

@[simp] theorem reads_afterRead (data : Bytes) (r : Received α) :
    (r.afterRead data).reads = data :: r.reads := by
  cases r <;> rfl

end Received

section Receive

variable {σ α : Type} {sc : Scanner σ α}

theorem Scanner.room_pos (sc : Scanner σ α) (s : σ) : 0 < bufSize - sc.held s :=
  Nat.sub_pos_of_lt (sc.held_lt s)

/-- The parser has used up the buffer but for what it holds; the buffer is filled by one `Read`
into the room that is left. -/
def receive (sc : Scanner σ α) (s : σ) (c : Incoming) : Received α :=
  match _hread : c.read (bufSize - sc.held s) with
  | .error t => .stopped [] t
  | .ok (data, c') =>
      match sc.scan s data with
      | .done a rest => .done a [data] ⟨rest, c'⟩
      | .more s' => (receive sc s' c').afterRead data
termination_by c.bytes.length
decreasing_by exact Incoming.read_lt (sc.room_pos s) _hread

variable {s s' : σ} {c c' : Incoming} {data rest : Bytes} {a : α}

theorem receive_stopped {t : Tail} (hread : c.read (bufSize - sc.held s) = .error t) :
    receive sc s c = .stopped [] t := by
  rw [receive]
  split
  · simp_all
  · simp_all

theorem receive_done (hread : c.read (bufSize - sc.held s) = .ok (data, c'))
    (hscan : sc.scan s data = .done a rest) : receive sc s c = .done a [data] ⟨rest, c'⟩ := by
  rw [receive]
  split
  · simp_all
  · simp_all

theorem receive_more (hread : c.read (bufSize - sc.held s) = .ok (data, c'))
    (hscan : sc.scan s data = .more s') : receive sc s c = (receive sc s' c').afterRead data := by
  rw [receive]
  split
  · simp_all
  · simp_all

/-- A parser that needs bytes of the stream gets some of them from its next `Read`. -/
theorem Scanner.Scans.read {xs : Bytes} (hscans : sc.Scans s xs a)
    (hbytes : c.bytes = xs ++ rest) :
    ∃ data c', c.read (bufSize - sc.held s) = .ok (data, c') ∧
      c'.bytes.length < c.bytes.length := by
  cases hread : c.read (bufSize - sc.held s) with
  | error t =>
    obtain ⟨hnil, -⟩ := Incoming.read_error hread
    rw [hbytes, List.append_eq_nil_iff] at hnil
    rw [hnil.1] at hscans
    cases hscans
  | ok next =>
    exact ⟨next.1, next.2, rfl, Incoming.read_lt (sc.room_pos s) hread⟩

/-- A stream that starts with what the parser needs: the parser gets its result, it has read the
whole of that, and what it has read beyond stays in the buffer. -/
theorem receive_scanned (c : Incoming) :
    ∀ (s : σ) (xs rest : Bytes) (a : α), c.bytes = xs ++ rest → sc.Scans s xs a →
      ∃ reads br, receive sc s c = .done a reads br ∧ reads.flatten = xs ++ br.buf ∧
        rest = br.buf ++ br.conn.bytes ∧ br.conn.tail = c.tail := by
  -- on the number of bytes to come, which every `Read` lowers
  induction hlen : c.bytes.length using Nat.strong_induction_on generalizing c with
  | _ n ih =>
    intro s xs rest a hbytes hscans
    obtain ⟨data, c', hread, hlt⟩ := hscans.read hbytes
    obtain ⟨hdata, htail, -⟩ := Incoming.read_ok hread
    rw [hbytes] at hdata
    -- the `Read` takes in all of `xs`, or ends within it
    rcases List.append_eq_append_iff.mp hdata with ⟨zs, hzs, hrest⟩ | ⟨zs, hzs, hrest⟩
    · have hscan : sc.scan s data = .done a zs := by rw [hzs, hscans.append]
      exact ⟨_, _, receive_done hread hscan, by simp [hzs], hrest, htail⟩
    · rw [hzs] at hscans
      cases hscan : sc.scan s data with
      | done a' left =>
        obtain ⟨rfl, rfl, rfl⟩ := hscans.done_eq hscan
        refine ⟨_, _, receive_done hread hscan, by simp [hzs], ?_, htail⟩
        simpa using hrest.symm
      | more s' =>
        obtain ⟨reads, br, hrec, hreads, hrest', htail'⟩ :=
          ih c'.bytes.length (hlen ▸ hlt) c' rfl s' zs rest a hrest (hscans.of_more hscan)
        refine ⟨data :: reads, br, ?_, ?_, hrest', htail'.trans htail⟩
        · rw [receive_more hread hscan, hrec, Received.afterRead]
        · rw [List.flatten_cons, hreads, hzs, List.append_assoc]

/-- If a piece ends with what the parser needs, then no `Read` brings more. -/
theorem receive_boundary (c : Incoming) :
    ∀ (s : σ) (as bs : List Bytes) (a : α), c.pieces = as ++ bs → sc.Scans s as.flatten a →
      ∃ reads br, receive sc s c = .done a reads br ∧ reads.flatten = as.flatten := by
  induction hlen : c.bytes.length using Nat.strong_induction_on generalizing c with
  | _ n ih =>
    intro s as bs a hpieces hscans
    have has : as ≠ [] := by
      rintro rfl
      cases hscans
    have hbytes : c.bytes = as.flatten ++ bs.flatten := by
      rw [Incoming.bytes, hpieces, List.flatten_append]
    obtain ⟨data, c', hread, hlt⟩ := hscans.read hbytes
    obtain ⟨as', hpieces', hflatten⟩ := Incoming.read_within hpieces has hread
    rw [hflatten] at hscans ⊢
    cases hscan : sc.scan s data with
    | done a' left =>
      obtain ⟨rfl, rfl, hnil⟩ := hscans.done_eq hscan
      exact ⟨_, _, receive_done hread hscan, by simp [hnil]⟩
    | more s' =>
      obtain ⟨reads, br, hrec, hreads⟩ :=
        ih c'.bytes.length (hlen ▸ hlt) c' rfl s' as' bs a hpieces' (hscans.of_more hscan)
      refine ⟨data :: reads, br, ?_, ?_⟩
      · rw [receive_more hread hscan, hrec, Received.afterRead]
      · rw [List.flatten_cons, hreads]

/-- What is read for the parser does not depend on how the stream ends. -/
theorem reads_stillOpen (sc : Scanner σ α) (s : σ) (c : Incoming) :
    (receive sc s c.stillOpen).reads = (receive sc s c).reads := by
  induction hlen : c.bytes.length using Nat.strong_induction_on generalizing c s with
  | _ n ih =>
    cases hread : c.read (bufSize - sc.held s) with
    | error t =>
      rw [receive_stopped hread, receive_stopped (Incoming.read_stillOpen_error hread)]
      rfl
    | ok next =>
      obtain ⟨data, c'⟩ := next
      have hopen := Incoming.read_stillOpen hread
      have hlt := Incoming.read_lt (sc.room_pos s) hread
      cases hscan : sc.scan s data with
      | done a rest =>
        rw [receive_done hread hscan, receive_done hopen hscan]
        rfl
      | more s' =>
        rw [receive_more hread hscan, receive_more hopen hscan, Received.reads_afterRead,
          Received.reads_afterRead, ih c'.bytes.length (hlen ▸ hlt) s' c' rfl]

end Receive

/-! ## Reading on -/

/-- `io.Copy` from a connection: what each `Read` into a buffer of `m + 1` bytes returns, and how the
loop ends. -/
def drain (m : Nat) (c : Incoming) : List Bytes × Tail :=
  match _hread : c.read (m + 1) with
  | .error t => ([], t)
  | .ok (data, c') => (data :: (drain m c').1, (drain m c').2)
termination_by c.bytes.length
decreasing_by all_goals exact Incoming.read_lt (Nat.succ_pos m) _hread

/-- The loop reads all that arrives. -/
theorem drain_eq (m : Nat) (c : Incoming) :
    (drain m c).1.flatten = c.bytes ∧ (drain m c).2 = c.tail := by
  induction hlen : c.bytes.length using Nat.strong_induction_on generalizing c with
  | _ n ih =>
    rw [drain]
    split
    · rename_i t hread
      obtain ⟨hnil, rfl⟩ := Incoming.read_error hread
      exact ⟨hnil.symm, rfl⟩
    · rename_i data c' hread
      obtain ⟨hdata, htail, -⟩ := Incoming.read_ok hread
      have hlt := Incoming.read_lt (Nat.succ_pos m) hread
      obtain ⟨hbytes, hend⟩ := ih c'.bytes.length (hlen ▸ hlt) c' rfl
      exact ⟨by rw [List.flatten_cons, hbytes, hdata], hend.trans htail⟩

/-- The buffer of `io.Discard`. -/
def discardBuffer : Nat := 8192

/-- `io.Copy(io.Discard, r)` where `r` is the next `n` bytes behind the buffer. A `Read` returns what
is buffered; it fills an empty buffer first, or reads past it if as much is asked for. -/
def discard (n : Nat) (br : Buffered) : Except Tail Buffered :=
  if n = 0 then .ok br
  else if 0 < br.buf.length then discard (n - br.buf.length) ⟨br.buf.drop n, br.conn⟩
  else if bufSize ≤ n then
    match _hread : br.conn.read (min n discardBuffer) with
    | .error t => .error t
    | .ok (data, c') => discard (n - data.length) ⟨[], c'⟩
  else
    match _hread : br.conn.read bufSize with
    | .error t => .error t
    | .ok (data, c') => discard n ⟨data, c'⟩
termination_by n + br.conn.bytes.length
decreasing_by
  · omega
  · have hlt := Incoming.read_lt (by simp only [discardBuffer, bufSize] at *; omega) _hread
    omega
  · have hlt := Incoming.read_lt (by decide) _hread
    omega

theorem discard_zero (br : Buffered) : discard 0 br = .ok br := by
  rw [discard, if_pos rfl]

/-- It fails with the error of the connection. -/
theorem discard_error {n : Nat} {br : Buffered} {t : Tail} (h : discard n br = .error t) :
    br.conn.tail = t := by
  -- along the calls of `Read`, none of which changes how the stream ends
  fun_induction discard n br with
  | case1 => cases h
  | case2 n br hn hbuf ih => exact ih h
  | case3 n br hn hbuf hlarge t' hread =>
    cases h
    exact (Incoming.read_error hread).2.symm
  | case4 n br hn hbuf hlarge data c' hread ih =>
    exact (Incoming.read_ok hread).2.1.symm.trans (ih h)
  | case5 n br hn hbuf hlarge t' hread =>
    cases h
    exact (Incoming.read_error hread).2.symm
  | case6 n br hn hbuf hlarge data c' hread ih =>
    exact (Incoming.read_ok hread).2.1.symm.trans (ih h)

/-- The bytes that are gone were there. -/
theorem discard_ok {n : Nat} {br br' : Buffered} (h : discard n br = .ok br') :
    n + (br'.buf ++ br'.conn.bytes).length ≤ (br.buf ++ br.conn.bytes).length := by
  -- along the calls of `Read`
  fun_induction discard n br with
  | case1 br =>
    cases h
    rw [Nat.zero_add]
  | case2 n br hn hbuf ih =>
    have hle := ih h
    simp only [List.length_append, List.length_drop] at hle ⊢
    omega
  | case3 => cases h
  | case4 n br hn hbuf hlarge data c' hread ih =>
    have hle := ih h
    obtain ⟨hbytes, -, -⟩ := Incoming.read_ok hread
    simp only [hbytes, List.length_append, List.length_nil] at hle ⊢
    omega
  | case5 => cases h
  | case6 n br hn hbuf hlarge data c' hread ih =>
    have hle := ih h
    obtain ⟨hbytes, -, -⟩ := Incoming.read_ok hread
    simp only [hbytes, List.length_append] at hle ⊢
    omega

end PTBridge.Stream
