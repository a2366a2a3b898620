import PTBridge.Stream.Buffered

/-!
# HTTP heads

How `http.ReadRequest` and `http.ReadResponse` read a head through a `bufio.Reader`: line by line,
up to the first empty line. The bytes of a line stay in the buffer until its end has come, or until
they fill the buffer. What `net/http` makes of a head is a parameter.
-/

namespace PTBridge.Net

open PTBridge.Stream

structure HeadState where
  /-- All of the head so far. -/
  head : Bytes
  /-- The bytes behind its last line break. -/
  line : Bytes

def lineFeed : UInt8 := 10
def carriageReturn : UInt8 := 13

def headNext {α : Type} (parse : Bytes → α) (s : HeadState) (b : UInt8) : HeadState ⊕ α :=
  if b = lineFeed then
    if s.line = [] ∨ s.line = [carriageReturn] then .inr (parse (s.head ++ [b]))
    else .inl ⟨s.head ++ [b], []⟩
  else .inl ⟨s.head ++ [b], s.line ++ [b]⟩

/-- `http.ReadRequest` and `http.ReadResponse`, with `parse` for what they return. -/
def headScanner {α : Type} (parse : Bytes → α) : Scanner HeadState α where
  start := ⟨[], []⟩
  next := headNext parse
  held s := s.line.length % bufSize
  held_lt s := Nat.mod_lt _ (by decide)

@[simp] theorem headScanner_next {α : Type} (parse : Bytes → α) :
    (headScanner parse).next = headNext parse := rfl

/-- The bytes are a head: they end with their first empty line. -/
def IsHead (bs : Bytes) : Prop :=
  ∃ h, (headScanner (fun h => h)).Scans ⟨[], []⟩ bs h

section

variable {α : Type} {parse : Bytes → α} {s : HeadState} {bs h : Bytes}

theorem headScanner_scans (hscans : (headScanner (fun h => h)).Scans s bs h) :
    (headScanner parse).Scans s bs (parse (s.head ++ bs)) := by
  unfold Scanner.Scans at hscans ⊢
  -- along the bytes; the state has the head up to here
  induction bs generalizing s with
  | nil => cases hscans
  | cons b bs ih =>
    rw [Scanner.scan] at hscans ⊢
    simp only [headScanner_next, headNext] at hscans ⊢
    split_ifs at hscans ⊢ with hbreak hempty
    · -- the empty line
      simp only [Scan.done.injEq] at hscans ⊢
      simp [hscans.2]
    · simpa using ih hscans
    · simpa using ih hscans

/-- A head is read to its end, and parsed as a whole. -/
theorem IsHead.scans (hhead : IsHead bs) (parse : Bytes → α) :
    (headScanner parse).Scans (headScanner parse).start bs (parse bs) := by
  obtain ⟨h, hscans⟩ := hhead
  exact headScanner_scans hscans

end

/-- What the connection was asked for until the head was there. -/
def headReads {α : Type} (parse : Bytes → α) (c : Incoming) : List Bytes :=
  (receive (headScanner parse) (headScanner parse).start c).reads

/-- A stream that starts with a head: what is read behind it is in the buffer, and the rest in the
connection. -/
theorem receive_head {α : Type} (parse : Bytes → α) {c : Incoming} {head rest : Bytes}
    (hhead : IsHead head) (hbytes : c.bytes = head ++ rest) :
    ∃ br, receive (headScanner parse) (headScanner parse).start c =
        .done (parse head) (headReads parse c) br ∧
      (headReads parse c).flatten = head ++ br.buf ∧ rest = br.buf ++ br.conn.bytes ∧
      br.conn.tail = c.tail := by
  obtain ⟨reads, br, hreceive, hreads, hrest, htail⟩ :=
    receive_scanned c _ head rest _ hbytes (hhead.scans parse)
  have heq : headReads parse c = reads := by rw [headReads, hreceive]; rfl
  rw [heq]
  exact ⟨br, hreceive, hreads, hrest, htail⟩

/-- If a piece ends with the head, then no more than the head is read. -/
theorem headReads_boundary {α : Type} (parse : Bytes → α) {c : Incoming} (as bs : List Bytes)
    (hhead : IsHead as.flatten) (hpieces : c.pieces = as ++ bs) :
    (headReads parse c).flatten = as.flatten := by
  obtain ⟨reads, br, hreceive, hreads⟩ :=
    receive_boundary c _ as bs _ hpieces (hhead.scans parse)
  rw [headReads, hreceive]
  exact hreads

end PTBridge.Net
