import PTBridge.Snowflake.Encapsulation
import PTBridge.Snowflake.Turbotunnel

/-!
# `websocketconn` and the read side of `serveHTTP`

A `websocketconn.Conn` writes into a pipe. `writeLoop` takes the bytes out of it in pieces of at
most 2048, each of which becomes one binary message; `readLoop` on the other side copies what it
reads of each message into a second pipe, from which `serveHTTP` reads the token, the client id
and then one packet after the other.

- `messages` is what `writeLoop` sends for the writes on a connection.
- `pipeReader` is what `readLoop` makes of the pieces that arrive.
- `serveIncoming` is `serveHTTP` up to its calls of `QueueIncoming`; `serveIncoming_cut` says what
  these calls are when the stream of a client is cut anywhere.
-/

namespace PTBridge.Snowflake

open PTBridge.Stream

/-! ## `websocketconn` -/

/-- The buffer of `writeLoop`. -/
def messageSize : Nat := 2048

/-- The reads of `writeLoop` for one write of `b` into the pipe: a read takes what fits into its
buffer and never goes past the end of a write. No caller writes an empty slice. -/
def splitWrite (b : Bytes) : List Bytes :=
  if b = [] then []
  else if b.length ≤ messageSize then [b]
  else b.take messageSize :: splitWrite (b.drop messageSize)
termination_by b.length
decreasing_by
  rename_i hlong
  rw [List.length_drop]
  have hsize : 0 < messageSize := by decide
  omega

/-- The messages of `writeLoop` for the writes on a connection. -/
def messages (writes : List Bytes) : List Bytes := writes.flatMap splitWrite

theorem splitWrite_flatten (b : Bytes) : (splitWrite b).flatten = b := by
  fun_induction splitWrite b with
  | case1 => rfl
  | case2 b hne hfits => simp
  | case3 b hne hlong ih => rw [List.flatten_cons, ih, List.take_append_drop]

/-- The messages carry exactly what was written. -/
theorem messages_flatten (writes : List Bytes) : (messages writes).flatten = writes.flatten := by
  induction writes with
  | nil => rfl
  | cons b bs ih =>
    rw [messages, List.flatMap_cons, List.flatten_append, splitWrite_flatten, List.flatten_cons]
    exact congrArg _ ih

/-- What `conn.Read` sees of the pieces `readLoop` reads: `io.Copy` writes each piece that is not
empty, and the error of `readLoop` closes the pipe. -/
def pipeReader (pieces : List Bytes) (err : ReadError) : Reader :=
  (pieces.filter (· ≠ [])).map (⟨·, none⟩) ++ [⟨[], some err⟩]

theorem pipeReader_bytes (pieces : List Bytes) (err : ReadError) :
    (pipeReader pieces err).bytes = pieces.flatten := by
  induction pieces with
  | nil => rfl
  | cons b bs ih =>
    -- an empty piece is not written into the pipe, and has no bytes
    cases b with
    | nil => exact ih
    | cons x xs => exact congrArg ((x :: xs) ++ ·) ih

theorem pipeReader_plain (pieces : List Bytes) (err : ReadError) :
    (pipeReader pieces err).Plain := by
  intro d hd
  rcases List.mem_append.mp hd with hd | hd
  · obtain ⟨b, hb, rfl⟩ := List.mem_map.mp hd
    exact Or.inl ⟨of_decide_eq_true (List.mem_filter.mp hb).2, rfl⟩
  · exact Reader.plain_error err d hd

/-! ## `serveHTTP` -/

/-- The packets of the loop over `ReadData`, until its error. -/
def incoming (r : Reader) : List Bytes :=
  match _h : readData r with
  | (.error _, _) => []
  | (.ok p, r') => p :: incoming r'
termination_by r.size
decreasing_by exact size_readData_lt _h

/-- The calls `QueueIncoming(p, clientID)` of `serveHTTP` for one WebSocket. -/
def serveIncoming (conn : Reader) : List (Bytes × Bytes) :=
  match readFull token.length conn with
  | (_, some _, _) => []
  | (tok, none, conn) =>
      if tok ≠ token then []
      else
        -- the client's id, which is not checked against anything
        match readFull 8 conn with
        | (_, some _, _) => []
        | (clientID, none, conn) => (incoming conn).map (·, clientID)

/-! ## A stream that is cut -/

/-- Packets that `WriteData` accepts, written one after the other. -/
def encodeAll (ps : List Bytes) : Bytes := (ps.filterMap encodeData).flatten

theorem encodeAll_snoc {ps : List Bytes} {p enc : Bytes} (henc : encodeData p = some enc) :
    encodeAll (ps ++ [p]) = encodeAll ps ++ enc := by
  simp [encodeAll, List.filterMap_append, henc]

/-- A part of `l₁ ++ l₂` that begins it ends inside `l₁`, or has all of `l₁`. -/
theorem begin_append_cases {α : Type} {b l₁ l₂ : List α} (h : b <+: l₁ ++ l₂) :
    (b <+: l₁ ∧ b.length < l₁.length) ∨ ∃ c, b = l₁ ++ c ∧ c <+: l₂ := by
  rcases Nat.lt_or_ge b.length l₁.length with hlt | hge
  · exact Or.inl
      ⟨List.prefix_of_prefix_length_le h (List.prefix_append _ _) (Nat.le_of_lt hlt), hlt⟩
  · obtain ⟨c, rfl⟩ := List.prefix_of_prefix_length_le (List.prefix_append l₁ l₂) h hge
    exact Or.inr ⟨c, rfl, (List.prefix_append_right_inj l₁).mp h⟩

/-- From the first part of a stream of packets come the first packets. -/
theorem incoming_cut {ps : List Bytes} {r : Reader} (hr : r.Plain)
    (hps : ∀ p ∈ ps, (encodeData p).isSome = true) (hbytes : r.bytes <+: encodeAll ps) :
    ∃ k, incoming r = ps.take k := by
  induction ps generalizing r with
  | nil =>
    -- nothing was written, and `ReadData` fails
    have hnil : r.bytes = [] := List.prefix_nil.mp hbytes
    have hdec := readPrefix_plain hr
    rw [hnil] at hdec
    obtain ⟨err, r', herr⟩ := hdec
    refine ⟨0, ?_⟩
    rw [incoming, readData_error herr]
    rfl
  | cons p ps ih =>
    obtain ⟨enc, henc⟩ := Option.isSome_iff_exists.mp (hps p List.mem_cons_self)
    have hall : encodeAll (p :: ps) = enc ++ encodeAll ps := by
      simp [encodeAll, henc]
    rw [hall] at hbytes
    -- the first packet is cut and nothing comes, or it comes and the rest is cut
    rcases begin_append_cases hbytes with ⟨hcut, hshort⟩ | ⟨rest, hrest, hle⟩
    · obtain ⟨err, r', herr⟩ := readData_cut hr henc hcut hshort
      refine ⟨0, ?_⟩
      rw [incoming, herr]
      rfl
    · obtain ⟨r', hread, hat⟩ := readData_encode hr henc hrest
      obtain ⟨k, hk⟩ := ih hat.plain (fun q hq => hps q (List.mem_cons_of_mem _ hq))
        (by rw [hat.bytes]; exact hle)
      refine ⟨k + 1, ?_⟩
      rw [incoming, hread, List.take_succ_cons, ← hk]

/-- What a client writes before its first packet. -/
def preamble (id : ClientID) : Bytes := token ++ id.bytes

/-- `serveHTTP` on the first part of what a client writes: the calls of `QueueIncoming` are for the
first packets, in order, under the client's own id. -/
theorem serveIncoming_cut {id : ClientID} {ps : List Bytes} {r : Reader} (hr : r.Plain)
    (hps : ∀ p ∈ ps, (encodeData p).isSome = true)
    (hbytes : r.bytes <+: preamble id ++ encodeAll ps) :
    ∃ k, serveIncoming r = (ps.take k).map (·, id.bytes) := by
  rw [preamble, List.append_assoc] at hbytes
  unfold serveIncoming
  -- the cut is in the token, in the id, or behind both
  rcases begin_append_cases hbytes with ⟨-, hshort⟩ | ⟨rest, hrest, hle⟩
  · obtain ⟨r', hread, -, -⟩ := readFull_short hshort
    exact ⟨0, by rw [hread]; rfl⟩
  · have hlen : token.length ≤ r.bytes.length := by
      rw [hrest, List.length_append]
      omega
    obtain ⟨r₁, hread₁, hbytes₁, -⟩ := readFull_enough hlen
    rw [hrest, List.take_left' rfl] at hread₁
    rw [hrest, List.drop_left' rfl] at hbytes₁
    have hplain₁ := hr.readFull token.length
    rw [hread₁] at hplain₁
    rw [hread₁]
    simp only [ne_eq, not_true_eq_false, ↓reduceIte]
    rcases begin_append_cases hle with ⟨-, hshort⟩ | ⟨rest₂, hrest₂, hle₂⟩
    · rw [← hbytes₁, id.size] at hshort
      obtain ⟨r', hread, -, -⟩ := readFull_short hshort
      exact ⟨0, by rw [hread]; rfl⟩
    · have hlen₂ : 8 ≤ r₁.bytes.length := by
        rw [hbytes₁, hrest₂, List.length_append, id.size]
        omega
      obtain ⟨r₂, hread₂, hbytes₂, -⟩ := readFull_enough hlen₂
      rw [hbytes₁, hrest₂, List.take_left' id.size] at hread₂
      rw [hbytes₁, hrest₂, List.drop_left' id.size] at hbytes₂
      have hplain₂ := hplain₁.readFull 8
      rw [hread₂] at hplain₂
      obtain ⟨k, hk⟩ := incoming_cut hplain₂ hps (by rw [hbytes₂]; exact hle₂)
      exact ⟨k, by rw [hread₂]; simp only [hk]⟩

end PTBridge.Snowflake
