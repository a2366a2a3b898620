import PTBridge.Snowflake.Socks5

/-!
# What `HandshakeServer` accepts

The handshake on a connection, with a record of what was written and what was still to be read then.

- `Greeting` and `Request` are the two parts of the grammar; `readGreeting` and `readRequest` are the
  parts of the code before and behind the reply.
- `handshake` runs them on a connection; `handshakeServer_eq`: this is `HandshakeServer`.
- `handshake_exact`: it returns a target exactly in front of a greeting and a request for it, has
  then consumed no more than these, and replies once, right behind the greeting.
-/

namespace PTBridge.Snowflake.Socks5

open PTBridge.Net PTBridge.Stream

/-! ## The grammar -/

/-- `05`, the number of methods, and the methods. -/
inductive Greeting : Bytes → Prop where
  | mk {n : UInt8} {methods : Bytes} (hlen : methods.length = n.toNat) :
      Greeting ([version5, n] ++ methods)

/-- `05 01`, a reserved byte, an address and a port, and the target they stand for. -/
inductive Request (net : IPText) : Bytes → Target → Prop where
  | mk (rsv : UInt8) {addr host : Bytes} (haddr : AddrForm net addr host) (port : UInt16) :
      Request net ([version5, cmdConnect] ++ ([rsv] ++ (addr ++ putUint16 port)))
        ⟨tcp, host, port.toNat⟩

/-! ## The code on a connection -/

def readGreeting : ReadM Err Unit := do
  let hdr ← readArray .read 2
  if hdr.getD 0 0 ≠ version5 then throw .unsupportedVersion
  else
    let _methods ← readArray .read (hdr.getD 1 0).toNat
    return ()

def readRequest (net : IPText) : ReadM Err Target := do
  let hdr ← readArray .read 2
  if hdr.getD 0 0 ≠ version5 then throw .unsupportedVersion
  else if hdr.getD 1 0 ≠ cmdConnect then throw .unsupportedCommand
  else
    let _rsv ← readArray .read 1
    let host ← readHost net
    let port ← readPort
    return ⟨tcp, host, port⟩

/-- A connection: both directions, and each `Write` with what was still to be read. -/
structure Conn where
  reader : Reader
  sink : Sink
  log : List (Bytes × Bytes)

/-- `conn.Write(b)`. -/
def Conn.write (c : Conn) (b : Bytes) : Bool × Conn :=
  match c.sink.write b with
  | (_, ok, sink) => (ok, ⟨c.reader, sink, c.log ++ [(b, c.reader.bytes)]⟩)

/-- The reply to the greeting: no authentication. -/
def methodReply : Bytes := [version5, 0x00]

/-- `HandshakeServer`: the target or the error, and the connection afterwards. -/
def handshake (net : IPText) (c : Conn) : Except Err Target × Conn :=
  match readGreeting c.reader with
  | .error e r => (.error e, { c with reader := r })
  | .ok _ r =>
      match { c with reader := r }.write methodReply with
      | (false, c') => (.error .write, c')
      | (true, c') =>
          match readRequest net c'.reader with
          | .error e r' => (.error e, { c' with reader := r' })
          | .ok target r' => (.ok target, { c' with reader := r' })

/-- `HandshakeServer` in its two parts. -/
theorem handshakeServer_parts (net : IPText) (k : Sink) :
    handshakeServer net k = (do
      readGreeting
      if (k.write methodReply).2.1 = false then throw .write
      else
        let target ← readRequest net
        return (target, (k.write methodReply).2.2)) := by
  unfold handshakeServer readGreeting readRequest
  rw [bind_assoc]
  apply bind_congr
  intro hdr
  split
  · rfl
  · simp only [bind_assoc, pure_bind]
    apply bind_congr
    intro methods
    by_cases hfailed : (k.write methodReply).2.1 = false
    · simp only [if_pos hfailed]
      exact if_pos hfailed
    · simp only [if_neg hfailed]
      refine (if_neg hfailed).trans ?_
      apply bind_congr
      intro hdr'
      split
      · rfl
      · split
        · rfl
        · simp only [bind_assoc, pure_bind]
          rfl

/-- `handshake` is `HandshakeServer`. -/
theorem handshakeServer_eq (net : IPText) (k : Sink) (r : Reader) :
    handshakeServer net k r =
      match handshake net ⟨r, k, []⟩ with
      | (.ok target, c) => .ok (target, c.sink) c.reader
      | (.error e, c) => .error e c.reader := by
  rw [handshakeServer_parts]
  unfold handshake
  cases hgreet : readGreeting r with
  | error e r₁ => simp only [bind_of_error hgreet]
  | ok u r₁ =>
    simp only [bind_of_ok hgreet, Conn.write]
    cases hok : (k.write methodReply).2.1 with
    | false => rfl
    | true =>
      simp only [Bool.true_eq_false, ↓reduceIte]
      cases hrequest : readRequest net r₁ with
      | error e r₂ => simp only [bind_of_error hrequest]
      | ok target r₂ =>
        simp only [bind_of_ok hrequest]
        rfl

/-! ## The parts -/

section Parts

variable {net : IPText} {r r' : Reader} {enc : Bytes} {target : Target}

theorem reads_greeting (h : Greeting enc) : Reads readGreeting enc () := by
  cases h with
  | @mk n methods hlen =>
    unfold readGreeting
    apply (reads_readArray Err.read (b := [version5, n]) rfl).bind
    simp only [List.getD_cons_zero, List.getD_cons_succ, ne_eq, not_true_eq_false, ↓reduceIte]
    exact (reads_readArray Err.read hlen).map fun _ => ()

theorem readGreeting_ok (h : readGreeting r = .ok () r') :
    ∃ enc, Greeting enc ∧ r.bytes = enc ++ r'.bytes := by
  obtain ⟨hdr, r₁, hhdr, h⟩ := bind_ok.mp h
  obtain ⟨htwo, hbytes₁⟩ := readArray_ok hhdr
  obtain ⟨v, n, rfl⟩ := List.length_eq_two.mp htwo
  split at h
  · cases h
  · rename_i hversion
    obtain ⟨methods, r₂, hmethods, h⟩ := bind_ok.mp h
    obtain ⟨hlen, hbytes₂⟩ := readArray_ok hmethods
    cases h
    obtain rfl : v = version5 := by simpa using hversion
    have hcount : methods.length = n.toNat := hlen
    exact ⟨_, .mk hcount, by rw [hbytes₁, hbytes₂, List.append_assoc]⟩

theorem reads_request (h : Request net enc target) : Reads (readRequest net) enc target := by
  cases h with
  | @mk rsv addr host haddr port =>
    unfold readRequest
    apply (reads_readArray Err.read (b := [version5, cmdConnect]) rfl).bind
    simp only [List.getD_cons_zero, List.getD_cons_succ, ne_eq, not_true_eq_false, ↓reduceIte]
    apply (reads_readArray Err.read (b := [rsv]) rfl).bind
    apply (reads_host haddr).bind
    exact (reads_port port).map fun p => (⟨tcp, host, p⟩ : Target)

theorem readRequest_ok (h : readRequest net r = .ok target r') :
    ∃ enc, Request net enc target ∧ r.bytes = enc ++ r'.bytes := by
  obtain ⟨hdr, r₁, hhdr, h⟩ := bind_ok.mp h
  obtain ⟨htwo, hbytes₁⟩ := readArray_ok hhdr
  obtain ⟨v, cmd, rfl⟩ := List.length_eq_two.mp htwo
  split at h
  · cases h
  · rename_i hversion
    split at h
    · cases h
    · rename_i hcmd
      obtain ⟨rsv, r₂, hrsv, h⟩ := bind_ok.mp h
      obtain ⟨host, r₃, hhost, h⟩ := bind_ok.mp h
      obtain ⟨port, r₄, hport, h⟩ := bind_ok.mp h
      obtain ⟨hone, hbytes₂⟩ := readArray_ok hrsv
      obtain ⟨addr, haddr, hbytes₃⟩ := readHost_ok hhost
      obtain ⟨p, rfl, hbytes₄⟩ := readPort_ok hport
      obtain ⟨x, rfl⟩ := List.length_eq_one_iff.mp hone
      cases h
      obtain rfl : v = version5 := by simpa using hversion
      obtain rfl : cmd = cmdConnect := by simpa using hcmd
      refine ⟨_, .mk x haddr p, ?_⟩
      rw [hbytes₁, hbytes₂, hbytes₃, hbytes₄]
      simp

end Parts

/-! ## `handleLocalSocks` -/

/-- `ReplyConnectSuccess` and `ReplyConnectFailed`, which differ in the second byte. -/
def connectReply (rep : UInt8) : Bytes := [version5, rep, 0x00, atypIPv4, 0, 0, 0, 0, 0, 0]

/-- How a local connection goes on. -/
inductive Local where
  | closed (c : Conn)
  /-- in `CopyLoop` -/
  | copies (c : Conn)

/-- `handleLocalSocks`, where `dial` is the outcome of `OpenClientDial`. -/
def handleLocalSocks (net : IPText) (dial : Target → Bool) (c : Conn) : Local :=
  match handshake net c with
  | (.error _, c') => .closed c'
  | (.ok target, c') =>
      if dial target then
        match c'.write (connectReply 0x00) with
        | (true, c'') => .copies c''
        | (false, c'') => .closed c''
      else .closed (c'.write (connectReply 0x01)).2

/-- Nothing is read between the handshake and `CopyLoop`. -/
theorem handleLocalSocks_reader {net : IPText} {dial : Target → Bool} {c c' : Conn}
    (h : handleLocalSocks net dial c = .copies c') :
    (∃ target, (handshake net c).1 = .ok target) ∧ c'.reader = (handshake net c).2.reader := by
  unfold handleLocalSocks at h
  split at h
  · cases h
  · rename_i target c₁ hshake
    split at h
    · split at h
      · rename_i c₂ hwrite
        cases h
        refine ⟨⟨target, by rw [hshake]⟩, ?_⟩
        rw [hshake]
        simp only [Conn.write, Prod.mk.injEq] at hwrite
        rw [← hwrite.2]
      · cases h
    · cases h

/-! ## The whole handshake -/

section Whole

variable {net : IPText} {r : Reader} {k : Sink}

/-- The ways through the handshake, when the reply can be written. -/
inductive Shaken (net : IPText) (r : Reader) (k : Sink) : Except Err Target × Conn → Prop where
  /-- it ended in the greeting -/
  | ungreeted {e r'} (hgreet : readGreeting r = .error e r') :
      Shaken net r k (.error e, ⟨r', k, []⟩)
  | refused {r₁ e r'} (hgreet : readGreeting r = .ok () r₁)
      (hrequest : readRequest net r₁ = .error e r') :
      Shaken net r k (.error e, ⟨r', (k.write methodReply).2.2, [(methodReply, r₁.bytes)]⟩)
  | accepted {r₁ target r'} (hgreet : readGreeting r = .ok () r₁)
      (hrequest : readRequest net r₁ = .ok target r') :
      Shaken net r k (.ok target, ⟨r', (k.write methodReply).2.2, [(methodReply, r₁.bytes)]⟩)

theorem handshake_cases (hreply : (k.write methodReply).2.1 = true) :
    Shaken net r k (handshake net ⟨r, k, []⟩) := by
  unfold handshake
  cases hgreet : readGreeting r with
  | error e r₁ => exact .ungreeted hgreet
  | ok u r₁ =>
    simp only [Conn.write, hreply, List.nil_append]
    cases hrequest : readRequest net r₁ with
    | error e r₂ => exact .refused hgreet hrequest
    | ok target r₂ => exact .accepted hgreet hrequest

/-- What is accepted is a greeting and a request. -/
theorem accepted_bytes {r₁ r₂ : Reader} {target : Target} (hgreet : readGreeting r = .ok () r₁)
    (hrequest : readRequest net r₁ = .ok target r₂) :
    ∃ greeting request, Greeting greeting ∧ Request net request target ∧
      r.bytes = greeting ++ (request ++ r₂.bytes) := by
  obtain ⟨greeting, hgreeting, hbytes₁⟩ := readGreeting_ok hgreet
  obtain ⟨request, hreq, hbytes₂⟩ := readRequest_ok hrequest
  exact ⟨greeting, request, hgreeting, hreq, by rw [hbytes₁, hbytes₂]⟩

/-- A greeting and a request are accepted, and nothing behind them is consumed. -/
theorem handshake_accepts {greeting request rest : Bytes} {target : Target}
    (hreply : (k.write methodReply).2.1 = true) (hgreeting : Greeting greeting)
    (hrequest : Request net request target) (hbytes : r.bytes = greeting ++ (request ++ rest)) :
    ∃ c, handshake net ⟨r, k, []⟩ = (.ok target, c) ∧ c.reader.bytes = rest := by
  obtain ⟨r₁, hread₁, hbytes₁, -⟩ := reads_greeting hgreeting r _ hbytes
  obtain ⟨r₂, hread₂, hbytes₂, -⟩ := reads_request hrequest r₁ _ hbytes₁
  refine ⟨⟨r₂, (k.write methodReply).2.2, [(methodReply, r₁.bytes)]⟩, ?_, hbytes₂⟩
  simp [handshake, hread₁, Conn.write, hreply, hread₂]

end Whole

/-- With a reply that can be written, and in whatever pieces the stream comes: the handshake returns
a target exactly in front of a greeting and a request for it, with both consumed and no more, and an
error otherwise. The reply is written once at most, right behind the greeting, and `CopyLoop` gets
the stream as the handshake left it. -/
theorem handshake_exact (net : IPText) (r : Reader) (k : Sink)
    (hreply : (k.write methodReply).2.1 = true) :
    (∀ target rest,
      ((handshake net ⟨r, k, []⟩).1 = .ok target ∧
          (handshake net ⟨r, k, []⟩).2.reader.bytes = rest) ↔
        ∃ greeting request, Greeting greeting ∧ Request net request target ∧
          r.bytes = greeting ++ (request ++ rest)) ∧
    ((¬ ∃ greeting request target rest, Greeting greeting ∧ Request net request target ∧
        r.bytes = greeting ++ (request ++ rest)) →
      ∃ e, (handshake net ⟨r, k, []⟩).1 = .error e) ∧
    (handshake net ⟨r, k, []⟩).2.sink.bytes =
      k.bytes ++ ((handshake net ⟨r, k, []⟩).2.log.map Prod.fst).flatten ∧
    ((handshake net ⟨r, k, []⟩).2.log = [] ∨
      ∃ greeting unread, Greeting greeting ∧ r.bytes = greeting ++ unread ∧
        (handshake net ⟨r, k, []⟩).2.log = [(methodReply, unread)]) ∧
    ∀ dial c, handleLocalSocks net dial ⟨r, k, []⟩ = .copies c →
      c.reader = (handshake net ⟨r, k, []⟩).2.reader := by
  have hcases : Shaken net r k (handshake net ⟨r, k, []⟩) := handshake_cases hreply
  obtain ⟨hwritten, hall⟩ := k.write_bytes methodReply
  rw [hall hreply] at hwritten
  refine ⟨fun target rest => ⟨?_, ?_⟩, ?_, ?_, ?_, fun dial c h => (handleLocalSocks_reader h).2⟩
  · rintro ⟨hok, rfl⟩
    generalize handshake net ⟨r, k, []⟩ = out at hcases hok
    cases hcases with
    | ungreeted => cases hok
    | refused => cases hok
    | accepted hgreet hrequest =>
      cases hok
      exact accepted_bytes hgreet hrequest
  · rintro ⟨greeting, request, hgreeting, hrequest, hbytes⟩
    obtain ⟨c, hshake, hrest⟩ := handshake_accepts hreply hgreeting hrequest hbytes
    rw [hshake]
    exact ⟨rfl, hrest⟩
  · intro hno
    generalize handshake net ⟨r, k, []⟩ = out at hcases
    cases hcases with
    | ungreeted => exact ⟨_, rfl⟩
    | refused => exact ⟨_, rfl⟩
    | accepted hgreet hrequest =>
      obtain ⟨greeting, request, hparts⟩ := accepted_bytes hgreet hrequest
      exact absurd ⟨greeting, request, _, _, hparts⟩ hno
  · generalize handshake net ⟨r, k, []⟩ = out at hcases
    cases hcases with
    | ungreeted => simp
    | refused => simpa using hwritten
    | accepted => simpa using hwritten
  · generalize handshake net ⟨r, k, []⟩ = out at hcases
    cases hcases with
    | ungreeted => exact .inl rfl
    | refused hgreet =>
      obtain ⟨greeting, hgreeting, hbytes⟩ := readGreeting_ok hgreet
      exact .inr ⟨greeting, _, hgreeting, hbytes, rfl⟩
    | accepted hgreet =>
      obtain ⟨greeting, hgreeting, hbytes⟩ := readGreeting_ok hgreet
      exact .inr ⟨greeting, _, hgreeting, hbytes, rfl⟩

/-- A request for `a:80` in four pieces, the last of them with a byte of what follows. -/
theorem handshake_exact_domain :
    (handshake .go ⟨[⟨[5], none⟩, ⟨[1, 0, 5, 1], none⟩, ⟨[0, 3, 1, 97, 0], none⟩,
        ⟨[80, 7], some .eof⟩], ⟨[], none⟩, []⟩).1 = .ok ⟨tcp, [97], 80⟩ ∧
      (handshake .go ⟨[⟨[5], none⟩, ⟨[1, 0, 5, 1], none⟩, ⟨[0, 3, 1, 97, 0], none⟩,
        ⟨[80, 7], some .eof⟩], ⟨[], none⟩, []⟩).2.reader.bytes = [7] := by
  have haddr : AddrForm .go [atypDomain, 1, 97] [97] :=
    AddrForm.domain (show ([97] : Bytes).length < 256 by decide)
  apply ((handshake_exact .go _ ⟨[], none⟩ rfl).1 ⟨tcp, [97], 80⟩ [7]).mpr
  exact ⟨_, _, @Greeting.mk 1 [0] rfl, .mk 0 haddr 80, rfl⟩

end PTBridge.Snowflake.Socks5
