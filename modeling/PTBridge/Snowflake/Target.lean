import PTBridge.Snowflake.Socks5

/-!
# `WriteTarget` and `ReadTarget`

The client sends the target of a SOCKS5 request at the head of a smux stream, and the server reads
it back and dials it. On the way the host is classified anew, by what `net.ParseIP` makes of its
text: an address may come in as a domain name and go out as four bytes.

- `emits_host`: every host that has an encoding is written in an encoding, of the same host or of
  an equal address.
- `dial_target_kept`: what the handshake returned is what the server gets.
-/

namespace PTBridge.Snowflake.Standalone

open PTBridge.Net PTBridge.Stream PTBridge.Snowflake.Socks5

/-- The client wants the server to dial. -/
def streamClientDial : UInt8 := 1

/-- The server wants the client to dial. -/
def streamServerDial : UInt8 := 2

/-- Bridge to the SOCKS port of the server. -/
def streamForward : UInt8 := 3

inductive WriteErr where
  | write
  /-- `"hostname too long"` -/
  | hostnameTooLong
  deriving DecidableEq, Repr

/-- The address type and address that `WriteTarget` chooses for a host. -/
def classify (net : IPText) (host : Bytes) : UInt8 × Bytes :=
  match net.parseIP host with
  | none => (0x03, host)
  | some ip =>
      match ip.to4, ip.to16 with
      | some addr, _ => (0x01, addr)
      | none, some addr => (0x04, addr)
      | none, none => (0x03, host)

/-- The second switch of `WriteTarget`, after the address type. -/
def writeAddr (atyp : UInt8) (addr : Bytes) : WriteM WriteErr Unit := do
  put .write [atyp]
  if atyp = 0x03 then
    if 255 < addr.length then throw .hostnameTooLong
    else
      put .write [UInt8.ofNat addr.length]
      put .write addr
  else put .write addr

def writeTarget (net : IPText) (streamType : UInt8) (target : Target) : WriteM WriteErr Unit := do
  put .write [streamType]
  if streamType = streamForward then return ()
  else
    writeAddr (classify net target.host).1 (classify net target.host).2
    put .write (putUint16 (UInt16.ofInt target.port))

def readTarget (net : IPText) : ReadM Err (UInt8 × Target) := do
  let streamType ← readArray .read 1
  if streamType = [streamForward] then return (streamForward, ⟨[], [], 0⟩)
  else
    let host ← readHost net
    let port ← readPort
    return (streamType.headD 0, ⟨tcp, host, port⟩)

/-! ## The host -/

/-- The same name, or an equal address if the name is the text of one. -/
def SameHost (net : IPText) (host' host : Bytes) : Prop :=
  match net.parseIP host with
  | none => host' = host
  | some ip => ∃ ip', net.parseIP host' = some ip' ∧ ip'.equal ip = true

variable {net : IPText} {host : Bytes}

theorem SameHost.refl (net : IPText) (host : Bytes) : SameHost net host host := by
  unfold SameHost
  split
  · rfl
  · rename_i ip hip
    exact ⟨ip, hip, IP.equal_refl ip⟩

/-- An address is the same host as its text. -/
theorem SameHost.of_addr {ip addr : IP} (hhost : net.parseIP host = some ip)
    (hlen : addr.length = 4 ∨ addr.length = 16) (heq : addr.equal ip = true) :
    SameHost net (net.string addr) host := by
  obtain ⟨ip', hparse, hequal⟩ := net.parse_string addr hlen
  unfold SameHost
  rw [hhost]
  exact ⟨ip', hparse, IP.equal_trans hequal heq⟩

/-- The choices of `WriteTarget`, with what they rest on. -/
inductive Classified (net : IPText) (host : Bytes) : UInt8 × Bytes → Prop where
  | ipv4 {ip addr : IP} (hhost : net.parseIP host = some ip) (hlen : addr.length = 4)
      (heq : addr.equal ip = true) : Classified net host (0x01, addr)
  | ipv6 {ip addr : IP} (hhost : net.parseIP host = some ip) (hlen : addr.length = 16)
      (heq : addr.equal ip = true) : Classified net host (0x04, addr)
  | domain (hhost : ∀ ip, net.parseIP host = some ip → ip.to16 = none) :
      Classified net host (0x03, host)

theorem classify_cases (net : IPText) (host : Bytes) : Classified net host (classify net host) := by
  unfold classify
  split
  · rename_i hnone
    apply Classified.domain
    intro ip hip
    rw [hnone] at hip
    cases hip
  · rename_i ip hhost
    split
    · rename_i addr h4
      exact .ipv4 hhost (IP.length_to4 h4) (IP.equal_to4 h4)
    · rename_i addr h4 h16
      exact .ipv6 hhost (IP.length_to16 h4 h16) (IP.equal_to16 h16)
    · rename_i h4 h16
      apply Classified.domain
      intro ip' hip'
      rw [hhost] at hip'
      cases hip'
      exact h16

/-- The parser returns an address of four or sixteen bytes for a printed one. -/
theorem to16_parse_string {ip ip' : IP} (hlen : ip.length = 4 ∨ ip.length = 16)
    (hparse : net.parseIP (net.string ip) = some ip') : ip'.to16 ≠ none := by
  obtain ⟨ip₁, hparse₁, hequal⟩ := net.parse_string ip hlen
  rw [hparse] at hparse₁
  cases hparse₁
  rcases IP.equal_iff.mp hequal with rfl | ⟨h4, -⟩ | ⟨h4, rfl⟩
  · rcases hlen with h | h <;> simp [IP.to16, h]
  · simp [IP.to16, h4]
  · simp [IP.to16, v4InV6Prefix, h4]

/-- A host with an encoding that is not the text of an address is short enough for a name. -/
theorem length_of_not_addr {enc : Bytes} (hform : AddrForm net enc host)
    (hhost : ∀ ip, net.parseIP host = some ip → ip.to16 = none) : host.length < 256 := by
  have haddr : ∀ ip : IP, ip.length = 4 ∨ ip.length = 16 →
      ¬ ∀ ip', net.parseIP (net.string ip) = some ip' → ip'.to16 = none := by
    intro ip hlen hnone
    obtain ⟨ip', hparse, -⟩ := net.parse_string ip hlen
    exact to16_parse_string hlen hparse (hnone ip' hparse)
  cases hform with
  | ipv4 hlen => exact absurd hhost (haddr _ (Or.inl hlen))
  | domain hlen => exact hlen
  | ipv6 hlen => exact absurd hhost (haddr _ (Or.inr hlen))

/-- Every host with an encoding is written in an encoding. -/
theorem emits_host {enc : Bytes} (hform : AddrForm net enc host) :
    ∃ enc' host', AddrForm net enc' host' ∧ SameHost net host' host ∧
      Emits .write (writeAddr (classify net host).1 (classify net host).2) enc' := by
  have hclass := classify_cases net host
  generalize classify net host = c at hclass
  cases hclass with
  | @ipv4 ip addr hhost hlen heq =>
    refine ⟨atypIPv4 :: addr, net.string addr, .ipv4 hlen, .of_addr hhost (Or.inl hlen) heq, ?_⟩
    exact (emits_put _ [atypIPv4]).bind (emits_put _ addr)
  | @ipv6 ip addr hhost hlen heq =>
    refine ⟨atypIPv6 :: addr, net.string addr, .ipv6 hlen, .of_addr hhost (Or.inr hlen) heq, ?_⟩
    exact (emits_put _ [atypIPv6]).bind (emits_put _ addr)
  | domain hhost =>
    have hlen : host.length < 256 := length_of_not_addr hform hhost
    refine ⟨_, host, .domain hlen, .refl net host, ?_⟩
    apply (emits_put _ [atypDomain]).bind
    have hshort : ¬ 255 < host.length := by omega
    simp only [if_neg hshort, ↓reduceIte]
    exact (emits_put _ [UInt8.ofNat host.length]).bind (emits_put _ host)

/-! ## The target -/

theorem ofInt_toNat (port : UInt16) : UInt16.ofInt (port.toNat : Int) = port := by
  have hlt := port.toNat_lt
  have hmod : ((port.toNat : Int) % 2 ^ 16).toNat = port.toNat := by omega
  unfold UInt16.ofInt
  rw [hmod, UInt16.ofNat_toNat]

/-- The server gets what the client asked for: `WriteTarget` encodes every target of a handshake,
and in front of its bytes `ReadTarget` returns the same port and host. -/
theorem dial_target_kept (net : IPText) (conn conn' : Sink) (r r' : Reader) (t : Target)
    (h : handshakeServer net conn r = .ok (t, conn') r') :
    ∃ enc, Emits .write (writeTarget net streamClientDial t) enc ∧
      ∀ (s : Reader) (rest : Bytes), s.bytes = enc ++ rest →
        ∃ t' s', readTarget net s = .ok (streamClientDial, t') s' ∧ s'.bytes = rest ∧
          s'.final = s.final ∧ t'.network = t.network ∧ t'.port = t.port ∧
          SameHost net t'.host t.host := by
  obtain ⟨hnetwork, ⟨enc, hform⟩, port, hport⟩ := handshakeServer_target h
  obtain ⟨enc', host', hform', hsame, hemits⟩ := emits_host hform
  have hwritten : Emits WriteErr.write (put WriteErr.write (putUint16 (UInt16.ofInt t.port))) (putUint16 port) := by
    rw [hport, ofInt_toNat]
    exact emits_put _ _
  have hreads : Reads (readTarget net) ([streamClientDial] ++ (enc' ++ putUint16 port))
      (streamClientDial, ⟨tcp, host', port.toNat⟩) := by
    apply (reads_readArray Err.read (b := [streamClientDial]) rfl).bind
    apply (reads_host hform').bind
    exact (reads_port port).map fun p => (streamClientDial, (⟨tcp, host', p⟩ : Target))
  refine ⟨[streamClientDial] ++ (enc' ++ putUint16 port), ?_, ?_⟩
  · exact (emits_put _ [streamClientDial]).bind (hemits.bind hwritten)
  · intro s rest hs
    obtain ⟨s', hread, hbytes, hfinal⟩ := hreads s rest hs
    exact ⟨_, s', hread, hbytes, hfinal, hnetwork.symm, hport.symm, hsame⟩

/-- A `CONNECT` to the domain name `1.2.3.4`, port 80. -/
def dottedRequest : Bytes := [5, 1, 0, 5, 1, 0, 3, 7, 49, 46, 50, 46, 51, 46, 52, 0, 80]

/-- The name is the text of an address, and crosses as one. -/
theorem dial_target_kept_dotted :
    handshakeServer .go ⟨[], none⟩ [⟨dottedRequest, none⟩] =
        .ok (⟨tcp, [49, 46, 50, 46, 51, 46, 52], 80⟩, ⟨[[5, 0]], none⟩) [] ∧
      classify .go [49, 46, 50, 46, 51, 46, 52] = (0x01, [1, 2, 3, 4]) ∧
      ∃ enc, Emits .write
          (writeTarget .go streamClientDial ⟨tcp, [49, 46, 50, 46, 51, 46, 52], 80⟩) enc ∧
        ∀ (s : Reader) (rest : Bytes), s.bytes = enc ++ rest →
          ∃ t' s', readTarget .go s = .ok (streamClientDial, t') s' ∧ s'.bytes = rest ∧
            s'.final = s.final ∧ t'.network = tcp ∧ t'.port = 80 ∧
            SameHost .go t'.host [49, 46, 50, 46, 51, 46, 52] := by
  have hhandshake : handshakeServer .go ⟨[], none⟩ [⟨dottedRequest, none⟩] =
      .ok (⟨tcp, [49, 46, 50, 46, 51, 46, 52], 80⟩, ⟨[[5, 0]], none⟩) [] := rfl
  exact ⟨hhandshake, by decide +kernel, dial_target_kept .go _ _ _ _ _ hhandshake⟩

end PTBridge.Snowflake.Standalone
