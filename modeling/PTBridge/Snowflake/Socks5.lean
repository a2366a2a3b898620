import PTBridge.Net.IP
import PTBridge.Stream.Program

/-!
# `socks5.HandshakeServer`

The server side of the SOCKS5 handshake: method negotiation, then the `CONNECT` request with its
target. The target's address is read by the same code in `ReadTarget`, so it is a program of its
own here.

- `AddrForm` lists the three encodings of a host.
- `readHost_ok` and `reads_host`: `readHost` returns a host exactly in front of one of its encodings.
- `handshakeServer_target`: the host of every target that the handshake returns has an encoding.
-/

namespace PTBridge.Snowflake.Socks5

open PTBridge.Net PTBridge.Stream

def version5 : UInt8 := 0x05

def cmdConnect : UInt8 := 0x01

def atypIPv4 : UInt8 := 0x01

def atypDomain : UInt8 := 0x03

def atypIPv6 : UInt8 := 0x04

inductive Err where
  | read (err : ReadError)
  | write
  | unsupportedVersion
  | unsupportedCommand
  | unsupportedAddr
  deriving DecidableEq, Repr

/-- A host and port to dial; the strings are byte strings. -/
structure Target where
  network : Bytes
  host : Bytes
  port : Int
  deriving DecidableEq, Repr

/-- The network `"tcp"`. -/
def tcp : Bytes := [116, 99, 112]

/-- The switch over the address type. -/
def readHost (net : IPText) : ReadM Err Bytes := do
  let atyp ← readArray .read 1
  if atyp = [atypIPv4] then
    let ip ← readArray .read 4
    return net.string ip
  else if atyp = [atypDomain] then
    let lenByte ← readArray .read 1
    readArray .read (lenByte.headD 0).toNat
  else if atyp = [atypIPv6] then
    let ip ← readArray .read 16
    return net.string ip
  else throw .unsupportedAddr

/-- The port, in two bytes. -/
def readPort : ReadM Err Int := do
  let portBytes ← readArray .read 2
  return (uint16 portBytes).toNat

/-- `HandshakeServer` on a connection that is read from and written to; it returns the target and
the writing side. -/
def handshakeServer (net : IPText) (conn : Sink) : ReadM Err (Target × Sink) := do
  let hdr ← readArray .read 2
  if hdr.getD 0 0 ≠ version5 then throw .unsupportedVersion
  else
    let _methods ← readArray .read (hdr.getD 1 0).toNat
    let reply := conn.write [version5, 0x00]
    if reply.2.1 = false then throw .write
    else
      let hdr ← readArray .read 2
      if hdr.getD 0 0 ≠ version5 then throw .unsupportedVersion
      else if hdr.getD 1 0 ≠ cmdConnect then throw .unsupportedCommand
      else
        let _rsv ← readArray .read 1
        let host ← readHost net
        let port ← readPort
        return (⟨tcp, host, port⟩, reply.2.2)

/-! ## Encodings of a host -/

/-- The bytes of an address, with its type in front, and the host they stand for. -/
inductive AddrForm (net : IPText) : Bytes → Bytes → Prop where
  | ipv4 {ip : Bytes} (hlen : ip.length = 4) : AddrForm net (atypIPv4 :: ip) (net.string ip)
  | domain {name : Bytes} (hlen : name.length < 256) :
      AddrForm net (atypDomain :: UInt8.ofNat name.length :: name) name
  | ipv6 {ip : Bytes} (hlen : ip.length = 16) : AddrForm net (atypIPv6 :: ip) (net.string ip)

variable {net : IPText} {host enc : Bytes}

theorem reads_host (h : AddrForm net enc host) : Reads (readHost net) enc host := by
  have htype : ∀ b : UInt8, Reads (readArray Err.read 1) [b] [b] := fun b => reads_readArray _ rfl
  unfold readHost
  cases h with
  | ipv4 hlen =>
    apply (htype atypIPv4).bind
    exact (reads_readArray Err.read hlen).map net.string
  | domain hlen =>
    apply (htype atypDomain).bind
    have hcount : (UInt8.ofNat host.length).toNat = host.length := by
      rw [UInt8.toNat_ofNat']
      omega
    exact (htype (UInt8.ofNat host.length)).bind (reads_readArray Err.read hcount.symm)
  | ipv6 hlen =>
    apply (htype atypIPv6).bind
    exact (reads_readArray Err.read hlen).map net.string

theorem readHost_ok {r r' : Reader} (h : readHost net r = .ok host r') :
    ∃ enc, AddrForm net enc host ∧ r.bytes = enc ++ r'.bytes := by
  obtain ⟨atyp, r₁, htype, h⟩ := bind_ok.mp h
  obtain ⟨-, hbytes₁⟩ := readArray_ok htype
  split at h
  · rename_i hv4
    obtain ⟨ip, r₂, hip, h⟩ := bind_ok.mp h
    obtain ⟨hlen, hbytes₂⟩ := readArray_ok hip
    cases h
    exact ⟨_, .ipv4 hlen, by rw [hbytes₁, hbytes₂, hv4]; rfl⟩
  · split at h
    · rename_i hdomain
      obtain ⟨lenByte, r₂, hcount, h⟩ := bind_ok.mp h
      obtain ⟨hone, hbytes₂⟩ := readArray_ok hcount
      obtain ⟨hlen, hbytes₃⟩ := readArray_ok h
      obtain ⟨b, rfl⟩ := List.length_eq_one_iff.mp hone
      have hb : UInt8.ofNat host.length = b := by
        rw [hlen]
        exact UInt8.ofNat_toNat
      have hlt : host.length < 256 := by
        rw [hlen]
        exact b.toNat_lt
      refine ⟨_, .domain hlt, ?_⟩
      rw [hbytes₁, hbytes₂, hbytes₃, hdomain, hb]
      rfl
    · split at h
      · rename_i hv6
        obtain ⟨ip, r₂, hip, h⟩ := bind_ok.mp h
        obtain ⟨hlen, hbytes₂⟩ := readArray_ok hip
        cases h
        exact ⟨_, .ipv6 hlen, by rw [hbytes₁, hbytes₂, hv6]; rfl⟩
      · cases h

theorem reads_port (port : UInt16) : Reads readPort (putUint16 port) port.toNat := by
  have hread : Reads (readArray Err.read 2) (putUint16 port) (putUint16 port) :=
    reads_readArray _ rfl
  have hport := hread.map fun portBytes => ((uint16 portBytes).toNat : Int)
  rwa [uint16_putUint16] at hport

theorem readPort_ok {r r' : Reader} {port : Int} (h : readPort r = .ok port r') :
    ∃ v : UInt16, port = v.toNat ∧ r.bytes = putUint16 v ++ r'.bytes := by
  obtain ⟨b, r₁, hread, h⟩ := bind_ok.mp h
  obtain ⟨hlen, hbytes⟩ := readArray_ok hread
  obtain ⟨x, y, rfl⟩ := List.length_eq_two.mp hlen
  cases h
  exact ⟨uint16 [x, y], rfl, by rw [hbytes, putUint16_uint16]⟩

/-! ## What the handshake returns -/

/-- The target of a handshake is a host that has an encoding, and a 16-bit port. -/
theorem handshakeServer_target {conn conn' : Sink} {r r' : Reader} {t : Target}
    (h : handshakeServer net conn r = .ok (t, conn') r') :
    t.network = tcp ∧ (∃ enc, AddrForm net enc t.host) ∧ ∃ port : UInt16, t.port = port.toNat := by
  obtain ⟨hdr, r₁, -, h⟩ := bind_ok.mp h
  split at h
  · cases h
  · obtain ⟨methods, r₂, -, h⟩ := bind_ok.mp h
    split at h
    · cases h
    · obtain ⟨hdr', r₃, -, h⟩ := bind_ok.mp h
      split at h
      · cases h
      · split at h
        · cases h
        · obtain ⟨rsv, r₄, -, h⟩ := bind_ok.mp h
          obtain ⟨host, r₅, hhost, h⟩ := bind_ok.mp h
          obtain ⟨port, r₆, hport, h⟩ := bind_ok.mp h
          cases h
          obtain ⟨enc, hform, -⟩ := readHost_ok hhost
          obtain ⟨v, hv, -⟩ := readPort_ok hport
          exact ⟨rfl, ⟨enc, hform⟩, v, hv⟩

end PTBridge.Snowflake.Socks5
