import PTBridge.Stream.Bytes

/-!
# `dpi/common`: encryption, stream header, connect request

- `crypto.go`: `Encryptor` over an AEAD. AES-GCM itself is a parameter (`AEAD`); its two fields
  are what the code relies on: opening a sealed text gives the text back, and sealing adds the
  tag.
- `protocol.go`: message types and the ten-byte `StreamHeader`.
- `serialize.go`: `encodeConnectRequest` and `decodeConnectRequest`, at the code's integer
  widths.
-/

namespace PTBridge.Dpi

open PTBridge.Stream

/-! ## crypto.go -/

def nonceSize : Nat := 12

def tagSize : Nat := 16

/-- The twelve bytes `Encrypt` draws for each message. -/
structure Nonce where
  bytes : Bytes
  size : bytes.length = nonceSize
  deriving DecidableEq

/-- `cipher.AEAD` under one key. -/
structure AEAD where
  /-- `Seal(nil, nonce, plaintext, nil)`. -/
  sealText : Bytes → Bytes → Bytes
  /-- `Open(nil, nonce, ciphertext, nil)`. -/
  openText : Bytes → Bytes → Option Bytes
  seal_length : ∀ (n : Nonce) (p : Bytes), (sealText n.bytes p).length = p.length + tagSize
  open_seal : ∀ (n : Nonce) (p : Bytes), openText n.bytes (sealText n.bytes p) = some p

/-- A nonce for runs on fixed inputs. -/
def Nonce.zero : Nonce := ⟨List.replicate nonceSize 0, rfl⟩

/-- The cipher that leaves the text as it is and adds a tag of zeros, for runs on fixed inputs. -/
def AEAD.plain : AEAD where
  sealText _ p := p ++ List.replicate tagSize 0
  openText _ c := some (c.take (c.length - tagSize))
  seal_length _ p := by rw [List.length_append, List.length_replicate]
  open_seal _ p := by simp

inductive CryptoError where
  | invalidCiphertext
  | openFailed
  | random
  deriving DecidableEq, Repr

/-- `Encryptor`: the AEAD for a shared key. -/
structure Encryptor where
  aead : AEAD

/-- An encryptor for runs on fixed inputs. -/
def Encryptor.plain : Encryptor := ⟨.plain⟩

namespace Encryptor

/-- `Encrypt`: nonce, then ciphertext. `rand` is what `rand.Reader` gives, `none` its error. -/
def encrypt (e : Encryptor) (rand : Option Nonce) (plaintext : Bytes) : Except CryptoError Bytes :=
  match rand with
  | none => .error .random
  | some nonce => .ok (nonce.bytes ++ e.aead.sealText nonce.bytes plaintext)

/-- `Decrypt`. -/
def decrypt (e : Encryptor) (data : Bytes) : Except CryptoError Bytes :=
  if data.length < nonceSize + tagSize then .error .invalidCiphertext
  else
    match e.aead.openText (data.take nonceSize) (data.drop nonceSize) with
    | none => .error .openFailed
    | some plaintext => .ok plaintext

/-- `EncryptStream`. -/
def encryptStream (e : Encryptor) (rand : Option Nonce) (data : Bytes) : Except CryptoError Bytes :=
  e.encrypt rand data

/-- `DecryptStream`. -/
def decryptStream (e : Encryptor) (data : Bytes) : Except CryptoError Bytes := e.decrypt data

/-- The message a nonce and a plaintext make. -/
def sealed (e : Encryptor) (nonce : Nonce) (plaintext : Bytes) : Bytes :=
  nonce.bytes ++ e.aead.sealText nonce.bytes plaintext

theorem sealed_length (e : Encryptor) (nonce : Nonce) (plaintext : Bytes) :
    (e.sealed nonce plaintext).length = plaintext.length + (nonceSize + tagSize) := by
  rw [sealed, List.length_append, nonce.size, e.aead.seal_length]
  omega

/-- Decrypting what was encrypted under the same key gives it back. -/
@[simp] theorem decrypt_sealed (e : Encryptor) (nonce : Nonce) (plaintext : Bytes) :
    e.decrypt (e.sealed nonce plaintext) = .ok plaintext := by
  have hlen : ¬ (e.sealed nonce plaintext).length < nonceSize + tagSize := by
    rw [sealed_length]
    omega
  have htake : (e.sealed nonce plaintext).take nonceSize = nonce.bytes :=
    List.take_left' nonce.size
  have hdrop : (e.sealed nonce plaintext).drop nonceSize = e.aead.sealText nonce.bytes plaintext :=
    List.drop_left' nonce.size
  simp only [decrypt, if_neg hlen, htake, hdrop, e.aead.open_seal]

theorem sealed_ne_nil (e : Encryptor) (nonce : Nonce) (plaintext : Bytes) :
    e.sealed nonce plaintext ≠ [] := by
  intro h
  have := sealed_length e nonce plaintext
  rw [h, nonceSize, List.length_nil] at this
  omega

end Encryptor

/-! ## protocol.go -/

/-- Protocol version. -/
def version : UInt8 := 1

def msgConnect : UInt8 := 0x01
def msgData : UInt8 := 0x02
def msgClose : UInt8 := 0x03

def streamHeaderSize : Nat := 10

/-- `StreamHeader` precedes each encrypted payload. -/
structure StreamHeader where
  version : UInt8
  msgType : UInt8
  connID : UInt32
  payloadLen : UInt32
  deriving DecidableEq, Repr

/-- The ten header bytes that `Connect`, `SendData`, `CloseConn` and `handleDownload` build. -/
def streamHeader (msgType : UInt8) (connID payloadLen : UInt32) : Bytes :=
  [version, msgType] ++ putUint32 connID ++ putUint32 payloadLen

@[simp] theorem streamHeader_length (msgType : UInt8) (connID payloadLen : UInt32) :
    (streamHeader msgType connID payloadLen).length = streamHeaderSize := rfl

/-- How `handleTunnel` reads a header off a decrypted body; `none` is a bounds panic. -/
def readStreamHeader (decrypted : Bytes) : Option (StreamHeader × Bytes) := do
  let v ← decrypted[0]?
  let t ← decrypted[1]?
  let connID ← slice decrypted 2 6
  let payloadLen ← slice decrypted 6 10
  let payload ← slice decrypted 10 decrypted.length
  return (⟨v, t, uint32 connID, uint32 payloadLen⟩, payload)

/-- A header and its payload are read back. -/
@[simp] theorem readStreamHeader_streamHeader (t : UInt8) (connID payloadLen : UInt32)
    (payload : Bytes) :
    readStreamHeader (streamHeader t connID payloadLen ++ payload) =
      some (⟨version, t, connID, payloadLen⟩, payload) := by
  have hid := uint32_putUint32 connID
  have hlen := uint32_putUint32 payloadLen
  -- only the number of bytes of the two integers matters for the slices
  obtain ⟨c0, c1, c2, c3, hc⟩ : ∃ c0 c1 c2 c3, putUint32 connID = [c0, c1, c2, c3] :=
    ⟨_, _, _, _, rfl⟩
  obtain ⟨l0, l1, l2, l3, hl⟩ : ∃ l0 l1 l2 l3, putUint32 payloadLen = [l0, l1, l2, l3] :=
    ⟨_, _, _, _, rfl⟩
  rw [hc] at hid
  rw [hl] at hlen
  simp [readStreamHeader, streamHeader, slice, hc, hl, hid, hlen]

/-! ## serialize.go -/

/-- `ConnectRequest`; the two strings as their bytes. -/
structure ConnectRequest where
  network : Bytes
  address : Bytes
  deriving DecidableEq, Repr

/-- `EncodeConnectRequest`: networkLen(2) | network | addrLen(2) | addr. -/
def encodeConnectRequest (req : ConnectRequest) : Bytes :=
  putUint16 (UInt16.ofNat req.network.length) ++ req.network ++
    putUint16 (UInt16.ofNat req.address.length) ++ req.address

/-- What `DecodeConnectRequest` can do. -/
inductive DecodeResult where
  | ok (req : ConnectRequest)
  | payloadTooShort
  | invalidNetworkLength
  | invalidAddressLength
  | panic
  deriving DecidableEq, Repr

/-- `DecodeConnectRequest`. The sum `2 + netLen` is a `uint16` and wraps. -/
def decodeConnectRequest (data : Bytes) : DecodeResult :=
  if data.length < 4 then .payloadTooShort
  else
    let netLen := uint16 (data.take 2)
    if data.length < 4 + netLen.toNat then .invalidNetworkLength
    else
      let off := (2 + netLen : UInt16).toNat
      match slice data 2 off, slice data off (off + 2) with
      | some network, some addrLenBytes =>
          let addrLen := (uint16 addrLenBytes).toNat
          if data.length < off + 2 + addrLen then .invalidAddressLength
          else
            match slice data (off + 2) (off + 2 + addrLen) with
            | some address => .ok ⟨network, address⟩
            | none => .panic
      | _, _ => .panic

end PTBridge.Dpi
