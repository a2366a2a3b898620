import PTBridge.Encoding.Base64

/-!
# The identity of an obfs4 server

The configuration stores a certificate, which is the node id and the public key in base64 without
its padding, and the private key. On a start `obfs4ArgsFromConfig` puts the padding back and takes
the node id from the front.

- `decode_cert`: padding taken off and put back is the encoding again, for the length a certificate
  has.
- `identity_survives`: a stored identity gives the node id and private key it was made of, and every
  certificate that is accepted is decoded as its own re-encoding is.
- `generateIdentity_restarts`: what `GenerateIdentity` makes is accepted.
-/

namespace PTBridge.Obfs

open PTBridge.Stream PTBridge.Encoding

/-- `ntor.NodeIDLength` -/
def nodeIDLength : Nat := 20

/-- `ntor.PublicKeyLength` -/
def publicKeyLength : Nat := 32

def obfs4CertRawLength : Nat := nodeIDLength + publicKeyLength

/-- `ntor.NodeID` -/
structure NodeID where
  bytes : Bytes
  length : bytes.length = nodeIDLength

/-- `ntor.PublicKey` -/
structure PublicKey where
  bytes : Bytes
  length : bytes.length = publicKeyLength

/-- The padding of a certificate. -/
def certPadding : Bytes := [Base64.pad, Base64.pad]

/-- `encodeObfs4Cert` -/
def encodeObfs4Cert (nodeID : NodeID) (pub : PublicKey) : Bytes :=
  trimSuffix (Base64.encode (nodeID.bytes ++ pub.bytes)) certPadding

/-- The `pt.Args` of an obfs4 server, under their keys. -/
structure Obfs4Args where
  /-- `node-id` -/
  nodeID : Bytes
  /-- `private-key` -/
  privateKey : Bytes
  /-- `drbg-seed` -/
  drbgSeed : Bytes
  /-- `iat-mode` -/
  iatMode : Bytes
  deriving DecidableEq

inductive IdentityError where
  /-- `missing private-key for obfs4 certificate` -/
  | missingPrivateKey
  /-- `failed to decode cert: …` -/
  | decode
  /-- `cert length … is invalid` -/
  | certLength (n : Nat)
  /-- the error of `drbg.NewSeed` -/
  | seed
  deriving DecidableEq

/-- `configuration.ObfsIatMode`, the text `0`. -/
def iatModeText : Bytes := [48]

/-- `obfs4ArgsFromConfig`, where `seed` is the text of `drbg.NewSeed()`, if that succeeds. -/
def obfs4ArgsFromConfig (seed : Option Bytes) (cert privateKey : Bytes) :
    Except IdentityError Obfs4Args :=
  if privateKey = [] then .error .missingPrivateKey
  else
    match Base64.decode (cert ++ certPadding) with
    | none => .error .decode
    | some decoded =>
        if decoded.length ≠ obfs4CertRawLength then .error (.certLength decoded.length)
        else
          match seed with
          | none => .error .seed
          | some seed =>
              .ok {
                nodeID := Hex.encode (decoded.take nodeIDLength)
                privateKey := privateKey
                drbgSeed := seed
                iatMode := iatModeText }

/-! ## Restarts -/

section Restart

variable (nodeID : NodeID) (pub : PublicKey)

theorem rawLength : (nodeID.bytes ++ pub.bytes).length = obfs4CertRawLength := by
  rw [List.length_append, nodeID.length, pub.length, obfs4CertRawLength]

/-- The padding is two characters for the length of a certificate, so it can be taken off and put
back. -/
theorem decode_cert :
    Base64.decode (encodeObfs4Cert nodeID pub ++ certPadding) = some (nodeID.bytes ++ pub.bytes) := by
  have hmod : (nodeID.bytes ++ pub.bytes).length % 3 = 1 := by
    rw [rawLength]
    rfl
  obtain ⟨t, ht⟩ := Base64.encode_padded hmod
  have hcert : encodeObfs4Cert nodeID pub = t := by
    rw [encodeObfs4Cert, ht]
    exact trimSuffix_append t certPadding
  have hback : encodeObfs4Cert nodeID pub ++ certPadding =
      Base64.encode (nodeID.bytes ++ pub.bytes) := by
    rw [hcert, ht]
    rfl
  rw [hback, Base64.decode_encode]

/-- The arguments of a stored identity. -/
theorem argsFromConfig_cert {privateKey : Bytes} (seed : Bytes) (hkey : privateKey ≠ []) :
    obfs4ArgsFromConfig (some seed) (encodeObfs4Cert nodeID pub) privateKey =
      .ok ⟨Hex.encode nodeID.bytes, privateKey, seed, iatModeText⟩ := by
  have htake : (nodeID.bytes ++ pub.bytes).take nodeIDLength = nodeID.bytes := by
    apply List.take_left'
    exact nodeID.length
  have hlen := rawLength nodeID pub
  simp [obfs4ArgsFromConfig, hkey, decode_cert, htake, -List.length_append, hlen]

end Restart

/-- A certificate that is accepted is one of a node id and a public key. -/
theorem argsFromConfig_ok {seed : Option Bytes} {cert privateKey : Bytes} {args : Obfs4Args}
    (h : obfs4ArgsFromConfig seed cert privateKey = .ok args) :
    ∃ (nodeID : NodeID) (pub : PublicKey),
      Base64.decode (cert ++ certPadding) = some (nodeID.bytes ++ pub.bytes) ∧
        args.nodeID = Hex.encode nodeID.bytes ∧ args.privateKey = privateKey := by
  unfold obfs4ArgsFromConfig at h
  split at h
  · cases h
  · split at h
    · cases h
    · rename_i decoded hdecode
      split at h
      · cases h
      · rename_i hlen
        split at h
        · cases h
        · cases h
          have hraw : decoded.length = 52 := not_not.mp hlen
          refine ⟨⟨decoded.take nodeIDLength, ?_⟩, ⟨decoded.drop nodeIDLength, ?_⟩, ?_, rfl, rfl⟩
          · simp [hraw, nodeIDLength]
          · simp [hraw, nodeIDLength, publicKeyLength]
          · rw [hdecode, List.take_append_drop]

/-- Stored identities survive a restart: the arguments have the node id and the private key, and
for every certificate that is accepted, the one encoded from its bytes decodes to the same. -/
theorem identity_survives :
    (∀ (nodeID : NodeID) (pub : PublicKey) (privateKey seed : Bytes), privateKey ≠ [] →
      ∃ args, obfs4ArgsFromConfig (some seed) (encodeObfs4Cert nodeID pub) privateKey = .ok args ∧
        args.nodeID = Hex.encode nodeID.bytes ∧ args.privateKey = privateKey) ∧
    ∀ (cert privateKey seed : Bytes) (args : Obfs4Args),
      obfs4ArgsFromConfig (some seed) cert privateKey = .ok args →
        ∃ (nodeID : NodeID) (pub : PublicKey),
          Base64.decode (cert ++ certPadding) = some (nodeID.bytes ++ pub.bytes) ∧
          args.nodeID = Hex.encode nodeID.bytes ∧
          Base64.decode (encodeObfs4Cert nodeID pub ++ certPadding) =
            some (nodeID.bytes ++ pub.bytes) := by
  refine ⟨fun nodeID pub privateKey seed hkey => ?_, fun cert privateKey seed args h => ?_⟩
  · exact ⟨_, argsFromConfig_cert nodeID pub seed hkey, rfl, rfl⟩
  · obtain ⟨nodeID, pub, hdecode, hid, -⟩ := argsFromConfig_ok h
    exact ⟨nodeID, pub, hdecode, hid, decode_cert nodeID pub⟩

/-- A node id of ones and a public key of twos. -/
theorem identity_survives_ones :
    ∃ args, obfs4ArgsFromConfig (some [48])
        (encodeObfs4Cert ⟨List.replicate 20 1, rfl⟩ ⟨List.replicate 32 2, rfl⟩) [97] = .ok args ∧
      args.nodeID = Hex.encode (List.replicate 20 1) ∧ args.privateKey = [97] ∧
      ∃ (nodeID : NodeID) (pub : PublicKey), args.nodeID = Hex.encode nodeID.bytes ∧
        Base64.decode (encodeObfs4Cert nodeID pub ++ certPadding) =
          some (nodeID.bytes ++ pub.bytes) := by
  obtain ⟨args, hok, hid, hkey⟩ := identity_survives.1 ⟨List.replicate 20 1, rfl⟩
    ⟨List.replicate 32 2, rfl⟩ [97] [48] (by simp)
  obtain ⟨nodeID, pub, -, hid', hagain⟩ := identity_survives.2 _ _ _ _ hok
  exact ⟨args, hok, hid, hkey, nodeID, pub, hid', hagain⟩

/-- `GenerateIdentity`, with the random bytes and the key pair it draws. -/
def generateIdentity (nodeID : NodeID) (pub : PublicKey) (priv : Bytes) : Bytes × Bytes :=
  (encodeObfs4Cert nodeID pub, Hex.encode priv)

/-- A generated identity is accepted, as often as the server starts. -/
theorem generateIdentity_restarts (nodeID : NodeID) (pub : PublicKey) {priv : Bytes}
    (hpriv : priv ≠ []) (seed : Bytes) :
    obfs4ArgsFromConfig (some seed) (generateIdentity nodeID pub priv).1
        (generateIdentity nodeID pub priv).2 =
      .ok ⟨Hex.encode nodeID.bytes, Hex.encode priv, seed, iatModeText⟩ := by
  apply argsFromConfig_cert
  apply List.ne_nil_of_length_pos
  rw [generateIdentity, Hex.encode_length]
  have hpos := List.length_pos_iff.mpr hpriv
  omega

end PTBridge.Obfs
