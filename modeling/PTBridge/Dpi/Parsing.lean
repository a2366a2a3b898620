import PTBridge.Dpi.Client.Transport

/-!
# Parsing an authenticated upload

What `handleTunnel` and `DecodeConnectRequest` do with a plaintext, for lengths up to and beyond
the 16 bits of the length fields. `DecodeConnectRequest` checks the network's length as an `int`
and then slices at `2 + netLen`, a `uint16`; `EncodeConnectRequest` stores both lengths as
`uint16`, whatever they are.

- `decodeConnectRequest_eq` and `decodeConnectRequest_wraps` are the decoder in terms of natural
  numbers: one for the lengths below the wrap of `2 + netLen`, one for the two lengths at it.
- `upload_parse_safe_iff` says which plaintexts go out of range.
- `connect_target_kept_iff` says which requests the server reads as they were sent.
- `decode_accepts_encodings`: below the wrap the decoder accepts exactly what begins with an
  encoding.
-/

namespace PTBridge.Dpi

open PTBridge.Stream

/-! ## The decoder -/

/-- The length of the network, as the decoder reads it. -/
def netLen (data : Bytes) : Nat := (uint16 (data.take 2)).toNat

/-- The length of the address, as the decoder reads it behind `n` bytes of network. -/
def addrLen (data : Bytes) (n : Nat) : Nat := (uint16 ((data.drop (2 + n)).take 2)).toNat

/-- The announced network is there, and its end is beyond the range of a `uint16`. -/
def NetLenWraps (data : Bytes) : Prop :=
  4 + netLen data ≤ data.length ∧ 2 ^ 16 - 2 ≤ netLen data

instance (data : Bytes) : Decidable (NetLenWraps data) :=
  inferInstanceAs (Decidable (_ ∧ _))

section Decoder

variable {data : Bytes}

theorem netLen_lt (data : Bytes) : netLen data < 2 ^ 16 := UInt16.toNat_lt _

theorem addrLen_lt (data : Bytes) (n : Nat) : addrLen data n < 2 ^ 16 := UInt16.toNat_lt _

/-- The offset behind the network, which the code computes as a `uint16`. -/
theorem netEnd_toNat (data : Bytes) :
    (2 + uint16 (data.take 2) : UInt16).toNat = (2 + netLen data) % 2 ^ 16 := by
  rw [UInt16.toNat_add]
  rfl

/-- Below the wrap the decoder takes the two fields apart as the format says. -/
theorem decodeConnectRequest_eq (hfits : 4 + netLen data ≤ data.length)
    (hsmall : netLen data < 2 ^ 16 - 2) :
    decodeConnectRequest data =
      if data.length < 4 + netLen data + addrLen data (netLen data) then .invalidAddressLength
      else
        .ok ⟨(data.drop 2).take (netLen data),
          (data.drop (4 + netLen data)).take (addrLen data (netLen data))⟩ := by
  have hoff : (2 + uint16 (data.take 2) : UInt16).toNat = 2 + netLen data := by
    rw [netEnd_toNat, Nat.mod_eq_of_lt (by omega)]
  have hnet : slice data 2 (2 + netLen data) = some ((data.drop 2).take (netLen data)) := by
    rw [slice_eq_some ⟨by omega, by omega⟩, List.drop_take, Nat.add_sub_cancel_left]
  have hsum : 2 + netLen data + 2 = 4 + netLen data := by omega
  have hlenBytes : slice data (2 + netLen data) (4 + netLen data) =
      some ((data.drop (2 + netLen data)).take 2) := by
    rw [← hsum, slice_eq_some ⟨by omega, by omega⟩, List.drop_take, Nat.add_sub_cancel_left]
  have hshort : ¬ data.length < 4 := by omega
  have hlong : ¬ data.length < 4 + (uint16 (data.take 2)).toNat := Nat.not_lt.mpr hfits
  unfold decodeConnectRequest
  have haddrLen : (uint16 ((data.drop (2 + netLen data)).take 2)).toNat =
      addrLen data (netLen data) := rfl
  simp only [hshort, hlong, ↓reduceIte, hoff, hnet, hsum, hlenBytes, haddrLen]
  split
  · rfl
  · rename_i haddr
    rw [slice_eq_some ⟨by omega, by omega⟩, List.drop_take, Nat.add_sub_cancel_left]

/-- At the wrap the first slice ends before it begins. -/
theorem decodeConnectRequest_wraps (h : NetLenWraps data) : decodeConnectRequest data = .panic := by
  obtain ⟨hfits, hwraps⟩ := h
  have hlt := netLen_lt data
  have hoff := netEnd_toNat data
  have hnet : slice data 2 (2 + uint16 (data.take 2) : UInt16).toNat = none :=
    slice_eq_none (by omega)
  have hshort : ¬ data.length < 4 := by omega
  have hlong : ¬ data.length < 4 + (uint16 (data.take 2)).toNat := Nat.not_lt.mpr hfits
  unfold decodeConnectRequest
  simp only [hshort, hlong, ↓reduceIte, hnet]

theorem decodeConnectRequest_panic_iff : decodeConnectRequest data = .panic ↔ NetLenWraps data := by
  refine ⟨fun h => ?_, decodeConnectRequest_wraps⟩
  by_cases hshort : data.length < 4
  · rw [decodeConnectRequest, if_pos hshort] at h
    cases h
  by_cases hlong : data.length < 4 + netLen data
  · have hlong' : data.length < 4 + (uint16 (data.take 2)).toNat := hlong
    unfold decodeConnectRequest at h
    simp only [hshort, hlong', ↓reduceIte, reduceCtorEq] at h
  refine ⟨Nat.le_of_not_lt hlong, ?_⟩
  by_contra hsmall
  rw [decodeConnectRequest_eq (Nat.le_of_not_lt hlong) (Nat.lt_of_not_le hsmall)] at h
  split at h <;> cases h

end Decoder

/-! ## A plaintext in `handleTunnel` -/

/-- `handleTunnel` from the decrypted body on. -/
def handleDecrypted (decrypted : Bytes) : Handler :=
  if decrypted.length < streamHeaderSize then .reply badRequest
  else
    match readStreamHeader decrypted with
    | none => .aborted
    | some (hdr, payload) => handleMessage hdr payload

/-- Every upload that decrypts gets there. -/
theorem handleTunnel_decrypted {cfg : Config} {r : Request} {body decrypted : Bytes}
    (hmethod : r.method = .post ∨ r.method = .put) (hbody : r.body = some body) (hne : body ≠ [])
    (hdec : cfg.encryptor.decryptStream body = .ok decrypted) :
    handleTunnel cfg r = handleDecrypted decrypted := by
  have hallowed : ¬ (r.method ≠ .post ∧ r.method ≠ .put) := by
    rintro ⟨hpost, hput⟩
    exact hmethod.elim hpost hput
  simp only [handleTunnel, hallowed, ↓reduceIte, hbody, hne, hdec]
  rfl

/-- The header is cut off without a bounds check of its own: the length check before it is
enough. -/
theorem readStreamHeader_of_length {decrypted : Bytes}
    (h : streamHeaderSize ≤ decrypted.length) :
    ∃ hdr, readStreamHeader decrypted = some (hdr, decrypted.drop streamHeaderSize) := by
  have hlen : 10 ≤ decrypted.length := h
  refine ⟨⟨decrypted[0], decrypted[1], uint32 ((decrypted.take 6).drop 2),
    uint32 ((decrypted.take 10).drop 6)⟩, ?_⟩
  simp only [readStreamHeader, List.getElem?_eq_getElem (show 0 < decrypted.length by omega),
    List.getElem?_eq_getElem (show 1 < decrypted.length by omega),
    slice_eq_some (show 2 ≤ 6 ∧ 6 ≤ decrypted.length by omega),
    slice_eq_some (show 6 ≤ 10 ∧ 10 ≤ decrypted.length by omega),
    slice_eq_some (show 10 ≤ decrypted.length ∧ decrypted.length ≤ decrypted.length by omega),
    List.take_length, streamHeaderSize]
  rfl

/-- Parsing the plaintext stays in range: it is refused as too short, or its header is read and
`DecodeConnectRequest` returns a request or an error for the payload. -/
def ParsesSafely (decrypted : Bytes) : Prop :=
  decrypted.length < streamHeaderSize ∨
    ∃ hdr payload, readStreamHeader decrypted = some (hdr, payload) ∧
      decodeConnectRequest payload ≠ .panic

/-- For every plaintext: parsing it stays in range exactly if the payload does not announce, and
hold, a network of 65534 or 65535 bytes. -/
theorem upload_parse_safe_iff (decrypted : Bytes) :
    ParsesSafely decrypted ↔ ¬ NetLenWraps (decrypted.drop streamHeaderSize) := by
  by_cases hshort : decrypted.length < streamHeaderSize
  · have hnil : decrypted.drop streamHeaderSize = [] :=
      List.drop_eq_nil_of_le (Nat.le_of_lt hshort)
    rw [hnil]
    exact ⟨fun _ h => absurd h.1 (by decide), fun _ => Or.inl hshort⟩
  · obtain ⟨hdr, hread⟩ := readStreamHeader_of_length (Nat.le_of_not_lt hshort)
    constructor
    · rintro (h | ⟨hdr', payload, hread', hsafe⟩)
      · exact absurd h hshort
      · rw [hread] at hread'
        cases hread'
        rwa [← decodeConnectRequest_panic_iff]
    · intro h
      exact Or.inr ⟨hdr, _, hread, by rwa [Ne, decodeConnectRequest_panic_iff]⟩

/-- The handler of a connect message panics exactly on such a payload. -/
theorem handleMessage_connect_aborted_iff (connID payloadLen : UInt32) (payload : Bytes)
    (hlen : payloadLen.toNat = payload.length) :
    handleMessage ⟨version, msgConnect, connID, payloadLen⟩ payload = .aborted ↔
      NetLenWraps payload := by
  rw [← decodeConnectRequest_panic_iff]
  simp only [handleMessage, ↓reduceIte, hlen, ne_eq, not_true_eq_false]
  cases hdec : decodeConnectRequest payload with
  | panic => exact ⟨fun _ => rfl, fun _ => rfl⟩
  | _ => constructor <;> intro h <;> cases h

/-- A connect payload that announces 65534 bytes of network, and holds them. -/
def wrappingPayload : Bytes := putUint16 65534 ++ List.replicate 65536 0

theorem wrappingPayload_length : wrappingPayload.length = 65538 := by
  rw [wrappingPayload, List.length_append, List.length_replicate]
  rfl

theorem netLen_putUint16 (v : UInt16) (rest : Bytes) :
    netLen (putUint16 v ++ rest) = v.toNat := by
  have htake : (putUint16 v ++ rest).take 2 = putUint16 v := List.take_left' rfl
  rw [netLen, htake, uint16_putUint16]

theorem wrappingPayload_wraps : NetLenWraps wrappingPayload := by
  have hnet : netLen wrappingPayload = 65534 := netLen_putUint16 65534 _
  exact ⟨by rw [hnet, wrappingPayload_length], by rw [hnet]; decide⟩

/-- That payload slices `data[2:0]`: the decoder panics, and with it the handler of a connect
message with a correct header. -/
theorem wrapping_network_panics :
    decodeConnectRequest wrappingPayload = .panic ∧
      ¬ ParsesSafely (streamHeader msgConnect 1 65538 ++ wrappingPayload) ∧
      handleDecrypted (streamHeader msgConnect 1 65538 ++ wrappingPayload) = .aborted := by
  have hdrop : (streamHeader msgConnect 1 65538 ++ wrappingPayload).drop streamHeaderSize =
      wrappingPayload := List.drop_left' rfl
  refine ⟨decodeConnectRequest_wraps wrappingPayload_wraps, ?_, ?_⟩
  · rw [ParsesSafely, readStreamHeader_streamHeader]
    rintro (hshort | ⟨hdr, payload, hread, hsafe⟩)
    · rw [List.length_append, streamHeader_length] at hshort
      omega
    · cases hread
      exact hsafe (decodeConnectRequest_wraps wrappingPayload_wraps)
  · have hlong : ¬ (streamHeader msgConnect 1 65538 ++ wrappingPayload).length <
        streamHeaderSize := by
      rw [List.length_append, streamHeader_length]
      omega
    rw [handleDecrypted, if_neg hlong, readStreamHeader_streamHeader]
    exact (handleMessage_connect_aborted_iff 1 65538 _ wrappingPayload_length.symm).mpr
      wrappingPayload_wraps

/-! ## A connect request on its way to the server -/

section RoundTrip

variable {req : ConnectRequest}

theorem encodeConnectRequest_length (req : ConnectRequest) :
    (encodeConnectRequest req).length = 4 + req.network.length + req.address.length := by
  simp only [encodeConnectRequest, List.length_append]
  change 2 + req.network.length + 2 + req.address.length = _
  omega

theorem netLen_encodeConnectRequest (req : ConnectRequest) :
    netLen (encodeConnectRequest req) = req.network.length % 2 ^ 16 := by
  rw [encodeConnectRequest, List.append_assoc, List.append_assoc, netLen_putUint16,
    UInt16.toNat_ofNat']

/-- A request in front of anything else is decoded, if its fields are not too long. -/
theorem decode_encode_append (hnetwork : req.network.length < 2 ^ 16 - 2)
    (haddress : req.address.length < 2 ^ 16) (rest : Bytes) :
    decodeConnectRequest (encodeConnectRequest req ++ rest) = .ok req := by
  generalize hdata : encodeConnectRequest req ++ rest = data
  have hparts : data = putUint16 (UInt16.ofNat req.network.length) ++ (req.network ++
      (putUint16 (UInt16.ofNat req.address.length) ++ (req.address ++ rest))) := by
    simp [← hdata, encodeConnectRequest]
  have hlen : data.length = 4 + req.network.length + req.address.length + rest.length := by
    rw [← hdata, List.length_append, encodeConnectRequest_length]
  have hnet : netLen data = req.network.length := by
    rw [hparts, netLen_putUint16, UInt16.toNat_ofNat', Nat.mod_eq_of_lt (by omega)]
  -- the parts behind the two length fields
  have hafter : data.drop 2 = req.network ++
      (putUint16 (UInt16.ofNat req.address.length) ++ (req.address ++ rest)) := by
    rw [hparts]
    exact List.drop_left' rfl
  have hfield : data.drop (2 + req.network.length) =
      putUint16 (UInt16.ofNat req.address.length) ++ (req.address ++ rest) := by
    rw [← List.drop_drop, hafter, List.drop_left]
  have hbehind : data.drop (4 + req.network.length) = req.address ++ rest := by
    have hsum : 4 + req.network.length = 2 + req.network.length + 2 := by omega
    rw [hsum, ← List.drop_drop, hfield]
    exact List.drop_left' rfl
  have haddr : addrLen data req.network.length = req.address.length := by
    have htake : (putUint16 (UInt16.ofNat req.address.length) ++ (req.address ++ rest)).take 2 =
        putUint16 (UInt16.ofNat req.address.length) := List.take_left' rfl
    rw [addrLen, hfield, htake, uint16_putUint16, UInt16.toNat_ofNat', Nat.mod_eq_of_lt haddress]
  rw [decodeConnectRequest_eq (by omega) (by omega), hnet, haddr, hafter, hbehind, List.take_left,
    List.take_left, if_neg (by omega)]

/-- With a network that is not too long, the address is cut to its length modulo `2 ^ 16`. -/
theorem decode_encode_of_network (h : req.network.length < 2 ^ 16 - 2) :
    decodeConnectRequest (encodeConnectRequest req) =
      .ok ⟨req.network, req.address.take (req.address.length % 2 ^ 16)⟩ := by
  let cut : ConnectRequest := ⟨req.network, req.address.take (req.address.length % 2 ^ 16)⟩
  have hmod := Nat.mod_lt req.address.length (show 2 ^ 16 > 0 by decide)
  have hle := Nat.mod_le req.address.length (2 ^ 16)
  have hcut : cut.address.length = req.address.length % 2 ^ 16 := by
    rw [List.length_take]
    omega
  -- the request is encoded as the shorter one, with the rest of the address behind it
  have hencode : encodeConnectRequest req =
      encodeConnectRequest cut ++ req.address.drop (req.address.length % 2 ^ 16) := by
    have hfield : UInt16.ofNat cut.address.length = UInt16.ofNat req.address.length := by
      apply UInt16.toNat_inj.mp
      rw [hcut, UInt16.toNat_ofNat', UInt16.toNat_ofNat', Nat.mod_mod]
    simp only [encodeConnectRequest, hfield, List.append_assoc]
    rw [List.take_append_drop]
  rw [hencode]
  exact @decode_encode_append cut h (by omega) _

/-- With a longer network the decoder panics, or it returns a shorter network: there are always
enough bytes behind it for whatever address length it reads there. -/
theorem decode_encode_of_long_network (h : 2 ^ 16 - 2 ≤ req.network.length) :
    decodeConnectRequest (encodeConnectRequest req) = .panic ∨
      ∃ req', decodeConnectRequest (encodeConnectRequest req) = .ok req' ∧
        req'.network.length < req.network.length := by
  have hnet := netLen_encodeConnectRequest req
  have hlen := encodeConnectRequest_length req
  have hmod := Nat.mod_le req.network.length (2 ^ 16)
  by_cases hwraps : 2 ^ 16 - 2 ≤ netLen (encodeConnectRequest req)
  · exact Or.inl (decodeConnectRequest_wraps ⟨by omega, hwraps⟩)
  · have hlt := addrLen_lt (encodeConnectRequest req) (netLen (encodeConnectRequest req))
    refine Or.inr ⟨_, by rw [decodeConnectRequest_eq (by omega) (by omega), if_neg (by omega)], ?_⟩
    rw [List.length_take]
    omega

end RoundTrip

/-- `DecodeConnectRequest` returned an error. -/
def DecodeResult.isError : DecodeResult → Bool
  | .payloadTooShort => true
  | .invalidNetworkLength => true
  | .invalidAddressLength => true
  | _ => false

/-- The server reads the request as it was sent, or refuses it. -/
def TargetKept (req : ConnectRequest) : Prop :=
  decodeConnectRequest (encodeConnectRequest req) = .ok req ∨
    (decodeConnectRequest (encodeConnectRequest req)).isError = true

/-- For every network and address: the target is kept exactly if the network has fewer than 65534
bytes and the address fewer than 65536. -/
theorem connect_target_kept_iff (req : ConnectRequest) :
    TargetKept req ↔ req.network.length < 2 ^ 16 - 2 ∧ req.address.length < 2 ^ 16 := by
  unfold TargetKept
  by_cases hnet : req.network.length < 2 ^ 16 - 2
  · rw [decode_encode_of_network hnet]
    constructor
    · rintro (heq | herr)
      · -- the address is the whole of the sent one
        have haddress := congrArg ConnectRequest.address (DecodeResult.ok.inj heq)
        have hlen := congrArg List.length haddress
        have hlt := Nat.mod_lt req.address.length (show 2 ^ 16 > 0 by decide)
        rw [List.length_take] at hlen
        exact ⟨hnet, by omega⟩
      · cases herr
    · rintro ⟨-, haddr⟩
      rw [Nat.mod_eq_of_lt haddr, List.take_length]
      exact Or.inl rfl
  · refine ⟨fun h => ?_, fun h => absurd h.1 hnet⟩
    rcases decode_encode_of_long_network (Nat.le_of_not_lt hnet) with hpanic | ⟨req', hok, hshort⟩
    · rw [hpanic] at h
      rcases h with h | h <;> cases h
    · rw [hok] at h
      rcases h with h | h
      · cases h
        exact absurd hshort (Nat.lt_irrefl _)
      · cases h

/-! ## What the decoder accepts -/

section Accepted

variable {data : Bytes} {req : ConnectRequest}

/-- A length field is the encoding of what is read from it. -/
theorem putUint16_netField {field : Bytes} (h : field.length = 2) :
    putUint16 (uint16 field) = field := by
  obtain ⟨a, b, rfl⟩ := List.length_eq_two.mp h
  exact putUint16_uint16 a b

/-- A part of the data and what is behind it. -/
theorem take_append_drop_add (data : Bytes) (i n : Nat) :
    (data.drop i).take n ++ data.drop (i + n) = data.drop i := by
  rw [← List.drop_drop, List.take_append_drop]

/-- A request that is returned has fields of the announced lengths, and the data begins with its
encoding. -/
theorem encode_of_decode (hsmall : netLen data < 2 ^ 16 - 2)
    (h : decodeConnectRequest data = .ok req) :
    req.network.length < 2 ^ 16 - 2 ∧ req.address.length < 2 ^ 16 ∧
      encodeConnectRequest req <+: data := by
  have hfits : 4 + netLen data ≤ data.length := by
    by_contra hshort
    have hlong : data.length < 4 + (uint16 (data.take 2)).toNat := Nat.lt_of_not_le hshort
    unfold decodeConnectRequest at h
    simp only [hlong, ↓reduceIte] at h
    split at h <;> cases h
  rw [decodeConnectRequest_eq hfits hsmall] at h
  split at h
  · cases h
  rename_i hlong
  cases h
  have haddrLt := addrLen_lt data (netLen data)
  have hnetwork : ((data.drop 2).take (netLen data)).length = netLen data := by
    rw [List.length_take, List.length_drop]
    omega
  have haddress : ((data.drop (4 + netLen data)).take (addrLen data (netLen data))).length =
      addrLen data (netLen data) := by
    rw [List.length_take, List.length_drop]
    omega
  refine ⟨hnetwork.trans_lt hsmall, haddress.trans_lt haddrLt, ?_⟩
  -- the two length fields are what was read
  have hnetField : putUint16 (UInt16.ofNat (netLen data)) = data.take 2 := by
    rw [netLen, UInt16.ofNat_toNat, putUint16_netField]
    rw [List.length_take]
    omega
  have haddrField : putUint16 (UInt16.ofNat (addrLen data (netLen data))) =
      (data.drop (2 + netLen data)).take 2 := by
    rw [addrLen, UInt16.ofNat_toNat, putUint16_netField]
    rw [List.length_take, List.length_drop]
    omega
  refine ⟨data.drop (4 + netLen data + addrLen data (netLen data)), ?_⟩
  simp only [encodeConnectRequest, hnetwork, haddress, hnetField, haddrField, List.append_assoc]
  -- and so the four parts put the data together again
  have hsum : 4 + netLen data = 2 + netLen data + 2 := by omega
  rw [take_append_drop_add, hsum, take_append_drop_add, take_append_drop_add,
    List.take_append_drop]

end Accepted

/-- For every byte sequence that announces a network of 65533 bytes at most: the decoder returns a
request exactly if the sequence begins with its encoding and its fields are not too long, and an
error if there is no such request. -/
theorem decode_accepts_encodings (data : Bytes) (h : netLen data ≤ 65533) :
    (∀ req, decodeConnectRequest data = .ok req ↔
      req.network.length ≤ 65533 ∧ req.address.length ≤ 65535 ∧
        encodeConnectRequest req <+: data) ∧
    ((∀ req : ConnectRequest, ¬ (req.network.length ≤ 65533 ∧ req.address.length ≤ 65535 ∧
        encodeConnectRequest req <+: data)) → (decodeConnectRequest data).isError = true) := by
  have hsmall : netLen data < 2 ^ 16 - 2 := by omega
  have hiff : ∀ req, decodeConnectRequest data = .ok req ↔
      req.network.length ≤ 65533 ∧ req.address.length ≤ 65535 ∧
        encodeConnectRequest req <+: data := by
    intro req
    constructor
    · intro hok
      obtain ⟨hnetwork, haddress, hprefix⟩ := encode_of_decode hsmall hok
      exact ⟨by omega, by omega, hprefix⟩
    · rintro ⟨hnetwork, haddress, rest, rfl⟩
      exact decode_encode_append (by omega) (by omega) rest
  refine ⟨hiff, fun hnone => ?_⟩
  cases hdec : decodeConnectRequest data with
  | ok req => exact absurd ((hiff req).mp hdec) (hnone req)
  | panic => exact absurd (decodeConnectRequest_panic_iff.mp hdec).2 (Nat.not_le.mpr hsmall)
  | payloadTooShort => rfl
  | invalidNetworkLength => rfl
  | invalidAddressLength => rfl

/-- A request for `a` over `tcp`, with a byte behind it. -/
theorem decode_accepts_tcp :
    netLen [0, 3, 116, 99, 112, 0, 1, 97, 7] ≤ 65533 ∧
      decodeConnectRequest [0, 3, 116, 99, 112, 0, 1, 97, 7] = .ok ⟨[116, 99, 112], [97]⟩ := by
  refine ⟨by decide, ?_⟩
  exact ((decode_accepts_encodings _ (by decide)).1 ⟨[116, 99, 112], [97]⟩).mpr (by decide)

/-! ## A long address -/

/-- An address of 65536 bytes for a TCP connection. -/
def longAddress : ConnectRequest := ⟨[116, 99, 112], List.replicate 65536 97⟩

theorem longAddress_length : longAddress.address.length = 65536 := List.length_replicate

theorem decode_longAddress :
    decodeConnectRequest (encodeConnectRequest longAddress) = .ok ⟨[116, 99, 112], []⟩ := by
  have hnet : longAddress.network.length < 2 ^ 16 - 2 := by decide
  rw [decode_encode_of_network hnet, longAddress_length]
  rfl

/-- The server reads it as an empty address, and dials that. -/
theorem long_address_changes_target :
    ¬ TargetKept longAddress ∧
      start Config.plain (connectRequest Encryptor.plain .zero 1 longAddress) =
        .at (.dial 1 ⟨[116, 99, 112], []⟩) := by
  have hlen := longAddress_length
  have hpayload : (encodeConnectRequest longAddress).length = 65543 := by
    rw [encodeConnectRequest_length, hlen]
    rfl
  refine ⟨?_, ?_⟩
  · rw [TargetKept, decode_longAddress]
    rintro (h | h)
    · have haddress := congrArg ConnectRequest.address (DecodeResult.ok.inj h)
      rw [← haddress] at hlen
      exact absurd hlen (Nat.zero_ne_add_one _)
    · cases h
  · rw [connectRequest, hpayload]
    have hstart := @start_post Config.plain .zero 1 _ mux_connectPath msgConnect
      (UInt32.ofNat 65543) (encodeConnectRequest longAddress)
    refine hstart.trans ?_
    simp only [handleMessage, ↓reduceIte, hpayload, decode_longAddress]
    rfl

end PTBridge.Dpi
