import PTBridge.Dpi.Server

/-!
# `dpi/client/transport.go`: the requests of a `Transport`

The four calls of the client and the request each of them sends. What `httpClient.Do` answers is
an input. The base URL is the server's address with nothing after the host, so that the path of a
request is the suffix its call appends.

- `newTransport` makes a transport, `nextConnID` draws the ids of `Connect`.
- `connectReply` is what `Connect` makes of an answer, `sendData` is all of `SendData`.
- `start_connectRequest`, `start_sendDataRequest`, `start_closeConnRequest` and
  `start_downloadRequest` say where the server's handler of each request begins, under the
  shared key.
-/

namespace PTBridge.Dpi

open PTBridge.Stream PTBridge.Transition

/-- `Transport`: the fields its calls read or change. -/
structure Transport where
  baseURL : List Char
  scheme : List Char
  host : List Char
  encryptor : Encryptor
  connIDGen : UInt32

inductive TransportError where
  | encrypt (err : CryptoError)
  /-- `http.NewRequest` or `httpClient.Do` failed. -/
  | exchange
  | connectFailed (body : List Char)
  | downloadFailed (status : Nat)
  deriving DecidableEq

/-- The errors of `NewTransport`. -/
inductive NewTransportError where
  /-- `parse server URL` -/
  | parse
  /-- `URL scheme must be http or https` -/
  | scheme
  /-- `front IP is required` -/
  | frontIP
  /-- `protocol h3 is not implemented yet` -/
  | h3
  /-- `invalid protocol` -/
  | protocol (protocol : List Char)
  deriving DecidableEq

/-- What `NewTransport` reads of a parsed URL. -/
structure ServerURL where
  scheme : List Char
  host : List Char

def normalizeAppProtocol (protocol : List Char) : Except NewTransportError (List Char) :=
  if protocol = [] ∨ protocol = "auto".toList then .ok "auto".toList
  else if protocol = "h1".toList ∨ protocol = "h2".toList then .ok protocol
  else if protocol = "h3".toList then .error .h3
  else .error (.protocol protocol)

namespace Transport

/-- `NewTransport` for a URL `scheme://host`. -/
def new (scheme host : List Char) (encryptor : Encryptor) : Transport :=
  ⟨scheme ++ "://".toList ++ host, scheme, host, encryptor, 1⟩

/-- `NewTransport`, where `parse` is `url.Parse`. The base URL is the text it is given. -/
def newTransport (parse : List Char → Option ServerURL) (serverURL : List Char)
    (encryptor : Encryptor) (frontIP protocol : List Char) : Except NewTransportError Transport :=
  match parse serverURL with
  | none => .error .parse
  | some u =>
      if u.scheme ≠ "http".toList ∧ u.scheme ≠ "https".toList then .error .scheme
      else if frontIP = [] then .error .frontIP
      else
        match normalizeAppProtocol protocol with
        | .error err => .error err
        | .ok _ => .ok ⟨serverURL, u.scheme, u.host, encryptor, 1⟩

/-- `NextConnID`: the counter skips zero when it wraps. -/
def nextConnID (t : Transport) : UInt32 × Transport :=
  let next := t.connIDGen + 1
  (t.connIDGen, { t with connIDGen := if next = 0 then 1 else next })

/-- A transport starts with its first id, whatever it is made of. -/
theorem newTransport_ok {parse : List Char → Option ServerURL} {serverURL : List Char}
    {encryptor : Encryptor} {frontIP protocol : List Char} {t : Transport}
    (h : newTransport parse serverURL encryptor frontIP protocol = .ok t) :
    ∃ u, parse serverURL = some u ∧ t = ⟨serverURL, u.scheme, u.host, encryptor, 1⟩ := by
  unfold newTransport at h
  cases hparse : parse serverURL with
  | none => simp [hparse] at h
  | some u =>
    simp only [hparse] at h
    split at h
    · cases h
    · split at h
      · cases h
      · split at h
        · cases h
        · exact ⟨u, rfl, (Except.ok.inj h).symm⟩

/-- `new` is what `NewTransport` makes of a URL with nothing after the host. -/
theorem newTransport_new {parse : List Char → Option ServerURL} {scheme host : List Char}
    {encryptor : Encryptor} {frontIP protocol : List Char} {t : Transport}
    (hparse : parse (scheme ++ "://".toList ++ host) = some ⟨scheme, host⟩)
    (h : newTransport parse (scheme ++ "://".toList ++ host) encryptor frontIP protocol = .ok t) :
    t = new scheme host encryptor := by
  obtain ⟨u, hu, rfl⟩ := newTransport_ok h
  rw [hparse] at hu
  cases hu
  rfl

end Transport

/-! ## Requests -/

/-- An upload; `http.NewRequest(http.MethodPost, …)`. -/
def post (path : List Char) (body : Bytes) : Request := ⟨.post, path, path, some body⟩

def connectPath : List Char := "/.well-known/cdn-cache/upload".toList

def uploadPath : List Char := "/api/v2/upload".toList

/-- The request of `Connect`, encrypted with `nonce`. -/
def connectRequest (e : Encryptor) (nonce : Nonce) (connID : UInt32) (req : ConnectRequest) :
    Request :=
  let payload := encodeConnectRequest req
  post connectPath
    (e.sealed nonce (streamHeader msgConnect connID (UInt32.ofNat payload.length) ++ payload))

/-- The plaintext of `SendData`. -/
def dataPlaintext (connID : UInt32) (data : Bytes) : Bytes :=
  streamHeader msgData connID (UInt32.ofNat data.length) ++ data

/-- The request of `SendData`. -/
def sendDataRequest (e : Encryptor) (nonce : Nonce) (connID : UInt32) (data : Bytes) : Request :=
  post uploadPath (e.sealed nonce (dataPlaintext connID data))

/-- The request of `CloseConn`. -/
def closeConnRequest (e : Encryptor) (nonce : Nonce) (connID : UInt32) : Request :=
  post uploadPath (e.sealed nonce (streamHeader msgClose connID 0))

/-- The request of `DownloadStream`. -/
def downloadRequest (connID : UInt32) : Request :=
  ⟨.get, downloadPath connID, downloadPath connID, some []⟩

/-! ## Answers -/

/-- What one round of `Connect` ends with. -/
inductive ConnectOutcome where
  | returned (connID : UInt32)
  | failed (err : TransportError)
  /-- `Connect` calls itself again with the new base URL. -/
  | redirected
  deriving DecidableEq

/-- The text `Connect` looks for in a response. -/
def okMark : List Char := "\"status\":\"ok\"".toList

/-- `Connect` from the answer of `httpClient.Do` on. -/
def Transport.connectReply (t : Transport) (connID : UInt32)
    (answer : Except TransportError Response) : ConnectOutcome × Transport :=
  match answer with
  | .error err => (.failed err, t)
  | .ok resp =>
      if 300 ≤ resp.status ∧ resp.status < 400 ∧ resp.location ≠ [] then
        -- a relative Location is taken on the server's own host
        let redirectURL :=
          if resp.location.head? = some '/' then
            t.scheme ++ "://".toList ++ t.host ++ resp.location
          else resp.location
        (.redirected, { t with baseURL := redirectURL })
      else if resp.status ≠ 200 then (.failed (.connectFailed resp.body), t)
      else if okMark <:+: resp.body then (.returned connID, t)
      else (.failed (.connectFailed resp.body), t)

/-- `SendData`: `rand` is what `Encrypt` draws, `exchange` is `NewRequest` and `Do`. The response
is closed unread. -/
def Transport.sendData (t : Transport) (rand : Option Nonce) (connID : UInt32) (data : Bytes)
    (exchange : Request → Except TransportError Response) : Except TransportError Unit :=
  match rand with
  | none => .error (.encrypt .random)
  | some nonce =>
      match exchange (sendDataRequest t.encryptor nonce connID data) with
      | .error err => .error err
      | .ok _ => .ok ()

theorem Transport.connectReply_encryptor (t : Transport) (connID : UInt32)
    (answer : Except TransportError Response) :
    (t.connectReply connID answer).2.encryptor = t.encryptor := by
  unfold connectReply
  repeat' split
  all_goals rfl

/-- `Connect` returns its id only on a 200 response with the mark. -/
theorem Transport.connectReply_returned {t : Transport} {connID : UInt32} {resp : Response}
    (h : (t.connectReply connID (.ok resp)).1 = .returned connID) :
    resp.status = 200 ∧ okMark <:+: resp.body := by
  unfold connectReply at h
  dsimp only at h
  split at h
  · cases h
  · split at h
    · cases h
    · rename_i hstatus
      split at h
      · rename_i hmark
        exact ⟨not_not.mp hstatus, hmark⟩
      · cases h

/-! ## Where the server's handlers begin -/

section Start

variable {cfg : Config} (nonce : Nonce) (connID : UInt32)

/-- An upload that the server can decrypt gets to the switch on its message type. -/
theorem start_post {path : List Char} (hpath : ∀ body, mux (post path body) = .tunnel)
    (t : UInt8) (payloadLen : UInt32) (payload : Bytes) :
    start cfg (post path (cfg.encryptor.sealed nonce
      (streamHeader t connID payloadLen ++ payload))) =
        handleMessage ⟨version, t, connID, payloadLen⟩ payload := by
  have hdec := cfg.encryptor.decrypt_sealed nonce (streamHeader t connID payloadLen ++ payload)
  have hne := cfg.encryptor.sealed_ne_nil nonce (streamHeader t connID payloadLen ++ payload)
  have hlen : ¬ (streamHeader t connID payloadLen ++ payload).length < streamHeaderSize := by
    rw [List.length_append, streamHeader_length]
    omega
  rw [start, hpath]
  simp only [handleTunnel, post, ne_eq, not_true_eq_false, false_and, ↓reduceIte, hne,
    Encryptor.decryptStream, hdec, hlen, readStreamHeader_streamHeader]

/-- A clean path that matches a tunnel pattern is not redirected on its way there. -/
theorem mux_post {path : List Char} (hclean : cleanPath path = path)
    (hroot : isSubtreeRoot path = false) (hstar : path ≠ ['*'])
    (hmatch : matchPath path = .tunnel) (body : Bytes) : mux (post path body) = .tunnel := by
  simp only [mux, post, reduceCtorEq, ↓reduceIte, hclean, hroot, hstar, Bool.false_eq_true, ne_eq,
    not_true_eq_false, hmatch]

theorem mux_connectPath : ∀ body, mux (post connectPath body) = .tunnel :=
  mux_post (by decide) (by decide) (by decide) (by decide)

theorem mux_uploadPath : ∀ body, mux (post uploadPath body) = .tunnel :=
  mux_post (by decide) (by decide) (by decide) (by decide)

/-- A `Connect` dials under its own id, or ends at once without a success. -/
theorem start_connectRequest (req : ConnectRequest) :
    (∃ req', start cfg (connectRequest cfg.encryptor nonce connID req) = .at (.dial connID req')) ∨
      start cfg (connectRequest cfg.encryptor nonce connID req) = .reply badRequest ∨
      start cfg (connectRequest cfg.encryptor nonce connID req) = .aborted := by
  rw [connectRequest, start_post nonce connID mux_connectPath]
  simp only [handleMessage, ↓reduceIte]
  split
  · exact Or.inr (Or.inl rfl)
  · split
    · exact Or.inl ⟨_, rfl⟩
    · exact Or.inr (Or.inr rfl)
    · exact Or.inr (Or.inl rfl)

theorem start_sendDataRequest (data : Bytes) :
    start cfg (sendDataRequest cfg.encryptor nonce connID data) =
      .at (.dataLookup connID data) := by
  rw [sendDataRequest, dataPlaintext, start_post nonce connID mux_uploadPath]
  rfl

theorem start_closeConnRequest :
    start cfg (closeConnRequest cfg.encryptor nonce connID) = .at (.closeLookup connID) := by
  have h := @start_post cfg nonce connID _ mux_uploadPath msgClose 0 []
  rw [List.append_nil] at h
  rw [closeConnRequest, h]
  rfl

theorem start_downloadRequest : start cfg (downloadRequest connID) = .at (.downLookup connID) := by
  rw [start, downloadRequest, mux_downloadPath]
  simp only [handleDownload, ne_eq, not_true_eq_false, false_and, ↓reduceIte,
    downloadConnID_downloadPath]

end Start

/-! ## A connection for runs on fixed inputs -/

/-- Id 1 connects to a remote. -/
def connectOne : List Act :=
  [.request (connectRequest Config.plain.encryptor .zero 1 ⟨[116], [97]⟩), .handler 0 (.dial true)]

/-- The server while it dials for id 1. -/
def dialingOne : Server := { Server.new with handlers := [.at (.dial 1 ⟨[116], [97]⟩)] }

/-- The server once id 1 is connected. -/
def connectedOne : Server :=
  (dialingOne.registerClient 1 (.dialed 1 ⟨[116], [97]⟩ 0)).setHandler 0 (.reply (connected 1))

theorem step_connectOne :
    step .plain .new (.request (connectRequest Config.plain.encryptor .zero 1 ⟨[116], [97]⟩)) =
      some dialingOne := by
  have hstart : start .plain (connectRequest Config.plain.encryptor .zero 1 ⟨[116], [97]⟩) =
      .at (.dial 1 ⟨[116], [97]⟩) := by decide +kernel
  rw [step, hstart]
  rfl

theorem exec_connectOne : exec (step .plain) .new connectOne = some connectedOne :=
  exec_cons_some.mpr ⟨_, step_connectOne, rfl⟩

end PTBridge.Dpi
