import PTBridge.Net.HttpHead

/-!
# `snowflake/common/standalone/proxy.go`: dialing through a proxy

`dialHTTPProxy` sends a CONNECT request, reads the response through a `bufio.Reader`, discards the
body of the response, and hands out the connection. Three readers share the bytes behind the head:
the buffer, the body, and whoever gets the connection. A response that says nothing about its length
has a body that goes on to the end of the connection, so that the tunnel is its body.

- `ProxyNet` is what the code depends on, `proxyDialer` and `dialHTTPProxy` are the code.
- `Usable` says that the dialer returns while the peer goes on, and that the connection yields the
  bytes behind the head.
- `dialHTTPProxy_usable_iff`: this is so if and only if the response has a body of length zero and the
  last `Read` for the head ends with it.
-/

namespace PTBridge.Snowflake

open PTBridge.Stream PTBridge.Net

/-! ## The dialer -/

/-- What the dialer uses of a `url.URL`. -/
structure ProxyURL where
  scheme : List Char
  host : List Char
  /-- `u.User`: name and password -/
  user : Option (List Char × List Char)

/-- The CONNECT request; `auth` goes into `Proxy-Authorization` in Base64. -/
structure ProxyConnect where
  addr : List Char
  auth : Option (List Char)

/-- The body that `http.ReadResponse` gives to a response. -/
inductive Body where
  | untilEnd
  | sized (n : Nat)
  deriving DecidableEq

structure ProxyResponse where
  statusCode : Nat
  status : List Char
  body : Body

inductive ProxyError where
  /-- the error of a library call -/
  | call (err : ReadError)
  | invalidURL
  | unsupportedScheme (scheme : List Char)
  | connectFailed (text : List Char)

/-- What a dial function comes to. -/
inductive Dialed where
  /-- it does not return -/
  | waits
  | failed (err : ProxyError)
  | conn (c : Incoming)

/-- What the calls of the dialer return. -/
structure ProxyNet where
  parseURL : List Char → Option ProxyURL
  /-- `proxy.FromURL` and the dialer that it returns -/
  socks : ProxyURL → List Char → Dialed
  /-- `DialContext` -/
  dial : List Char → Except ProxyError Incoming
  /-- The error of `req.Write(conn)`. -/
  sends : ProxyConnect → Option ProxyError
  /-- The response that `http.ReadResponse` makes of a head, or its error. -/
  readResponse : Bytes → Except ProxyError ProxyResponse

/-- The address of the proxy, with the port of its scheme if it has none. -/
def proxyAddr (u : ProxyURL) : List Char :=
  if ':' ∈ u.host then u.host
  else if u.scheme = "https".toList then u.host ++ ":443".toList
  else u.host ++ ":80".toList

def connectRequest (u : ProxyURL) (addr : List Char) : ProxyConnect :=
  ⟨addr, u.user.map fun user => user.1 ++ ':' :: user.2⟩

/-- `io.Copy(io.Discard, resp.Body)`, whose error is dropped: the connection afterwards, or `none` if
it does not return. -/
def discardBody (body : Body) (br : Buffered) : Option Incoming :=
  match body with
  | .untilEnd =>
      match (drain (discardBuffer - 1) br.conn).2 with
      | .pending => none
      | .ended err => some (.finished err)
  | .sized n =>
      match discard n br with
      | .ok br' => some br'.conn
      | .error .pending => none
      | .error (.ended err) => some (.finished err)

/-- The dialer behind `http.ReadResponse`. -/
def finishConnect (resp : ProxyResponse) (br : Buffered) : Dialed :=
  match discardBody resp.body br with
  | none => .waits
  | some conn =>
      if resp.statusCode ≠ 200 then
        .failed (.connectFailed ("proxy CONNECT failed: ".toList ++ resp.status))
      else .conn conn

def dialHTTPProxy (net : ProxyNet) (u : ProxyURL) (addr : List Char) : Dialed :=
  match net.dial (proxyAddr u) with
  | .error err => .failed err
  | .ok conn =>
      match net.sends (connectRequest u addr) with
      | some err => .failed err
      | none =>
          match receive (headScanner net.readResponse) (headScanner net.readResponse).start conn with
          | .stopped _ .pending => .waits
          | .stopped _ (.ended err) => .failed (.call err)
          | .done (.error err) _ _ => .failed err
          | .done (.ok resp) _ br => finishConnect resp br

/-- `ProxyDialer(proxyURL)` and a call of what it returns. -/
def proxyDialer (net : ProxyNet) (proxyURL addr : List Char) : Dialed :=
  if proxyURL = [] then
    match net.dial addr with
    | .error err => .failed err
    | .ok conn => .conn conn
  else
    match net.parseURL proxyURL with
    | none => .failed .invalidURL
    | some u =>
        let scheme := u.scheme.map Char.toLower
        if scheme = "socks5".toList ∨ scheme = "socks5h".toList then net.socks u addr
        else if scheme = "http".toList ∨ scheme = "https".toList then dialHTTPProxy net u addr
        else .failed (.unsupportedScheme u.scheme)

/-! ## Which connection is handed out -/

/-- The same network, with peers that have not ended their streams. -/
def ProxyNet.stillOpen (net : ProxyNet) : ProxyNet :=
  { net with dial := fun addr => (net.dial addr).map Incoming.stillOpen }

/-- The dialer returns although the stream has not ended, and its connection yields `rest`. -/
def Usable (net : ProxyNet) (u : ProxyURL) (addr : List Char) (rest : Bytes) : Prop :=
  ∃ conn, dialHTTPProxy net.stillOpen u addr = .conn conn ∧ conn.bytes = rest

/-- The proxy can be reached, and answers with this head. -/
structure Replies (net : ProxyNet) (u : ProxyURL) (addr : List Char) (conn : Incoming)
    (head rest : Bytes) (resp : ProxyResponse) : Prop where
  dials : net.dial (proxyAddr u) = .ok conn
  sends : net.sends (connectRequest u addr) = none
  isHead : IsHead head
  response : net.readResponse head = .ok resp
  bytes : conn.bytes = head ++ rest

variable {net : ProxyNet} {u : ProxyURL} {addr : List Char} {conn : Incoming} {head rest : Bytes}
  {resp : ProxyResponse}

/-- What is left of the bytes behind the head is in the buffer and in the connection. -/
theorem dialHTTPProxy_eq (h : Replies net u addr conn head rest resp) :
    ∃ br, dialHTTPProxy net u addr = finishConnect resp br ∧
      (headReads net.readResponse conn).flatten = head ++ br.buf ∧
      rest = br.buf ++ br.conn.bytes ∧ br.conn.tail = conn.tail := by
  obtain ⟨br, hreceive, hreads, hrest, htail⟩ := receive_head net.readResponse h.isHead h.bytes
  refine ⟨br, ?_, hreads, hrest, htail⟩
  simp only [dialHTTPProxy, h.dials, h.sends, hreceive, h.response]

theorem Replies.stillOpen (h : Replies net u addr conn head rest resp) :
    Replies net.stillOpen u addr conn.stillOpen head rest resp where
  dials := by simp only [ProxyNet.stillOpen, h.dials, Except.map]
  sends := h.sends
  isHead := h.isHead
  response := h.response
  bytes := h.bytes

theorem finishConnect_conn {br : Buffered} {c : Incoming} (h : finishConnect resp br = .conn c) :
    discardBody resp.body br = some c := by
  unfold finishConnect at h
  split at h
  · cases h
  · rename_i hdiscard
    split at h
    · cases h
    · cases h
      exact hdiscard

/-- On an open connection the body is gone, and all that was left is still in the connection, only if
the body and the buffer are empty. -/
theorem discardBody_keeps_iff {body : Body} {br : Buffered} (hopen : br.conn.tail = .pending) :
    (∃ c, discardBody body br = some c ∧ c.bytes = br.buf ++ br.conn.bytes) ↔
      body = .sized 0 ∧ br.buf = [] := by
  constructor
  · rintro ⟨c, hdiscard, hbytes⟩
    cases body with
    | untilEnd =>
      -- the end of the body is the end of the connection, which does not come
      simp only [discardBody, (drain_eq _ br.conn).2, hopen] at hdiscard
      cases hdiscard
    | sized n =>
      simp only [discardBody] at hdiscard
      split at hdiscard
      · rename_i br' hok
        cases hdiscard
        have hle := discard_ok hok
        rw [← hbytes, List.length_append] at hle
        have hn : n = 0 := by omega
        subst hn
        rw [discard_zero] at hok
        cases hok
        exact ⟨rfl, List.self_eq_append_left.mp hbytes⟩
      · cases hdiscard
      · rename_i err herr
        rw [discard_error herr] at hopen
        cases hopen
  · rintro ⟨rfl, hbuf⟩
    exact ⟨br.conn, by simp only [discardBody, discard_zero], by rw [hbuf, List.nil_append]⟩

/-- The dialer returns a connection with the bytes behind the head, and does not wait for their end,
if and only if the body has length zero and no `Read` for the head brings more than the head. -/
theorem dialHTTPProxy_usable_iff (h : Replies net u addr conn head rest resp)
    (hok : resp.statusCode = 200) :
    Usable net u addr rest ↔
      resp.body = .sized 0 ∧ (headReads net.readResponse conn).flatten = head := by
  obtain ⟨br, hdial, hreads, hrest, htail⟩ := dialHTTPProxy_eq h.stillOpen
  rw [show headReads net.stillOpen.readResponse conn.stillOpen = headReads net.readResponse conn from
    reads_stillOpen _ _ conn] at hreads
  rw [hreads, List.append_right_eq_self, ← discardBody_keeps_iff htail, ← hrest]
  constructor
  · rintro ⟨c, hconn, hbytes⟩
    rw [hdial] at hconn
    exact ⟨c, finishConnect_conn hconn, hbytes⟩
  · rintro ⟨c, hdiscard, hbytes⟩
    refine ⟨c, ?_, hbytes⟩
    simp only [hdial, finishConnect, hdiscard, hok, ne_eq, not_true_eq_false, ↓reduceIte]

/-! ## Responses without a length -/

/-- While the proxy keeps the connection open, the dialer does not return. -/
theorem dialHTTPProxy_waits (h : Replies net u addr conn head rest resp)
    (hbody : resp.body = .untilEnd) (hopen : conn.tail = .pending) :
    dialHTTPProxy net u addr = .waits := by
  obtain ⟨br, hdial, -, -, htail⟩ := dialHTTPProxy_eq h
  simp only [hdial, finishConnect, hbody, discardBody, (drain_eq _ br.conn).2, htail, hopen]

/-- When the proxy has ended its stream, the connection has nothing more to yield. -/
theorem dialHTTPProxy_ended {err : ReadError} (h : Replies net u addr conn head rest resp)
    (hok : resp.statusCode = 200) (hbody : resp.body = .untilEnd) (hend : conn.tail = .ended err) :
    dialHTTPProxy net u addr = .conn (.finished err) := by
  obtain ⟨br, hdial, -, -, htail⟩ := dialHTTPProxy_eq h
  simp only [hdial, finishConnect, hbody, discardBody, (drain_eq _ br.conn).2, htail, hend, hok,
    ne_eq, not_true_eq_false, ↓reduceIte]

/-- So `ProxyDialer` gives for every such proxy a dial function that does not return. -/
theorem proxyDialer_waits {proxyURL : List Char} (hurl : proxyURL ≠ [])
    (hparse : net.parseURL proxyURL = some u)
    (hscheme : u.scheme.map Char.toLower = "http".toList ∨
      u.scheme.map Char.toLower = "https".toList)
    (h : Replies net u addr conn head rest resp) (hbody : resp.body = .untilEnd)
    (hopen : conn.tail = .pending) : proxyDialer net proxyURL addr = .waits := by
  have hsocks : ¬ (u.scheme.map Char.toLower = "socks5".toList ∨
      u.scheme.map Char.toLower = "socks5h".toList) := by
    rcases hscheme with hs | hs <;> rw [hs] <;> decide
  simp only [proxyDialer, hurl, ↓reduceIte, hparse, if_neg hsocks, if_pos hscheme]
  exact dialHTTPProxy_waits h hbody hopen

/-- `HTTP/1.1 200 OK` and an empty line. -/
def okHead : Bytes := "HTTP/1.1 200 OK\r\n\r\n".toList.map fun ch => UInt8.ofNat ch.toNat

/-- A proxy that answers with a head and two bytes of the target in a piece of their own. -/
def okNet (body : Body) (t : Tail) : ProxyNet where
  parseURL _ := none
  socks _ _ := .waits
  dial _ := .ok ⟨[okHead, [104, 105]], t, by decide⟩
  sends _ := none
  readResponse head :=
    if head = okHead then .ok ⟨200, "200 OK".toList, body⟩ else .error .invalidURL

def someURL : ProxyURL := ⟨"http".toList, "p".toList, none⟩

theorem okNet_replies (body : Body) (t : Tail) :
    Replies (okNet body t) someURL "a:1".toList ⟨[okHead, [104, 105]], t, by decide⟩ okHead
      [104, 105] ⟨200, "200 OK".toList, body⟩ where
  dials := rfl
  sends := rfl
  isHead := ⟨okHead, by unfold Scanner.Scans; rfl⟩
  response := by simp only [okNet, ↓reduceIte]
  bytes := rfl

/-- With `Content-Length: 0` the connection is usable, if the head comes in a piece of its own. -/
theorem dialHTTPProxy_usable_empty_body :
    Usable (okNet (.sized 0) .pending) someURL "a:1".toList [104, 105] := by
  refine (dialHTTPProxy_usable_iff (okNet_replies (.sized 0) .pending) rfl).mpr ⟨rfl, ?_⟩
  exact headReads_boundary _ [okHead] [[104, 105]] ⟨okHead, rfl⟩ rfl

/-- Without a length the dialer waits as long as the stream goes on; when the stream ends, it returns
a connection that has lost the two bytes. -/
theorem dialHTTPProxy_eats_tunnel :
    Replies (okNet .untilEnd .pending) someURL "a:1".toList
        ⟨[okHead, [104, 105]], .pending, by decide⟩ okHead [104, 105]
        ⟨200, "200 OK".toList, .untilEnd⟩ ∧
      dialHTTPProxy (okNet .untilEnd .pending) someURL "a:1".toList = .waits ∧
      dialHTTPProxy (okNet .untilEnd (.ended .eof)) someURL "a:1".toList = .conn (.finished .eof) ∧
      ¬ Usable (okNet .untilEnd .pending) someURL "a:1".toList [104, 105] := by
  have hwaits := dialHTTPProxy_waits (okNet_replies .untilEnd .pending) rfl rfl
  refine ⟨okNet_replies .untilEnd .pending, hwaits,
    dialHTTPProxy_ended (okNet_replies .untilEnd (.ended .eof)) rfl rfl rfl, ?_⟩
  rintro ⟨c, hconn, -⟩
  have hopen := dialHTTPProxy_waits (okNet_replies .untilEnd .pending).stillOpen rfl rfl
  rw [hopen] at hconn
  cases hconn

end PTBridge.Snowflake
