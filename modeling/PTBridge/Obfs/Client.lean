import Mathlib.Data.List.Basic

/-!
# `obfs/client/client.go`: `Setup` and `clientHandler`

An obfs client listens for SOCKS connections. In standalone mode there are two listeners: the one of
the user, whose connections go through a SOCKS proxy at the other end, and a middle one in between,
which obfuscates. In external mode there is one listener.

- `setup` is `Client.Setup`: the listeners it starts, each with the flag and the URL that
  `clientAcceptLoop` passes on to `clientHandler`.
- `clientHandler` is what a request does, as a list of events.
- `one_reply_iff`: which requests get one reply, and that after a remote was opened.
-/

namespace PTBridge.Obfs

/-! ## `Setup` -/

/-- `JsonClientConfigImpl`, as far as it is used here. -/
structure ClientConfig where
  type : String
  listen : String
  address : String
  useExternalService : Bool
  cert : String
  deriving DecidableEq

/-- `configuration.ObfsIatMode` -/
def obfsIatMode : String := "0"

/-- A `url.URL` of a proxy. -/
structure DialerURL where
  scheme : String
  host : String
  username : String
  password : String
  deriving DecidableEq

/-- A listener, with the arguments of its `clientAcceptLoop`. -/
structure Listener where
  address : String
  isInternal : Bool
  middleDialerUrl : Option DialerURL
  deriving DecidableEq

/-- What `Setup` meets. -/
structure World where
  /-- `transports.Get` knows the type -/
  supported : String → Bool
  /-- `ClientFactory` returns no error -/
  factory : String → Bool
  /-- `IsTcpOpen` of a port and a host, when the address to listen on is checked -/
  isTcpOpen : List Char → List Char → Bool
  /-- the random ports, each with what `IsTcpOpen` says of it -/
  randomPorts : List (Nat × Bool)
  /-- `net.Listen` succeeds -/
  listens : String → Bool

/-- The calls of `Fatal`, which exits. -/
inductive Fatal where
  | noTransport
  | noFactory
  | invalidListen
  | listenInUse
  | cannotListen (address : String)
  deriving DecidableEq

inductive SetupEnd where
  | launched
  | fatal (reason : Fatal)
  /-- still looking for a port -/
  | choosingPort
  deriving DecidableEq

/-- The first random port that is not in use. -/
def middleDialerPort (w : World) : Option Nat := (w.randomPorts.find? fun p => !p.2).map Prod.fst

def middleDialerUrl (config : ClientConfig) (middleDialerAddress : String) : DialerURL where
  scheme := "socks5"
  host := middleDialerAddress
  username := "cert=" ++ config.cert
  password := ";iat-mode=" ++ obfsIatMode

/-- `strings.Split(s, ":")`, each segment as its characters. -/
def splitColon (s : String) : List (List Char) := s.toList.splitOn ':'

def setupStandalone (w : World) (config : ClientConfig) : SetupEnd × List Listener :=
  match middleDialerPort w with
  | none => (.choosingPort, [])
  | some port =>
      let middleDialerAddress := "127.0.0.1:" ++ toString port
      let obfs : Listener := ⟨middleDialerAddress, false, none⟩
      let main : Listener :=
        ⟨config.listen, true, some (middleDialerUrl config middleDialerAddress)⟩
      if w.listens middleDialerAddress then
        -- the middle listener is already served when the second one fails
        if w.listens config.listen then (.launched, [obfs, main])
        else (.fatal (.cannotListen config.listen), [obfs])
      else (.fatal (.cannotListen middleDialerAddress), [])

def setupExternal (w : World) (config : ClientConfig) : SetupEnd × List Listener :=
  if w.listens config.listen then (.launched, [⟨config.listen, true, none⟩])
  else (.fatal (.cannotListen config.listen), [])

/-- `Client.Setup`: how it ends, and the listeners it has started. -/
def setup (w : World) (config : ClientConfig) : SetupEnd × List Listener :=
  if !w.supported config.type then (.fatal .noTransport, [])
  else if !w.factory config.type then (.fatal .noFactory, [])
  else
    match splitColon config.listen with
    | [host, port] =>
        if w.isTcpOpen port host then (.fatal .listenInUse, [])
        else if config.useExternalService then setupExternal w config
        else setupStandalone w config
    | _ => (.fatal .invalidListen, [])

/-! ## `clientHandler` -/

/-- The reply codes that `ErrorToReplyCode` returns. -/
inductive Failure where
  | generalFailure
  | connectionNotAllowed
  | networkUnreachable
  | hostUnreachable
  | connectionRefused
  | ttlExpired
  | commandNotSupported
  | addressNotSupported
  deriving DecidableEq

inductive ReplyCode where
  | succeeded
  | failed (reason : Failure)
  deriving DecidableEq

inductive Dialer where
  /-- the one of the transport, `f.Dial` -/
  | transport
  /-- `proxy.SOCKS5` at an address, over the dialer of a URL, or directly if that is nil -/
  | socks5 (address : String) (forward : Option DialerURL)
  | nil
  deriving DecidableEq

/-- What goes through the dialer is obfuscated. -/
def Dialer.obfuscates : Dialer → Bool
  | .transport => true
  | .socks5 _ forward => forward.isSome
  | .nil => false

inductive Event where
  /-- `proxy.FromURL` dereferences a nil URL; the process ends -/
  | nilURL
  /-- `proxy.FromURL` or `proxy.SOCKS5` returns an error -/
  | noDialer
  /-- `Dial` is called; on a nil dialer the process ends -/
  | dial (dialer : Dialer) (target : String)
  | opened (dialer : Dialer)
  | reply (code : ReplyCode)
  | copyLoop
  deriving DecidableEq

/-- What a request meets. -/
structure Outcomes where
  /-- the target of the SOCKS handshake, if that completes -/
  handshake : Option String
  /-- `proxy.FromURL` returns no error -/
  fromURL : Bool
  /-- `proxy.SOCKS5` returns no error -/
  socks5 : Bool
  /-- `ParseArgs` returns no error -/
  parseArgs : Bool
  /-- `Dial`, where an error is what `ErrorToReplyCode` makes of it -/
  dial : Except Failure Unit
  /-- the last reply can be written -/
  replied : Bool

/-- From `Dial` on. -/
def dialAndReply (dialer : Dialer) (target : String) (o : Outcomes) : List Event :=
  .dial dialer target ::
    match o.dial with
    | .error reason => [.reply (.failed reason)]
    | .ok _ => [.opened dialer, .reply .succeeded] ++ if o.replied then [.copyLoop] else []

/-- The events after a dialer could not be made. -/
def noDialer (made : Bool) : List Event :=
  if made then [] else [.noDialer, .reply (.failed .generalFailure)]

def clientHandler (config : ClientConfig) (l : Listener) (o : Outcomes) : List Event :=
  match o.handshake with
  | none => []
  | some target =>
      if l.isInternal then
        match l.middleDialerUrl with
        | none => [.nilURL]
        | some url =>
            let obfuscateDialer := if o.fromURL then some url else none
            -- neither error returns
            noDialer o.fromURL ++ noDialer o.socks5 ++
              if o.socks5 then dialAndReply (.socks5 config.address obfuscateDialer) target o
              else [.dial .nil target]
      else if o.parseArgs then dialAndReply .transport target o
      else [.reply (.failed .generalFailure)]

/-! ## One reply -/

def Event.isReply : Event → Bool
  | .reply _ => true
  | _ => false

def Event.isDial : Event → Bool
  | .dial _ _ => true
  | _ => false

/-- A remote was opened through a dialer that obfuscates. -/
def Event.opensObfuscated : Event → Bool
  | .opened dialer => dialer.obfuscates
  | _ => false

/-- A request is answered as it should be. -/
structure OneReply (events : List Event) : Prop where
  one : events.countP Event.isReply = 1
  /-- `ReplySucceeded` comes behind an opened remote -/
  opened : .reply .succeeded ∈ events →
    (events.takeWhile (· ≠ .reply .succeeded)).any Event.opensObfuscated = true
  /-- no dial behind a dialer that could not be made -/
  made : events.Pairwise fun e e' => e = .noDialer → e'.isDial = false
  /-- no nil URL is dereferenced -/
  url : .nilURL ∉ events

section Handler

variable {w : World} {config : ClientConfig} {l : Listener} {o : Outcomes} {target : String}

theorem setupExternal_listeners (h : l ∈ (setupExternal w config).2) :
    l = ⟨config.listen, true, none⟩ := by
  unfold setupExternal at h
  split at h
  · exact List.mem_singleton.mp h
  · simp at h

/-- In standalone mode a listener obfuscates, or has the URL of one that does. -/
theorem setupStandalone_listeners (h : l ∈ (setupStandalone w config).2) :
    (l.isInternal = false ∧ l.middleDialerUrl = none) ∨
      ∃ address, l = ⟨config.listen, true, some (middleDialerUrl config address)⟩ := by
  unfold setupStandalone at h
  split at h
  · simp at h
  · dsimp only at h
    split_ifs at h
    · rcases List.mem_pair.mp h with rfl | rfl
      · exact .inl ⟨rfl, rfl⟩
      · exact .inr ⟨_, rfl⟩
    · rw [List.mem_singleton.mp h]
      exact .inl ⟨rfl, rfl⟩
    · simp at h

/-- The listeners of `Setup`. -/
theorem setup_listeners (h : l ∈ (setup w config).2) :
    if config.useExternalService then l = ⟨config.listen, true, none⟩
    else (l.isInternal = false ∧ l.middleDialerUrl = none) ∨
      ∃ address, l = ⟨config.listen, true, some (middleDialerUrl config address)⟩ := by
  unfold setup at h
  split at h
  · simp at h
  · split at h
    · simp at h
    · split at h
      · split at h
        · simp at h
        · split at h
          · rename_i hexternal
            rw [if_pos hexternal]
            exact setupExternal_listeners h
          · rename_i hstandalone
            rw [if_neg hstandalone]
            exact setupStandalone_listeners h
      · simp at h

/-- A dialer that obfuscates gets one reply. -/
theorem dialAndReply_one {dialer : Dialer} (h : dialer.obfuscates = true) :
    OneReply (dialAndReply dialer target o) := by
  cases hdial : o.dial with
  | error reason =>
    constructor <;> simp [dialAndReply, hdial, Event.isReply]
  | ok u =>
    cases hreplied : o.replied <;> constructor <;>
      simp [dialAndReply, hdial, hreplied, List.countP_cons, Event.isReply, Event.opensObfuscated, h]

/-- The user's listener answers as it should exactly if both dialers can be made. -/
theorem handler_internal {url : DialerURL} {address : String} (hshake : o.handshake = some target) :
    OneReply (clientHandler config ⟨address, true, some url⟩ o) ↔
      o.fromURL = true ∧ o.socks5 = true := by
  simp only [clientHandler, hshake, ↓reduceIte]
  cases hurl : o.fromURL with
  | true =>
    cases hsocks : o.socks5 with
    | true =>
      simp only [noDialer, ↓reduceIte, List.nil_append, and_self, iff_true]
      exact dialAndReply_one rfl
    | false =>
      -- the nil dialer is called behind the failure
      simp only [Bool.false_eq_true, and_false, iff_false]
      intro h
      have hmade := h.made
      simp [noDialer, Event.isDial] at hmade
  | false =>
    simp only [Bool.false_eq_true, false_and, iff_false]
    intro h
    have hmade := h.made
    cases hsocks : o.socks5 <;> simp [noDialer, dialAndReply, hsocks, Event.isDial] at hmade

/-- The middle listener answers as it should. -/
theorem handler_middle (hshake : o.handshake = some target) (hinternal : l.isInternal = false) :
    OneReply (clientHandler config l o) := by
  simp only [clientHandler, hshake, hinternal, Bool.false_eq_true, ↓reduceIte]
  cases hargs : o.parseArgs with
  | true => exact dialAndReply_one rfl
  | false => constructor <;> simp [Event.isReply]

end Handler

/-- A request at a listener of `Setup` gets one reply, and all that goes with it, exactly in
standalone mode and, at the user's listener, if both dialers can be made. -/
theorem one_reply_iff (w : World) (config : ClientConfig) (l : Listener) (o : Outcomes)
    (target : String) (hl : l ∈ (setup w config).2) (hshake : o.handshake = some target) :
    OneReply (clientHandler config l o) ↔
      config.useExternalService = false ∧
        (l.isInternal = true → o.fromURL = true ∧ o.socks5 = true) := by
  have hlisteners := setup_listeners hl
  cases hmode : config.useExternalService with
  | true =>
    rw [hmode, if_pos rfl] at hlisteners
    subst hlisteners
    simp only [Bool.true_eq_false, false_and, iff_false]
    intro h
    have hurl := h.url
    simp [clientHandler, hshake] at hurl
  | false =>
    simp only [hmode, Bool.false_eq_true, ↓reduceIte] at hlisteners
    rcases hlisteners with ⟨hinternal, -⟩ | ⟨address, rfl⟩
    · simp only [hinternal, Bool.false_eq_true, false_implies, and_true, iff_true]
      exact handler_middle hshake hinternal
    · simp only [true_and, forall_const]
      exact handler_internal hshake

/-- A machine on which all goes well. -/
def World.free : World where
  supported _ := true
  factory _ := true
  isTcpOpen _ _ := false
  randomPorts := [(20000, false)]
  listens _ := true

/-- A request for a host that can be reached. -/
def Outcomes.reachable : Outcomes := ⟨some "example.com:443", true, true, true, .ok (), true⟩

/-- A request at the user's listener in standalone mode. -/
theorem one_reply_standalone :
    ∃ l, l ∈ (setup .free ⟨"obfs4", "127.0.0.1:1080", "192.0.2.1:443", false, "AAAA"⟩).2 ∧
      l.isInternal = true ∧
      OneReply (clientHandler ⟨"obfs4", "127.0.0.1:1080", "192.0.2.1:443", false, "AAAA"⟩ l
        .reachable) := by
  let config : ClientConfig := ⟨"obfs4", "127.0.0.1:1080", "192.0.2.1:443", false, "AAAA"⟩
  let l : Listener :=
    ⟨"127.0.0.1:1080", true, some (middleDialerUrl config ("127.0.0.1:" ++ toString 20000))⟩
  have hsplit : splitColon config.listen = ["127.0.0.1".toList, "1080".toList] := by decide
  have hl : l ∈ (setup .free config).2 := by
    simp [setup, hsplit, setupStandalone, middleDialerPort, World.free, config, l]
  refine ⟨l, hl, rfl, ?_⟩
  exact (one_reply_iff .free config l .reachable "example.com:443" hl rfl).mpr
    ⟨rfl, fun _ => ⟨rfl, rfl⟩⟩

/-- In external mode the listener has no URL, and the first request ends the process without a
reply. -/
theorem external_nil_url :
    ∃ l, l ∈ (setup .free ⟨"obfs4", "127.0.0.1:1080", "", true, ""⟩).2 ∧
      clientHandler ⟨"obfs4", "127.0.0.1:1080", "", true, ""⟩ l .reachable = [.nilURL] ∧
      ¬ OneReply (clientHandler ⟨"obfs4", "127.0.0.1:1080", "", true, ""⟩ l .reachable) := by
  refine ⟨⟨"127.0.0.1:1080", true, none⟩, List.mem_cons_self, rfl, fun h => ?_⟩
  exact h.url List.mem_cons_self

end PTBridge.Obfs
