import PTBridge.Obfs.ServerCerts
import PTBridge.Urls

/-!
# `obfs/server/server.go`: `Setup`, and the obfs entries of `main`

`Setup` checks the address to listen on by counting its colons and by dialing it, resolves this
address and the one of the service behind the server, and starts a listener. Every check that fails
ends the process; a `ListenTCP` that fails does not. `main` goes over the server entries in order:
the entries that use no external service share one internal SOCKS service, which is started for the
first of them.

- `setup_exact`: which entries are launched, and with which addresses.
- `launchServers_serves`: what the launched servers relay to.
-/

namespace PTBridge.Obfs.Server

open PTBridge.Net PTBridge.Stream PTBridge.Configuration PTBridge.Urls

/-! ## `Setup` -/

/-- What a call of `Setup` meets. -/
structure Env where
  /-- `IsTcpOpen` of the address to listen on -/
  tcpOpen : Bool
  /-- `drbg.NewSeed()` -/
  seed : Option Bytes
  /-- `transports.Get` knows the type -/
  supported : Bool
  /-- `os.MkdirTemp` succeeds -/
  stateDir : Bool
  /-- `ServerFactory` returns no error -/
  factory : Bool
  /-- `ServerFactory` returns a factory that is not nil -/
  factoryMade : Bool
  /-- `net.ListenTCP` succeeds -/
  listens : Bool

/-- The calls of `Fatal`, which exits. -/
inductive Fatal where
  /-- `"Invalid ipv4 service address format, should be <address>:<port>"` -/
  | invalidListen
  | portInUse (port : Bytes)
  | invalidCert (err : IdentityError)
  | resolve (err : ResolveError)
  | noTransport
  | noStateDir
  | factory
  | noFactory
  deriving DecidableEq

/-- `pt.ServerInfo` with its one `Bindaddr`. -/
structure ServerInfo where
  bindAddr : TCPAddr
  methodName : Bytes
  /-- `none` are no options -/
  options : Option Obfs4Args
  orAddr : TCPAddr
  deriving DecidableEq

/-- A server that `Setup` has launched. -/
structure Launched where
  info : ServerInfo
  /-- The listener is not nil. -/
  listening : Bool
  deriving DecidableEq

/-- The options of the transport. -/
def options (env : Env) (config : ServerConfig) : Except IdentityError (Option Obfs4Args) :=
  if config.type = obfs4 ∧ config.cert ≠ [] then
    (obfs4ArgsFromConfig env.seed config.cert config.privateKey).map some
  else .ok none

def getPtServerInfo (config : ServerConfig) (options : Option Obfs4Args) :
    Except ResolveError ServerInfo :=
  match resolveAddr config.listen with
  | .error err => .error err
  | .ok bindAddr =>
      match resolveAddr config.externalServiceAddress with
      | .error err => .error err
      | .ok orAddr => .ok ⟨bindAddr, config.type, options, orAddr⟩

def setup (env : Env) (config : ServerConfig) : Except Fatal Launched :=
  match config.listen.splitOn colon with
  | [_, port] =>
      if env.tcpOpen then .error (.portInUse port)
      else
        match options env config with
        | .error err => .error (.invalidCert err)
        | .ok options =>
            match getPtServerInfo config options with
            | .error err => .error (.resolve err)
            | .ok info =>
                if !env.supported then .error .noTransport
                else if !env.stateDir then .error .noStateDir
                else if !env.factory then .error .factory
                else if !env.factoryMade then .error .noFactory
                -- the error of `ListenTCP` is not looked at
                else .ok ⟨info, env.listens⟩
  | _ => .error .invalidListen

/-- Nothing stands in the way of a launch but the configuration. -/
def Env.Ready (env : Env) : Prop :=
  env.tcpOpen = false ∧ env.supported = true ∧ env.stateDir = true ∧ env.factory = true ∧
    env.factoryMade = true

instance (env : Env) : Decidable env.Ready := inferInstanceAs (Decidable (_ ∧ _))

/-- An address without a colon is a dotted quad. -/
theorem parseIP_no_colon {host : Bytes} {ip : IP} (h : parseIP host = some ip)
    (hcolon : colon ∉ host) : ∃ ip4, parseIPv4Fields host = some ip4 ∧ ip = v4InV6Prefix ++ ip4 := by
  unfold parseIP at h
  split at h
  · cases h
  · rename_i c hfind
    split at h
    · obtain ⟨ip4, hfields, rfl⟩ := Option.map_eq_some_iff.mp h
      exact ⟨ip4, hfields, rfl⟩
    · split at h
      · rename_i hc
        rw [hc] at hfind
        exact absurd (List.mem_of_find?_eq_some hfind) hcolon
      · cases h

/-- The texts with two segments that are resolved: one colon leaves room for a dotted quad only. -/
theorem resolve_segments {s : Bytes} {addr : TCPAddr} :
    ((s.splitOn colon).length = 2 ∧ resolveAddr s = .ok addr) ↔
      ∃ host port ip4,
        (s = host ++ [colon] ++ port ∨ s = [lbracket] ++ host ++ [rbracket, colon] ++ port) ∧
          parseIPv4Fields host = some ip4 ∧ addr.ip = v4InV6Prefix ++ ip4 ∧
          parsePort port = .ok addr.port := by
  -- both forms end with a colon and the port
  have hlength : ∀ {front port : Bytes}, colon ∉ port →
      ((front ++ [colon] ++ port).splitOn colon).length = (front.splitOn colon).length + 1 := by
    intro front port hport
    rw [splitOn_last hport, List.length_append, List.length_singleton]
  have hone : ∀ {front : Bytes}, (front.splitOn colon).length = 1 ↔ colon ∉ front := by
    intro front
    constructor
    · intro hlen hmem
      have := one_lt_length_splitOn hmem
      omega
    · intro hnot
      have hsingle : front.splitOn colon = [front] :=
        List.splitOnP_eq_singleton fun c hc =>
          beq_eq_false_iff_ne.mpr fun heq => hnot (heq ▸ hc)
      rw [hsingle]
      rfl
  have hbrackets : lbracket ≠ colon ∧ rbracket ≠ colon := by decide
  have hmem : ∀ host : Bytes, colon ∈ [lbracket] ++ host ++ [rbracket] ↔ colon ∈ host := by
    intro host
    simp [hbrackets.1.symm, hbrackets.2.symm]
  have hshape : ∀ host port : Bytes, [lbracket] ++ host ++ [rbracket, colon] ++ port =
      ([lbracket] ++ host ++ [rbracket]) ++ [colon] ++ port := by simp
  constructor
  · rintro ⟨hlen, hresolve⟩
    obtain ⟨host, port, hform, hip, hport⟩ := resolveAddr_parts hresolve
    have hcolon := (plain_of_digits (parseUint_ok hport).2.2).2
    have hhost : colon ∉ host := by
      rcases hform with rfl | rfl
      · rw [hlength hcolon] at hlen
        exact hone.mp (by omega)
      · rw [hshape, hlength hcolon] at hlen
        exact fun h => hone.mp (by omega) ((hmem host).mpr h)
    obtain ⟨ip4, hfields, hip4⟩ := parseIP_no_colon hip hhost
    exact ⟨host, port, ip4, hform, hfields, hip4, hport⟩
  · rintro ⟨host, port, ip4, hform, hfields, hip, hport⟩
    have hcolon := (plain_of_digits (parseUint_ok hport).2.2).2
    have hhost : colon ∉ host := by
      intro hmem
      have hnot : ¬ QuadChar colon := by
        unfold QuadChar
        decide
      exact hnot (parseIPv4Loop_chars hfields colon hmem)
    refine ⟨?_, resolveAddr_accepts hform ((parseIP_of_quad hfields).trans (by rw [hip])) hport⟩
    rcases hform with rfl | rfl
    · rw [hlength hcolon, hone.mpr hhost]
    · rw [hshape, hlength hcolon, hone.mpr (mt (hmem host).mp hhost)]

theorem getPtServerInfo_eq_ok {config : ServerConfig} {options : Option Obfs4Args}
    {info : ServerInfo} :
    getPtServerInfo config options = .ok info ↔
      resolveAddr config.listen = .ok info.bindAddr ∧
        resolveAddr config.externalServiceAddress = .ok info.orAddr ∧
        info.methodName = config.type ∧ info.options = options := by
  unfold getPtServerInfo
  cases hbind : resolveAddr config.listen with
  | error err => simp
  | ok bindAddr =>
    cases hor : resolveAddr config.externalServiceAddress with
    | error err => simp
    | ok orAddr =>
      obtain ⟨b, m, o, r⟩ := info
      simp only [Except.ok.injEq, ServerInfo.mk.injEq]
      constructor
      · rintro ⟨rfl, rfl, rfl, rfl⟩
        exact ⟨rfl, rfl, rfl, rfl⟩
      · rintro ⟨rfl, rfl, rfl, rfl⟩
        exact ⟨rfl, rfl, rfl, rfl⟩

/-- The checks of `Setup`, in the terms of its parts. -/
theorem setup_eq_ok {env : Env} {config : ServerConfig} {l : Launched} :
    setup env config = .ok l ↔
      env.Ready ∧ options env config = .ok l.info.options ∧
        (config.listen.splitOn colon).length = 2 ∧
        getPtServerInfo config l.info.options = .ok l.info ∧ l.listening = env.listens := by
  constructor
  · intro h
    unfold setup at h
    split at h
    · rename_i host port hsegments
      split at h
      · cases h
      · rename_i hfree
        split at h
        · cases h
        · rename_i opts hoptions
          split at h
          · cases h
          · rename_i info hinfo
            split_ifs at h with hsupported hdir hfactory hmade
            cases h
            obtain ⟨-, -, -, hopts⟩ := getPtServerInfo_eq_ok.mp hinfo
            refine ⟨⟨by simpa using hfree, by simpa using hsupported, by simpa using hdir,
              by simpa using hfactory, by simpa using hmade⟩, ?_, ?_, ?_, rfl⟩
            · rw [hopts]
              exact hoptions
            · rw [hsegments]
              rfl
            · rw [hopts]
              exact hinfo
    · cases h
  · rintro ⟨⟨hfree, hsupported, hdir, hfactory, hmade⟩, hoptions, hsegments, hinfo, hlistens⟩
    obtain ⟨host, port, hsegments⟩ := List.length_eq_two.mp hsegments
    unfold setup
    simp [hsegments, hfree, hoptions, hinfo, hsupported, hdir, hfactory, hmade, ← hlistens]

/-- `Setup` launches a server exactly if nothing else stands in the way, the certificate is usable,
the address to listen on is a dotted quad, with or without brackets, and a port, and the address of
the service is any that `ResolveAddr` resolves. The server then has these addresses. Whether its
listener is there is not one of the conditions. -/
theorem setup_exact (env : Env) (config : ServerConfig) (l : Launched) :
    setup env config = .ok l ↔
      env.Ready ∧ options env config = .ok l.info.options ∧
        (∃ host port ip4,
          (config.listen = host ++ [colon] ++ port ∨
            config.listen = [lbracket] ++ host ++ [rbracket, colon] ++ port) ∧
          parseIPv4Fields host = some ip4 ∧ l.info.bindAddr.ip = v4InV6Prefix ++ ip4 ∧
          parsePort port = .ok l.info.bindAddr.port) ∧
        resolveAddr config.externalServiceAddress = .ok l.info.orAddr ∧
        l.info.methodName = config.type ∧ l.listening = env.listens := by
  rw [setup_eq_ok, getPtServerInfo_eq_ok, ← resolve_segments]
  constructor
  · rintro ⟨hready, hoptions, hlen, ⟨hbind, hor, hname, -⟩, hlistens⟩
    exact ⟨hready, hoptions, ⟨hlen, hbind⟩, hor, hname, hlistens⟩
  · rintro ⟨hready, hoptions, ⟨hlen, hbind⟩, hor, hname, hlistens⟩
    exact ⟨hready, hoptions, hlen, ⟨hbind, hor, hname, rfl⟩, hlistens⟩

/-! ## The server entries of `main` -/

/-- The transport type `dpi`. -/
def dpi : Bytes := [100, 112, 105]

/-- The transport type `snowflake`. -/
def snowflake : Bytes := [115, 110, 111, 119, 102, 108, 97, 107, 101]

/-- `127.0.0.1`. -/
def loopback : IP := [127, 0, 0, 1]

/-- What `main` meets at one entry. -/
structure EntryEnv where
  setup : Env
  /-- The draws of `GetRandomPort`, each with what `IsTcpOpen` says of the port. -/
  draws : List (Fin (35000 - 1025) × Bool)

def getRandomPort (draw : Fin (35000 - 1025)) : Nat := draw + 1025

/-- `runInternalSocks`: the port of the service; `none` is a loop that still draws. -/
def runInternalSocks (draws : List (Fin (35000 - 1025) × Bool)) : Option Nat :=
  (draws.find? fun d => !d.2).map fun d => getRandomPort d.1

/-- The address that `runInternalSocks` returns. -/
def internalAddress (port : Nat) : Bytes := loopback.string ++ [colon] ++ itoa port

/-- The variables of `main`. -/
structure Main where
  /-- The port in `internalSocksAddress`, if that is not empty. -/
  internal : Option Nat
  /-- The ports on which an internal SOCKS service was started. -/
  started : List Nat
  listeners : List Launched
  deriving DecidableEq

def Main.new : Main := ⟨none, [], []⟩

/-- How the loop ends early. -/
inductive Stop where
  | fatal (reason : Fatal)
  | choosingPort
  deriving DecidableEq

/-- The entry is one for `obfs/server`. -/
def IsObfs (c : ServerConfig) : Prop := c.type ≠ dpi ∧ c.type ≠ snowflake

instance (c : ServerConfig) : Decidable (IsObfs c) := inferInstanceAs (Decidable (_ ∧ _))

/-- The internal service, started if it is not there yet. -/
def internalSocks (env : EntryEnv) (m : Main) : Option (Nat × Main) :=
  match m.internal with
  | some port => some (port, m)
  | none =>
      (runInternalSocks env.draws).map fun port =>
        (port, { m with internal := some port, started := m.started ++ [port] })

def setupObfs (env : EntryEnv) (c : ServerConfig) (m : Main) : Except Stop Main :=
  match setup env.setup c with
  | .error reason => .error (.fatal reason)
  | .ok l => .ok { m with listeners := m.listeners ++ [l] }

/-- The body of the loop. -/
def launchServer (env : EntryEnv) (c : ServerConfig) (m : Main) : Except Stop Main :=
  if IsObfs c then
    if c.useExternalService then setupObfs env c m
    else
      match internalSocks env m with
      | none => .error .choosingPort
      | some (port, m') =>
          setupObfs env { c with externalServiceAddress := internalAddress port } m'
  -- whether a dpi or snowflake server was launched is not looked at
  else .ok m

/-- The loop of `main` over the server entries. -/
def launchServers : List (ServerConfig × EntryEnv) → Main → Except Stop Main
  | [], m => .ok m
  | (c, env) :: rest, m =>
      match launchServer env c m with
      | .error stop => .error stop
      | .ok m' => launchServers rest m'

/-! ### What the servers relay to -/

/-- The server `l` was launched for the entry `c` when the internal service is on `internal`. -/
structure Serves (internal : Option Nat) (c : ServerConfig) (l : Launched) : Prop where
  method : l.info.methodName = c.type
  external : c.useExternalService = true →
    resolveAddr c.externalServiceAddress = .ok l.info.orAddr
  internal : c.useExternalService = false →
    ∃ port, internal = some port ∧ l.info.orAddr = ⟨v4InV6Prefix ++ loopback, port⟩

/-- The internal service is started once, on a port that `GetRandomPort` can return. -/
structure OneInternal (m : Main) : Prop where
  started : m.started = m.internal.toList
  port : ∀ p, m.internal = some p → 1025 ≤ p ∧ p < 35000

/-- The service that is there stays. -/
def Keeps (m m' : Main) : Prop := ∀ p, m.internal = some p → m'.internal = some p

theorem Serves.mono {m m' : Main} {c : ServerConfig} {l : Launched} (h : Serves m.internal c l)
    (hkeeps : Keeps m m') : Serves m'.internal c l where
  method := h.method
  external := h.external
  internal := by
    intro hint
    obtain ⟨port, hport, haddr⟩ := h.internal hint
    exact ⟨port, hkeeps port hport, haddr⟩

/-- The internal address is resolved to what it says. -/
theorem resolve_internalAddress {port : Nat} (h : port < 35000) :
    resolveAddr (internalAddress port) = .ok ⟨v4InV6Prefix ++ loopback, port⟩ := by
  have hlen : loopback.length = 4 ∨ loopback.length = 16 := .inl rfl
  exact (resolveAddr_print hlen rfl (by omega)).1

theorem internalSocks_some {env : EntryEnv} {m m' : Main} {port : Nat}
    (h : internalSocks env m = some (port, m')) (hm : OneInternal m) :
    OneInternal m' ∧ Keeps m m' ∧ m'.internal = some port ∧ m'.listeners = m.listeners := by
  unfold internalSocks at h
  split at h
  · rename_i p hp
    cases h
    exact ⟨hm, fun q hq => hq, hp, rfl⟩
  · rename_i hnone
    obtain ⟨p, hp, heq⟩ := Option.map_eq_some_iff.mp h
    cases heq
    obtain ⟨d, -, rfl⟩ := Option.map_eq_some_iff.mp hp
    have hd := d.1.isLt
    refine ⟨⟨?_, ?_⟩, ?_, rfl, rfl⟩
    · show m.started ++ [getRandomPort d.1] = [getRandomPort d.1]
      rw [hm.started, hnone]
      rfl
    · intro q hq
      obtain rfl : getRandomPort d.1 = q := Option.some.inj hq
      unfold getRandomPort
      omega
    · intro q hq
      rw [hnone] at hq
      cases hq

theorem setupObfs_ok {env : EntryEnv} {c : ServerConfig} {m m' : Main}
    (h : setupObfs env c m = .ok m') :
    ∃ l, m' = { m with listeners := m.listeners ++ [l] } ∧ l.info.methodName = c.type ∧
      resolveAddr c.externalServiceAddress = .ok l.info.orAddr := by
  unfold setupObfs at h
  split at h
  · cases h
  · rename_i l hsetup
    cases h
    obtain ⟨-, -, -, hinfo, -⟩ := setup_eq_ok.mp hsetup
    obtain ⟨-, hor, hname, -⟩ := getPtServerInfo_eq_ok.mp hinfo
    exact ⟨l, rfl, hname, hor⟩

/-- One entry: an obfs entry adds its server, any other entry nothing. -/
theorem launchServer_ok {env : EntryEnv} {c : ServerConfig} {m m' : Main}
    (h : launchServer env c m = .ok m') (hm : OneInternal m) :
    OneInternal m' ∧ Keeps m m' ∧
      (m'.internal.isSome = true → m.internal.isSome = true ∨
        IsObfs c ∧ c.useExternalService = false) ∧
      ∃ new, m'.listeners = m.listeners ++ new ∧
        List.Forall₂ (Serves m'.internal) ([c].filter fun c => IsObfs c) new := by
  unfold launchServer at h
  split at h
  · rename_i hobfs
    have hfilter : [c].filter (fun c => IsObfs c) = [c] := by simp [hobfs]
    rw [hfilter]
    split at h
    · rename_i hext
      obtain ⟨l, rfl, hname, hor⟩ := setupObfs_ok h
      refine ⟨⟨hm.started, hm.port⟩, fun p hp => hp, .inl, [l], rfl, ?_⟩
      refine .cons ⟨hname, fun _ => hor, fun hint => ?_⟩ .nil
      rw [hint] at hext
      cases hext
    · rename_i hint
      split at h
      · cases h
      · rename_i port m₁ hsocks
        obtain ⟨hm₁, hkeeps, hport, hlisteners⟩ := internalSocks_some hsocks hm
        obtain ⟨l, rfl, hname, hor⟩ := setupObfs_ok h
        have haddr : l.info.orAddr = ⟨v4InV6Prefix ++ loopback, port⟩ := by
          rw [resolve_internalAddress (hm₁.port port hport).2] at hor
          exact (Except.ok.inj hor).symm
        refine ⟨⟨hm₁.started, hm₁.port⟩, hkeeps, ?_, [l], ?_, ?_⟩
        · exact fun _ => .inr ⟨hobfs, eq_false_of_ne_true hint⟩
        · show m₁.listeners ++ [l] = m.listeners ++ [l]
          rw [hlisteners]
        · refine .cons ⟨hname, fun hext => absurd hext hint, fun _ => ⟨port, hport, haddr⟩⟩ .nil
  · rename_i hobfs
    cases h
    refine ⟨hm, fun p hp => hp, .inl, [], by simp, ?_⟩
    have hfilter : [c].filter (fun c => IsObfs c) = [] := by simp [hobfs]
    rw [hfilter]
    exact .nil

theorem launchServers_ok {entries : List (ServerConfig × EntryEnv)} {m m' : Main}
    (h : launchServers entries m = .ok m') (hm : OneInternal m) :
    OneInternal m' ∧ Keeps m m' ∧
      (m'.internal.isSome = true → m.internal.isSome = true ∨
        ∃ e ∈ entries, IsObfs e.1 ∧ e.1.useExternalService = false) ∧
      ∃ new, m'.listeners = m.listeners ++ new ∧
        List.Forall₂ (Serves m'.internal) ((entries.map Prod.fst).filter fun c => IsObfs c) new := by
  induction entries generalizing m with
  | nil =>
    cases h
    exact ⟨hm, fun p hp => hp, .inl, [], by simp, .nil⟩
  | cons e rest ih =>
    obtain ⟨c, env⟩ := e
    simp only [launchServers] at h
    split at h
    · cases h
    · rename_i m₁ hfirst
      obtain ⟨hm₁, hkeeps₁, hsome₁, new₁, hnew₁, hserves₁⟩ := launchServer_ok hfirst hm
      obtain ⟨hm', hkeeps, hsome, new, hnew, hserves⟩ := ih h hm₁
      refine ⟨hm', fun p hp => hkeeps p (hkeeps₁ p hp), ?_, new₁ ++ new, ?_, ?_⟩
      · intro hint
        rcases hsome hint with hint₁ | ⟨e, he, hobfs⟩
        · rcases hsome₁ hint₁ with hold | hobfs
          · exact .inl hold
          · exact .inr ⟨(c, env), List.mem_cons_self, hobfs⟩
        · exact .inr ⟨e, List.mem_cons_of_mem _ he, hobfs⟩
      · rw [hnew, hnew₁, List.append_assoc]
      · rw [List.map_cons, ← List.singleton_append, List.filter_append]
        -- the service of the first entry is still the one
        have hfirst' := hserves₁.imp fun c l hl => hl.mono hkeeps
        exact List.rel_append hfirst' hserves

/-- When `main` has gone through the server entries, there is one obfs server for each obfs entry,
in the order of the configuration. It relays to the service its entry names or, without one, to the
internal SOCKS service. That was started once, and only if an entry needs it. -/
theorem launchServers_serves (entries : List (ServerConfig × EntryEnv)) (m : Main)
    (h : launchServers entries .new = .ok m) :
    List.Forall₂ (Serves m.internal) ((entries.map Prod.fst).filter fun c => IsObfs c) m.listeners ∧
      m.started = m.internal.toList ∧
      (m.internal.isSome = true ↔ ∃ e ∈ entries, IsObfs e.1 ∧ e.1.useExternalService = false) := by
  have hnew : OneInternal .new := ⟨rfl, fun p hp => by cases hp⟩
  obtain ⟨hm, -, hsome, new, hlisteners, hserves⟩ := launchServers_ok h hnew
  have heq : m.listeners = new := by simpa [Main.new] using hlisteners
  refine ⟨heq ▸ hserves, hm.started, ?_, ?_⟩
  · intro hint
    rcases hsome hint with hold | hentry
    · cases hold
    · exact hentry
  · rintro ⟨e, he, hobfs, hint⟩
    have hmem : e.1 ∈ (entries.map Prod.fst).filter fun c => IsObfs c :=
      List.mem_filter.mpr ⟨List.mem_map_of_mem he, by simpa using hobfs⟩
    obtain ⟨i, hi, hget⟩ := List.mem_iff_getElem.mp hmem
    have hserved := hserves.get hi (hserves.length_eq ▸ hi)
    rw [List.get_eq_getElem, hget] at hserved
    obtain ⟨port, hport, -⟩ := hserved.internal hint
    rw [hport]
    rfl

/-- An entry with type `obfs2` that listens on `0.0.0.0` at `port` and uses the internal service. -/
def plainEntry (port : Nat) : ServerConfig :=
  { ServerConfig.ofValues [] with
    type := [111, 98, 102, 115, 50]
    listen := [48, 46, 48, 46, 48, 46, 48] ++ [colon] ++ itoa port }

/-- Nothing fails, and the second draw is a free port. -/
def freeEnv : EntryEnv := ⟨⟨false, none, true, true, true, true, true⟩, [(5, true), (7, false)]⟩

/-- Two obfs servers with a dpi server in between share the internal service. -/
theorem launchServers_serves_shared :
    ∃ m, launchServers [(plainEntry 4455, freeEnv), ({ plainEntry 1 with type := dpi }, freeEnv),
        (plainEntry 4466, freeEnv)] .new = .ok m ∧ m.started = [1032] ∧ m.listeners.length = 2 ∧
      List.Forall₂ (Serves m.internal) [plainEntry 4455, plainEntry 4466] m.listeners := by
  let orAddr : TCPAddr := ⟨v4InV6Prefix ++ loopback, 1032⟩
  let info (port : Nat) : ServerInfo :=
    ⟨⟨v4InV6Prefix ++ [0, 0, 0, 0], port⟩, [111, 98, 102, 115, 50], none, orAddr⟩
  have hrun : launchServers [(plainEntry 4455, freeEnv), ({ plainEntry 1 with type := dpi }, freeEnv),
      (plainEntry 4466, freeEnv)] .new =
        .ok ⟨some 1032, [1032], [⟨info 4455, true⟩, ⟨info 4466, true⟩]⟩ := by decide +kernel
  exact ⟨_, hrun, rfl, rfl, (launchServers_serves _ _ hrun).1⟩

end PTBridge.Obfs.Server
