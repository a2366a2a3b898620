import PTBridge.Dpi.Client.Callers

/-!
# `dpi/client/dns_resolver.go`: `tunneledResolver`

`Resolve` looks a name up in the cache and asks the upstream resolver if there is nothing to use.
The calls share the cache, under a lock that is taken for one access at a time, and the field
`timeout`, without a lock.

- `minTTLSeconds` and `lifetime` decide how long an answer is kept, `Names.cacheKey` under which
  key.
- `resolveStep` is the code of one call of `Resolve` with `cacheLookup`, `exchange` and `cacheStore`;
  each section under the lock is one step, and each access of `timeout`. What `exchange` does on the
  tunnel is in `Callers`; of it only the outcome matters here.
- `step` is that of all calls and of the clock. `ResolveStep` and `resolveStep_cases` list what a step of a
  call can do.
-/

namespace PTBridge.Dpi

open PTBridge.Stream PTBridge.Transition

/-! ## Names, records and times -/

/-- The functions on names that are not the resolver's own. -/
structure Names where
  /-- `dns.Fqdn` -/
  fqdn : Bytes → Bytes
  /-- `strings.ToLower` -/
  toLower : Bytes → Bytes

/-- `strings.TrimSuffix(s, ".")` -/
def trimDot (s : Bytes) : Bytes := if s.getLast? = some 46 then s.dropLast else s

/-- The key of a name in the cache. -/
def Names.cacheKey (names : Names) (name : Bytes) : Bytes := names.toLower (trimDot (names.fqdn name))

/-- The functions on names of ASCII characters without escapes. -/
def Names.ascii : Names where
  fqdn s := if s.getLast? = some 46 then s else s ++ [46]
  toLower s := s.map fun c => if 65 ≤ c ∧ c ≤ 90 then c + 32 else c

/-- A record of an answer section: the `Ttl` of its header, unless `Header()` is nil, and the
address if it is a `*dns.A`. -/
structure Record where
  ttl : Option UInt32
  a : Option Bytes
  deriving DecidableEq

/-- `time.Second`; times and durations count nanoseconds. -/
def second : Int := 1000000000

/-- The loop of `minTTLSeconds`, in which `0` stands for "none so far". -/
def ttlLoop : UInt32 → List Record → UInt32
  | ttl, [] => ttl
  | ttl, ans :: answers =>
      match ans.ttl with
      | none => ttlLoop ttl answers
      | some h => ttlLoop (if ttl = 0 ∨ h < ttl then h else ttl) answers

def minTTLSeconds (answers : List Record) (fallback : UInt32) : UInt32 :=
  let ttl := ttlLoop 0 answers
  if ttl = 0 then fallback else ttl

/-- How long `cacheStore` keeps an entry. -/
def lifetime (ttlSeconds : UInt32) : Int :=
  let ttl := ttlSeconds.toNat * second
  let ttl := if ttl ≤ 0 then 60 * second else ttl
  if 5 * 60 * second < ttl then 5 * 60 * second else ttl

/-- The first A record of an answer. -/
def firstA (answers : List Record) : Option Bytes := answers.findSome? Record.a

theorem lifetime_pos (ttlSeconds : UInt32) : 0 < lifetime ttlSeconds := by
  simp only [lifetime, second]
  split_ifs <;> omega

/-- The second clamp of `cacheStore`: five minutes at most. -/
theorem lifetime_le (ttlSeconds : UInt32) : lifetime ttlSeconds ≤ 300 * second := by
  simp only [lifetime, second]
  split_ifs <;> omega

/-! ## The cache -/

/-- `dnsCacheEntry` -/
structure CacheEntry where
  ip : Bytes
  expires : Int
  deriving DecidableEq

abbrev DnsCache := Bytes → Option CacheEntry

/-- `delete(r.cache, key)` -/
def DnsCache.drop (cache : DnsCache) (key : Bytes) : DnsCache := Function.update cache key none

/-- The section of `cacheStore` under the lock. -/
def DnsCache.store (cache : DnsCache) (key ip : Bytes) (ttlSeconds : UInt32) (now : Int) : DnsCache :=
  Function.update cache key (some ⟨ip, now + lifetime ttlSeconds⟩)

/-! ## State -/

inductive ResolveError where
  /-- `exchange` failed, but for the timeout -/
  | exchange (e : Exit)
  /-- `DNS query timed out after …` -/
  | timedOut (after : Int)
  /-- `no A record found for …` -/
  | noRecord (name : Bytes)
  deriving DecidableEq

/-- Where a call of `Resolve` stands. -/
inductive ResolvePc where
  /-- before the section of `cacheLookup` under the read lock -/
  | looking
  /-- behind it, with the entry that was found -/
  | checking (entry : Option CacheEntry)
  /-- before the section of `cacheLookup` under the write lock -/
  | dropping
  /-- in `exchange`, before the time that is left is compared with `r.timeout` -/
  | measuring
  /-- before `r.timeout = remaining` -/
  | lowering (remaining : Int)
  /-- in `exchange`, up to the query being written -/
  | asking
  /-- at the select for the answer, whose timer fires at `fires` -/
  | waiting (fires : Int)
  /-- before the section of `cacheStore` under the lock -/
  | storing (ip : Bytes) (ttlSeconds : UInt32)
  | returned (res : Except ResolveError Bytes)
  deriving DecidableEq

/-- The call has not been past the comparison with `r.timeout`. -/
def ResolvePc.early : ResolvePc → Bool
  | .looking | .checking _ | .dropping | .measuring => true
  | _ => false

/-- A call of `Resolve`. -/
structure ResolveCall where
  name : Bytes
  /-- `ctx.Deadline()` -/
  deadline : Option Int
  pc : ResolvePc
  /-- What `time.Until(deadline)` has returned. -/
  remaining : Option Int
  /-- The time limit that the call applies. -/
  limit : Option Int
  deriving DecidableEq

/-- `time.Until(deadline)`, if there is a deadline. -/
def ResolveCall.left (c : ResolveCall) (now : Int) : Option Int := c.deadline.map (· - now)

/-- What the calls share, and the clock. -/
structure Shared where
  now : Int
  timeout : Int
  cache : DnsCache
  /-- Every entry that `cacheLookup` has deleted, with the time. -/
  dropped : List (CacheEntry × Int)

structure Resolver where
  shared : Shared
  calls : List ResolveCall

/-- The timeout of `newTunneledResolver`. -/
def defaultTimeout : Int := 10 * second

/-- `newTunneledResolver`, at time zero. -/
def Resolver.new : Resolver := ⟨⟨0, defaultTimeout, fun _ => none, []⟩, []⟩

/-! ## Steps -/

inductive ResolveMove where
  | look
  | check
  | drop
  | measure
  | lower
  /-- `Connect`, `newTunnelConn`, `Pack` and `Write` succeed, or one of them fails -/
  | ask (err : Option Exit)
  | ctxDone
  | timeout
  | answer (reply : Except AnswerError (List Record))
  | store
  deriving DecidableEq

/-- `cacheLookup` in its second section deletes whatever the key leads to. -/
def Shared.drop (s : Shared) (key : Bytes) : Shared :=
  { s with
    cache := s.cache.drop key
    dropped := s.dropped ++ ((s.cache key).toList.map fun e => (e, s.now)) }

def resolveStep (names : Names) (s : Shared) (c : ResolveCall) (m : ResolveMove) :
    Option (Shared × ResolveCall) :=
  match c.pc, m with
  | .looking, .look => some (s, { c with pc := .checking (s.cache (names.cacheKey c.name)) })
  | .checking none, .check => some (s, { c with pc := .measuring })
  | .checking (some e), .check =>
      -- `time.Now().After(entry.expires)`
      if e.expires < s.now then some (s, { c with pc := .dropping })
      else some (s, { c with pc := .returned (.ok e.ip) })
  | .dropping, .drop => some (s.drop (names.cacheKey c.name), { c with pc := .measuring })
  | .measuring, .measure =>
      match c.left s.now with
      | none => some (s, { c with pc := .asking, remaining := none })
      | some remaining =>
          if 0 < remaining ∧ remaining < s.timeout then
            some (s, { c with pc := .lowering remaining, remaining := some remaining })
          else some (s, { c with pc := .asking, remaining := some remaining })
  | .lowering remaining, .lower => some ({ s with timeout := remaining }, { c with pc := .asking })
  | .asking, .ask (some e) => some (s, { c with pc := .returned (.error (.exchange e)) })
  | .asking, .ask none =>
      some (s, { c with pc := .waiting (s.now + s.timeout), limit := some s.timeout })
  | .waiting _, .ctxDone => some (s, { c with pc := .returned (.error (.exchange .ctxDone)) })
  | .waiting fires, .timeout =>
      if fires ≤ s.now then some (s, { c with pc := .returned (.error (.timedOut s.timeout)) })
      else none
  | .waiting _, .answer (.error e) =>
      some (s, { c with pc := .returned (.error (.exchange (.answered (.error e)))) })
  | .waiting _, .answer (.ok answers) =>
      match firstA answers with
      | none => some (s, { c with pc := .returned (.error (.noRecord c.name)) })
      | some ip => some (s, { c with pc := .storing ip (minTTLSeconds answers 60) })
  | .storing ip ttlSeconds, .store =>
      some ({ s with cache := s.cache.store (names.cacheKey c.name) ip ttlSeconds s.now },
        { c with pc := .returned (.ok ip) })
  | _, _ => none

namespace Resolver

inductive Act where
  | tick (d : Nat)
  | resolve (name : Bytes) (deadline : Option Int)
  | move (k : Nat) (m : ResolveMove)
  deriving DecidableEq

def step (names : Names) (r : Resolver) : Act → Option Resolver
  | .tick d => some { r with shared := { r.shared with now := r.shared.now + d } }
  | .resolve name deadline =>
      some { r with calls := r.calls ++ [⟨name, deadline, .looking, none, none⟩] }
  | .move k m =>
      match r.calls[k]? with
      | none => none
      | some c => (resolveStep names r.shared c m).map fun (s, c') => ⟨s, r.calls.set k c'⟩

end Resolver

/-! ## What a step of a call can do -/

/-- The steps of a call, one case for each branch of the code that matters below. -/
inductive ResolveStep (names : Names) (s : Shared) (c : ResolveCall) :
    ResolveMove → Shared → ResolveCall → Prop where
  | looked (hpc : c.pc = .looking) :
      ResolveStep names s c .look s { c with pc := .checking (s.cache (names.cacheKey c.name)) }
  | missed (hpc : c.pc = .checking none) : ResolveStep names s c .check s { c with pc := .measuring }
  | expired {e} (hpc : c.pc = .checking (some e)) (hlate : e.expires < s.now) :
      ResolveStep names s c .check s { c with pc := .dropping }
  | hit {e} (hpc : c.pc = .checking (some e)) (hfresh : s.now ≤ e.expires) :
      ResolveStep names s c .check s { c with pc := .returned (.ok e.ip) }
  | dropped (hpc : c.pc = .dropping) :
      ResolveStep names s c .drop (s.drop (names.cacheKey c.name)) { c with pc := .measuring }
  | unhurried (hpc : c.pc = .measuring)
      (hlong : ∀ left, c.left s.now = some left → ¬ (0 < left ∧ left < s.timeout)) :
      ResolveStep names s c .measure s { c with pc := .asking, remaining := c.left s.now }
  | hurried {left} (hpc : c.pc = .measuring) (hleft : c.left s.now = some left)
      (hshort : 0 < left ∧ left < s.timeout) :
      ResolveStep names s c .measure s { c with pc := .lowering left, remaining := some left }
  | lowered {remaining} (hpc : c.pc = .lowering remaining) :
      ResolveStep names s c .lower { s with timeout := remaining } { c with pc := .asking }
  | failed {e} (hpc : c.pc = .asking) :
      ResolveStep names s c (.ask (some e)) s { c with pc := .returned (.error (.exchange e)) }
  | asked (hpc : c.pc = .asking) :
      ResolveStep names s c (.ask none) s
        { c with pc := .waiting (s.now + s.timeout), limit := some s.timeout }
  | ended {m fires e} (hpc : c.pc = .waiting fires) :
      ResolveStep names s c m s { c with pc := .returned (.error e) }
  | answered {fires answers ip} (hpc : c.pc = .waiting fires) (hip : firstA answers = some ip) :
      ResolveStep names s c (.answer (.ok answers)) s
        { c with pc := .storing ip (minTTLSeconds answers 60) }
  | stored {ip ttlSeconds} (hpc : c.pc = .storing ip ttlSeconds) :
      ResolveStep names s c .store
        { s with cache := s.cache.store (names.cacheKey c.name) ip ttlSeconds s.now }
        { c with pc := .returned (.ok ip) }

theorem resolveStep_cases {names : Names} {s s' : Shared} {c c' : ResolveCall} {m : ResolveMove}
    (h : resolveStep names s c m = some (s', c')) : ResolveStep names s c m s' c' := by
  unfold resolveStep at h
  split at h
  · rename_i hpc
    cases h
    exact .looked hpc
  · rename_i hpc
    cases h
    exact .missed hpc
  · rename_i e hpc
    split at h
    · rename_i hlate
      cases h
      exact .expired hpc hlate
    · rename_i hfresh
      cases h
      exact .hit hpc (Int.not_lt.mp hfresh)
  · rename_i hpc
    cases h
    exact .dropped hpc
  · rename_i hpc
    split at h
    · rename_i hleft
      cases h
      rw [← hleft]
      exact .unhurried hpc (by simp [hleft])
    · rename_i left hleft
      split at h
      · rename_i hshort
        cases h
        exact .hurried hpc hleft hshort
      · rename_i hlong
        cases h
        rw [← hleft]
        refine .unhurried hpc fun left' hleft' => ?_
        rw [hleft] at hleft'
        cases hleft'
        exact hlong
  · rename_i remaining hpc
    cases h
    exact .lowered hpc
  · rename_i e hpc
    cases h
    exact .failed hpc
  · rename_i hpc
    cases h
    exact .asked hpc
  · rename_i fires hpc
    cases h
    exact .ended hpc
  · rename_i fires hpc
    split at h
    · cases h
      exact .ended hpc
    · cases h
  · rename_i fires e hpc
    cases h
    exact .ended hpc
  · rename_i fires answers hpc
    split at h
    · cases h
      exact .ended hpc
    · rename_i ip hip
      cases h
      exact .answered hpc hip
  · rename_i ip ttlSeconds hpc
    cases h
    exact .stored hpc
  · cases h

namespace Resolver

/-- The steps of the resolver. -/
inductive Step (names : Names) (r : Resolver) : Act → Resolver → Prop where
  | ticked (d : Nat) :
      Step names r (.tick d) { r with shared := { r.shared with now := r.shared.now + d } }
  | called (name : Bytes) (deadline : Option Int) :
      Step names r (.resolve name deadline)
        { r with calls := r.calls ++ [⟨name, deadline, .looking, none, none⟩] }
  | moved {k m c s c'} (hc : r.calls[k]? = some c) (hm : ResolveStep names r.shared c m s c') :
      Step names r (.move k m) ⟨s, r.calls.set k c'⟩

theorem step_cases {names : Names} {r r' : Resolver} {a : Act} (h : step names r a = some r') :
    Step names r a r' := by
  cases a with
  | tick d =>
    cases h
    exact .ticked d
  | resolve name deadline =>
    cases h
    exact .called name deadline
  | move k m =>
    simp only [step] at h
    split at h
    · cases h
    · rename_i c hc
      obtain ⟨⟨s, c'⟩, hm, hr⟩ := Option.map_eq_some_iff.mp h
      cases hr
      exact .moved hc (resolveStep_cases hm)

end Resolver

end PTBridge.Dpi
