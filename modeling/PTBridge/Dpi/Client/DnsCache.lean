import PTBridge.Dpi.Client.Resolver

/-!
# What the cache answers

Calls of `Resolve` one after another. `resolve` is the whole function for a call that no other call
overlaps, and `history` what a sequence of them returns.

- `latest` is what the cache is for: the last answer for a key, with the time it came.
- `Holds`: the cache is a part of that, and no entry of it lives longer than five minutes.
- `cache_answers_sound`: an answer from the cache is the first A record of the last exchange that
  had one for the key, not older than five minutes, and a failed exchange stores nothing.
- `resolve_runs`: `resolve` is what the steps of `Resolver` do when a call runs alone.
-/

namespace PTBridge.Dpi

open PTBridge.Stream PTBridge.Transition

/-! ## `Resolve` without other calls -/

/-- A call of `Resolve` and what it meets: the time of `cacheLookup`, what `exchange` returns if it
is called, and the time of `cacheStore`. -/
structure Query where
  name : Bytes
  lookAt : Int
  upstream : Except Exit (List Record)
  storeAt : Int

/-- How a call returns. -/
inductive Outcome where
  /-- from the cache, without an exchange -/
  | cached (ip : Bytes)
  | exchanged (res : Except ResolveError Bytes)
  deriving DecidableEq

def Outcome.result : Outcome → Except ResolveError Bytes
  | .cached ip => .ok ip
  | .exchanged res => res

def cacheLookup (cache : DnsCache) (key : Bytes) (now : Int) : Option Bytes × DnsCache :=
  match cache key with
  | none => (none, cache)
  | some entry => if entry.expires < now then (none, cache.drop key) else (some entry.ip, cache)

def resolve (names : Names) (cache : DnsCache) (q : Query) : Outcome × DnsCache :=
  let key := names.cacheKey q.name
  match cacheLookup cache key q.lookAt with
  | (some ip, cache) => (.cached ip, cache)
  | (none, cache) =>
      match q.upstream with
      | .error e => (.exchanged (.error (.exchange e)), cache)
      | .ok answers =>
          match firstA answers with
          | none => (.exchanged (.error (.noRecord q.name)), cache)
          | some ip =>
              (.exchanged (.ok ip), cache.store key ip (minTTLSeconds answers 60) q.storeAt)

/-- A sequence of calls: each with what it returned, and the cache at the end. -/
def resolveAll (names : Names) : DnsCache → List Query → List (Query × Outcome) × DnsCache
  | cache, [] => ([], cache)
  | cache, q :: qs =>
      match resolve names cache q with
      | (outcome, cache') =>
          match resolveAll names cache' qs with
          | (rest, last) => ((q, outcome) :: rest, last)

/-- The calls of a new resolver. -/
def history (names : Names) (qs : List Query) : List (Query × Outcome) :=
  (resolveAll names (fun _ => none) qs).1

/-- The cache after them. -/
def cacheAfter (names : Names) (qs : List Query) : DnsCache :=
  (resolveAll names (fun _ => none) qs).2

theorem resolveAll_append (names : Names) (qs qs' : List Query) :
    ∀ cache, resolveAll names cache (qs ++ qs') =
      ((resolveAll names cache qs).1 ++ (resolveAll names (resolveAll names cache qs).2 qs').1,
        (resolveAll names (resolveAll names cache qs).2 qs').2) := by
  induction qs with
  | nil =>
    intro cache
    rfl
  | cons q qs ih =>
    intro cache
    simp only [List.cons_append, resolveAll, ih]

theorem history_snoc (names : Names) (qs : List Query) (q : Query) :
    history names (qs ++ [q]) =
      history names qs ++ [(q, (resolve names (cacheAfter names qs) q).1)] := by
  simp [history, cacheAfter, resolveAll_append, resolveAll]

theorem cacheAfter_snoc (names : Names) (qs : List Query) (q : Query) :
    cacheAfter names (qs ++ [q]) = (resolve names (cacheAfter names qs) q).2 := by
  simp [cacheAfter, resolveAll_append, resolveAll]

/-! ## One call -/

section Call

variable {names : Names} {cache cache' : DnsCache} {q : Query} {ip key : Bytes}

/-- What is found is the entry of the key, and it has not expired. -/
theorem cacheLookup_some {now : Int} (h : cacheLookup cache key now = (some ip, cache')) :
    cache' = cache ∧ ∃ e, cache key = some e ∧ e.ip = ip ∧ now ≤ e.expires := by
  unfold cacheLookup at h
  split at h
  · cases h
  · rename_i e he
    split at h
    · cases h
    · rename_i hfresh
      cases h
      exact ⟨rfl, e, he, rfl, Int.not_lt.mp hfresh⟩

/-- A lookup adds nothing. -/
theorem cacheLookup_sub {now : Int} {k : Bytes} {e : CacheEntry}
    (h : (cacheLookup cache key now).2 k = some e) : cache k = some e := by
  unfold cacheLookup at h
  split at h
  · exact h
  · split at h
    · by_cases hk : k = key
      · subst hk
        simp [DnsCache.drop] at h
      · simpa [DnsCache.drop, hk] using h
    · exact h

/-- How a call returns, and what it leaves in the cache. -/
inductive Resolved (names : Names) (cache : DnsCache) (q : Query) : Outcome → DnsCache → Prop where
  | cached {e} (he : cache (names.cacheKey q.name) = some e) (hfresh : q.lookAt ≤ e.expires) :
      Resolved names cache q (.cached e.ip) cache
  | failed {err} {kept : DnsCache} (hkept : ∀ k e, kept k = some e → cache k = some e)
      (hnone : ∀ answers, q.upstream = .ok answers → firstA answers = none) :
      Resolved names cache q (.exchanged (.error err)) kept
  | answered {answers ip} {kept : DnsCache} (hkept : ∀ k e, kept k = some e → cache k = some e)
      (hupstream : q.upstream = .ok answers) (hip : firstA answers = some ip) :
      Resolved names cache q (.exchanged (.ok ip))
        (kept.store (names.cacheKey q.name) ip (minTTLSeconds answers 60) q.storeAt)

theorem resolve_cases (names : Names) (cache : DnsCache) (q : Query) :
    Resolved names cache q (resolve names cache q).1 (resolve names cache q).2 := by
  simp only [resolve]
  split
  · rename_i ip cache' hlook
    obtain ⟨rfl, e, he, rfl, hfresh⟩ := cacheLookup_some hlook
    exact .cached he hfresh
  · rename_i cache' hlook
    have hkept : ∀ k e, cache' k = some e → cache k = some e := by
      intro k e he
      apply cacheLookup_sub
      rw [hlook]
      exact he
    split
    · rename_i err hupstream
      exact .failed hkept (by simp [hupstream])
    · rename_i answers hupstream
      split
      · rename_i hnone
        exact .failed hkept (by simp [hupstream, hnone])
      · rename_i ip hip
        exact .answered hkept hupstream hip

end Call

/-! ## The last answer -/

/-- An answer of the upstream resolver, as far as the cache is concerned: the key, the address and
the time. -/
def answerOf (names : Names) : Query × Outcome → Option (Bytes × Bytes × Int)
  | (q, .exchanged (.ok ip)) => some (names.cacheKey q.name, ip, q.storeAt)
  | _ => none

/-- The last answer for a key: the address, and the time it came. -/
def latest (names : Names) (past : List (Query × Outcome)) (key : Bytes) : Option (Bytes × Int) :=
  (past.reverse.filterMap (answerOf names)).lookup key

theorem latest_snoc (names : Names) (past : List (Query × Outcome)) (x : Query × Outcome)
    (key : Bytes) :
    latest names (past ++ [x]) key =
      match answerOf names x with
      | some (k, ip, t) => if k = key then some (ip, t) else latest names past key
      | none => latest names past key := by
  cases hx : answerOf names x with
  | none => simp [latest, hx]
  | some a =>
    obtain ⟨k, ip, t⟩ := a
    by_cases hk : k = key
    · subst hk
      simp [latest, hx]
    · have hk' : (key == k) = false := by simpa using fun h => hk h.symm
      simp [latest, hx, List.lookup_cons, hk, hk']

/-- The last answer is that of a call after which no other had one for the key. -/
theorem latest_some {names : Names} {past : List (Query × Outcome)} {key ip : Bytes} {t : Int}
    (h : latest names past key = some (ip, t)) :
    ∃ (older : List (Query × Outcome)) (q : Query) (newer : List (Query × Outcome)),
      past = older ++ (q, .exchanged (.ok ip)) :: newer ∧
      names.cacheKey q.name = key ∧ q.storeAt = t ∧
      ∀ q' ip', (q', Outcome.exchanged (.ok ip')) ∈ newer → names.cacheKey q'.name ≠ key := by
  -- from the end of the sequence
  induction past using List.reverseRecOn with
  | nil => simp [latest] at h
  | append_singleton past x ih =>
    have hother : latest names past key = some (ip, t) →
        (∀ q' ip', x = (q', Outcome.exchanged (.ok ip')) → names.cacheKey q'.name ≠ key) →
        ∃ (older : List (Query × Outcome)) (q : Query) (newer : List (Query × Outcome)),
          past ++ [x] = older ++ (q, .exchanged (.ok ip)) :: newer ∧
          names.cacheKey q.name = key ∧ q.storeAt = t ∧
          ∀ q' ip', (q', Outcome.exchanged (.ok ip')) ∈ newer → names.cacheKey q'.name ≠ key := by
      intro hpast hx
      obtain ⟨older, q, newer, rfl, hkey, ht, hnewer⟩ := ih hpast
      refine ⟨older, q, newer ++ [x], by simp, hkey, ht, fun q' ip' hmem => ?_⟩
      rcases List.mem_append.mp hmem with hold | hlast
      · exact hnewer q' ip' hold
      · exact hx q' ip' (List.mem_singleton.mp hlast).symm
    rw [latest_snoc] at h
    split at h
    · rename_i k ip' t' hx
      obtain ⟨q, outcome⟩ := x
      simp only [answerOf] at hx
      split at hx
      · rename_i q ip'' hq
        cases hx
        cases hq
        split at h
        · rename_i hk
          cases h
          exact ⟨past, q, [], rfl, hk, rfl, by simp⟩
        · rename_i hk
          refine hother h fun q' ip₁ heq => ?_
          cases heq
          exact hk
      · cases hx
    · rename_i hx
      refine hother h fun q' ip₁ heq => ?_
      subst heq
      simp [answerOf] at hx

/-! ## Soundness -/

/-- Every entry is the last answer for its key, and ends five minutes after it at the latest. -/
def Holds (names : Names) (past : List (Query × Outcome)) (cache : DnsCache) : Prop :=
  ∀ key e, cache key = some e →
    ∃ t, latest names past key = some (e.ip, t) ∧ e.expires ≤ t + 300 * second

section Soundness

variable {names : Names} {past : List (Query × Outcome)} {cache cache' : DnsCache} {q : Query}
  {outcome : Outcome}

/-- A call without an answer leaves the last answers as they are, and adds no entry. -/
theorem Holds.quiet (h : Holds names past cache) (hquiet : answerOf names (q, outcome) = none)
    (hsub : ∀ k e, cache' k = some e → cache k = some e) :
    Holds names (past ++ [(q, outcome)]) cache' := by
  intro key e he
  rw [latest_snoc, hquiet]
  exact h key e (hsub key e he)

theorem Holds.step (h : Holds names past cache) (hcall : Resolved names cache q outcome cache') :
    Holds names (past ++ [(q, outcome)]) cache' := by
  cases hcall with
  | cached he hfresh => exact h.quiet rfl fun k e he => he
  | failed hkept hnone => exact h.quiet rfl hkept
  | @answered answers ip kept hkept hupstream hip =>
    intro key e he
    rw [latest_snoc]
    simp only [answerOf]
    by_cases hk : names.cacheKey q.name = key
    · -- the new entry
      subst hk
      simp only [DnsCache.store, Function.update_self, Option.some.injEq] at he
      subst he
      refine ⟨q.storeAt, by simp, ?_⟩
      have hle := lifetime_le (minTTLSeconds answers 60)
      simpa using hle
    · rw [if_neg hk]
      apply h key e
      apply hkept
      simpa [DnsCache.store, Ne.symm hk] using he

/-- Whatever was asked, the cache holds last answers. -/
theorem cacheAfter_holds (names : Names) (qs : List Query) :
    Holds names (history names qs) (cacheAfter names qs) := by
  induction qs using List.reverseRecOn with
  | nil => simp [Holds, cacheAfter, resolveAll]
  | append_singleton qs q ih =>
    rw [history_snoc, cacheAfter_snoc]
    exact ih.step (resolve_cases names _ q)

/-- The address of an exchange is the first A record of its reply. -/
theorem history_answered {qs : List Query} {ip : Bytes}
    (h : (q, Outcome.exchanged (.ok ip)) ∈ history names qs) :
    ∃ answers, q.upstream = .ok answers ∧ firstA answers = some ip := by
  induction qs using List.reverseRecOn with
  | nil => simp [history, resolveAll] at h
  | append_singleton qs q' ih =>
    rw [history_snoc] at h
    rcases List.mem_append.mp h with hold | hlast
    · exact ih hold
    · have hpair := List.mem_singleton.mp hlast
      rw [Prod.mk.injEq] at hpair
      obtain ⟨rfl, hout⟩ := hpair
      have hcall := resolve_cases names (cacheAfter names qs) q
      generalize (resolve names (cacheAfter names qs) q).2 = next at hcall
      rw [← hout] at hcall
      cases hcall with
      | answered hkept hupstream hip => exact ⟨_, hupstream, hip⟩

end Soundness

/-- What a call gets from the cache after any calls is the first A record of the last exchange that
returned one for its key, at most five minutes old; and an exchange without an A record stores
nothing. The key is written out here: the `dns.Fqdn` of the name, without its last dot and in lower
case. -/
theorem cache_answers_sound (names : Names) (qs : List Query) (q : Query) :
    (∀ ip, (resolve names (cacheAfter names qs) q).1 = .cached ip →
      ∃ older q₀ newer answers, history names qs = older ++ (q₀, .exchanged (.ok ip)) :: newer ∧
        q₀.upstream = .ok answers ∧ firstA answers = some ip ∧
        names.toLower (trimDot (names.fqdn q₀.name)) =
          names.toLower (trimDot (names.fqdn q.name)) ∧
        q.lookAt - q₀.storeAt ≤ 300 * second ∧
        ∀ q' ip', (q', Outcome.exchanged (.ok ip')) ∈ newer →
          names.toLower (trimDot (names.fqdn q'.name)) ≠
            names.toLower (trimDot (names.fqdn q.name))) ∧
    ((∀ answers, q.upstream = .ok answers → firstA answers = none) →
      ∀ key e, (resolve names (cacheAfter names qs) q).2 key = some e →
        cacheAfter names qs key = some e) := by
  have hcall := resolve_cases names (cacheAfter names qs) q
  generalize hout : (resolve names (cacheAfter names qs) q).1 = outcome at hcall ⊢
  generalize hnext : (resolve names (cacheAfter names qs) q).2 = next at hcall ⊢
  refine ⟨fun ip hip => ?_, fun hnone key e he => ?_⟩
  · subst hip
    cases hcall with
    | @cached e he hfresh =>
      obtain ⟨t, hlatest, hexpires⟩ := cacheAfter_holds names qs _ _ he
      obtain ⟨older, q₀, newer, hpast, hkey, rfl, hnewer⟩ := latest_some hlatest
      have hmem : (q₀, Outcome.exchanged (.ok e.ip)) ∈ history names qs := by simp [hpast]
      obtain ⟨answers, hupstream, hfirst⟩ := history_answered hmem
      have hage : q.lookAt - q₀.storeAt ≤ 300 * second := by
        apply Int.sub_left_le_of_le_add
        exact hfresh.trans hexpires
      exact ⟨older, q₀, newer, answers, hpast, hupstream, hfirst, hkey, hage, hnewer⟩
  · cases hcall with
    | cached => exact he
    | failed hkept => exact hkept key e he
    | answered hkept hupstream hip =>
      rw [hnone _ hupstream] at hip
      cases hip

/-- An address with a day to live, asked for as `A.`, answers for `a` five minutes later. -/
theorem cached_for_five_minutes :
    ∃ qs q ip, (resolve .ascii (cacheAfter .ascii qs) q).1 = .cached ip ∧
      ∃ older q₀ newer answers, history .ascii qs = older ++ (q₀, .exchanged (.ok ip)) :: newer ∧
        q₀.upstream = .ok answers ∧ firstA answers = some ip ∧
        Names.ascii.cacheKey q₀.name = Names.ascii.cacheKey q.name ∧
        q.lookAt - q₀.storeAt ≤ 300 * second ∧
        ∀ q' ip', (q', Outcome.exchanged (.ok ip')) ∈ newer →
          Names.ascii.cacheKey q'.name ≠ Names.ascii.cacheKey q.name := by
  let qs : List Query := [⟨[65, 46], 0, .ok [⟨some 86400, some [192, 0, 2, 1]⟩], 0⟩]
  let q : Query := ⟨[97], 300 * second, .error .ctxDone, 300 * second⟩
  have hcached : (resolve .ascii (cacheAfter .ascii qs) q).1 = .cached [192, 0, 2, 1] := by decide
  exact ⟨qs, q, _, hcached, (cache_answers_sound .ascii qs q).1 _ hcached⟩

/-! ## A call that runs alone -/

namespace Resolver

variable {names : Names} {s s' : Shared} {c c' : ResolveCall} {calls : List ResolveCall}

/-- The steps of one call. -/
def alone (names : Names) (p : Shared × ResolveCall) (m : ResolveMove) :
    Option (Shared × ResolveCall) :=
  resolveStep names p.1 p.2 m

variable (calls) in
/-- Steps of the last call, as steps of the resolver. -/
theorem exec_alone {ms : List ResolveMove} (h : exec (alone names) (s, c) ms = some (s', c')) :
    exec (step names) ⟨s, calls ++ [c]⟩ (ms.map (.move calls.length)) =
      some ⟨s', calls ++ [c']⟩ := by
  induction ms generalizing s c with
  | nil =>
    cases h
    rfl
  | cons m ms ih =>
    obtain ⟨⟨s₁, c₁⟩, hm, hms⟩ := exec_cons_some.mp h
    apply exec_cons_some.mpr
    refine ⟨⟨s₁, calls ++ [c₁]⟩, ?_, ih hms⟩
    simp only [alone] at hm
    simp [step, hm]

/-- `cacheLookup` finds something. -/
theorem exec_hit {ip : Bytes} {cache : DnsCache} (hpc : c.pc = .looking)
    (h : cacheLookup s.cache (names.cacheKey c.name) s.now = (some ip, cache)) :
    exec (alone names) (s, c) [.look, .check] = some (s, { c with pc := .returned (.ok ip) }) := by
  obtain ⟨-, e, he, rfl, hfresh⟩ := cacheLookup_some h
  simp [exec, alone, resolveStep, hpc, he, Int.not_lt.mpr hfresh]

/-- `cacheLookup` finds nothing to use. -/
theorem exec_miss {cache : DnsCache} (hpc : c.pc = .looking)
    (h : cacheLookup s.cache (names.cacheKey c.name) s.now = (none, cache)) :
    ∃ ms s', exec (alone names) (s, c) ms = some (s', { c with pc := .measuring }) ∧
      s'.cache = cache ∧ s'.now = s.now := by
  unfold cacheLookup at h
  split at h
  · rename_i hnone
    cases h
    exact ⟨[.look, .check], s, by simp [exec, alone, resolveStep, hpc, hnone], rfl, rfl⟩
  · rename_i e he
    split at h
    · rename_i hlate
      cases h
      refine ⟨[.look, .check, .drop], s.drop (names.cacheKey c.name), ?_, rfl, rfl⟩
      simp [exec, alone, resolveStep, hpc, he, hlate]
    · cases h

variable (names) in
/-- The clock moves on. -/
theorem exec_until {r : Resolver} {t : Int} (h : r.shared.now ≤ t) :
    exec (step names) r [.tick (t - r.shared.now).toNat] =
      some { r with shared := { r.shared with now := t } } := by
  simp [exec, step, h]

variable (calls) in
/-- The rest of a call behind `cacheLookup`: the exchange, and the store. -/
theorem exec_upstream {q : Query} {cache : DnsCache} (hpc : c.pc = .measuring)
    (hdeadline : c.deadline = none) (hname : c.name = q.name) (hstore : s.now ≤ q.storeAt)
    (hlook : cacheLookup cache (names.cacheKey q.name) q.lookAt = (none, s.cache)) :
    ∃ acts s' c', exec (step names) ⟨s, calls ++ [c]⟩ acts = some ⟨s', calls ++ [c']⟩ ∧
      s'.cache = (resolve names cache q).2 ∧ s'.now ≤ q.storeAt ∧
      c'.pc = .returned (resolve names cache q).1.result := by
  simp only [resolve, hlook]
  cases hupstream : q.upstream with
  | error e =>
    have hrun : exec (alone names) (s, c) [.measure, .ask (some e)] =
        some (s, { c with pc := .returned (.error (.exchange e)), remaining := none }) := by
      simp [exec, alone, resolveStep, hpc, ResolveCall.left, hdeadline]
    exact ⟨_, _, _, exec_alone calls hrun, rfl, hstore, rfl⟩
  | ok answers =>
    cases hfirst : firstA answers with
    | none =>
      have hrun : exec (alone names) (s, c) [.measure, .ask none, .answer (.ok answers)] =
          some (s, { c with
            pc := .returned (.error (.noRecord q.name)), remaining := none,
            limit := some s.timeout }) := by
        simp [exec, alone, resolveStep, hpc, ResolveCall.left, hdeadline, hfirst, hname]
      exact ⟨_, _, _, exec_alone calls hrun, by simp [hfirst], hstore, by simp [hfirst, Outcome.result]⟩
    | some ip =>
      -- the clock moves on between the reply and the store
      let c₁ : ResolveCall := { c with
        pc := .storing ip (minTTLSeconds answers 60), remaining := none, limit := some s.timeout }
      have hrun : exec (alone names) (s, c) [.measure, .ask none, .answer (.ok answers)] =
          some (s, c₁) := by
        simp [exec, alone, resolveStep, hpc, ResolveCall.left, hdeadline, hfirst, c₁]
      let s₁ : Shared := { s with now := q.storeAt }
      have hwait : exec (step names) ⟨s, calls ++ [c₁]⟩ [.tick (q.storeAt - s.now).toNat] =
          some ⟨s₁, calls ++ [c₁]⟩ := exec_until names hstore
      let kept : DnsCache :=
        s.cache.store (names.cacheKey q.name) ip (minTTLSeconds answers 60) q.storeAt
      have hlast : exec (alone names) (s₁, c₁) [.store] =
          some ({ s₁ with cache := kept }, { c₁ with pc := .returned (.ok ip) }) := by
        simp [exec, alone, resolveStep, s₁, c₁, kept, hname]
      have hacts := exec_append_some.mpr ⟨_, hwait, exec_alone calls hlast⟩
      refine ⟨_, _, _, exec_append_some.mpr ⟨_, exec_alone calls hrun, hacts⟩, ?_, le_refl _, ?_⟩
      · simp [hfirst, kept]
      · simp [hfirst, Outcome.result]

variable (names) in
/-- A call that runs alone, from its lookup on. -/
theorem exec_resolve {r : Resolver} {q : Query} (hlook : r.shared.now ≤ q.lookAt)
    (hstore : q.lookAt ≤ q.storeAt) :
    ∃ acts s c, exec (step names) r acts = some ⟨s, r.calls ++ [c]⟩ ∧
      s.cache = (resolve names r.shared.cache q).2 ∧ s.now ≤ q.storeAt ∧
      c.pc = .returned (resolve names r.shared.cache q).1.result := by
  let s₀ : Shared := { r.shared with now := q.lookAt }
  let c₀ : ResolveCall := ⟨q.name, none, .looking, none, none⟩
  have hcalled : exec (step names) ⟨s₀, r.calls⟩ [.resolve q.name none] =
      some ⟨s₀, r.calls ++ [c₀]⟩ := rfl
  have hstart := exec_append_some.mpr ⟨_, exec_until names hlook, hcalled⟩
  cases hcache : cacheLookup r.shared.cache (names.cacheKey q.name) q.lookAt with
  | mk found cache =>
    cases found with
    | some ip =>
      have hhit := exec_alone r.calls (exec_hit (s := s₀) (c := c₀) rfl hcache)
      refine ⟨_, _, _, exec_append_some.mpr ⟨_, hstart, hhit⟩, ?_, hstore, ?_⟩
      · obtain ⟨rfl, -⟩ := cacheLookup_some hcache
        simp [resolve, hcache, s₀]
      · simp [resolve, hcache, Outcome.result]
    | none =>
      obtain ⟨ms, s₁, hmiss, rfl, hnow⟩ := exec_miss (s := s₀) (c := c₀) rfl hcache
      have hlooked := exec_append_some.mpr ⟨_, hstart, exec_alone r.calls hmiss⟩
      obtain ⟨acts, s', c', hrun, hresult⟩ := exec_upstream r.calls
        (c := { c₀ with pc := .measuring }) rfl rfl rfl (hnow.le.trans hstore) hcache
      exact ⟨_, s', c', exec_append_some.mpr ⟨_, hlooked, hrun⟩, hresult⟩

/-- Calls that follow one another, the first of them not before `now`. -/
def InOrder : Int → List Query → Prop
  | _, [] => True
  | now, q :: qs => now ≤ q.lookAt ∧ q.lookAt ≤ q.storeAt ∧ InOrder q.storeAt qs

theorem InOrder.mono {now now' : Int} {qs : List Query} (h : InOrder now' qs) (hle : now ≤ now') :
    InOrder now qs := by
  cases qs with
  | nil => trivial
  | cons q qs => exact ⟨hle.trans h.1, h.2⟩

/-- Calls that do not overlap are a run of the resolver, with the same results and the same
cache. -/
theorem resolve_runs (names : Names) {qs : List Query} :
    ∀ {r : Resolver}, InOrder r.shared.now qs →
      ∃ acts s calls, exec (step names) r acts = some ⟨s, r.calls ++ calls⟩ ∧
        s.cache = (resolveAll names r.shared.cache qs).2 ∧
        calls.map ResolveCall.pc =
          (resolveAll names r.shared.cache qs).1.map fun x => .returned x.2.result := by
  induction qs with
  | nil =>
    intro r _
    exact ⟨[], r.shared, [], by simp [exec], rfl, rfl⟩
  | cons q qs ih =>
    intro r hqs
    obtain ⟨hlook, hstore, hnext⟩ := hqs
    obtain ⟨acts, s, c, hrun, hcache, hnow, hpc⟩ := exec_resolve names hlook hstore
    obtain ⟨acts', s', calls, hrun', hcache', hcalls⟩ :=
      @ih ⟨s, r.calls ++ [c]⟩ (hnext.mono hnow)
    refine ⟨acts ++ acts', s', c :: calls, ?_, ?_, ?_⟩
    · rw [exec_append_some]
      exact ⟨_, hrun, by simpa using hrun'⟩
    · simpa [resolveAll, hcache] using hcache'
    · simpa [resolveAll, hcache, hpc] using hcalls

end Resolver

end PTBridge.Dpi
