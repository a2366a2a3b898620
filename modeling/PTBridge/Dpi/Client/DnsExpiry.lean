import PTBridge.Dpi.Client.Resolver
import PTBridge.Transition.Pool

/-!
# When an expired entry is deleted

`cacheLookup` reads an entry under the read lock, compares its time, and deletes what the key leads
to under the write lock. In between another call may have stored a new entry.

- `Undisturbed` is the condition on a store that rules this out.
- `KeepsFreshInv` is what then holds along a run; `fresh_entries_kept` follows.
- `disturbed_drops_fresh`: after a store without the condition, the new entry can be deleted while
  it is fresh. `fresh_entry_deleted` is such a run.
-/

namespace PTBridge.Dpi

open PTBridge.Stream PTBridge.Transition

/-- An entry that expires at `expires` can be stored without regard to a call at `pc` that looks up
the same key: the call is not about to delete, and it does not hold an entry that expires before. -/
def ResolvePc.Leaves (expires : Int) : ResolvePc → Prop
  | .dropping => False
  | .checking (some e) => expires ≤ e.expires
  | _ => True

/-- What a call at `pc` knows of the entry `e` of its key: it has expired if the call is about to
delete it, and it expires no later than the one the call has read. -/
def ResolvePc.Knows (now : Int) (e : CacheEntry) : ResolvePc → Prop
  | .dropping => e.expires < now
  | .checking (some found) => e.expires ≤ found.expires
  | _ => True

theorem ResolvePc.Knows.later {now now' : Int} {e : CacheEntry} {pc : ResolvePc}
    (h : pc.Knows now e) (hle : now ≤ now') : pc.Knows now' e := by
  cases pc with
  | dropping => exact lt_of_lt_of_le h hle
  | checking entry => cases entry <;> exact h
  | _ => trivial

namespace Resolver

/-- Whatever `cacheLookup` deleted had expired. -/
def KeepsFresh (r : Resolver) : Prop := ∀ p ∈ r.shared.dropped, p.1.expires < p.2

/-- A store meets no call that may delete the new entry. -/
def Undisturbed (names : Names) (r : Resolver) : Act → Prop
  | .move k .store =>
      ∀ c ip ttlSeconds, r.calls[k]? = some c → c.pc = .storing ip ttlSeconds →
        ∀ d ∈ r.calls, names.cacheKey d.name = names.cacheKey c.name →
          d.pc.Leaves (r.shared.now + lifetime ttlSeconds)
  | _ => True

/-! ## The invariant -/

structure KeepsFreshInv (names : Names) (r : Resolver) : Prop where
  dropped : r.KeepsFresh
  knows : ∀ c ∈ r.calls, ∀ e, r.shared.cache (names.cacheKey c.name) = some e →
    c.pc.Knows r.shared.now e

section Steps

variable {names : Names} {r r' : Resolver} {k : Nat} {c c' : ResolveCall} {a : Act}

/-- A step that leaves the cache, the clock and the log as they are. -/
theorem KeepsFreshInv.local (h : KeepsFreshInv names r) {s : Shared}
    (hcache : s.cache = r.shared.cache) (hnow : s.now = r.shared.now)
    (hdropped : s.dropped = r.shared.dropped)
    (hknows : ∀ e, r.shared.cache (names.cacheKey c'.name) = some e →
      c'.pc.Knows r.shared.now e) :
    KeepsFreshInv names ⟨s, r.calls.set k c'⟩ := by
  refine ⟨?_, fun d hd e he => ?_⟩
  · intro p hp
    rw [hdropped] at hp
    exact h.dropped p hp
  · rw [hcache] at he
    rw [hnow]
    rcases List.mem_or_eq_of_mem_set hd with hold | rfl
    · exact h.knows d hold e he
    · exact hknows e he

/-- The deleted entry had expired, and what other calls know of other keys stays. -/
theorem KeepsFreshInv.drop (h : KeepsFreshInv names r) (hc : c ∈ r.calls) (hpc : c.pc = .dropping) :
    KeepsFreshInv names
      ⟨r.shared.drop (names.cacheKey c.name), r.calls.set k { c with pc := .measuring }⟩ := by
  refine ⟨?_, fun d hd e he => ?_⟩
  · intro p hp
    simp only [Shared.drop, List.mem_append, List.mem_map, Option.mem_toList] at hp
    rcases hp with hold | ⟨e, he, rfl⟩
    · exact h.dropped p hold
    · have hknows := h.knows c hc e he
      rw [hpc] at hknows
      exact hknows
  · rcases List.mem_or_eq_of_mem_set hd with hold | rfl
    · have hother : names.cacheKey d.name ≠ names.cacheKey c.name := by
        intro hsame
        simp [Shared.drop, DnsCache.drop, hsame] at he
      simp only [Shared.drop, DnsCache.drop, Function.update_of_ne hother] at he
      exact h.knows d hold e he
    · trivial

/-- A new entry, undisturbed. -/
theorem KeepsFreshInv.store (h : KeepsFreshInv names r) {ip : Bytes} {ttlSeconds : UInt32}
    (hleaves : ∀ d ∈ r.calls, names.cacheKey d.name = names.cacheKey c.name →
      d.pc.Leaves (r.shared.now + lifetime ttlSeconds)) :
    KeepsFreshInv names
      ⟨{ r.shared with
          cache := r.shared.cache.store (names.cacheKey c.name) ip ttlSeconds r.shared.now },
        r.calls.set k { c with pc := .returned (.ok ip) }⟩ := by
  refine ⟨h.dropped, fun d hd e he => ?_⟩
  rcases List.mem_or_eq_of_mem_set hd with hold | rfl
  · by_cases hsame : names.cacheKey d.name = names.cacheKey c.name
    · have hd' := hleaves d hold hsame
      simp only [DnsCache.store, hsame, Function.update_self, Option.some.injEq] at he
      subst he
      cases hpc : d.pc with
      | dropping =>
        rw [hpc] at hd'
        exact hd'.elim
      | checking entry =>
        rw [hpc] at hd'
        cases entry <;> exact hd'
      | _ => trivial
    · simp only [DnsCache.store, Function.update_of_ne hsame] at he
      exact h.knows d hold e he
  · trivial

theorem KeepsFreshInv.step (h : KeepsFreshInv names r) (hok : Undisturbed names r a)
    (hstep : Step names r a r') : KeepsFreshInv names r' := by
  cases hstep with
  | ticked d =>
    refine ⟨h.dropped, fun c hc e he => ?_⟩
    exact (h.knows c hc e he).later (by simp)
  | called name deadline =>
    refine ⟨h.dropped, fun c hc e he => ?_⟩
    rcases List.mem_append.mp hc with hold | hnew
    · exact h.knows c hold e he
    · rw [List.mem_singleton.mp hnew]
      trivial
  | @moved k m c s c' hc hm =>
    have hmem : c ∈ r.calls := List.mem_of_getElem? hc
    cases hm with
    | looked hpc =>
      -- what it has just read is the entry itself
      refine h.local rfl rfl rfl fun e he => ?_
      simp only [he]
      exact le_refl e.expires
    | @expired found hpc hlate =>
      refine h.local rfl rfl rfl fun e he => ?_
      have hknows := h.knows c hmem e he
      rw [hpc] at hknows
      exact lt_of_le_of_lt hknows hlate
    | dropped hpc => exact h.drop hmem hpc
    | stored hpc => exact h.store (hok c _ _ hc hpc)
    | _ => exact h.local rfl rfl rfl fun _ _ => trivial

end Steps

/-- In every interleaving whose stores are undisturbed, only expired entries are deleted. -/
theorem fresh_entries_kept (names : Names) (acts : List Act) (r : Resolver)
    (hok : Meets (step names) (Undisturbed names) .new acts)
    (hrun : exec (step names) .new acts = some r) : r.KeepsFresh := by
  have hinit : KeepsFreshInv names .new := ⟨by simp [KeepsFresh, new], by simp [new]⟩
  have hinv := exec_invariant (I := KeepsFreshInv names)
    (fun r a r' h ha hstep => h.step ha (step_cases hstep)) acts .new r hinit hok hrun
  exact hinv.dropped

/-- One call of `Resolve` for `a`, without a deadline, that asks and stores an answer with `ttl`. -/
def asksAndStores (k : Nat) (ttl : UInt32) : List Act :=
  [.move k .measure, .move k (.ask none),
    .move k (.answer (.ok [⟨some ttl, some [192, 0, 2, 1]⟩])), .move k .store]

/-- A first call stores an entry for a second, which a second call finds two seconds later. -/
def storedThenExpired : List Act :=
  [.resolve [97] none, .move 0 .look, .move 0 .check] ++ asksAndStores 0 1 ++
    [.tick 2000000000, .resolve [97] none, .move 1 .look]

/-- The second call deletes it and stores its own answer. -/
theorem expired_entry_dropped :
    ∃ r, exec (step .ascii) .new
        (storedThenExpired ++ ([.move 1 .check, .move 1 .drop] : List Act) ++ asksAndStores 1 60) = some r ∧
      r.shared.dropped = [(⟨[192, 0, 2, 1], second⟩, 2 * second)] ∧ r.KeepsFresh := by
  have hok : Meets (step .ascii) (Undisturbed .ascii) .new
      (storedThenExpired ++ ([.move 1 .check, .move 1 .drop] : List Act) ++ asksAndStores 1 60) := by
    simp [storedThenExpired, asksAndStores, Meets, Undisturbed, ResolvePc.Leaves, step, resolveStep,
      new, firstA, ResolveCall.left, DnsCache.store, minTTLSeconds, ttlLoop, lifetime, second]
  refine exec_reaches
    (P := fun r => r.shared.dropped = [(⟨[192, 0, 2, 1], second⟩, 2 * second)]) (by decide) ?_
  intro r hrun hdropped
  exact ⟨hdropped, fresh_entries_kept .ascii _ r hok hrun⟩

/-! ## A disturbed store -/

section Disturbed

variable {names : Names} {r r' : Resolver} {j k : Nat} {d : ResolveCall} {e : CacheEntry}

/-- A call that is about to delete an entry that has not expired does so. -/
theorem dropping_drops (hd : r.calls[j]? = some d) (hpc : d.pc = .dropping)
    (he : r.shared.cache (names.cacheKey d.name) = some e) (hfresh : r.shared.now ≤ e.expires) :
    ∃ r', exec (step names) r [.move j .drop] = some r' ∧ ¬ r'.KeepsFresh := by
  refine ⟨⟨r.shared.drop (names.cacheKey d.name), r.calls.set j { d with pc := .measuring }⟩, ?_, ?_⟩
  · simp [exec, step, hd, resolveStep, hpc]
  · intro hkeeps
    have hlate := hkeeps (e, r.shared.now) (by simp [Shared.drop, he])
    exact absurd hlate (not_lt_of_ge hfresh)

/-- So does a call that holds an entry which expires before it, once that one has expired. -/
theorem checking_drops {found : CacheEntry} (hd : r.calls[j]? = some d)
    (hpc : d.pc = .checking (some found)) (he : r.shared.cache (names.cacheKey d.name) = some e)
    (hfresh : r.shared.now ≤ e.expires) (hbefore : found.expires < e.expires) :
    ∃ acts r', exec (step names) r acts = some r' ∧ ¬ r'.KeepsFresh := by
  -- the first time at which the one it holds has expired
  let late : Nat := (found.expires + 1 - r.shared.now).toNat
  have hlate : found.expires < r.shared.now + late ∧ r.shared.now + late ≤ e.expires := by
    simp only [late]
    omega
  let r₁ : Resolver :=
    ⟨{ r.shared with now := r.shared.now + late }, r.calls.set j { d with pc := .dropping }⟩
  have hcheck : exec (step names) r [.tick late, .move j .check] = some r₁ := by
    simp [exec, step, hd, resolveStep, hpc, hlate.1, r₁]
  obtain ⟨r', hrun, hwrong⟩ :=
    dropping_drops (r := r₁) (pool_set_self hd) rfl he hlate.2
  exact ⟨_, r', exec_append_some.mpr ⟨r₁, hcheck, hrun⟩, hwrong⟩

/-- After a store that is not undisturbed, the run can go on so that the new entry is deleted before
it has expired. -/
theorem disturbed_drops_fresh (hstep : step names r (.move k .store) = some r')
    (hdisturbed : ¬ Undisturbed names r (.move k .store)) :
    ∃ acts r'', exec (step names) r' acts = some r'' ∧ ¬ r''.KeepsFresh := by
  simp only [Undisturbed, not_forall] at hdisturbed
  obtain ⟨c, ip, ttlSeconds, hc, hpc, d, hmem, hsame, hleaves⟩ := hdisturbed
  obtain ⟨j, hd⟩ := List.mem_iff_getElem?.mp hmem
  have hother : j ≠ k := by
    rintro rfl
    rw [hd] at hc
    cases hc
    rw [hpc] at hleaves
    exact hleaves trivial
  let e : CacheEntry := ⟨ip, r.shared.now + lifetime ttlSeconds⟩
  let r₁ : Resolver :=
    ⟨{ r.shared with
        cache := r.shared.cache.store (names.cacheKey c.name) ip ttlSeconds r.shared.now },
      r.calls.set k { c with pc := .returned (.ok ip) }⟩
  obtain rfl : r₁ = r' := by simpa [step, hc, resolveStep, hpc] using hstep
  have hd' : r₁.calls[j]? = some d := by
    simp only [r₁, List.getElem?_set_ne hother.symm]
    exact hd
  have he : r₁.shared.cache (names.cacheKey d.name) = some e := by
    simp [r₁, e, DnsCache.store, hsame]
  have hfresh : r₁.shared.now ≤ e.expires := by
    have hpos := lifetime_pos ttlSeconds
    simp [r₁, e, hpos.le]
  cases hdpc : d.pc with
  | dropping =>
    obtain ⟨r'', hrun, hwrong⟩ := dropping_drops hd' hdpc he hfresh
    exact ⟨_, r'', hrun, hwrong⟩
  | checking entry =>
    rw [hdpc] at hleaves
    cases entry with
    | none => exact absurd trivial hleaves
    | some found => exact checking_drops hd' hdpc he hfresh (not_le.mp hleaves)
  | _ =>
    rw [hdpc] at hleaves
    exact absurd trivial hleaves

end Disturbed

/-- Two calls find the expired entry. One deletes it, asks and stores; then the other deletes the new
entry, with a minute to live. -/
theorem fresh_entry_deleted :
    ∃ r, exec (step .ascii) .new
        (storedThenExpired ++
          ([.resolve [97] none, .move 2 .look, .move 1 .check, .move 2 .check,
            .move 1 .drop] : List Act) ++
          asksAndStores 1 60 ++ ([.move 2 .drop] : List Act)) = some r ∧
      r.shared.now = 2 * second ∧
      r.shared.dropped = [(⟨[192, 0, 2, 1], second⟩, 2 * second),
        (⟨[192, 0, 2, 1], 62 * second⟩, 2 * second)] ∧ ¬ r.KeepsFresh := by
  refine ⟨_, rfl, rfl, rfl, fun hkeeps => ?_⟩
  exact absurd (hkeeps (⟨[192, 0, 2, 1], 62 * second⟩, 2 * second) (by decide)) (by decide)

end Resolver

end PTBridge.Dpi
