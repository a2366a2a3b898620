import PTBridge.Dpi.Client.Resolver

/-!
# The time to live of an answer

`minTTLSeconds` keeps a running minimum of the TTLs of an answer in which `0` means that there is
none yet. A record with TTL 0 therefore does not count as the smallest; it makes the loop forget
the TTLs before it.

- `pick` is one round of the loop, `ttlLoop_eq` makes the loop a fold over the TTLs.
- Without a zero the loop finds the smallest TTL (`minTTLSeconds_least`); behind a zero it starts
  again (`minTTLSeconds_zero`, `minTTLSeconds_restart`).
- `follows_smallest_iff` says for which answers the lifetime follows the smallest TTL.
-/

namespace PTBridge.Dpi

open PTBridge.Stream

/-! ## The loop -/

/-- The TTLs that the loop looks at. -/
def ttls (answers : List Record) : List UInt32 := answers.filterMap Record.ttl

/-- One round of the loop. -/
def pick (ttl h : UInt32) : UInt32 := if ttl = 0 ∨ h < ttl then h else ttl

theorem ttlLoop_eq (answers : List Record) :
    ∀ ttl, ttlLoop ttl answers = (ttls answers).foldl pick ttl := by
  induction answers with
  | nil =>
    intro ttl
    rfl
  | cons ans answers ih =>
    intro ttl
    cases hans : ans.ttl with
    | none => simp [ttlLoop, ttls, hans, ih]
    | some h => simp [ttlLoop, ttls, hans, ih, pick]

@[simp] theorem pick_zero_left (h : UInt32) : pick 0 h = h := by simp [pick]

@[simp] theorem pick_zero_right (ttl : UInt32) : pick ttl 0 = 0 := by
  simp only [pick]
  split
  · rfl
  · rename_i hno
    have hzero : ¬ 0 < ttl := fun hlt => hno (.inr hlt)
    simp only [UInt32.lt_iff_toNat_lt, UInt32.toNat_zero] at hzero
    apply UInt32.toNat_inj.mp
    simpa using hzero

/-- With both of them positive, a round takes the smaller. -/
theorem pick_pos {ttl h : UInt32} (httl : 0 < ttl) (hh : 0 < h) :
    0 < pick ttl h ∧ pick ttl h ≤ ttl ∧ pick ttl h ≤ h := by
  have hne : ttl ≠ 0 := fun heq => absurd (heq ▸ httl) (by decide)
  simp only [pick, hne, false_or]
  split
  · rename_i hlt
    exact ⟨hh, UInt32.le_of_lt hlt, UInt32.le_refl h⟩
  · rename_i hge
    exact ⟨httl, UInt32.le_refl ttl, UInt32.not_lt.mp hge⟩

/-- The result is one of the TTLs, or where the loop started. -/
theorem foldl_pick_mem (l : List UInt32) : ∀ ttl, l.foldl pick ttl = ttl ∨ l.foldl pick ttl ∈ l := by
  induction l with
  | nil =>
    intro ttl
    exact .inl rfl
  | cons h l ih =>
    intro ttl
    rw [List.foldl_cons]
    rcases ih (pick ttl h) with heq | hmem
    · rw [heq]
      simp only [pick]
      split
      · exact .inr List.mem_cons_self
      · exact .inl rfl
    · exact .inr (List.mem_cons_of_mem h hmem)

/-- Without a zero the loop goes down and nowhere else. -/
theorem foldl_pick_le (l : List UInt32) (hpos : ∀ t ∈ l, 0 < t) :
    ∀ ttl, 0 < ttl → l.foldl pick ttl ≤ ttl ∧ ∀ t ∈ l, l.foldl pick ttl ≤ t := by
  induction l with
  | nil =>
    intro ttl _
    simp
  | cons h l ih =>
    intro ttl httl
    have hh : 0 < h := hpos h List.mem_cons_self
    have hpick := pick_pos httl hh
    obtain ⟨hle, hall⟩ := ih (fun t ht => hpos t (List.mem_cons_of_mem h ht)) _ hpick.1
    rw [List.foldl_cons]
    refine ⟨UInt32.le_trans hle hpick.2.1, fun t ht => ?_⟩
    rcases List.mem_cons.mp ht with rfl | ht
    · exact UInt32.le_trans hle hpick.2.2
    · exact hall t ht

/-! ## What `minTTLSeconds` returns -/

variable {answers : List Record} {fallback : UInt32}

/-- Without a zero it returns the smallest TTL. -/
theorem minTTLSeconds_least (hne : ttls answers ≠ []) (hpos : ∀ t ∈ ttls answers, 0 < t) :
    minTTLSeconds answers fallback ∈ ttls answers ∧
      ∀ t ∈ ttls answers, minTTLSeconds answers fallback ≤ t := by
  obtain ⟨h, l, hl⟩ := List.exists_cons_of_ne_nil hne
  rw [hl] at hpos ⊢
  have hh := hpos h List.mem_cons_self
  have hrest : ∀ t ∈ l, 0 < t := fun t ht => hpos t (List.mem_cons_of_mem h ht)
  obtain ⟨hle, hall⟩ := foldl_pick_le l hrest h hh
  have hmem : l.foldl pick h ∈ h :: l := by
    rcases foldl_pick_mem l h with heq | hmem
    · rw [heq]
      exact List.mem_cons_self
    · exact List.mem_cons_of_mem h hmem
  have hresult : minTTLSeconds answers fallback = l.foldl pick h := by
    have hzero : l.foldl pick h ≠ 0 := fun heq => absurd (heq ▸ hpos _ hmem) (by decide)
    simp [minTTLSeconds, ttlLoop_eq, hl, hzero]
  rw [hresult]
  refine ⟨hmem, fun t ht => ?_⟩
  rcases List.mem_cons.mp ht with rfl | ht
  · exact hle
  · exact hall t ht

/-- If all TTLs but zeros are the fallback, so is the result. -/
theorem minTTLSeconds_fallback (hall : ∀ t ∈ ttls answers, 0 < t → t = fallback) :
    minTTLSeconds answers fallback = fallback := by
  simp only [minTTLSeconds, ttlLoop_eq]
  split
  · rfl
  · rename_i hne
    have hpos : 0 < (ttls answers).foldl pick 0 := UInt32.pos_iff_ne_zero.mpr hne
    rcases foldl_pick_mem (ttls answers) 0 with heq | hmem
    · exact absurd heq hne
    · exact hall _ hmem hpos

/-- A zero at the end makes the loop forget everything. -/
theorem minTTLSeconds_zero {ans : Record} (hans : ans.ttl = some 0) :
    minTTLSeconds (answers ++ [ans]) fallback = fallback := by
  simp [minTTLSeconds, ttlLoop_eq, ttls, hans]

/-- A record behind the last zero is the only one that counts. -/
theorem minTTLSeconds_restart {zero ans : Record} {t : UInt32} (hzero : zero.ttl = some 0)
    (hans : ans.ttl = some t) (ht : 0 < t) :
    minTTLSeconds (answers ++ [zero, ans]) fallback = t := by
  have hne : t ≠ 0 := UInt32.pos_iff_ne_zero.mp ht
  simp [minTTLSeconds, ttlLoop_eq, ttls, hzero, hans, hne]

/-! ## What it should return -/

/-- The lifetime of an answer follows its smallest TTL, whatever the order of its records. -/
structure FollowsSmallest (answers : List Record) (fallback : UInt32) : Prop where
  order : ∀ answers', answers'.Perm answers →
    minTTLSeconds answers' fallback = minTTLSeconds answers fallback
  smallest : ttls answers ≠ [] → (∀ t ∈ ttls answers, 0 < t) →
    minTTLSeconds answers fallback ∈ ttls answers ∧
      ∀ t ∈ ttls answers, minTTLSeconds answers fallback ≤ t
  zero : 0 ∈ ttls answers → minTTLSeconds answers fallback ≤ fallback
  /-- `cacheStore` does not keep the entry longer than the smallest TTL -/
  kept : (∀ t ∈ ttls answers, 0 < t) →
    ∀ t ∈ ttls answers, lifetime (minTTLSeconds answers fallback) ≤ t.toNat * second
  /-- nor, if there is a zero, longer than the fallback -/
  keptZero : 0 ∈ ttls answers →
    lifetime (minTTLSeconds answers fallback) ≤ fallback.toNat * second

theorem lifetime_le_of_pos {ttlSeconds : UInt32} (h : 0 < ttlSeconds) :
    lifetime ttlSeconds ≤ ttlSeconds.toNat * second := by
  have hpos : 0 < ttlSeconds.toNat := by simpa [UInt32.lt_iff_toNat_lt] using h
  simp only [lifetime, second]
  split_ifs <;> omega

theorem ttls_perm {answers' : List Record} (h : answers'.Perm answers) :
    (ttls answers').Perm (ttls answers) := h.filterMap Record.ttl

/-- Positive TTLs: the smallest is the same in every order. -/
theorem followsSmallest_of_pos (hpos : ∀ t ∈ ttls answers, 0 < t) :
    FollowsSmallest answers fallback := by
  refine ⟨fun answers' hperm => ?_, fun hne _ => minTTLSeconds_least hne hpos, fun hzero => ?_,
    fun _ t ht => ?_, fun hzero => ?_⟩
  · have hperm' := ttls_perm hperm
    have hpos' : ∀ t ∈ ttls answers', 0 < t := fun t ht => hpos t (hperm'.mem_iff.mp ht)
    by_cases hnil : ttls answers = []
    · have hnil' : ttls answers' = [] := by
        rw [hnil] at hperm'
        exact hperm'.eq_nil
      simp [minTTLSeconds, ttlLoop_eq, hnil, hnil']
    · have hnil' : ttls answers' ≠ [] := fun h => hnil (by rw [h] at hperm'; exact hperm'.symm.eq_nil)
      obtain ⟨hmem, hle⟩ := @minTTLSeconds_least answers fallback hnil hpos
      obtain ⟨hmem', hle'⟩ := @minTTLSeconds_least answers' fallback hnil' hpos'
      exact UInt32.le_antisymm (hle' _ (hperm'.mem_iff.mpr hmem)) (hle _ (hperm'.mem_iff.mp hmem'))
  · exact absurd (hpos 0 hzero) (by decide)
  · obtain ⟨hmem, hle⟩ := @minTTLSeconds_least answers fallback (List.ne_nil_of_mem ht) hpos
    have hkept := lifetime_le_of_pos (hpos _ hmem)
    have hleNat := UInt32.le_iff_toNat_le.mp (hle t ht)
    simp only [second] at hkept ⊢
    omega
  · exact absurd (hpos 0 hzero) (by decide)

/-- Zeros and the fallback: it is the fallback in every order. -/
theorem followsSmallest_of_fallback (hfb : 0 < fallback)
    (hall : ∀ t ∈ ttls answers, 0 < t → t = fallback) : FollowsSmallest answers fallback := by
  have hresult := minTTLSeconds_fallback hall
  refine ⟨fun answers' hperm => ?_, fun hne hpos => minTTLSeconds_least hne hpos, fun _ => ?_,
    fun hpos => (followsSmallest_of_pos hpos).kept hpos, fun _ => ?_⟩
  · rw [hresult]
    exact minTTLSeconds_fallback fun t ht => hall t ((ttls_perm hperm).mem_iff.mp ht)
  · rw [hresult]
    exact UInt32.le_refl fallback
  · rw [hresult]
    exact lifetime_le_of_pos hfb

/-- With a zero, everything else that has a TTL has the fallback for one. -/
theorem FollowsSmallest.eq_fallback (h : FollowsSmallest answers fallback) (hz : 0 ∈ ttls answers)
    {t : UInt32} (ht : t ∈ ttls answers) (hpos : 0 < t) : t = fallback := by
  obtain ⟨zero, hzeroMem, hzeroTtl⟩ := List.mem_filterMap.mp hz
  obtain ⟨ans, hansMem, hansTtl⟩ := List.mem_filterMap.mp ht
  have hdiff : ans ≠ zero := by
    rintro rfl
    rw [hansTtl] at hzeroTtl
    cases hzeroTtl
    exact absurd hpos (by decide)
  -- put the two at the end, in both orders
  obtain ⟨front, hfront⟩ : ∃ front, answers.Perm (front ++ [zero, ans]) := by
    have h₁ := List.perm_cons_erase hzeroMem
    have hmem : ans ∈ answers.erase zero := (List.mem_erase_of_ne hdiff).mpr hansMem
    have h₂ := List.perm_cons_erase hmem
    refine ⟨(answers.erase zero).erase ans, h₁.trans ((h₂.cons zero).trans ?_)⟩
    exact (List.perm_append_comm : ([zero, ans] ++ _).Perm _)
  have hswap : (front ++ [ans] ++ [zero]).Perm answers := by
    refine List.Perm.trans ?_ hfront.symm
    rw [List.append_assoc]
    exact (List.Perm.swap zero ans []).append_left front
  have hlast := h.order _ hfront.symm
  have hforgot := h.order _ hswap
  rw [minTTLSeconds_restart hzeroTtl hansTtl hpos] at hlast
  rw [minTTLSeconds_zero hzeroTtl] at hforgot
  exact hlast.trans hforgot.symm

/-- A fallback of zero is no limit, since `cacheStore` makes a minute of it. -/
theorem FollowsSmallest.fallback_pos (h : FollowsSmallest answers fallback)
    (hz : 0 ∈ ttls answers) : 0 < fallback := by
  apply UInt32.pos_iff_ne_zero.mpr
  rintro rfl
  have hkept := h.keptZero hz
  have hpos := lifetime_pos (minTTLSeconds answers 0)
  simp only [UInt32.toNat_zero] at hkept
  omega

/-- For every answer and fallback: the lifetime follows the smallest TTL exactly if no TTL is zero,
or the fallback is not and all other TTLs are the fallback itself. -/
theorem follows_smallest_iff (answers : List Record) (fallback : UInt32) :
    FollowsSmallest answers fallback ↔
      (∀ t ∈ ttls answers, 0 < t) ∨
        0 < fallback ∧ ∀ t ∈ ttls answers, 0 < t → t = fallback := by
  constructor
  · intro h
    by_cases hz : 0 ∈ ttls answers
    · exact .inr ⟨h.fallback_pos hz, fun t ht hpos => h.eq_fallback hz ht hpos⟩
    · refine .inl fun t ht => UInt32.pos_iff_ne_zero.mpr ?_
      rintro rfl
      exact hz ht
  · rintro (hpos | ⟨hfb, hall⟩)
    · exact followsSmallest_of_pos hpos
    · exact followsSmallest_of_fallback hfb hall

/-- Three records with TTLs 5, 0 and 300. -/
def zeroBetween : List Record := [⟨some 5, none⟩, ⟨some 0, none⟩, ⟨some 300, none⟩]

/-- The answer is kept for five minutes; with the last two records the other way round, for one. -/
theorem zero_ttl_forgets :
    minTTLSeconds zeroBetween 60 = 300 ∧ lifetime (minTTLSeconds zeroBetween 60) = 300 * second ∧
      minTTLSeconds [⟨some 5, none⟩, ⟨some 300, none⟩, ⟨some 0, none⟩] 60 = 60 ∧
      ¬ FollowsSmallest zeroBetween 60 := by
  refine ⟨by decide, by decide, by decide, fun h => ?_⟩
  have hzero := h.zero (by decide)
  exact absurd hzero (by decide)

end PTBridge.Dpi
