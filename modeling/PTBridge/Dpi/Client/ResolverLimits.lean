import PTBridge.Dpi.Client.Resolver
import PTBridge.Transition.Log

/-!
# The time limit of an exchange

`exchange` keeps the limit of its select in the field `timeout` of the resolver, which it lowers to
what is left until the deadline of its context. The field is never raised again, and every later
call applies it.

- `wantedLimit` is the limit that a call should apply, from what is left until its own deadline.
- `LimitOk` and `TimeoutOk` are the invariant for calls that all want the same limit.
- `limits_right_iff`: the limits are right in every run exactly if no two calls want different ones;
  `limits_right_run` is about a single run, and what was measured in it.
-/

namespace PTBridge.Dpi.Resolver

open PTBridge.Stream PTBridge.Transition

/-! ## Limits -/

/-- Ten seconds, or what is left until the deadline if that is less and not over. -/
def wantedLimit : Option Int → Int
  | none => defaultTimeout
  | some left => if 0 < left then min defaultTimeout left else defaultTimeout

/-- Every call that has set its timer has set it for the limit that is its own. -/
def LimitsRight (r : Resolver) : Prop :=
  ∀ c ∈ r.calls, ∀ l, c.limit = some l → l = wantedLimit c.remaining

/-- What is left until its deadline, when a call looks, is as `P` says. -/
def Measures (P : Option Int → Prop) (r : Resolver) : Act → Prop
  | .move k .measure => ∀ c, r.calls[k]? = some c → P (c.left r.shared.now)
  | _ => True

theorem wantedLimit_le (left : Option Int) : wantedLimit left ≤ defaultTimeout := by
  cases left with
  | none => simp [wantedLimit]
  | some left =>
    simp only [wantedLimit]
    split
    · exact min_le_left _ _
    · exact le_refl _

theorem wantedLimit_short {left : Int} (hpos : 0 < left) (hlt : left < defaultTimeout) :
    wantedLimit (some left) = left := by
  simp only [wantedLimit, hpos, ↓reduceIte]
  exact min_eq_right (le_of_lt hlt)

/-- Only a deadline that is near gives another limit. -/
theorem wantedLimit_long {left : Option Int}
    (hlong : ∀ l, left = some l → ¬ (0 < l ∧ l < defaultTimeout)) :
    wantedLimit left = defaultTimeout := by
  cases left with
  | none => rfl
  | some l =>
    have hno := hlong l rfl
    simp only [wantedLimit]
    split
    · apply min_eq_left
      omega
    · rfl

theorem wantedLimit_lt {left : Option Int} (h : wantedLimit left < defaultTimeout) :
    ∃ l, left = some l ∧ 0 < l ∧ l < defaultTimeout ∧ wantedLimit left = l := by
  by_contra hno
  have hlong := @wantedLimit_long left fun l hl hshort => by
    apply hno
    subst hl
    exact ⟨l, rfl, hshort.1, hshort.2, wantedLimit_short hshort.1 hshort.2⟩
  omega

/-! ## Calls that want the same limit -/

variable {names : Names} {P : Option Int → Prop}

/-- A call, while `r.timeout` is `timeout`. -/
structure LimitOk (P : Option Int → Prop) (timeout : Int) (c : ResolveCall) : Prop where
  early : c.pc.early = true → c.limit = none
  lowering : ∀ left, c.pc = .lowering left →
    c.remaining = some left ∧ P (some left) ∧ 0 < left ∧ left < defaultTimeout
  asking : c.pc = .asking → P c.remaining ∧ timeout = wantedLimit c.remaining
  limit : ∀ l, c.limit = some l → l = wantedLimit c.remaining

/-- `r.timeout` is as at the start, or as one of the calls wanted it. -/
def TimeoutOk (P : Option Int → Prop) (timeout : Int) : Prop :=
  timeout = defaultTimeout ∨ ∃ left, P left ∧ timeout = wantedLimit left

theorem LimitOk.stayEarly {timeout : Int} {c : ResolveCall} {pc : ResolvePc}
    (h : LimitOk P timeout c) (hc : c.pc.early = true) (hpc : pc.early = true) :
    LimitOk P timeout { c with pc := pc } := by
  refine ⟨fun _ => h.early hc, fun left hleft => ?_, fun hask => ?_, h.limit⟩
  · cases hleft
    cases hpc
  · cases hask
    cases hpc

/-- Past the request nothing is asked of a call but its limit. -/
theorem LimitOk.leave {timeout : Int} {c : ResolveCall} {pc : ResolvePc} (h : LimitOk P timeout c)
    (hpc : pc.early = false) (hlower : ∀ left, pc ≠ .lowering left) (hask : pc ≠ .asking) :
    LimitOk P timeout { c with pc := pc } :=
  ⟨fun hearly => absurd (hpc.symm.trans hearly) Bool.false_ne_true,
    fun left hleft => absurd hleft (hlower left), fun hasking => absurd hasking hask, h.limit⟩

structure LimitsOk (P : Option Int → Prop) (r : Resolver) : Prop where
  timeout : TimeoutOk P r.shared.timeout
  calls : ∀ c ∈ r.calls, LimitOk P r.shared.timeout c

section SameLimit

variable (hsame : ∀ p q, P p → P q → wantedLimit p = wantedLimit q)
include hsame

/-- A call does not mind what others do to `r.timeout`, since they want the same. -/
theorem LimitOk.frame {timeout timeout' : Int} {c : ResolveCall} (h : LimitOk P timeout c)
    (ht : timeout' = timeout ∨ ∃ left, P left ∧ timeout' = wantedLimit left) :
    LimitOk P timeout' c := by
  refine ⟨h.early, h.lowering, fun hpc => ?_, h.limit⟩
  obtain ⟨hP, hown⟩ := h.asking hpc
  refine ⟨hP, ?_⟩
  rcases ht with rfl | ⟨left, hleft, rfl⟩
  · exact hown
  · exact hsame left c.remaining hleft hP

/-- A step of a call: the call is still all right, and `r.timeout` is the same or one that a call
wanted. -/
theorem LimitOk.move {s s' : Shared} {c c' : ResolveCall} {m : ResolveMove}
    (h : LimitOk P s.timeout c) (ht : TimeoutOk P s.timeout)
    (hmeasure : m = .measure → P (c.left s.now)) (hm : ResolveStep names s c m s' c') :
    LimitOk P s'.timeout c' ∧
      (s'.timeout = s.timeout ∨ ∃ left, P left ∧ s'.timeout = wantedLimit left) := by
  cases hm with
  | looked hpc => exact ⟨h.stayEarly (by rw [hpc]; rfl) rfl, .inl rfl⟩
  | missed hpc => exact ⟨h.stayEarly (by rw [hpc]; rfl) rfl, .inl rfl⟩
  | expired hpc hlate => exact ⟨h.stayEarly (by rw [hpc]; rfl) rfl, .inl rfl⟩
  | hit hpc hfresh => exact ⟨h.leave rfl (by simp) (by simp), .inl rfl⟩
  | dropped hpc => exact ⟨h.stayEarly (by rw [hpc]; rfl) rfl, .inl rfl⟩
  | unhurried hpc hlong =>
    have hnone := h.early (by simp [hpc, ResolvePc.early])
    refine ⟨⟨by simp [ResolvePc.early], by simp, fun _ => ⟨hmeasure rfl, ?_⟩, by simp [hnone]⟩,
      .inl rfl⟩
    rcases ht with htimeout | ⟨left, hleft, htimeout⟩
    · -- nobody has lowered it, and this call does not need to
      rw [htimeout] at hlong ⊢
      exact (wantedLimit_long hlong).symm
    · rw [htimeout]
      exact hsame left _ hleft (hmeasure rfl)
  | @hurried left hpc hleft hshort =>
    have hnone := h.early (by simp [hpc, ResolvePc.early])
    have hle : s.timeout ≤ defaultTimeout := by
      rcases ht with htimeout | ⟨p, -, htimeout⟩
      · exact le_of_eq htimeout
      · exact htimeout ▸ wantedLimit_le p
    refine ⟨⟨by simp [ResolvePc.early], fun left' hpc' => ?_, by simp, by simp [hnone]⟩, .inl rfl⟩
    cases hpc'
    exact ⟨rfl, hleft ▸ hmeasure rfl, hshort.1, lt_of_lt_of_le hshort.2 hle⟩
  | @lowered left hpc =>
    obtain ⟨hrem, hP, hpos, hlt⟩ := h.lowering left hpc
    have hwanted := wantedLimit_short hpos hlt
    refine ⟨⟨by simp [ResolvePc.early], by simp, fun _ => ?_, h.limit⟩, .inr ⟨_, hP, hwanted.symm⟩⟩
    simp only [hrem]
    exact ⟨hP, hwanted.symm⟩
  | failed hpc => exact ⟨h.leave rfl (by simp) (by simp), .inl rfl⟩
  | asked hpc =>
    refine ⟨⟨by simp [ResolvePc.early], by simp, by simp, fun l hl => ?_⟩, .inl rfl⟩
    cases hl
    exact (h.asking hpc).2
  | ended hpc => exact ⟨h.leave rfl (by simp) (by simp), .inl rfl⟩
  | answered hpc hip => exact ⟨h.leave rfl (by simp) (by simp), .inl rfl⟩
  | stored hpc => exact ⟨h.leave rfl (by simp) (by simp), .inl rfl⟩

theorem LimitsOk.step {r r' : Resolver} {a : Act} (h : LimitsOk P r) (hmeasure : Measures P r a)
    (hs : Step names r a r') : LimitsOk P r' := by
  cases hs with
  | ticked d => exact ⟨h.timeout, h.calls⟩
  | called name deadline =>
    refine ⟨h.timeout, fun c hc => ?_⟩
    rcases List.mem_append.mp hc with hold | hnew
    · exact h.calls c hold
    · cases List.mem_singleton.mp hnew
      exact ⟨by simp, by simp, by simp, by simp⟩
  | @moved k m c s c' hc hm =>
    have hmem := List.mem_of_getElem? hc
    obtain ⟨hown, htimeout⟩ := (h.calls c hmem).move hsame h.timeout
      (by rintro rfl; exact hmeasure c hc) hm
    refine ⟨?_, fun d hd => ?_⟩
    · rcases htimeout with heq | hnew
      · exact heq ▸ h.timeout
      · exact .inr hnew
    · rcases List.mem_or_eq_of_mem_set hd with hold | rfl
      · exact (h.calls d hold).frame hsame htimeout
      · exact hown

theorem limits_right_of_same {acts : List Act} {r : Resolver}
    (hmeets : Meets (step names) (Measures P) .new acts)
    (hrun : exec (step names) .new acts = some r) : r.LimitsRight := by
  have hinit : LimitsOk P .new := ⟨.inl rfl, by simp [new]⟩
  have hok := exec_invariant (I := LimitsOk P)
    (fun r a r' h hm hstep => h.step hsame hm (step_cases hstep)) acts .new r hinit hmeets hrun
  exact fun c hc => (hok.calls c hc).limit

end SameLimit

/-- What a step measures. -/
def measured (r : Resolver) : Act → List (Option Int)
  | .move k .measure => (r.calls[k]?.map fun c => c.left r.shared.now).toList
  | _ => []

theorem meets_measured {acts : List Act} :
    ∀ {r : Resolver}, (∀ left ∈ collect (step names) measured r acts, P left) →
      Meets (step names) (Measures P) r acts := by
  induction acts with
  | nil => exact fun _ => trivial
  | cons a acts ih =>
    intro r hall
    rw [collect] at hall
    constructor
    · have hhead : ∀ left ∈ measured r a, P left :=
        fun left hleft => hall left (List.mem_append_left _ hleft)
      unfold Measures
      split
      · rename_i k
        intro c hc
        apply hhead
        simp [measured, hc]
      · trivial
    · cases hs : step names r a with
      | none => trivial
      | some r' =>
        rw [hs] at hall
        exact ih fun left hleft => hall left (List.mem_append_right _ hleft)

/-- In a run in which all calls that measure what is left want the same limit, every call applies its
own. -/
theorem limits_right_run {acts : List Act} {r : Resolver}
    (hrun : exec (step names) .new acts = some r)
    (hsame : ∀ p ∈ collect (step names) measured .new acts,
      ∀ q ∈ collect (step names) measured .new acts, wantedLimit p = wantedLimit q) :
    r.LimitsRight :=
  limits_right_of_same (P := (· ∈ collect (step names) measured .new acts))
    (fun p q hp hq => hsame p hp q hq) (meets_measured fun _ hleft => hleft) hrun

/-! ## Calls that want different limits -/

/-- A call that lowers `r.timeout`, and another one after it. -/
def shortThenLong (left : Int) (other : Option Int) : List Act :=
  [.resolve [] (some left), .move 0 .look, .move 0 .check, .move 0 .measure, .move 0 .lower,
    .move 0 (.ask none), .resolve [] other, .move 1 .look, .move 1 .check, .move 1 .measure,
    .move 1 (.ask none)]

variable (names) in
/-- The second call applies the limit of the first. -/
theorem exec_shortThenLong {left : Int} {other : Option Int} (hpos : 0 < left)
    (hlt : left < defaultTimeout)
    (hlong : ∀ l, other = some l → ¬ (0 < l ∧ l < left)) :
    ∃ r, exec (step names) .new (shortThenLong left other) = some r ∧
      (⟨[], other, .waiting left, other, some left⟩ : ResolveCall) ∈ r.calls := by
  cases other with
  | none =>
    simp [shortThenLong, exec, step, resolveStep, new, ResolveCall.left, hpos, hlt]
  | some l =>
    have hno := hlong l rfl
    simp [shortThenLong, exec, step, resolveStep, new, ResolveCall.left, hpos, hlt, hno]

theorem meets_shortThenLong {left : Int} {other : Option Int} (hpos : 0 < left)
    (hlt : left < defaultTimeout) (hlong : ∀ l, other = some l → ¬ (0 < l ∧ l < left))
    (hP : P (some left)) (hother : P other) :
    Meets (step names) (Measures P) .new (shortThenLong left other) := by
  cases other with
  | none =>
    simp [shortThenLong, Meets, Measures, step, resolveStep, new, ResolveCall.left, hpos, hlt, hP,
      hother]
  | some l =>
    have hno := hlong l rfl
    simp [shortThenLong, Meets, Measures, step, resolveStep, new, ResolveCall.left, hpos, hlt, hno,
      hP, hother]

variable (names) in
/-- If two calls want different limits, the one that wants more can get less. -/
theorem limit_remembered {p q : Option Int} (hp : P p) (hq : P q)
    (hlt : wantedLimit p < wantedLimit q) :
    ∃ acts r, Meets (step names) (Measures P) .new acts ∧ exec (step names) .new acts = some r ∧
      ¬ r.LimitsRight := by
  obtain ⟨left, rfl, hpos, hshort, hwanted⟩ :=
    wantedLimit_lt (lt_of_lt_of_le hlt (wantedLimit_le q))
  rw [hwanted] at hlt
  have hlong : ∀ l, q = some l → ¬ (0 < l ∧ l < left) := by
    rintro l rfl ⟨hl, hless⟩
    rw [wantedLimit_short hl (lt_trans hless hshort)] at hlt
    exact absurd hless (not_lt_of_gt hlt)
  obtain ⟨r, hrun, hmem⟩ := exec_shortThenLong names hpos hshort hlong
  refine ⟨_, r, meets_shortThenLong hpos hshort hlong hp hq, hrun, fun hright => ?_⟩
  have hlimit := hright _ hmem left rfl
  exact absurd hlimit (ne_of_lt hlt)

/-- Of the calls with `P`, all of which want the same limit or not: every interleaving of any
number of them applies the right limits exactly if they all want the same. -/
theorem limits_right_iff (names : Names) (P : Option Int → Prop) :
    (∀ acts r, Meets (step names) (Measures P) .new acts → exec (step names) .new acts = some r →
        r.LimitsRight) ↔
      ∀ p q, P p → P q → wantedLimit p = wantedLimit q := by
  constructor
  · intro hright p q hp hq
    by_contra hne
    rcases lt_or_gt_of_ne hne with hlt | hgt
    · obtain ⟨acts, r, hmeets, hrun, hwrong⟩ := limit_remembered names hp hq hlt
      exact hwrong (hright acts r hmeets hrun)
    · obtain ⟨acts, r, hmeets, hrun, hwrong⟩ := limit_remembered names hq hp hgt
      exact hwrong (hright acts r hmeets hrun)
  · intro hsame acts r hmeets hrun
    exact limits_right_of_same hsame hmeets hrun

/-- One call with a second left, and every later call without a deadline gives up after a second. -/
theorem short_deadline_remembered :
    ∃ r, exec (step .ascii) .new (shortThenLong second none) = some r ∧
      r.calls.map ResolveCall.remaining = [some second, none] ∧
      r.calls.map ResolveCall.limit = [some second, some second] ∧ ¬ r.LimitsRight := by
  refine ⟨_, rfl, rfl, rfl, fun hright => ?_⟩
  have hlimit := hright ⟨[], none, .waiting second, none, some second⟩ (by decide) second rfl
  exact absurd hlimit (by decide)

end PTBridge.Dpi.Resolver
