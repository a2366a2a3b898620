import Mathlib.Data.List.Basic

/-!
# Runs of a partial step function

A system is a partial step function `step : σ → α → Option σ`: the label says which
thread moves and what its environment answers, and `none` says that the label is not
enabled. A run is a list of labels, so every interleaving is one list.

- `exec` runs a list of labels.
- `Meets` says that every step of the run starts in a state that satisfies a condition
  on the state and the label.
- `exec_invariant` is the induction over runs: what one step preserves, a run preserves.
- `exec_simulates` carries a relation to another system along a run.
- `exec_reaches` is for a run on fixed labels, which is evaluated once.
-/

namespace PTBridge.Transition

universe u v

variable {σ : Type u} {α : Type v}

/-- Run the labels in order; a label that is not enabled ends the run with `none`. -/
def exec (step : σ → α → Option σ) : σ → List α → Option σ
  | s, [] => some s
  | s, a :: as =>
      match step s a with
      | none => none
      | some s' => exec step s' as

/-- Every step the run takes starts in a state that meets `ok` for the step's label. -/
def Meets (step : σ → α → Option σ) (ok : σ → α → Prop) : σ → List α → Prop
  | _, [] => True
  | s, a :: as =>
      ok s a ∧
        match step s a with
        | none => True
        | some s' => Meets step ok s' as

instance decidableMeets (step : σ → α → Option σ) (ok : σ → α → Prop)
    [∀ s a, Decidable (ok s a)] : ∀ s as, Decidable (Meets step ok s as)
  | _, [] => isTrue trivial
  | s, a :: as =>
      have : Decidable (match step s a with
          | none => True
          | some s' => Meets step ok s' as) :=
        match step s a with
        | none => isTrue trivial
        | some s' => decidableMeets step ok s' as
      inferInstanceAs (Decidable (_ ∧ _))

section Exec

variable {step : σ → α → Option σ} {ok : σ → α → Prop}

theorem exec_cons (s : σ) (a : α) (as : List α) :
    exec step s (a :: as) = (step s a).bind fun s' => exec step s' as := by
  cases h : step s a <;> simp [exec, h]

theorem exec_cons_some {s t : σ} {a : α} {as : List α} :
    exec step s (a :: as) = some t ↔ ∃ s', step s a = some s' ∧ exec step s' as = some t := by
  rw [exec_cons, Option.bind_eq_some_iff]

theorem exec_append (s : σ) (as bs : List α) :
    exec step s (as ++ bs) = (exec step s as).bind fun s' => exec step s' bs := by
  induction as generalizing s with
  | nil => rfl
  | cons a as ih =>
    rw [List.cons_append, exec_cons, exec_cons, Option.bind_assoc]
    exact congrArg _ (funext fun s' => ih s')

theorem exec_append_some {s t : σ} {as bs : List α} :
    exec step s (as ++ bs) = some t ↔
      ∃ s', exec step s as = some s' ∧ exec step s' bs = some t := by
  rw [exec_append, Option.bind_eq_some_iff]

theorem meets_cons_of_step {s s' : σ} {a : α} {as : List α} (h : step s a = some s') :
    Meets step ok s (a :: as) ↔ ok s a ∧ Meets step ok s' as := by
  simp [Meets, h]

theorem meets_append {s : σ} {as bs : List α} :
    Meets step ok s (as ++ bs) ↔
      Meets step ok s as ∧ ∀ t, exec step s as = some t → Meets step ok t bs := by
  induction as generalizing s with
  | nil => simp [Meets, exec]
  | cons a as ih =>
    rw [List.cons_append]
    cases h : step s a with
    | none => simp [Meets, exec, h]
    | some s' => simp [Meets, exec, h, ih, and_assoc]

/-- A condition on the labels alone. -/
theorem meets_of_forall {p : α → Prop} {as : List α} (h : ∀ a ∈ as, p a) (s : σ) :
    Meets step (fun _ a => p a) s as := by
  induction as generalizing s with
  | nil => trivial
  | cons a as ih =>
    refine ⟨h a List.mem_cons_self, ?_⟩
    split
    · trivial
    · exact ih (fun b hb => h b (List.mem_cons_of_mem _ hb)) _

/-- Induction over runs: an invariant that every allowed step preserves holds at the end of
every allowed run. -/
theorem exec_invariant {I : σ → Prop}
    (hstep : ∀ s a s', I s → ok s a → step s a = some s' → I s') :
    ∀ (as : List α) (s t : σ), I s → Meets step ok s as → exec step s as = some t → I t := by
  intro as
  induction as with
  | nil =>
    intro s t hs _ hrun
    cases hrun
    exact hs
  | cons a as ih =>
    intro s t hs hok hrun
    obtain ⟨s', h₁, h₂⟩ := exec_cons_some.mp hrun
    obtain ⟨hoka, hokas⟩ := (meets_cons_of_step h₁).mp hok
    exact ih s' t (hstep s a s' hs hoka h₁) hokas h₂

/-- Induction over unrestricted runs. -/
theorem exec_invariant_all {I : σ → Prop}
    (hstep : ∀ s a s', I s → step s a = some s' → I s') :
    ∀ (as : List α) (s t : σ), I s → exec step s as = some t → I t := by
  intro as
  induction as with
  | nil =>
    intro s t hs hrun
    cases hrun
    exact hs
  | cons a as ih =>
    intro s t hs hrun
    obtain ⟨s', h₁, h₂⟩ := exec_cons_some.mp hrun
    exact ih s' t (hstep s a s' hs h₁) h₂

/-- A run on fixed labels: what holds at its end is derived from what evaluating it shows. -/
theorem exec_reaches {P Q : σ → Prop} [DecidablePred P] {s : σ} {as : List α}
    (hrun : (exec step s as).any (fun t => decide (P t)) = true)
    (hend : ∀ t, exec step s as = some t → P t → Q t) : ∃ t, exec step s as = some t ∧ Q t := by
  obtain ⟨t, ht, hP⟩ := (Option.any_eq_true _ _).mp hrun
  exact ⟨t, ht, hend t ht (of_decide_eq_true hP)⟩

end Exec

section Simulation

universe u' v'

variable {τ : Type u'} {β : Type v'} {step : σ → α → Option σ} {step' : τ → β → Option τ}

/-- Induction over related runs: if every step is matched by a run of the other system, so is
every run. -/
theorem exec_simulates {R : σ → τ → Prop}
    (hstep : ∀ s a s' t, R s t → step s a = some s' →
      ∃ bs t', exec step' t bs = some t' ∧ R s' t') :
    ∀ (as : List α) (s s' : σ) (t : τ), R s t → exec step s as = some s' →
      ∃ bs t', exec step' t bs = some t' ∧ R s' t' := by
  intro as
  induction as with
  | nil =>
    intro s s' t hR hrun
    cases hrun
    exact ⟨[], t, rfl, hR⟩
  | cons a as ih =>
    intro s s' t hR hrun
    obtain ⟨s₁, h₁, h₂⟩ := exec_cons_some.mp hrun
    obtain ⟨bs, t₁, hbs, hR₁⟩ := hstep s a s₁ t hR h₁
    obtain ⟨cs, t', hcs, hR'⟩ := ih s₁ s' t₁ hR₁ h₂
    exact ⟨bs ++ cs, t', exec_append_some.mpr ⟨t₁, hbs, hcs⟩, hR'⟩

end Simulation

end PTBridge.Transition
