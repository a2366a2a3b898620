import Mathlib.Data.List.Induction
import PTBridge.Transition.Run

/-!
# Logs that several threads write to

A log of pairs holds what several threads did, each entry under the key of its thread. Read under
one key it is the stream of that thread.

- `collect` is the log of a run, if each step says what it adds.
- `ofKey` are the entries under one key, in order.
- `exists_sources`: if the entries under each key are a part of a stream, and in its order, every
  entry of the whole log is an entry of a stream.
-/

namespace PTBridge.Transition

universe u v w

variable {κ : Type u} {β : Type v} {ι : Type w} [DecidableEq κ]

section Collect

variable {σ : Type u} {α : Type v} {step : σ → α → Option σ} {note : σ → α → List ι}

/-- What the steps of a run note, in order. -/
def collect (step : σ → α → Option σ) (note : σ → α → List ι) : σ → List α → List ι
  | _, [] => []
  | s, a :: as =>
      note s a ++
        match step s a with
        | none => []
        | some s' => collect step note s' as

/-- What a step preserves with its note added to the log, a run preserves with its log. -/
theorem collect_invariant {I : σ → List ι → Prop}
    (hstep : ∀ s log a s', I s log → step s a = some s' → I s' (log ++ note s a)) (as : List α) :
    ∀ (s t : σ) (log : List ι), I s log → exec step s as = some t →
      I t (log ++ collect step note s as) := by
  induction as with
  | nil =>
    intro s t log hs hrun
    cases hrun
    rw [collect, List.append_nil]
    exact hs
  | cons a as ih =>
    intro s t log hs hrun
    obtain ⟨s', hs', hrest⟩ := exec_cons_some.mp hrun
    have hlog := ih s' t _ (hstep s log a s' hs hs') hrest
    rw [List.append_assoc] at hlog
    rw [collect, hs']
    exact hlog

end Collect

/-- The entries of a log under one key, in order. -/
def ofKey (log : List (κ × β)) (k : κ) : List β :=
  (log.filter fun e => e.1 = k).map Prod.snd

@[simp] theorem ofKey_nil (k : κ) : ofKey ([] : List (κ × β)) k = [] := rfl

theorem ofKey_append (log log' : List (κ × β)) (k : κ) :
    ofKey (log ++ log') k = ofKey log k ++ ofKey log' k := by
  simp [ofKey, List.filter_append]

theorem ofKey_snoc_self (log : List (κ × β)) (k : κ) (b : β) :
    ofKey (log ++ [(k, b)]) k = ofKey log k ++ [b] := by
  simp [ofKey, List.filter_append]

theorem ofKey_snoc_other (log : List (κ × β)) {j k : κ} (b : β) (hjk : j ≠ k) :
    ofKey (log ++ [(k, b)]) j = ofKey log j := by
  simp [ofKey, List.filter_append, Ne.symm hjk]

theorem mem_ofKey {log : List (κ × β)} {k : κ} {b : β} : b ∈ ofKey log k ↔ (k, b) ∈ log := by
  simp [ofKey]

theorem ofKey_sublist (log : List (κ × β)) (k : κ) : (ofKey log k).Sublist (log.map Prod.snd) :=
  List.filter_sublist.map _

theorem ofKey_cons_self (k : κ) (b : β) (log : List (κ × β)) :
    ofKey ((k, b) :: log) k = b :: ofKey log k := by
  simp [ofKey]

theorem ofKey_cons_other {j k : κ} (b : β) (log : List (κ × β)) (hjk : j ≠ k) :
    ofKey ((k, b) :: log) j = ofKey log j := by
  simp [ofKey, Ne.symm hjk]

/-- Streams that together make up a log, up to what the log keeps of their entries, can be merged in
the order of the log. -/
theorem exists_merge {γ : Type w} {f : β → γ} {log : List (κ × γ)} {streams : κ → List β}
    (h : ∀ k, ofKey log k = (streams k).map f) :
    ∃ trace : List (κ × β), trace.map (fun t => (t.1, f t.2)) = log ∧
      ∀ k, ofKey trace k = streams k := by
  induction log generalizing streams with
  | nil =>
    refine ⟨[], rfl, fun k => ?_⟩
    have hnil : (streams k).map f = [] := (h k).symm
    exact (List.map_eq_nil_iff.mp hnil).symm
  | cons e log ih =>
    obtain ⟨k, b⟩ := e
    -- the first entry of the log is the first of its stream
    have hself := h k
    rw [ofKey_cons_self] at hself
    obtain ⟨x, rest, hstream, hx, hrest⟩ := List.map_eq_cons_iff.mp hself.symm
    obtain ⟨trace, hlog, htrace⟩ := @ih (Function.update streams k rest) (by
      intro j
      by_cases hj : j = k
      · subst hj
        rw [Function.update_self, hrest]
      · rw [Function.update_of_ne hj, ← h j, ofKey_cons_other b log hj])
    refine ⟨(k, x) :: trace, by simp [hlog, hx], fun j => ?_⟩
    by_cases hj : j = k
    · subst hj
      rw [ofKey_cons_self, htrace, Function.update_self, hstream]
    · rw [ofKey_cons_other x trace hj, htrace, Function.update_of_ne hj]

/-- A log that keeps a part of each of several streams, in the order of the stream, is a log of
their entries. -/
theorem exists_sources {γ : Type w} {f : β → γ} {log : List (κ × γ)} {streams : κ → List β}
    (h : ∀ k, (ofKey log k).Sublist ((streams k).map f)) :
    ∃ trace : List (κ × β), trace.map (fun t => (t.1, f t.2)) = log ∧
      ∀ k, (ofKey trace k).Sublist (streams k) := by
  choose kept hkept hlog using fun k => List.sublist_map_iff.mp (h k)
  obtain ⟨trace, htrace, hmerged⟩ := exists_merge hlog
  refine ⟨trace, htrace, fun k => ?_⟩
  rw [hmerged]
  exact hkept k

end PTBridge.Transition
