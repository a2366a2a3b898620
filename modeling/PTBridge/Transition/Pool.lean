import Mathlib.Algebra.GroupWithZero.Nat
import Mathlib.Data.List.Basic

/-!
# Pools of threads

Threads and the objects they share live in lists that only grow: an entry is addressed by its
index for good, a step replaces one entry (`List.set`) or appends one. The lemmas read an entry
back after such a step, and count the entries in a given condition. `entries` reads a list of
indices off the pool.
-/

namespace PTBridge.Transition

universe u

variable {α : Type u} {pool : List α} {i j : Nat} {x y : α}

/-- After replacing entry `i`, entry `j` is the new value or the old entry `j`. -/
theorem pool_set_some (h : (pool.set i x)[j]? = some y) :
    (j = i ∧ y = x) ∨ (j ≠ i ∧ pool[j]? = some y) := by
  rw [List.getElem?_set] at h
  by_cases hij : i = j
  · rw [if_pos hij] at h
    split at h
    · exact Or.inl ⟨hij.symm, (Option.some.inj h).symm⟩
    · cases h
  · rw [if_neg hij] at h
    exact Or.inr ⟨fun hji => hij hji.symm, h⟩

theorem pool_set_self (h : pool[i]? = some y) : (pool.set i x)[i]? = some x := by
  obtain ⟨hlt, -⟩ := List.getElem?_eq_some_iff.mp h
  rw [List.getElem?_set_self hlt]

theorem pool_set_same (h : pool[i]? = some x) : pool.set i x = pool := by
  obtain ⟨hlt, rfl⟩ := List.getElem?_eq_some_iff.mp h
  exact List.set_getElem_self hlt

/-- After appending `x`, an entry is an old one or the new one. -/
theorem pool_snoc_some (h : (pool ++ [x])[j]? = some y) :
    pool[j]? = some y ∨ (j = pool.length ∧ y = x) := by
  rw [List.getElem?_append] at h
  split at h
  · exact Or.inl h
  · obtain ⟨hj, hy⟩ := List.getElem?_eq_some_iff.mp h
    rw [List.length_singleton] at hj
    refine Or.inr ⟨by omega, ?_⟩
    have hz : j - pool.length = 0 := by omega
    simpa [hz] using hy.symm

theorem pool_snoc_old (h : pool[j]? = some y) : (pool ++ [x])[j]? = some y := by
  obtain ⟨hlt, -⟩ := List.getElem?_eq_some_iff.mp h
  rw [List.getElem?_append_left hlt, h]

theorem pool_snoc_new : (pool ++ [x])[pool.length]? = some x := List.getElem?_concat_length

/-- A list that only grew still has its entries where they were. -/
theorem pool_grown {pool' : List α} (hgrown : pool <+: pool') (h : pool[j]? = some y) :
    pool'[j]? = some y := by
  obtain ⟨rest, rfl⟩ := hgrown
  obtain ⟨hlt, -⟩ := List.getElem?_eq_some_iff.mp h
  rw [List.getElem?_append_left hlt, h]

/-- An entry of a list without duplicates is not behind itself. -/
theorem pool_nodup_drop (hnodup : pool.Nodup) (h : pool[i]? = some x) :
    x ∉ pool.drop (i + 1) := by
  obtain ⟨hlt, hx⟩ := List.getElem?_eq_some_iff.mp h
  have hdrop : (pool.drop i).Nodup := hnodup.sublist (List.drop_sublist i pool)
  rw [List.drop_eq_getElem_cons hlt, hx] at hdrop
  exact (List.nodup_cons.mp hdrop).1

/-- The one entry that is not empty. -/
theorem pool_flatten_set {pool : List (List α)} {x y : List α} (h : pool[i]? = some y)
    (hnil : pool.flatten = []) : (pool.set i x).flatten = x := by
  obtain ⟨hlt, -⟩ := List.getElem?_eq_some_iff.mp h
  have hall := List.flatten_eq_nil_iff.mp hnil
  have htake : (pool.take i).flatten = [] :=
    List.flatten_eq_nil_iff.mpr fun l hl => hall l (List.mem_of_mem_take hl)
  have hdrop : (pool.drop (i + 1)).flatten = [] :=
    List.flatten_eq_nil_iff.mpr fun l hl => hall l (List.mem_of_mem_drop hl)
  rw [List.set_eq_take_append_cons_drop, if_pos hlt, List.flatten_append, List.flatten_cons, htake,
    hdrop, List.nil_append, List.append_nil]

/-- In a log with one entry for each key, a filter for a key finds its entry. -/
theorem pool_filter_key {κ : Type u} {log : List (κ × α)} {p : κ × α → Bool} {k : κ}
    (hnodup : (log.map Prod.fst).Nodup) (hmem : (k, x) ∈ log) (hp : ∀ e ∈ log, p e = true ↔ e.1 = k) :
    log.filter p = [(k, x)] := by
  induction log with
  | nil => cases hmem
  | cons e log ih =>
    obtain ⟨hnew, hrest⟩ := List.nodup_cons.mp hnodup
    rcases List.mem_cons.mp hmem with rfl | hold
    · -- the entries behind it have other keys
      have hnone : log.filter p = [] := by
        refine List.filter_eq_nil_iff.mpr fun e he hpe => hnew ?_
        exact List.mem_map.mpr ⟨e, he, (hp e (List.mem_cons_of_mem _ he)).mp hpe⟩
      rw [List.filter_cons_of_pos ((hp _ List.mem_cons_self).mpr rfl), hnone]
    · have hother : ¬ p e = true := by
        intro hpe
        have hkey := (hp e List.mem_cons_self).mp hpe
        exact hnew (List.mem_map.mpr ⟨_, hold, hkey.symm⟩)
      rw [List.filter_cons_of_neg hother]
      exact ih hrest hold fun e he => hp e (List.mem_cons_of_mem _ he)

/-- Replacing one entry trades its contribution to a count for the new one's. -/
theorem pool_countP_set {p : α → Bool} (h : pool[i]? = some y) :
    (pool.set i x).countP p + (p y).toNat = pool.countP p + (p x).toNat := by
  obtain ⟨hlt, hy⟩ := List.getElem?_eq_some_iff.mp h
  have hset := List.countP_set (p := p) (a := x) hlt
  rw [hy] at hset
  -- an entry that counts keeps the subtraction in `countP_set` exact
  have hpos : p y = true → 0 < pool.countP p := fun hp =>
    List.countP_pos_iff.mpr ⟨y, hy ▸ List.getElem_mem hlt, hp⟩
  cases hpy : p y with
  | false => cases hpx : p x <;> simp_all
  | true =>
    have := hpos hpy
    cases hpx : p x <;> simp_all

/-- Replacing one entry trades its share of a sum for the new one's. -/
theorem pool_sum_set {f : α → Nat} (h : pool[i]? = some y) :
    ((pool.set i x).map f).sum + f y = (pool.map f).sum + f x := by
  induction pool generalizing i with
  | nil => simp at h
  | cons z pool ih =>
    cases i with
    | zero =>
      obtain rfl : z = y := by simpa using h
      simp only [List.set_cons_zero, List.map_cons, List.sum_cons]
      omega
    | succ i =>
      have hrest := ih (i := i) (by simpa using h)
      simp only [List.set_cons_succ, List.map_cons, List.sum_cons]
      omega

/-- The entries at the indices `is`. -/
def entries (pool : List α) (is : List Nat) : List α := is.filterMap (pool[·]?)

@[simp] theorem entries_append (pool : List α) (is js : List Nat) :
    entries pool (is ++ js) = entries pool is ++ entries pool js := List.filterMap_append

theorem entries_single (h : pool[i]? = some x) : entries pool [i] = [x] := by
  simp [entries, h]

/-- Replacing an entry does not show where its index is not listed. -/
theorem entries_set_other {is : List Nat} (h : i ∉ is) :
    entries (pool.set i x) is = entries pool is := by
  refine List.filterMap_congr fun j hj => ?_
  rw [List.getElem?_set_ne]
  rintro rfl
  exact h hj

theorem entries_snoc {is : List Nat} (h : ∀ j ∈ is, j < pool.length) :
    entries (pool ++ [x]) is = entries pool is :=
  List.filterMap_congr fun j hj => List.getElem?_append_left (h j hj)

/-- The first `n` indices are those of the first `n` entries. -/
theorem entries_range {n : Nat} (h : n ≤ pool.length) :
    entries pool (List.range n) = pool.take n := by
  induction n with
  | zero => rfl
  | succ n ih =>
    obtain ⟨y, hy⟩ : ∃ y, pool[n]? = some y := ⟨_, List.getElem?_eq_getElem h⟩
    rw [List.range_succ, entries_append, ih (Nat.le_of_succ_le h), entries_single hy,
      List.take_add_one, hy]
    rfl

end PTBridge.Transition
