import Mathlib

/-!
# The `container/heap` algorithms

The heap package sees its data only through an interface of five methods, any of which may
panic (`none`). This file has the package's loops over an arbitrary interface and what they
do for an interface that behaves lawfully.

## Architecture

- **Order**: `HeapOn f n` on the key function alone, with the two half-repaired orders
  `UpReady` and `DownReady` that the sifts carry, and what one swap does to them.
- **Algorithm**: `up`, `down`, `fix`, `push`, `pop`, as the package writes them. The loops
  carry a bound on their number of rounds, which they never reach.
- **Lawful interfaces**: `Lawful` says that `less` compares keys and `swap` exchanges them.
  `up_spec`, `down_spec`, `fix_spec` then say that no call panics, that the data changes only
  by swaps (`Swaps`), and that the result is a heap.
-/

namespace PTBridge.Container.Heap

universe u v w

/-! ## Order on key functions -/

section Order

variable {κ : Type w} [LinearOrder κ]

/-- The parent of position `k`; the root is its own parent. -/
def parent (k : Nat) : Nat := (k - 1) / 2

theorem parent_lt {k : Nat} (h : 0 < k) : parent k < k := by
  unfold parent
  omega

theorem parent_eq_iff {k i : Nat} (h : 0 < k) : parent k = i ↔ k = 2 * i + 1 ∨ k = 2 * i + 2 := by
  unfold parent
  omega

/-- The first `n` positions are in heap order. -/
def HeapOn (f : Nat → κ) (n : Nat) : Prop :=
  ∀ k, 0 < k → k < n → f (parent k) ≤ f k

/-- Only the edges that touch `i` may be out of order, and what is below `i` may move up. -/
structure Except (f : Nat → κ) (n i : Nat) : Prop where
  others : ∀ k, 0 < k → k < n → k ≠ i → parent k ≠ i → f (parent k) ≤ f k
  below : ∀ k, 0 < k → k < n → parent k = i → 0 < i → f (parent i) ≤ f k

/-- Only the edge into `j` may be out of order. -/
structure UpReady (f : Nat → κ) (n j : Nat) : Prop where
  others : ∀ k, 0 < k → k < n → k ≠ j → f (parent k) ≤ f k
  below : ∀ k, 0 < k → k < n → parent k = j → 0 < j → f (parent j) ≤ f k

/-- Only the edges out of `i` may be out of order. -/
structure DownReady (f : Nat → κ) (n i : Nat) : Prop where
  others : ∀ k, 0 < k → k < n → parent k ≠ i → f (parent k) ≤ f k
  below : ∀ k, 0 < k → k < n → parent k = i → 0 < i → f (parent i) ≤ f k

/-- The value at `i` is not above any of its children. -/
def ChildrenOk (f : Nat → κ) (n i : Nat) : Prop :=
  ∀ k, 0 < k → k < n → parent k = i → f i ≤ f k

variable {f g : Nat → κ} {n i j : Nat}

/-- The root of a heap is minimal. -/
theorem HeapOn.root_le (h : HeapOn f n) : ∀ k, k < n → f 0 ≤ f k := by
  intro k
  induction k using Nat.strongRecOn with
  | ind k ih =>
    intro hk
    by_cases hpos : 0 < k
    · have hp : parent k < k := parent_lt hpos
      calc
        f 0 ≤ f (parent k) := ih (parent k) hp (by omega)
        _ ≤ f k := h k hpos hk
    · rw [show k = 0 by omega]

/-- Heap order only looks at the positions below `n`. -/
theorem HeapOn.congr (h : HeapOn f n) (hfg : ∀ k, k < n → g k = f k) : HeapOn g n := by
  intro k hpos hk
  have hp : parent k < k := parent_lt hpos
  rw [hfg k hk, hfg (parent k) (by omega)]
  exact h k hpos hk

/-- After the root and the last place were exchanged, only the edges out of the root can be out of
order, the last place apart. -/
theorem HeapOn.swap_root {m : Nat} (h : HeapOn f n) (hn : n = m + 1)
    (hg : ∀ k, k < n → g k = f (Equiv.swap 0 m k)) :
    ∀ k, 0 < k → k < m → parent k ≠ 0 → g (parent k) ≤ g k := by
  intro k hk0 hk hpk
  have hp : parent k < k := parent_lt hk0
  have hk' : Equiv.swap 0 m k = k := Equiv.swap_apply_of_ne_of_ne (by omega) (by omega)
  have hpk' : Equiv.swap 0 m (parent k) = parent k := Equiv.swap_apply_of_ne_of_ne hpk (by omega)
  rw [hg k (by omega), hg (parent k) (by omega), hk', hpk']
  exact h k hk0 (by omega)

theorem DownReady.toExcept (h : DownReady f n i) : Except f n i :=
  ⟨fun k hpos hk _ hp => h.others k hpos hk hp, h.below⟩

theorem UpReady.done (h : UpReady f n j) (hj : 0 < j → f (parent j) ≤ f j) : HeapOn f n := by
  intro k hpos hk
  by_cases hkj : k = j
  · subst hkj
    exact hj hpos
  · exact h.others k hpos hk hkj

theorem DownReady.done (h : DownReady f n i) (hc : ChildrenOk f n i) : HeapOn f n := by
  intro k hpos hk
  by_cases hp : parent k = i
  · rw [hp]
    exact hc k hpos hk hp
  · exact h.others k hpos hk hp

theorem Except.toUpReady (h : Except f n i) (hc : ChildrenOk f n i) : UpReady f n i := by
  refine ⟨fun k hpos hk hki => ?_, h.below⟩
  by_cases hp : parent k = i
  · rw [hp]
    exact hc k hpos hk hp
  · exact h.others k hpos hk hki hp

/-- Exchanging `j` with its larger parent moves the bad edge one level up. -/
theorem UpReady.swap (h : UpReady f n j) (hpos : 0 < j) (hj : j < n)
    (hlt : f j < f (parent j)) (hg : ∀ k, k < n → g k = f (Equiv.swap (parent j) j k)) :
    UpReady g n (parent j) := by
  have hpj : parent j < j := parent_lt hpos
  have g_j : g j = f (parent j) := by rw [hg j hj, Equiv.swap_apply_right]
  have g_pj : g (parent j) = f j := by rw [hg _ (by omega), Equiv.swap_apply_left]
  have g_ne : ∀ k, k < n → k ≠ j → k ≠ parent j → g k = f k := by
    intro k hk hkj hkp
    rw [hg k hk, Equiv.swap_apply_of_ne_of_ne hkp hkj]
  -- the edges that do not end at the parent's place, then its new children
  constructor
  · intro k hk0 hk hkp
    have hpk : parent k < k := parent_lt hk0
    by_cases hkj : k = j
    · subst hkj
      rw [g_j, g_pj]
      exact le_of_lt hlt
    · rw [g_ne k hk hkj hkp]
      by_cases h1 : parent k = j
      · -- a child of `j` now hangs below the old parent of `j`
        rw [h1, g_j]
        exact h.below k hk0 hk h1 hpos
      · by_cases h2 : parent k = parent j
        · -- a sibling of `j` now hangs below the smaller value
          rw [h2, g_pj]
          exact le_trans (le_of_lt hlt) (h2 ▸ h.others k hk0 hk hkj)
        · rw [g_ne _ (by omega) h1 h2]
          exact h.others k hk0 hk hkj
  · intro k hk0 hk hpk hpp
    -- `below` for the new place: whatever hangs there now was below the old parent, and the old
    -- parent was in order with the grandparent
    have hppj : parent (parent j) < parent j := parent_lt hpp
    have hpkk : parent k < k := parent_lt hk0
    have hgp : g (parent (parent j)) = f (parent (parent j)) :=
      g_ne _ (by omega) (by omega) (by omega)
    have hup : f (parent (parent j)) ≤ f (parent j) := h.others _ hpp (by omega) (by omega)
    rw [hgp]
    by_cases hkj : k = j
    · rw [hkj, g_j]
      exact hup
    · rw [g_ne k hk hkj (by omega)]
      have hk' := h.others k hk0 hk hkj
      rw [hpk] at hk'
      exact le_trans hup hk'

/-- Exchanging `i` with its smallest child `c` moves the bad edges one level down. -/
theorem Except.swap {c : Nat} (h : Except f n i) (hc0 : 0 < c) (hc : c < n) (hpc : parent c = i)
    (hmin : ∀ k, 0 < k → k < n → parent k = i → f c ≤ f k) (hlt : f c < f i)
    (hg : ∀ k, k < n → g k = f (Equiv.swap i c k)) : DownReady g n c := by
  have hic : i < c := hpc ▸ parent_lt hc0
  have g_i : g i = f c := by rw [hg i (by omega), Equiv.swap_apply_left]
  have g_c : g c = f i := by rw [hg c hc, Equiv.swap_apply_right]
  have g_ne : ∀ k, k < n → k ≠ i → k ≠ c → g k = f k := by
    intro k hk hki hkc
    rw [hg k hk, Equiv.swap_apply_of_ne_of_ne hki hkc]
  constructor
  · intro k hk0 hk hpk
    have hpkk : parent k < k := parent_lt hk0
    -- an edge into `c`, one into `i`, one out of `i`, or one that was not touched
    by_cases hkc : k = c
    · rw [hkc, hpc, g_i, g_c]
      exact le_of_lt hlt
    · by_cases hki : k = i
      · subst hki
        rw [g_i, g_ne _ (by omega) (by omega) (by omega)]
        exact h.below c hc0 hc hpc hk0
      · rw [g_ne k hk hki hkc]
        by_cases hpi : parent k = i
        · rw [hpi, g_i]
          exact hmin k hk0 hk hpi
        · rw [g_ne _ (by omega) hpi hpk]
          exact h.others k hk0 hk hki hpi
  · intro k hk0 hk hpk _
    have hpkk : parent k < k := parent_lt hk0
    rw [hpc, g_i, g_ne k hk (by omega) (by omega)]
    have := h.others k hk0 hk (by omega) (by omega)
    rwa [hpk] at this

end Order

/-! ## The package's loops -/

section Algorithm

variable {H : Type u} {X : Type v}

/-- The five methods of `heap.Interface`; `none` is a panic of the method. -/
structure Interface (H : Type u) (X : Type v) where
  len : H → Option Nat
  less : H → Nat → Nat → Option Bool
  swap : H → Nat → Nat → Option H
  push : H → X → Option H
  pop : H → Option (H × X)

variable (I : Interface H X)

/-- The loop of `up`; the first argument bounds its rounds. -/
def upLoop : Nat → Nat → H → Option H
  | 0, _, h => some h
  | fuel + 1, j, h =>
      let i := parent j
      if i = j then some h
      else
        (I.less h j i).bind fun lt =>
          if lt then (I.swap h i j).bind fun h' => upLoop fuel i h'
          else some h

/-- `up(h, j)`: move the element at `j` up while it is below its parent. -/
def up (j : Nat) (h : H) : Option H := upLoop I (j + 1) j h

/-- The child that `down` compares with: the right one only when it exists and is smaller. -/
def smallerChild (n i : Nat) (h : H) : Option Nat :=
  let j1 := 2 * i + 1
  if j1 + 1 < n then
    (I.less h (j1 + 1) j1).map fun lt => if lt then j1 + 1 else j1
  else some j1

/-- The loop of `down`, returning the position it ends at. -/
def downLoop (n : Nat) : Nat → Nat → H → Option (Nat × H)
  | 0, i, h => some (i, h)
  | fuel + 1, i, h =>
      if n ≤ 2 * i + 1 then some (i, h)
      else
        (smallerChild I n i h).bind fun j =>
          (I.less h j i).bind fun lt =>
            if lt then (I.swap h i j).bind fun h' => downLoop n fuel j h'
            else some (i, h)

/-- `down(h, i0, n)`: move the element at `i0` down within the first `n`; the flag says
whether it moved. -/
def down (i0 n : Nat) (h : H) : Option (Bool × H) :=
  (downLoop I n (n + 1) i0 h).map fun r => (decide (i0 < r.1), r.2)

/-- `heap.Fix(h, i)`. -/
def fix (i : Nat) (h : H) : Option H :=
  (I.len h).bind fun n =>
    (down I i n h).bind fun r =>
      if r.1 then some r.2 else up I i r.2

/-- `heap.Push(h, x)`. -/
def push (x : X) (h : H) : Option H :=
  (I.push h x).bind fun h' =>
    (I.len h').bind fun n => up I (n - 1) h'

/-- `heap.Pop(h)`. -/
def pop (h : H) : Option (H × X) :=
  (I.len h).bind fun len =>
    (I.swap h 0 (len - 1)).bind fun h' =>
      (down I 0 (len - 1) h').bind fun r => I.pop r.2

/-- One swap of two positions below `n`. -/
def SwapStep (n : Nat) (h h' : H) : Prop :=
  ∃ i j, i < n ∧ j < n ∧ I.swap h i j = some h'

/-- Any number of swaps of positions below `n`. -/
def Swaps (n : Nat) : H → H → Prop := Relation.ReflTransGen (SwapStep I n)

end Algorithm

/-! ## Lawful interfaces -/

section Lawful

variable {H : Type u} {X : Type v} {κ : Type w} [LinearOrder κ]

/-- An interface whose methods do what the package expects of them, in the states of `Inv`. -/
structure Lawful (I : Interface H X) (κ : Type w) [LinearOrder κ] where
  Inv : H → Prop
  size : H → Nat
  key : H → Nat → κ
  len_eq : ∀ {h}, Inv h → I.len h = some (size h)
  less_eq : ∀ {h i j}, Inv h → i < size h → j < size h →
    I.less h i j = some (decide (key h i < key h j))
  swap_eq : ∀ {h i j}, Inv h → i < size h → j < size h →
    ∃ h', I.swap h i j = some h' ∧ Inv h' ∧ size h' = size h ∧
      ∀ k, k < size h → key h' k = key h (Equiv.swap i j k)

variable {I : Interface H X} (L : Lawful I κ)

/-- The loop of `up` ends in a heap. -/
theorem upLoop_spec (fuel : Nat) :
    ∀ (j : Nat) (h : H), j < fuel → L.Inv h → j < L.size h → UpReady (L.key h) (L.size h) j →
      ∃ h', upLoop I fuel j h = some h' ∧ L.Inv h' ∧ L.size h' = L.size h ∧
        Swaps I (L.size h) h h' ∧ HeapOn (L.key h') (L.size h') := by
  -- each round goes to a smaller position, so `j + 1` rounds are enough
  induction fuel with
  | zero =>
    intro j h hfuel
    omega
  | succ fuel ih =>
    intro j h hfuel hinv hj hready
    have stop : HeapOn (L.key h) (L.size h) → ∃ h', some h = some h' ∧ L.Inv h' ∧
        L.size h' = L.size h ∧ Swaps I (L.size h) h h' ∧ HeapOn (L.key h') (L.size h') :=
      fun hheap => ⟨h, rfl, hinv, rfl, Relation.ReflTransGen.refl, hheap⟩
    rcases Nat.eq_zero_or_pos j with rfl | hpos
    · have : upLoop I (fuel + 1) 0 h = some h := by simp [upLoop, parent]
      rw [this]
      exact stop (hready.done fun h0 => absurd h0 (lt_irrefl 0))
    · have hp : parent j < j := parent_lt hpos
      have hne : ¬ parent j = j := by omega
      have hless := L.less_eq hinv hj (show parent j < L.size h by omega)
      -- the bad edge moves up, or there is none left
      by_cases hlt : L.key h j < L.key h (parent j)
      · obtain ⟨h₁, hswap, hinv₁, hsize₁, hkey₁⟩ :=
          L.swap_eq hinv (show parent j < L.size h by omega) hj
        have hrun : upLoop I (fuel + 1) j h = upLoop I fuel (parent j) h₁ := by
          simp [upLoop, hne, hless, hlt, hswap]
        have hready₁ : UpReady (L.key h₁) (L.size h₁) (parent j) := by
          rw [hsize₁]
          exact hready.swap hpos hj hlt hkey₁
        obtain ⟨h', hrun', hinv', hsize', hswaps, hheap⟩ :=
          ih (parent j) h₁ (by omega) hinv₁ (by omega) hready₁
        refine ⟨h', hrun.trans hrun', hinv', hsize'.trans hsize₁, ?_, hheap⟩
        rw [hsize₁] at hswaps
        exact Relation.ReflTransGen.head ⟨parent j, j, by omega, hj, hswap⟩ hswaps
      · have hrun : upLoop I (fuel + 1) j h = some h := by
          simp [upLoop, hne, hless, hlt]
        rw [hrun]
        exact stop (hready.done fun _ => not_lt.mp hlt)

theorem up_spec {h : H} {j : Nat} (hinv : L.Inv h) (hj : j < L.size h)
    (hready : UpReady (L.key h) (L.size h) j) :
    ∃ h', up I j h = some h' ∧ L.Inv h' ∧ L.size h' = L.size h ∧
      Swaps I (L.size h) h h' ∧ HeapOn (L.key h') (L.size h') :=
  upLoop_spec L (j + 1) j h (Nat.lt_succ_self j) hinv hj hready

/-- `smallerChild` picks a child of `i` that no child of `i` is below. -/
theorem smallerChild_spec {h : H} {n i : Nat} (hinv : L.Inv h) (hn : n ≤ L.size h)
    (hi : 2 * i + 1 < n) :
    ∃ c, smallerChild I n i h = some c ∧ 0 < c ∧ c < n ∧ parent c = i ∧
      ∀ k, 0 < k → k < n → parent k = i → L.key h c ≤ L.key h k := by
  have child : ∀ k, 0 < k → parent k = i → k = 2 * i + 1 ∨ k = 2 * i + 2 :=
    fun k hk hp => (parent_eq_iff hk).mp hp
  -- with one child there is nothing to compare
  by_cases hright : 2 * i + 1 + 1 < n
  · have hless := L.less_eq hinv (show 2 * i + 1 + 1 < L.size h by omega)
      (show 2 * i + 1 < L.size h by omega)
    by_cases hlt : L.key h (2 * i + 1 + 1) < L.key h (2 * i + 1)
    · refine ⟨2 * i + 1 + 1, by simp [smallerChild, hright, hless, hlt], by omega, hright,
        (parent_eq_iff (by omega)).mpr (Or.inr rfl), ?_⟩
      intro k hk0 hk hpk
      rcases child k hk0 hpk with rfl | rfl
      · exact le_of_lt hlt
      · exact le_refl _
    · refine ⟨2 * i + 1, by simp [smallerChild, hright, hless, hlt], by omega, hi,
        (parent_eq_iff (by omega)).mpr (Or.inl rfl), ?_⟩
      intro k hk0 hk hpk
      rcases child k hk0 hpk with rfl | rfl
      · exact le_refl _
      · exact not_lt.mp hlt
  · refine ⟨2 * i + 1, by simp [smallerChild, hright], by omega, hi,
      (parent_eq_iff (by omega)).mpr (Or.inl rfl), ?_⟩
    intro k hk0 hk hpk
    rcases child k hk0 hpk with rfl | rfl
    · exact le_refl _
    · omega

/-- The loop of `down` either leaves everything in place, because no child of `i` is smaller,
or ends in a heap. -/
theorem downLoop_spec (n : Nat) (fuel : Nat) :
    ∀ (i : Nat) (h : H), n ≤ i + fuel → i < n → L.Inv h → n ≤ L.size h →
      Except (L.key h) n i →
      ∃ i' h', downLoop I n fuel i h = some (i', h') ∧ L.Inv h' ∧ L.size h' = L.size h ∧
        Swaps I n h h' ∧
        ((i' = i ∧ h' = h ∧ ChildrenOk (L.key h) n i) ∨ (i < i' ∧ HeapOn (L.key h') n)) := by
  -- a round that goes on moves to a larger position below `n`
  induction fuel with
  | zero =>
    intro i h hfuel hi
    omega
  | succ fuel ih =>
    intro i h hfuel hi hinv hn hexc
    -- a leaf has no children to be out of order with
    by_cases hleaf : n ≤ 2 * i + 1
    · refine ⟨i, h, by simp [downLoop, hleaf], hinv, rfl, Relation.ReflTransGen.refl,
        Or.inl ⟨rfl, rfl, ?_⟩⟩
      intro k hk0 hk hpk
      have := (parent_eq_iff hk0).mp hpk
      omega
    · obtain ⟨c, hchild, hc0, hc, hpc, hmin⟩ := smallerChild_spec L hinv hn (not_le.mp hleaf)
      have hic : i < c := hpc ▸ parent_lt hc0
      have hless := L.less_eq hinv (show c < L.size h by omega) (show i < L.size h by omega)
      by_cases hlt : L.key h c < L.key h i
      · obtain ⟨h₁, hswap, hinv₁, hsize₁, hkey₁⟩ :=
          L.swap_eq hinv (show i < L.size h by omega) (show c < L.size h by omega)
        have hrun : downLoop I n (fuel + 1) i h = downLoop I n fuel c h₁ := by
          simp [downLoop, hleaf, hchild, hless, hlt, hswap]
        have hready : DownReady (L.key h₁) n c :=
          hexc.swap hc0 hc hpc hmin hlt fun k hk => hkey₁ k (by omega)
        obtain ⟨i', h', hrun', hinv', hsize', hswaps, hend⟩ :=
          ih c h₁ (by omega) hc hinv₁ (by omega) hready.toExcept
        refine ⟨i', h', hrun.trans hrun', hinv', hsize'.trans hsize₁,
          Relation.ReflTransGen.head ⟨i, c, hi, hc, hswap⟩ hswaps, Or.inr ?_⟩
        -- the loop below moved on, or it stopped at `c` at once
        rcases hend with ⟨rfl, rfl, hok⟩ | ⟨hci, hheap⟩
        · exact ⟨hic, hready.done hok⟩
        · exact ⟨by omega, hheap⟩
      · refine ⟨i, h, by simp [downLoop, hleaf, hchild, hless, hlt], hinv, rfl,
          Relation.ReflTransGen.refl, Or.inl ⟨rfl, rfl, ?_⟩⟩
        intro k hk0 hk hpk
        exact le_trans (not_lt.mp hlt) (hmin k hk0 hk hpk)

theorem down_spec {h : H} {n i : Nat} (hinv : L.Inv h) (hn : n ≤ L.size h) (hi : i < n)
    (hexc : Except (L.key h) n i) :
    ∃ moved h', down I i n h = some (moved, h') ∧ L.Inv h' ∧ L.size h' = L.size h ∧
      Swaps I n h h' ∧
      ((moved = false ∧ h' = h ∧ ChildrenOk (L.key h) n i) ∨
        (moved = true ∧ HeapOn (L.key h') n)) := by
  obtain ⟨i', h', hrun, hinv', hsize', hswaps, hend⟩ :=
    downLoop_spec L n (n + 1) i h (by omega) hi hinv hn hexc
  refine ⟨decide (i < i'), h', by simp [down, hrun], hinv', hsize', hswaps, ?_⟩
  rcases hend with ⟨rfl, rfl, hok⟩ | ⟨hii', hheap⟩
  · exact Or.inl ⟨by simp, rfl, hok⟩
  · exact Or.inr ⟨by simp [hii'], hheap⟩

/-- `heap.Fix` restores the order after the value at `i` was changed in place. -/
theorem fix_spec {h : H} {i : Nat} (hinv : L.Inv h) (hi : i < L.size h)
    (hexc : Except (L.key h) (L.size h) i) :
    ∃ h', fix I i h = some h' ∧ L.Inv h' ∧ L.size h' = L.size h ∧
      Swaps I (L.size h) h h' ∧ HeapOn (L.key h') (L.size h') := by
  obtain ⟨moved, h₁, hdown, hinv₁, hsize₁, hswaps₁, hend⟩ :=
    down_spec L hinv (le_refl _) hi hexc
  -- `Fix` calls `up` only if `down` did not move anything
  rcases hend with ⟨rfl, rfl, hok⟩ | ⟨rfl, hheap⟩
  · obtain ⟨h', hup, rest⟩ := up_spec L hinv hi (hexc.toUpReady hok)
    exact ⟨h', by simp [fix, L.len_eq hinv, hdown, hup], rest⟩
  · refine ⟨h₁, by simp [fix, L.len_eq hinv, hdown], hinv₁, hsize₁, hswaps₁, ?_⟩
    rw [hsize₁]
    exact hheap

/-- After the root was exchanged with the last element, `down` makes a heap of the others. -/
theorem down_root_spec {h : H} {n : Nat} (hinv : L.Inv h) (hn : n ≤ L.size h)
    (hothers : ∀ k, 0 < k → k < n → parent k ≠ 0 → L.key h (parent k) ≤ L.key h k) :
    ∃ moved h', down I 0 n h = some (moved, h') ∧ L.Inv h' ∧ L.size h' = L.size h ∧
      Swaps I n h h' ∧ HeapOn (L.key h') n := by
  -- nothing is left after the last `Pop`
  rcases Nat.eq_zero_or_pos n with rfl | hpos
  · refine ⟨false, h, by simp [down, downLoop], hinv, rfl, Relation.ReflTransGen.refl, ?_⟩
    intro k _ hk
    omega
  · have hready : DownReady (L.key h) n 0 :=
      ⟨hothers, fun k _ _ _ h0 => absurd h0 (lt_irrefl 0)⟩
    obtain ⟨moved, h', hdown, hinv', hsize', hswaps, hend⟩ :=
      down_spec L hinv hn hpos hready.toExcept
    refine ⟨moved, h', hdown, hinv', hsize', hswaps, ?_⟩
    rcases hend with ⟨_, rfl, hok⟩ | ⟨_, hheap⟩
    · exact hready.done hok
    · exact hheap

end Lawful

end PTBridge.Container.Heap
