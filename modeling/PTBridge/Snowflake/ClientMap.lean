import PTBridge.Container.Heap
import PTBridge.Transition.Pool

/-!
# `turbotunnel/clientmap.go`: the expiring client map

`clientMapInner` keeps its records in a slice ordered as a heap by `LastSeen`, and a second
map from addresses to slice indices. This file has the type, its `heap.Interface`, the two
operations `sendQueue` and `removeExpired`, and what they do.

## Architecture

- **Code**: `ClientMapInner` and its methods, with every panic and index as `none`.
- **Representation**: `Indexed` says that `byAddr` is the inverse of `byAge`; it makes the
  interface lawful (`lawful`), so the heap library applies. `Good` adds the heap order, and
  `Consistent` is the same position by position (`clientMap_consistent`).
- **Reference**: `ExpiringMap`, a plain map from addresses to a time and a queue.
- **Refinement**: `Refines` relates the two; `sendQueue_refines` and `removeExpired_refines`
  are the two simulation steps and `run_refines` the whole run.
-/

namespace PTBridge.Snowflake

open PTBridge.Container PTBridge.Transition

universe u

/-! ## Time -/

/-- `time.Time`, in nanoseconds. -/
abbrev Time := Int

/-- `math.MinInt64` nanoseconds, the least `time.Duration`. -/
def minDuration : Int := -2 ^ 63

/-- `math.MaxInt64` nanoseconds, the greatest `time.Duration`. -/
def maxDuration : Int := 2 ^ 63 - 1

/-- `t.Sub(u)`: the difference, saturated to the range of `time.Duration`. -/
def Time.sub (t u : Time) : Int := max minDuration (min maxDuration (t - u))

/-- An earlier time is not closer. -/
theorem Time.sub_le_sub {t u v : Time} (h : u ≤ v) : Time.sub t v ≤ Time.sub t u := by
  have hsub : t - v ≤ t - u := Int.sub_le_sub_left h t
  exact max_le_max (le_refl _) (min_le_min (le_refl _) hsub)

/-! ## The code -/

/-- `clientRecord`. A channel is named by the order in which `make` created it. -/
structure ClientRecord (Addr : Type u) where
  addr : Addr
  lastSeen : Time
  sendQueue : Nat
  deriving DecidableEq

/-- `clientMapInner`, with the name of the next channel that `make` will create. -/
structure ClientMapInner (Addr : Type u) where
  byAge : List (ClientRecord Addr)
  byAddr : AList (fun _ : Addr => Nat)
  nextQueue : Nat

namespace ClientMapInner

variable {Addr : Type u}

/-- The map `NewClientMap` starts with. -/
def empty : ClientMapInner Addr := ⟨[], ∅, 0⟩

/-- `Len`; the two sizes must agree, or it panics. -/
def len (m : ClientMapInner Addr) : Option Nat :=
  if m.byAge.length = m.byAddr.entries.length then some m.byAge.length else none

/-- `Less`. -/
def less (m : ClientMapInner Addr) (i j : Nat) : Option Bool :=
  m.byAge[i]?.bind fun x => m.byAge[j]?.map fun y => decide (x.lastSeen < y.lastSeen)

/-- The key `Less` compares at a position. -/
def age (m : ClientMapInner Addr) (i : Nat) : Time := (m.byAge[i]?.map ClientRecord.lastSeen).getD 0

theorem age_eq {m : ClientMapInner Addr} {i : Nat} {r : ClientRecord Addr}
    (h : m.byAge[i]? = some r) : m.age i = r.lastSeen := by
  simp [age, h]

theorem less_eq {m : ClientMapInner Addr} {i j : Nat} (hi : i < m.byAge.length)
    (hj : j < m.byAge.length) : m.less i j = some (decide (m.age i < m.age j)) := by
  simp [less, age, List.getElem?_eq_getElem hi, List.getElem?_eq_getElem hj]

variable [DecidableEq Addr]

/-- `Swap`. -/
def swap (m : ClientMapInner Addr) (i j : Nat) : Option (ClientMapInner Addr) :=
  m.byAge[i]?.bind fun x => m.byAge[j]?.map fun y =>
    { m with
      byAge := (m.byAge.set i y).set j x
      byAddr := (m.byAddr.insert y.addr i).insert x.addr j }

/-- `Push`; a record with the address already present panics. -/
def push (m : ClientMapInner Addr) (record : ClientRecord Addr) : Option (ClientMapInner Addr) :=
  match m.byAddr.lookup record.addr with
  | some _ => none
  | none =>
      some { m with
        byAddr := m.byAddr.insert record.addr m.byAge.length
        byAge := m.byAge ++ [record] }

/-- `Pop`; the length is that of `byAddr`. -/
def pop (m : ClientMapInner Addr) : Option (ClientMapInner Addr × ClientRecord Addr) :=
  match m.byAddr.entries.length with
  | 0 => none
  | n + 1 =>
      m.byAge[n]?.map fun record =>
        ({ m with byAge := m.byAge.take n, byAddr := m.byAddr.erase record.addr }, record)

/-- `heap.Interface` of `clientMapInner`. -/
def iface : Heap.Interface (ClientMapInner Addr) (ClientRecord Addr) := ⟨len, less, swap, push, pop⟩

/-- The record is older than the timeout. -/
def Expired (now : Time) (timeout : Int) (r : ClientRecord Addr) : Prop :=
  timeout ≤ Time.sub now r.lastSeen

instance (now : Time) (timeout : Int) (r : ClientRecord Addr) : Decidable (Expired now timeout r) :=
  inferInstanceAs (Decidable (_ ≤ _))

/-- The loop of `removeExpired`; the first argument bounds its rounds. -/
def removeExpiredLoop (now : Time) (timeout : Int) :
    Nat → ClientMapInner Addr → Option (ClientMapInner Addr)
  | 0, m => some m
  | fuel + 1, m =>
      match m.byAge with
      | [] => some m
      | r :: _ =>
          if Expired now timeout r then
            (Heap.pop iface m).bind fun p => removeExpiredLoop now timeout fuel p.1
          else some m

/-- `removeExpired`. Every round removes one record, so there are at most `len(byAge)`. -/
def removeExpired (now : Time) (timeout : Int) (m : ClientMapInner Addr) :
    Option (ClientMapInner Addr) :=
  removeExpiredLoop now timeout m.byAge.length m

/-- `SendQueue`, with the channel it returns. -/
def sendQueue (addr : Addr) (now : Time) (m : ClientMapInner Addr) :
    Option (ClientMapInner Addr × Nat) :=
  match m.byAddr.lookup addr with
  | some i =>
      m.byAge[i]?.bind fun record =>
        (Heap.fix iface i { m with byAge := m.byAge.set i { record with lastSeen := now } }).map
          fun m' => (m', record.sendQueue)
  | none =>
      let record : ClientRecord Addr := ⟨addr, now, m.nextQueue⟩
      (Heap.push iface record { m with nextQueue := m.nextQueue + 1 }).map
        fun m' => (m', record.sendQueue)

/-! ## Representation -/

/-- `byAddr` holds exactly the index of each record of `byAge`. -/
def Indexed (m : ClientMapInner Addr) : Prop :=
  ∀ a i, m.byAddr.lookup a = some i ↔ m.byAge[i]?.map ClientRecord.addr = some a

theorem Indexed.addr_injective {m : ClientMapInner Addr} (h : Indexed m) {i j : Nat} {a : Addr}
    (hi : m.byAge[i]?.map ClientRecord.addr = some a)
    (hj : m.byAge[j]?.map ClientRecord.addr = some a) : i = j := by
  have hl := (h a i).mpr hi
  rw [(h a j).mpr hj] at hl
  exact (Option.some.inj hl).symm

theorem Indexed.nodup {m : ClientMapInner Addr} (h : Indexed m) :
    (m.byAge.map ClientRecord.addr).Nodup := by
  rw [List.nodup_iff_getElem?_ne_getElem?]
  intro i j hij hj heq
  have hsome := List.getElem?_eq_getElem hj
  rw [hsome] at heq
  rw [List.getElem?_map] at heq hsome
  have := h.addr_injective heq hsome
  omega

/-- The two sizes agree. -/
theorem Indexed.length_eq {m : ClientMapInner Addr} (h : Indexed m) :
    m.byAge.length = m.byAddr.entries.length := by
  -- both lists hold each address once, and they hold the same addresses
  have hmem : ∀ a, a ∈ m.byAge.map ClientRecord.addr ↔ a ∈ m.byAddr.keys := by
    intro a
    rw [← AList.mem_keys, ← AList.lookup_isSome, Option.isSome_iff_exists]
    simp only [h a, ← List.getElem?_map]
    rw [List.mem_iff_getElem?]
  have hperm : (m.byAge.map ClientRecord.addr).Perm m.byAddr.keys :=
    (List.perm_ext_iff_of_nodup h.nodup m.byAddr.keys_nodup).mpr hmem
  have := hperm.length_eq
  simpa [AList.keys, List.keys] using this

theorem len_eq {m : ClientMapInner Addr} (h : Indexed m) : m.len = some m.byAge.length := by
  simp [len, h.length_eq]

/-- What a swap leaves at each position of the slice. -/
theorem getElem?_swapped {α : Type u} {l : List α} {i j : Nat} {x y : α} (hi : l[i]? = some x)
    (hj : l[j]? = some y) (k : Nat) :
    ((l.set i y).set j x)[k]? = l[Equiv.swap i j k]? := by
  obtain ⟨hil, -⟩ := List.getElem?_eq_some_iff.mp hi
  obtain ⟨hjl, -⟩ := List.getElem?_eq_some_iff.mp hj
  by_cases hkj : j = k
  · subst hkj
    rw [List.getElem?_set_self (by simpa using hjl), Equiv.swap_apply_right, hi]
  · rw [List.getElem?_set_ne hkj]
    by_cases hki : i = k
    · subst hki
      rw [List.getElem?_set_self hil, Equiv.swap_apply_left, hj]
    · rw [List.getElem?_set_ne hki,
        Equiv.swap_apply_of_ne_of_ne (Ne.symm hki) (Ne.symm hkj)]

theorem swap_eq_some {m m' : ClientMapInner Addr} {i j : Nat} (h : m.swap i j = some m') :
    ∃ x y, m.byAge[i]? = some x ∧ m.byAge[j]? = some y ∧
      m' = { m with
        byAge := (m.byAge.set i y).set j x
        byAddr := (m.byAddr.insert y.addr i).insert x.addr j } := by
  simp only [swap, Option.bind_eq_some_iff, Option.map_eq_some_iff] at h
  obtain ⟨x, hx, y, hy, rfl⟩ := h
  exact ⟨x, y, hx, hy, rfl⟩

theorem swap_byAge {m m' : ClientMapInner Addr} {i j : Nat} (h : m.swap i j = some m') (k : Nat) :
    m'.byAge[k]? = m.byAge[Equiv.swap i j k]? := by
  obtain ⟨x, y, hx, hy, rfl⟩ := swap_eq_some h
  exact getElem?_swapped hx hy k

theorem Indexed.swap {m m' : ClientMapInner Addr} {i j : Nat} (hm : Indexed m)
    (h : m.swap i j = some m') : Indexed m' := by
  intro a k
  rw [swap_byAge h k, ← hm a (Equiv.swap i j k)]
  obtain ⟨x, y, hx, hy, rfl⟩ := swap_eq_some h
  have lx : m.byAddr.lookup x.addr = some i := (hm _ _).mpr (by rw [hx]; rfl)
  have ly : m.byAddr.lookup y.addr = some j := (hm _ _).mpr (by rw [hy]; rfl)
  -- the two addresses that move, then all others
  by_cases hax : a = x.addr
  · subst hax
    rw [AList.lookup_insert, lx, Option.some.injEq, Option.some.injEq]
    rw [eq_comm (b := Equiv.swap i j k), Equiv.swap_apply_eq_iff, Equiv.swap_apply_left, eq_comm]
  · rw [AList.lookup_insert_ne hax]
    by_cases hay : a = y.addr
    · subst hay
      rw [AList.lookup_insert, ly, Option.some.injEq, Option.some.injEq]
      rw [eq_comm (b := Equiv.swap i j k), Equiv.swap_apply_eq_iff, Equiv.swap_apply_right, eq_comm]
    · rw [AList.lookup_insert_ne hay]
      -- any other address sits at neither of the two positions, so the swap fixes its index
      have off : ∀ k', m.byAddr.lookup a = some k' → Equiv.swap i j k' = k' := by
        intro k' hk'
        refine Equiv.swap_apply_of_ne_of_ne ?_ ?_
        · rintro rfl
          have hk := (hm _ _).mp hk'
          rw [hx] at hk
          exact hax (Option.some.inj hk).symm
        · rintro rfl
          have hk := (hm _ _).mp hk'
          rw [hy] at hk
          exact hay (Option.some.inj hk).symm
      constructor
      · intro hk
        rw [off k hk, hk]
      · intro hk
        have := off _ hk
        rw [Equiv.swap_apply_self] at this
        rw [hk, ← this]

/-- The interface is lawful on indexed maps. -/
def lawful :
    Heap.Lawful (iface : Heap.Interface (ClientMapInner Addr) (ClientRecord Addr)) Time where
  Inv := Indexed
  size m := m.byAge.length
  key := age
  len_eq h := len_eq h
  less_eq _ hi hj := less_eq hi hj
  swap_eq {m i j} hm hi hj := by
    obtain ⟨m', hs⟩ : ∃ m', m.swap i j = some m' := by
      simp [swap, List.getElem?_eq_getElem hi, List.getElem?_eq_getElem hj]
    refine ⟨m', hs, hm.swap hs, ?_, fun k _ => by rw [age, swap_byAge hs k, age]⟩
    obtain ⟨x, y, -, -, rfl⟩ := swap_eq_some hs
    simp

/-- Swapping below `n` permutes the records, leaves the later positions alone and makes no
channel. -/
theorem swaps_byAge {n : Nat} {m m' : ClientMapInner Addr} (h : Heap.Swaps iface n m m') :
    m'.byAge.Perm m.byAge ∧ (∀ k, n ≤ k → m'.byAge[k]? = m.byAge[k]?) ∧
      m'.nextQueue = m.nextQueue := by
  -- a swap exchanges two records below `n` and touches nothing else
  induction h with
  | refl => exact ⟨List.Perm.refl _, fun _ _ => rfl, rfl⟩
  | tail _ hstep ih =>
    obtain ⟨i, j, hi, hj, hswap⟩ := hstep
    obtain ⟨hperm, hframe, hqueue⟩ := ih
    refine ⟨?_, fun k hk => ?_, ?_⟩
    · obtain ⟨x, y, hx, hy, rfl⟩ := swap_eq_some hswap
      obtain ⟨hil, rfl⟩ := List.getElem?_eq_some_iff.mp hx
      obtain ⟨hjl, rfl⟩ := List.getElem?_eq_some_iff.mp hy
      exact (List.set_set_perm hil hjl).trans hperm
    · rw [swap_byAge hswap k, Equiv.swap_apply_of_ne_of_ne (by omega) (by omega)]
      exact hframe k hk
    · obtain ⟨x, y, -, -, rfl⟩ := swap_eq_some hswap
      exact hqueue

/-! ## What the operations do -/

/-- The representation invariant: `byAddr` is the inverse of `byAge`, and `byAge` is a heap. -/
structure Good (m : ClientMapInner Addr) : Prop where
  indexed : Indexed m
  heap : Heap.HeapOn m.age m.byAge.length

theorem good_empty : Good (empty : ClientMapInner Addr) :=
  ⟨fun a i => by simp [empty], fun k _ hk => by simp [empty] at hk⟩

/-- The record at the root is the oldest one. -/
theorem Good.oldest {m : ClientMapInner Addr} {r : ClientRecord Addr}
    {rest : List (ClientRecord Addr)} (h : Good m) (hr : m.byAge = r :: rest)
    {x : ClientRecord Addr} (hx : x ∈ m.byAge) : r.lastSeen ≤ x.lastSeen := by
  obtain ⟨k, hk⟩ := List.mem_iff_getElem?.mp hx
  have hkl : k < m.byAge.length := (List.getElem?_eq_some_iff.mp hk).1
  have := h.heap.root_le k hkl
  rwa [age_eq hk, age_eq (show m.byAge[0]? = some r by rw [hr]; rfl)] at this

/-- The two containers fit together, position by position. -/
structure Consistent (m : ClientMapInner Addr) : Prop where
  /-- no record is older than the one above it -/
  heap : ∀ (i j : Nat) (above below : ClientRecord Addr), j = 2 * i + 1 ∨ j = 2 * i + 2 →
    m.byAge[i]? = some above → m.byAge[j]? = some below → above.lastSeen ≤ below.lastSeen
  /-- `byAddr[byAge[i].Addr] = i` -/
  index : ∀ (i : Nat) (r : ClientRecord Addr), m.byAge[i]? = some r →
    m.byAddr.lookup r.addr = some i
  /-- every entry of `byAddr` is the index of a record with the address -/
  entry : ∀ (a : Addr) (i : Nat), m.byAddr.lookup a = some i →
    ∃ r, m.byAge[i]? = some r ∧ r.addr = a
  /-- one entry for each record -/
  size : m.byAddr.entries.length = m.byAge.length

theorem Good.consistent {m : ClientMapInner Addr} (h : Good m) : Consistent m where
  heap i j above below hchild hi hj := by
    have hpos : 0 < j := by omega
    have hlt : j < m.byAge.length := (List.getElem?_eq_some_iff.mp hj).1
    have hle := h.heap j hpos hlt
    rwa [(Heap.parent_eq_iff hpos).mpr hchild, age_eq hi, age_eq hj] at hle
  index i r hr := by
    apply (h.indexed r.addr i).mpr
    rw [hr]
    rfl
  entry a i hi := Option.map_eq_some_iff.mp ((h.indexed a i).mp hi)
  size := h.indexed.length_eq.symm

/-- `pop` of the interface, on an indexed map: the last record goes. -/
theorem pop_last {m : ClientMapInner Addr} {n : Nat} {r : ClientRecord Addr} (h : Indexed m)
    (hlen : m.byAge.length = n + 1) (hr : m.byAge[n]? = some r) :
    ∃ m', m.pop = some (m', r) ∧ Indexed m' ∧ m'.byAge = m.byAge.take n ∧
      m'.nextQueue = m.nextQueue := by
  refine ⟨{ m with byAge := m.byAge.take n, byAddr := m.byAddr.erase r.addr }, ?_, ?_, rfl, rfl⟩
  · have hentries : m.byAddr.entries.length = n + 1 := by rw [← h.length_eq, hlen]
    simp [pop, hentries, hr]
  · intro a i
    show (m.byAddr.erase r.addr).lookup a = some i ↔ _
    simp only [List.getElem?_take]
    -- the address that goes, then the others
    by_cases ha : a = r.addr
    · subst ha
      rw [AList.lookup_erase]
      refine ⟨fun hn => (by cases hn), fun hi => ?_⟩
      split at hi
      · have := h.addr_injective hi (show m.byAge[n]?.map ClientRecord.addr = _ by rw [hr]; rfl)
        omega
      · cases hi
    · rw [AList.lookup_erase_ne ha, h a i]
      split
      · exact Iff.rfl
      · rename_i hin
        refine ⟨fun hi => ?_, fun hi => by cases hi⟩
        have hil : i < m.byAge.length := by
          by_contra hc
          rw [List.getElem?_eq_none (by omega)] at hi
          cases hi
        rw [show i = n by omega, hr] at hi
        exact absurd (Option.some.inj hi).symm ha

/-- `heap.Pop` removes the record at the root and keeps the invariant. -/
theorem heapPop_spec {m : ClientMapInner Addr} {r : ClientRecord Addr}
    {rest : List (ClientRecord Addr)} (h : Good m) (hr : m.byAge = r :: rest) :
    ∃ m', Heap.pop iface m = some (m', r) ∧ Good m' ∧ (r :: m'.byAge).Perm m.byAge ∧
      m'.nextQueue = m.nextQueue := by
  have hlen : m.byAge.length = rest.length + 1 := by rw [hr]; rfl
  -- `Pop` exchanges the root with the last record, restores the order of the rest, and cuts
  obtain ⟨m₁, hswap, hinv₁, hsize₁, hage₁⟩ :=
    lawful.swap_eq h.indexed (show 0 < m.byAge.length by omega)
      (show rest.length < m.byAge.length by omega)
  have hothers := h.heap.swap_root (show m.byAge.length = rest.length + 1 by omega) hage₁
  obtain ⟨moved, m₂, hdown, hinv₂, hsize₂, hswaps₂, hheap₂⟩ :=
    Heap.down_root_spec lawful hinv₁ (show rest.length ≤ m₁.byAge.length by
      have : m₁.byAge.length = m.byAge.length := hsize₁
      omega) hothers
  have hlen₂ : m₂.byAge.length = rest.length + 1 := by
    have h₂ : m₂.byAge.length = m₁.byAge.length := hsize₂
    have h₁ : m₁.byAge.length = m.byAge.length := hsize₁
    omega
  have hstep : Heap.Swaps iface (rest.length + 1) m m₁ :=
    Relation.ReflTransGen.single ⟨0, rest.length, by omega, by omega, hswap⟩
  obtain ⟨hperm₁, -, hqueue₁⟩ := swaps_byAge hstep
  obtain ⟨hperm₂, hframe₂, hqueue₂⟩ := swaps_byAge hswaps₂
  -- the old root is now in the last place, where `down` leaves it
  have hlast : m₂.byAge[rest.length]? = some r := by
    rw [hframe₂ _ (le_refl _), swap_byAge hswap, Equiv.swap_apply_right, hr]
    rfl
  obtain ⟨m', hpop, hinv', hbyAge', hqueue'⟩ := pop_last hinv₂ hlen₂ hlast
  refine ⟨m', ?_, ⟨hinv', ?_⟩, ?_, ?_⟩
  · have hlen' : iface.len m = some m.byAge.length := len_eq h.indexed
    have hpop' : iface.pop m₂ = some (m', r) := hpop
    simp [Heap.pop, hlen', hlen, hswap, hdown, hpop']
  · have hn : m'.byAge.length = rest.length := by
      rw [hbyAge', List.length_take, hlen₂]
      omega
    rw [hn]
    refine hheap₂.congr fun k hk => ?_
    show m'.age k = m₂.age k
    rw [age, age, hbyAge', List.getElem?_take, if_pos hk]
  · have hsplit : m₂.byAge = m'.byAge ++ [r] := by
      rw [hbyAge']
      conv_lhs => rw [← List.take_append_drop rest.length m₂.byAge]
      obtain ⟨hl, hget⟩ := List.getElem?_eq_some_iff.mp hlast
      rw [List.drop_eq_getElem_cons hl, hget, List.drop_eq_nil_of_le (by omega)]
    calc
      (r :: m'.byAge).Perm (m'.byAge ++ [r]) := (List.perm_append_singleton r m'.byAge).symm
      _ = m₂.byAge := hsplit.symm
      List.Perm _ m₁.byAge := hperm₂
      List.Perm _ m.byAge := hperm₁
  · rw [hqueue', hqueue₂, hqueue₁]

/-- `removeExpired` keeps exactly the records that are not expired. -/
theorem removeExpiredLoop_spec (now : Time) (timeout : Int) (fuel : Nat) :
    ∀ m : ClientMapInner Addr, m.byAge.length ≤ fuel → Good m →
      ∃ m', removeExpiredLoop now timeout fuel m = some m' ∧ Good m' ∧
        m'.byAge.Perm (m.byAge.filter fun r => ¬ Expired now timeout r) ∧
        m'.nextQueue = m.nextQueue := by
  -- every round that goes on removes one record
  induction fuel with
  | zero =>
    intro m hlen hgood
    have hnil : m.byAge = [] := List.length_eq_zero_iff.mp (by omega)
    exact ⟨m, rfl, hgood, by simp [hnil], rfl⟩
  | succ fuel ih =>
    intro m hlen hgood
    cases hm : m.byAge with
    | nil => exact ⟨m, by simp [removeExpiredLoop, hm], hgood, by simp [hm], rfl⟩
    | cons r rest =>
      by_cases hexp : Expired now timeout r
      · obtain ⟨m₁, hpop, hgood₁, hperm₁, hqueue₁⟩ := heapPop_spec hgood hm
        have hlen₁ : m₁.byAge.length ≤ fuel := by
          have := hperm₁.length_eq
          rw [List.length_cons] at this
          omega
        obtain ⟨m', hrun, hgood', hperm', hqueue'⟩ := ih m₁ hlen₁ hgood₁
        refine ⟨m', by simp [removeExpiredLoop, hm, hexp, hpop, hrun], hgood', ?_,
          hqueue'.trans hqueue₁⟩
        have hfilter := hperm₁.filter fun x => decide ¬ Expired now timeout x
        rw [List.filter_cons_of_neg (by simp [hexp]), hm] at hfilter
        exact hperm'.trans hfilter
      · -- the oldest record is fresh, so all of them are
        have hfresh : ∀ x ∈ r :: rest, ¬ Expired now timeout x := by
          intro x hx hex
          have hle := hgood.oldest hm (hm ▸ hx)
          exact hexp (le_trans hex (Time.sub_le_sub hle))
        refine ⟨m, by simp [removeExpiredLoop, hm, hexp], hgood, ?_, rfl⟩
        rw [hm, List.filter_eq_self.mpr fun x hx => by simpa using hfresh x hx]

theorem removeExpired_spec (now : Time) (timeout : Int) {m : ClientMapInner Addr} (h : Good m) :
    ∃ m', removeExpired now timeout m = some m' ∧ Good m' ∧
      m'.byAge.Perm (m.byAge.filter fun r => ¬ Expired now timeout r) ∧
      m'.nextQueue = m.nextQueue :=
  removeExpiredLoop_spec now timeout m.byAge.length m (le_refl _) h

/-- The map after the record `r` at `i` was seen at time `now`, before `heap.Fix`. -/
def seen (m : ClientMapInner Addr) (i : Nat) (r : ClientRecord Addr) (now : Time) :
    ClientMapInner Addr :=
  { m with byAge := m.byAge.set i { r with lastSeen := now } }

theorem Indexed.seen {m : ClientMapInner Addr} {i : Nat} {r : ClientRecord Addr} (h : Indexed m)
    (hr : m.byAge[i]? = some r) (now : Time) : Indexed (m.seen i r now) := by
  have hil : i < m.byAge.length := (List.getElem?_eq_some_iff.mp hr).1
  -- a record keeps its address, so the two maps have the same addresses in the same places
  have haddr : ∀ k : Nat, (m.seen i r now).byAge[k]?.map ClientRecord.addr =
      m.byAge[k]?.map ClientRecord.addr := by
    intro k
    by_cases hk : i = k
    · subst hk
      rw [ClientMapInner.seen, List.getElem?_set_self hil, hr]
      rfl
    · rw [ClientMapInner.seen, List.getElem?_set_ne hk]
  intro a k
  rw [haddr k]
  exact h a k

/-- The records after `r` was seen: `r` with its new time, and all others. -/
theorem Indexed.mem_seen {m : ClientMapInner Addr} {i : Nat} {r : ClientRecord Addr}
    (h : Indexed m) (hr : m.byAge[i]? = some r) (now : Time) (x : ClientRecord Addr) :
    x ∈ (m.seen i r now).byAge ↔
      x = { r with lastSeen := now } ∨ (x.addr ≠ r.addr ∧ x ∈ m.byAge) := by
  have hil : i < m.byAge.length := (List.getElem?_eq_some_iff.mp hr).1
  show x ∈ m.byAge.set i { r with lastSeen := now } ↔ _
  simp only [List.mem_iff_getElem?]
  constructor
  · rintro ⟨k, hk⟩
    rcases pool_set_some hk with ⟨-, hx⟩ | ⟨hki, hold⟩
    · exact Or.inl hx
    · -- another place has another address
      refine Or.inr ⟨fun hx => hki ?_, k, hold⟩
      exact h.addr_injective (by rw [hold, Option.map_some, hx]) (by rw [hr]; rfl)
  · rintro (rfl | ⟨hne, k, hk⟩)
    · exact ⟨i, List.getElem?_set_self hil⟩
    · refine ⟨k, ?_⟩
      rw [List.getElem?_set_ne, hk]
      rintro rfl
      rw [hr] at hk
      cases hk
      exact hne rfl

/-- Only the edges at the record that was seen can be out of order. -/
theorem Good.except_seen {m : ClientMapInner Addr} {i : Nat} {r : ClientRecord Addr} (h : Good m)
    (hr : m.byAge[i]? = some r) (now : Time) :
    Heap.Except (m.seen i r now).age m.byAge.length i := by
  have hil : i < m.byAge.length := (List.getElem?_eq_some_iff.mp hr).1
  have hage : ∀ k, k ≠ i → (m.seen i r now).age k = m.age k := by
    intro k hk
    rw [age, age, seen, List.getElem?_set_ne (Ne.symm hk)]
  constructor
  · intro k hk0 hk hki hpk
    rw [hage k hki, hage _ hpk]
    exact h.heap k hk0 hk
  · intro k hk0 hk hpk hi0
    have hpi : Heap.parent i < i := Heap.parent_lt hi0
    have hpk' : Heap.parent k < k := Heap.parent_lt hk0
    rw [hage k (by omega), hage _ (by omega)]
    exact le_trans (h.heap i hi0 hil) (hpk ▸ h.heap k hk0 hk)

/-- `SendQueue` on a known address only updates the record's `LastSeen`. -/
theorem sendQueue_found {m : ClientMapInner Addr} {addr : Addr} {i : Nat} {r : ClientRecord Addr}
    (now : Time) (h : Good m) (hi : m.byAddr.lookup addr = some i) (hr : m.byAge[i]? = some r) :
    ∃ m', sendQueue addr now m = some (m', r.sendQueue) ∧ Good m' ∧
      m'.byAge.Perm (m.byAge.set i { r with lastSeen := now }) ∧ m'.nextQueue = m.nextQueue := by
  have hil : i < m.byAge.length := (List.getElem?_eq_some_iff.mp hr).1
  have hsize : (m.seen i r now).byAge.length = m.byAge.length := List.length_set
  obtain ⟨m', hfix, hinv', -, hswaps, hheap⟩ :=
    Heap.fix_spec lawful (h.indexed.seen hr now)
      (show i < (m.seen i r now).byAge.length by omega)
      (show Heap.Except (m.seen i r now).age (m.seen i r now).byAge.length i by
        rw [hsize]
        exact h.except_seen hr now)
  obtain ⟨hperm, -, hqueue⟩ := swaps_byAge hswaps
  refine ⟨m', ?_, ⟨hinv', hheap⟩, hperm, hqueue⟩
  have hfix' : Heap.fix iface i
      { m with byAge := m.byAge.set i { r with lastSeen := now } } = some m' := hfix
  simp [sendQueue, hi, hr, hfix']

/-- The map after `Push` of `r`. -/
def pushed (m : ClientMapInner Addr) (r : ClientRecord Addr) : ClientMapInner Addr :=
  { byAge := m.byAge ++ [r]
    byAddr := m.byAddr.insert r.addr m.byAge.length
    nextQueue := m.nextQueue + 1 }

theorem Indexed.pushed {m : ClientMapInner Addr} {r : ClientRecord Addr} (h : Indexed m)
    (hnew : m.byAddr.lookup r.addr = none) : Indexed (m.pushed r) := by
  intro a k
  show (m.byAddr.insert r.addr m.byAge.length).lookup a = some k ↔
    (m.byAge ++ [r])[k]?.map ClientRecord.addr = some a
  by_cases ha : a = r.addr
  · subst ha
    rw [AList.lookup_insert, Option.some.injEq]
    constructor
    · rintro rfl
      rw [pool_snoc_new]
      rfl
    · intro hk
      obtain ⟨x, hx, hxa⟩ := Option.map_eq_some_iff.mp hk
      rcases pool_snoc_some hx with hold | ⟨hlast, -⟩
      · -- no earlier place has the new address
        have hl := (h r.addr k).mpr (by rw [hold, Option.map_some, hxa])
        rw [hnew] at hl
        cases hl
      · exact hlast.symm
  · rw [AList.lookup_insert_ne ha, h a k]
    constructor
    · intro hk
      obtain ⟨x, hx, hxa⟩ := Option.map_eq_some_iff.mp hk
      rw [pool_snoc_old hx, Option.map_some, hxa]
    · intro hk
      obtain ⟨x, hx, hxa⟩ := Option.map_eq_some_iff.mp hk
      rcases pool_snoc_some hx with hold | ⟨-, rfl⟩
      · rw [hold, Option.map_some, hxa]
      · exact absurd hxa.symm ha

/-- Only the edge above the new record can be out of order. -/
theorem Good.upReady_pushed {m : ClientMapInner Addr} (h : Good m) (r : ClientRecord Addr) :
    Heap.UpReady (m.pushed r).age (m.byAge.length + 1) m.byAge.length := by
  have hage : ∀ k, k < m.byAge.length → (m.pushed r).age k = m.age k := by
    intro k hk
    rw [age, age, pushed, List.getElem?_append_left hk]
  constructor
  · intro k hk0 hk hkn
    have hp : Heap.parent k < k := Heap.parent_lt hk0
    rw [hage k (by omega), hage _ (by omega)]
    exact h.heap k hk0 (by omega)
  · -- the last place has no children
    intro k hk0 hk hpk
    have hp : Heap.parent k < k := Heap.parent_lt hk0
    omega

/-- `SendQueue` on an unknown address stores a record with a channel made for it. -/
theorem sendQueue_new {m : ClientMapInner Addr} {addr : Addr} (now : Time) (h : Good m)
    (hi : m.byAddr.lookup addr = none) :
    ∃ m', sendQueue addr now m = some (m', m.nextQueue) ∧ Good m' ∧
      m'.byAge.Perm (m.byAge ++ [⟨addr, now, m.nextQueue⟩]) ∧
      m'.nextQueue = m.nextQueue + 1 := by
  let record : ClientRecord Addr := ⟨addr, now, m.nextQueue⟩
  have hinv : Indexed (m.pushed record) := h.indexed.pushed hi
  have hsize : (m.pushed record).byAge.length = m.byAge.length + 1 := by simp [pushed]
  obtain ⟨m', hup, hinv', -, hswaps, hheap⟩ :=
    Heap.up_spec lawful hinv (show m.byAge.length < (m.pushed record).byAge.length by omega)
      (show Heap.UpReady (m.pushed record).age (m.pushed record).byAge.length m.byAge.length by
        rw [hsize]
        exact h.upReady_pushed record)
  obtain ⟨hperm, -, hqueue⟩ := swaps_byAge hswaps
  refine ⟨m', ?_, ⟨hinv', hheap⟩, hperm, hqueue⟩
  have hpush : iface.push { m with nextQueue := m.nextQueue + 1 } record =
      some (m.pushed record) := by
    simp [iface, push, pushed, hi, record]
  have hlen : iface.len (m.pushed record) = some (m.byAge.length + 1) := by
    rw [← hsize]
    exact len_eq hinv
  simp [sendQueue, hi, Heap.push, hpush, hlen, hup, record]

end ClientMapInner

/-! ## The reference model -/

/-- A plain expiring map: for each address the time it was last seen and its queue, and the
name of the next queue to be made. -/
structure ExpiringMap (Addr : Type u) where
  entry : Addr → Option (Time × Nat)
  fresh : Nat

namespace ExpiringMap

variable {Addr : Type u} [DecidableEq Addr]

def empty : ExpiringMap Addr := ⟨fun _ => none, 0⟩

/-- Insert `addr` with a fresh queue, or update its time and keep its queue. -/
def sendQueue (addr : Addr) (now : Time) (e : ExpiringMap Addr) : ExpiringMap Addr × Nat :=
  match e.entry addr with
  | some (_, q) => ({ e with entry := Function.update e.entry addr (some (now, q)) }, q)
  | none =>
      ({ entry := Function.update e.entry addr (some (now, e.fresh)), fresh := e.fresh + 1 },
        e.fresh)

/-- Delete exactly the entries with `now - LastSeen >= timeout`. -/
def removeExpired (now : Time) (timeout : Int) (e : ExpiringMap Addr) : ExpiringMap Addr :=
  { e with entry := fun a => (e.entry a).filter fun x => ¬ timeout ≤ Time.sub now x.1 }

/-- The stored `(Addr, LastSeen, SendQueue)` triples. -/
def stored (e : ExpiringMap Addr) : Set (Addr × Time × Nat) :=
  { x | e.entry x.1 = some (x.2.1, x.2.2) }

end ExpiringMap

/-! ## Refinement -/

section Refinement

variable {Addr : Type u} [DecidableEq Addr]

/-- The stored `(Addr, LastSeen, SendQueue)` triples. -/
def ClientMapInner.stored (m : ClientMapInner Addr) : Set (Addr × Time × Nat) :=
  { x | ⟨x.1, x.2.1, x.2.2⟩ ∈ m.byAge }

/-- The code's map holds what the reference map holds. -/
structure Refines (m : ClientMapInner Addr) (e : ExpiringMap Addr) : Prop where
  good : m.Good
  stored : ∀ a t q, ⟨a, t, q⟩ ∈ m.byAge ↔ e.entry a = some (t, q)
  queues : m.nextQueue = e.fresh

theorem refines_empty :
    Refines (ClientMapInner.empty : ClientMapInner Addr) ExpiringMap.empty :=
  ⟨ClientMapInner.good_empty,
    fun _ _ _ => by simp [ClientMapInner.empty, ExpiringMap.empty], rfl⟩

/-- The record of an address is the one at the index `byAddr` gives for it. -/
theorem Refines.entry_eq {m : ClientMapInner Addr} {e : ExpiringMap Addr} (h : Refines m e)
    (addr : Addr) :
    (∃ i r, m.byAddr.lookup addr = some i ∧ m.byAge[i]? = some r ∧ r.addr = addr ∧
      e.entry addr = some (r.lastSeen, r.sendQueue)) ∨
    (m.byAddr.lookup addr = none ∧ e.entry addr = none) := by
  -- by the index, which is the inverse of the slice
  cases hl : m.byAddr.lookup addr with
  | some i =>
    left
    obtain ⟨r, hr, ha⟩ := Option.map_eq_some_iff.mp ((h.good.indexed addr i).mp hl)
    refine ⟨i, r, rfl, hr, ha, ?_⟩
    subst ha
    exact (h.stored r.addr r.lastSeen r.sendQueue).mp (List.mem_of_getElem? hr)
  | none =>
    right
    refine ⟨rfl, ?_⟩
    cases he : e.entry addr with
    | none => rfl
    | some x =>
      obtain ⟨k, hk⟩ := List.mem_iff_getElem?.mp ((h.stored addr x.1 x.2).mpr he)
      have := (h.good.indexed addr k).mpr (by rw [hk]; rfl)
      rw [hl] at this
      cases this

/-- Simulation of `SendQueue`: it does not panic, returns the reference's queue and keeps the
relation. -/
theorem sendQueue_refines {m : ClientMapInner Addr} {e : ExpiringMap Addr} (h : Refines m e)
    (addr : Addr) (now : Time) :
    ∃ m', ClientMapInner.sendQueue addr now m = some (m', (e.sendQueue addr now).2) ∧
      Refines m' (e.sendQueue addr now).1 := by
  -- `SendQueue` finds the record exactly if the reference map has an entry
  rcases h.entry_eq addr with ⟨i, r, hl, hr, rfl, he⟩ | ⟨hl, he⟩
  · obtain ⟨m', hrun, hgood, hperm, hqueue⟩ := ClientMapInner.sendQueue_found now h.good hl hr
    refine ⟨m', by simp [ExpiringMap.sendQueue, he, hrun], hgood, ?_, ?_⟩
    · intro a t q
      have hmem := h.good.indexed.mem_seen hr now ⟨a, t, q⟩
      rw [ClientMapInner.seen] at hmem
      rw [hperm.mem_iff, hmem, h.stored a t q]
      simp only [ExpiringMap.sendQueue, he]
      by_cases hne : a = r.addr
      · subst hne
        simp [eq_comm]
      · simp [hne]
    · rw [hqueue, h.queues]
      simp [ExpiringMap.sendQueue, he]
  · obtain ⟨m', hrun, hgood, hperm, hqueue⟩ := ClientMapInner.sendQueue_new now h.good hl
    refine ⟨m', by simp [ExpiringMap.sendQueue, he, hrun, h.queues], hgood, ?_, ?_⟩
    · intro a t q
      rw [hperm.mem_iff, List.mem_append, List.mem_singleton, h.stored a t q]
      simp only [ExpiringMap.sendQueue, he]
      by_cases hne : a = addr
      · subst hne
        simp [he, h.queues, eq_comm]
      · simp [hne]
    · rw [hqueue, h.queues]
      simp [ExpiringMap.sendQueue, he]

/-- Simulation of `removeExpired`. -/
theorem removeExpired_refines {m : ClientMapInner Addr} {e : ExpiringMap Addr} (h : Refines m e)
    (now : Time) (timeout : Int) :
    ∃ m', ClientMapInner.removeExpired now timeout m = some m' ∧
      Refines m' (e.removeExpired now timeout) := by
  obtain ⟨m', hrun, hgood, hperm, hqueue⟩ :=
    ClientMapInner.removeExpired_spec now timeout h.good
  refine ⟨m', hrun, hgood, ?_, by rw [hqueue, h.queues]; rfl⟩
  intro a t q
  rw [hperm.mem_iff, List.mem_filter, h.stored a t q]
  simp only [ExpiringMap.removeExpired, Option.filter_eq_some_iff, decide_eq_true_eq]
  exact Iff.rfl

/-- A call on the map. -/
inductive MapOp (Addr : Type u) where
  | sendQueue (addr : Addr) (now : Time)
  | removeExpired (now : Time) (timeout : Int)

/-- Run the calls on the code's map; the queues that the `SendQueue` calls return, in order. -/
def ClientMapInner.run : ClientMapInner Addr → List (MapOp Addr) →
    Option (ClientMapInner Addr × List Nat)
  | m, [] => some (m, [])
  | m, .sendQueue addr now :: ops =>
      (m.sendQueue addr now).bind fun p => (p.1.run ops).map fun r => (r.1, p.2 :: r.2)
  | m, .removeExpired now timeout :: ops =>
      (m.removeExpired now timeout).bind fun m' => m'.run ops

/-- Run the calls on the reference map. -/
def ExpiringMap.run : ExpiringMap Addr → List (MapOp Addr) → ExpiringMap Addr × List Nat
  | e, [] => (e, [])
  | e, .sendQueue addr now :: ops =>
      let p := e.sendQueue addr now
      let r := p.1.run ops
      (r.1, p.2 :: r.2)
  | e, .removeExpired now timeout :: ops => (e.removeExpired now timeout).run ops

theorem run_refines (ops : List (MapOp Addr)) :
    ∀ {m : ClientMapInner Addr} {e : ExpiringMap Addr}, Refines m e →
      ∃ m', m.run ops = some (m', (e.run ops).2) ∧ Refines m' (e.run ops).1 := by
  -- the relation is carried along the calls
  induction ops with
  | nil =>
    intro m e h
    exact ⟨m, rfl, h⟩
  | cons op ops ih =>
    intro m e h
    cases op with
    | sendQueue addr now =>
      obtain ⟨m₁, hop, h₁⟩ := sendQueue_refines h addr now
      obtain ⟨m', hrun, h'⟩ := ih h₁
      exact ⟨m', by simp [ClientMapInner.run, ExpiringMap.run, hop, hrun], h'⟩
    | removeExpired now timeout =>
      obtain ⟨m₁, hop, h₁⟩ := removeExpired_refines h now timeout
      obtain ⟨m', hrun, h'⟩ := ih h₁
      exact ⟨m', by simp [ClientMapInner.run, ExpiringMap.run, hop, hrun], h'⟩

/-- **`clientMapInner` is a plain expiring map.** Whatever the calls, addresses and times, no
call panics, the stored triples are those of the reference map, each stored once, and every
`SendQueue` returned the reference's queue. -/
theorem clientMap_refines_expiringMap (ops : List (MapOp Addr)) :
    ∃ m, (ClientMapInner.empty : ClientMapInner Addr).run ops =
        some (m, ((ExpiringMap.empty : ExpiringMap Addr).run ops).2) ∧
      m.stored = ((ExpiringMap.empty : ExpiringMap Addr).run ops).1.stored ∧
      (m.byAge.map ClientRecord.addr).Nodup := by
  obtain ⟨m, hrun, h⟩ :=
    run_refines ops (refines_empty : Refines _ (ExpiringMap.empty : ExpiringMap Addr))
  refine ⟨m, hrun, ?_, h.good.indexed.nodup⟩
  ext ⟨a, t, q⟩
  exact h.stored a t q

/-- **The representation invariant.** Whatever the calls, addresses and times, no call panics or
leaves the range of a slice, and the two containers fit together after it. -/
theorem clientMap_consistent (ops : List (MapOp Addr)) :
    ∃ m queues, (ClientMapInner.empty : ClientMapInner Addr).run ops = some (m, queues) ∧
      m.Consistent := by
  obtain ⟨m, hrun, h⟩ :=
    run_refines ops (refines_empty : Refines _ (ExpiringMap.empty : ExpiringMap Addr))
  exact ⟨m, _, hrun, h.good.consistent⟩

end Refinement

end PTBridge.Snowflake
