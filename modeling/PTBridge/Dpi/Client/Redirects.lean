import PTBridge.Dpi.Client.Transport

/-!
# How long `Transport.Connect` goes on

`Connect` calls itself on every 3xx response with a `Location`. `http.Client` follows five of these
statuses on its own, at most nine times in one `Do`, unless `CheckRedirect` hands them back, which
is what `NewTransport` sets without `followRedirects`.

The answers are a sequence: answer `i` is what the `i`-th HTTP request of the call gets. A failure
on the client's side (no random bytes, a URL that does not parse, no connection) is an answer too.

- `clientDo` is `httpClient.Do` with its redirects, `connect` runs a number of rounds of `Connect`.
- `connect_returns_iff` says for which sequences the call comes to an end.
-/

namespace PTBridge.Dpi

/-! ## The call -/

/-- What each HTTP request of a call gets. -/
abbrev Answers := Nat → Except TransportError Response

/-- `Connect` calls itself again on this answer. -/
def Bounces : Except TransportError Response → Prop
  | .ok resp => 300 ≤ resp.status ∧ resp.status < 400 ∧ resp.location ≠ []
  | .error _ => False

/-- `http.Client` takes this answer for a redirect (`redirectBehavior`). -/
def Followed : Except TransportError Response → Prop
  | .ok resp => resp.status ∈ [301, 302, 303, 307, 308] ∧ resp.location ≠ []
  | .error _ => False

instance : ∀ a, Decidable (Bounces a)
  | .ok _ => inferInstanceAs (Decidable (_ ∧ _ ∧ _))
  | .error _ => isFalse id

instance : ∀ a, Decidable (Followed a)
  | .ok _ => inferInstanceAs (Decidable (_ ∧ _))
  | .error _ => isFalse id

theorem Followed.bounces {a : Except TransportError Response} (h : Followed a) : Bounces a := by
  cases a with
  | error _ => exact h
  | ok resp =>
    obtain ⟨hstatus, hloc⟩ := h
    simp only [List.mem_cons, List.not_mem_nil, or_false] at hstatus
    exact ⟨by omega, by omega, hloc⟩

/-- The redirects that one `Do` follows: the tenth is refused. -/
def maxHops : Nat := 9

/-- `httpClient.Do` from request `i` on, with `hops` redirects left: its result, and the number of
the next request. -/
def clientDo (follow : Bool) (answers : Answers) :
    Nat → Nat → Except TransportError Response × Nat
  | 0, i =>
      -- `stopped after 10 redirects`
      if Followed (answers i) ∧ follow = true then (.error .exchange, i + 1)
      else (answers i, i + 1)
  | hops + 1, i =>
      if Followed (answers i) ∧ follow = true then clientDo follow answers hops (i + 1)
      else (answers i, i + 1)

/-- At most `n` rounds of `Connect`, the first with request `i`: what it returns and the number of
requests; `none` if it would go on. -/
def Transport.connect (follow : Bool) (answers : Answers) :
    Nat → Transport → Nat → Option (Except TransportError UInt32 × Nat)
  | 0, _, _ => none
  | n + 1, t, i =>
      let (connID, t) := t.nextConnID
      let (answer, j) := clientDo follow answers maxHops i
      match t.connectReply connID answer with
      | (.returned connID, _) => some (.ok connID, j)
      | (.failed err, _) => some (.error err, j)
      | (.redirected, t) => t.connect follow answers n j

/-- `Connect` returns an id or an error, after finitely many requests. -/
def Returns (follow : Bool) (answers : Answers) (t : Transport) (i : Nat) : Prop :=
  ∃ n, (t.connect follow answers n i).isSome = true

/-! ## One round -/

section Round

variable {follow : Bool} {answers : Answers} {t : Transport} {connID : UInt32} {i n : Nat}

theorem connectReply_redirected_iff (answer : Except TransportError Response) :
    (t.connectReply connID answer).1 = .redirected ↔ Bounces answer := by
  cases answer with
  | error err => exact ⟨nofun, nofun⟩
  | ok resp =>
    unfold Transport.connectReply Bounces
    dsimp only
    split
    · rename_i h
      exact ⟨fun _ => h, fun _ => rfl⟩
    · rename_i h
      refine ⟨fun hred => ?_, fun hb => absurd hb h⟩
      split at hred
      · cases hred
      · split at hred <;> cases hred

/-- A round that `Connect` does not repeat is its last. -/
theorem connect_last (h : ¬ Bounces (clientDo follow answers maxHops i).1) :
    (t.connect follow answers (n + 1) i).isSome = true := by
  rw [← @connectReply_redirected_iff t.nextConnID.2 t.nextConnID.1] at h
  simp only [Transport.connect]
  split
  · rfl
  · rfl
  · rename_i hreply
    rw [hreply] at h
    exact absurd rfl h

/-- After any other answer it goes on, from the next request. -/
theorem connect_again (h : Bounces (clientDo follow answers maxHops i).1) :
    ∃ t' : Transport, ∀ n, t.connect follow answers (n + 1) i =
      t'.connect follow answers n (clientDo follow answers maxHops i).2 := by
  rw [← @connectReply_redirected_iff t.nextConnID.2 t.nextConnID.1] at h
  obtain ⟨⟨outcome, t'⟩, hreply⟩ : ∃ p, t.nextConnID.2.connectReply t.nextConnID.1
      (clientDo follow answers maxHops i).1 = p := ⟨_, rfl⟩
  rw [hreply] at h
  obtain rfl : outcome = .redirected := h
  refine ⟨t', fun n => ?_⟩
  simp only [Transport.connect, hreply]

/-! ## `Do` -/

/-- An answer that `http.Client` does not follow is what `Do` returns. -/
theorem clientDo_stop (h : ¬ (Followed (answers i) ∧ follow = true)) (hops : Nat) :
    clientDo follow answers hops i = (answers i, i + 1) := by
  cases hops <;> rw [clientDo, if_neg h]

/-- Where a `Do` that returns such an answer stopped: behind the answer, within its redirects, and
past answers that it followed. -/
theorem clientDo_bounces {hops : Nat} (h : Bounces (clientDo follow answers hops i).1) :
    ∃ k, k ≤ hops ∧ (clientDo follow answers hops i).2 = i + k + 1 ∧
      (clientDo follow answers hops i).1 = answers (i + k) ∧
      ¬ (Followed (answers (i + k)) ∧ follow = true) ∧ ∀ j < k, Followed (answers (i + j)) := by
  induction hops generalizing i with
  | zero =>
    by_cases hf : Followed (answers i) ∧ follow = true
    · rw [clientDo, if_pos hf] at h
      exact absurd h id
    · rw [clientDo_stop hf]
      exact ⟨0, Nat.le_refl 0, rfl, rfl, hf, nofun⟩
  | succ hops ih =>
    by_cases hf : Followed (answers i) ∧ follow = true
    · -- one redirect further
      rw [clientDo, if_pos hf] at h ⊢
      obtain ⟨k, hk, hnext, hanswer, hstop, hpast⟩ := ih h
      have hsum : i + 1 + k = i + (k + 1) := by omega
      rw [hsum] at hnext hanswer hstop
      refine ⟨k + 1, by omega, hnext, hanswer, hstop, fun j hj => ?_⟩
      cases j with
      | zero => exact hf.1
      | succ j =>
        have hj' := hpast j (by omega)
        rwa [show i + 1 + j = i + (j + 1) by omega] at hj'
    · rw [clientDo_stop hf]
      exact ⟨0, Nat.zero_le _, rfl, rfl, hf, nofun⟩

/-- Any other `Do` gave up after too many redirects, or returned one of the answers. -/
theorem clientDo_cases (hops i : Nat) :
    (follow = true ∧ ∀ j ≤ hops, Followed (answers (i + j))) ∨
      ∃ k, (clientDo follow answers hops i).1 = answers (i + k) := by
  induction hops generalizing i with
  | zero =>
    by_cases hf : Followed (answers i) ∧ follow = true
    · refine Or.inl ⟨hf.2, fun j hj => ?_⟩
      rw [Nat.le_zero.mp hj]
      exact hf.1
    · exact Or.inr ⟨0, by rw [clientDo_stop hf]; rfl⟩
  | succ hops ih =>
    by_cases hf : Followed (answers i) ∧ follow = true
    · rw [clientDo, if_pos hf]
      rcases ih (i + 1) with ⟨-, hall⟩ | ⟨k, hk⟩
      · refine Or.inl ⟨hf.2, fun j hj => ?_⟩
        cases j with
        | zero => exact hf.1
        | succ j =>
          have hj' := hall j (by omega)
          rwa [show i + 1 + j = i + (j + 1) by omega] at hj'
      · exact Or.inr ⟨k + 1, by rw [hk, show i + 1 + k = i + (k + 1) by omega]⟩
    · exact Or.inr ⟨0, by rw [clientDo_stop hf]; rfl⟩

end Round

/-! ## The whole call -/

section Call

variable {follow : Bool} {answers : Answers} {t : Transport}

/-- If no round from `goal` or before gets past request `goal`, the call ends there at the
latest. -/
theorem returns_before (goal : Nat)
    (hgoal : ∀ s ≤ goal, Bounces (clientDo follow answers maxHops s).1 →
      (clientDo follow answers maxHops s).2 ≤ goal) :
    ∀ s ≤ goal, ∀ t, Returns follow answers t s := by
  intro s hs
  -- the requests that are left before `goal`
  induction hn : goal - s using Nat.strong_induction_on generalizing s with
  | _ n ih =>
    intro t
    by_cases hb : Bounces (clientDo follow answers maxHops s).1
    · obtain ⟨k, -, hnext, -⟩ := clientDo_bounces hb
      have hle := hgoal s hs hb
      obtain ⟨t', hagain⟩ := @connect_again follow answers t s hb
      obtain ⟨m, hm⟩ := ih (goal - (clientDo follow answers maxHops s).2) (by omega) _ hle rfl t'
      exact ⟨m + 1, by rw [hagain m]; exact hm⟩
    · exact ⟨1, connect_last hb⟩

/-- An answer on which `Connect` does not call itself ends the call. -/
theorem returns_of_answer {k : Nat} (hk : ¬ Bounces (answers k)) : Returns follow answers t 0 := by
  refine returns_before k (fun s hs hb => ?_) 0 (Nat.zero_le k) t
  obtain ⟨m, -, hnext, hanswer, -, hpast⟩ := clientDo_bounces hb
  -- all answers of this round bounce, so `k` is not among them
  by_contra hbeyond
  obtain ⟨j, rfl⟩ := Nat.exists_eq_add_of_le hs
  rcases Nat.lt_or_ge j m with hlt | hge
  · exact hk (hpast j hlt).bounces
  · obtain rfl : j = m := by omega
    rw [hanswer] at hb
    exact hk hb

/-- Ten answers in a row that `http.Client` follows end it as well. -/
theorem returns_of_hops {k : Nat} (hk : ∀ j ≤ maxHops, Followed (answers (k + j))) :
    Returns true answers t 0 := by
  refine returns_before k (fun s hs hb => ?_) 0 (Nat.zero_le k) t
  obtain ⟨m, hm, hnext, -, hstop, -⟩ := clientDo_bounces hb
  -- the round stopped at an answer that is not followed, within its redirects
  by_contra hbeyond
  have hin := hk (s + m - k) (by omega)
  rw [show k + (s + m - k) = s + m by omega] at hin
  exact hstop ⟨hin, rfl⟩

/-- If every `Do` of the call bounces, no number of rounds is enough. -/
theorem connect_endless (h : ∀ i, Bounces (clientDo follow answers maxHops i).1) (n : Nat) :
    ∀ (t : Transport) (i : Nat), t.connect follow answers n i = none := by
  induction n with
  | zero => exact fun _ _ => rfl
  | succ n ih =>
    intro t i
    obtain ⟨t', hagain⟩ := @connect_again follow answers t i (h i)
    rw [hagain n]
    exact ih t' _

theorem not_returns_of_bounces (hall : ∀ k, Bounces (answers k))
    (hhops : follow = true → ∀ k, ∃ j ≤ maxHops, ¬ Followed (answers (k + j))) (i : Nat) :
    ¬ Returns follow answers t i := by
  have hdo : ∀ i, Bounces (clientDo follow answers maxHops i).1 := by
    intro i
    rcases @clientDo_cases follow answers maxHops i with ⟨hfollow, hf⟩ | ⟨k, hk⟩
    · obtain ⟨j, hj, hno⟩ := hhops hfollow i
      exact absurd (hf j hj) hno
    · rw [hk]
      exact hall _
  rintro ⟨n, hn⟩
  rw [connect_endless hdo n] at hn
  cases hn

/-- For every sequence of answers and both settings: `Connect` returns after finitely many requests
exactly if some answer is not a 3xx with a `Location`, or if `http.Client` follows redirects and
meets ten in a row that it follows on its own. -/
theorem connect_returns_iff (follow : Bool) (answers : Answers) (t : Transport) :
    Returns follow answers t 0 ↔
      (∃ k, ¬ Bounces (answers k)) ∨
        (follow = true ∧ ∃ k, ∀ j ≤ maxHops, Followed (answers (k + j))) := by
  constructor
  · intro hret
    by_contra hno
    simp only [not_or, not_exists, not_not, not_and, not_forall] at hno
    refine not_returns_of_bounces hno.1 (fun hfollow k => ?_) 0 hret
    obtain ⟨j, hj, hf⟩ := hno.2 hfollow k
    exact ⟨j, hj, hf⟩
  · rintro (⟨k, hk⟩ | ⟨rfl, k, hk⟩)
    · exact returns_of_answer hk
    · exact returns_of_hops hk

end Call

/-- The same response to every request. -/
def always (resp : Response) : Answers := fun _ => .ok resp

/-- A server that always answers 302 keeps `Connect` busy if the client hands redirects back, and
one that always answers 300, which `http.Client` does not follow, in either case. -/
theorem connect_never_returns :
    ¬ Returns false (always (found ['/'])) (.new "http".toList "a".toList .plain) 0 ∧
      ¬ Returns true (always ⟨300, ['/'], []⟩) (.new "http".toList "a".toList .plain) 0 := by
  have hfound : Bounces (.ok (found ['/'])) := by decide
  have hchoices : Bounces (.ok ⟨300, ['/'], []⟩) := by decide
  have hkept : ¬ Followed (.ok ⟨300, ['/'], []⟩) := by decide
  constructor
  · exact not_returns_of_bounces (fun _ => hfound) (fun h => absurd h Bool.false_ne_true) 0
  · exact not_returns_of_bounces (fun _ => hchoices) (fun _ _ => ⟨0, Nat.zero_le _, hkept⟩) 0

end PTBridge.Dpi
