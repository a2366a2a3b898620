import PTBridge.Dpi.Server.Release

/-!
# Requests made without the key

A prober can send any request, but no body that the server's key opens. `handleTunnel` checks the
key before it looks at anything; `handleDownload` never does.

- `Keyless` are the prober's requests.
- `Harmless` is the property of a request, over every state and every interleaving: the steps of
  its handler change no shared state that matters to clients, and its status does not depend on
  the table.
- `keyless_harmless_iff` says which keyless requests are harmless: all but those that reach the
  lookup of `handleDownload`.
-/

namespace PTBridge.Dpi

open PTBridge.Stream PTBridge.Container PTBridge.Transition

/-- The request carries no body that decrypts under the server's key. -/
def Keyless (cfg : Config) (r : Request) : Prop :=
  ∀ body plaintext, r.body = some body → cfg.encryptor.decryptStream body ≠ .ok plaintext

/-- What clients rely on: the table, the queued chunks and the bytes written to each remote. -/
structure SameForClients (s s' : Server) : Prop where
  clients : s'.clients = s.clients
  queued : s'.conns.map (·.dataCh) = s.conns.map (·.dataCh)
  written : s'.conns.map (·.written) = s.conns.map (·.written)

/-- Handling `r` has no effect and reveals nothing, whatever else happens meanwhile. -/
structure Harmless (cfg : Config) (r : Request) : Prop where
  /-- No step of the request's handler changes what clients rely on. -/
  effect : ∀ s acts s₁ m s₂, exec (step cfg) s (.request r :: acts) = some s₁ →
    step cfg s₁ (.handler s.handlers.length m) = some s₂ → SameForClients s₁ s₂
  /-- Its status is the same for every table, hence for every set of registered ids. -/
  status : ∀ s t acts acts' s₁ t₁ hd hd' resp resp',
    exec (step cfg) s (.request r :: acts) = some s₁ →
    exec (step cfg) t (.request r :: acts') = some t₁ →
    s₁.handlers[s.handlers.length]? = some hd → hd.response = some resp →
    t₁.handlers[t.handlers.length]? = some hd' → hd'.response = some resp' →
    resp.status = resp'.status

/-- The request gets to the lookup of `handleDownload`. -/
def ReachesDownload (r : Request) : Prop :=
  mux r = .download ∧ (r.method = .get ∨ r.method = .head) ∧ (downloadConnID r.path).isSome = true

instance (r : Request) : Decidable (ReachesDownload r) :=
  inferInstanceAs (Decidable (_ ∧ _ ∧ _))

section

variable {cfg : Config} {r : Request}

/-- `handleTunnel` turns a request away before it looks at shared state. -/
theorem handleTunnel_keyless (hkey : Keyless cfg r) : (handleTunnel cfg r).pc = .done := by
  unfold handleTunnel
  split
  · rfl
  · split
    · rfl
    · rename_i body hbody
      split
      · rfl
      · split
        · rfl
        · -- past the decryption the request had the key
          rename_i plaintext hdec
          exact absurd hdec (hkey body plaintext hbody)

/-- A keyless request that does not reach the download lookup is answered at once. -/
theorem start_keyless (hkey : Keyless cfg r) (hdown : ¬ ReachesDownload r) :
    (start cfg r).pc = .done := by
  cases hmux : mux r with
  | badRequest => simp only [start, hmux, Handler.reply]
  | redirect location => simp only [start, hmux, Handler.reply]
  | root =>
    simp only [start, hmux, handleRoot]
    split <;> rfl
  | tunnel =>
    simp only [start, hmux]
    exact handleTunnel_keyless hkey
  | download =>
    simp only [start, hmux, handleDownload]
    split
    · rfl
    · rename_i hmethod
      split
      · rfl
      · rename_i connID hid
        -- only here the lookup is reached, and nothing was decrypted on the way
        refine absurd ⟨hmux, ?_, by rw [hid]; rfl⟩ hdown
        rw [not_and_or, not_not, not_not] at hmethod
        exact hmethod

/-- A request that reaches the download lookup starts there. -/
theorem start_reachesDownload (hdown : ReachesDownload r) :
    ∃ connID, start cfg r = .at (.downLookup connID) := by
  obtain ⟨hmux, hmethod, hid⟩ := hdown
  obtain ⟨connID, hid⟩ := Option.isSome_iff_exists.mp hid
  refine ⟨connID, ?_⟩
  have hmethod' : ¬ (r.method ≠ .get ∧ r.method ≠ .head) := by
    rw [not_and_or, not_not, not_not]
    exact hmethod
  simp only [start, hmux, handleDownload, if_neg hmethod', hid]

/-- The handler of a request that is answered at once is as `start` left it, ever after. -/
theorem handler_of_start_done {s s₁ : Server} {acts : List Act}
    (hpc : (start cfg r).pc = .done) (hrun : exec (step cfg) s (.request r :: acts) = some s₁) :
    s₁.handlers[s.handlers.length]? = some (start cfg r) := by
  obtain ⟨s₀, h₀, h₁⟩ := exec_cons_some.mp hrun
  cases h₀
  exact handler_done_run hpc acts pool_snoc_new h₁

theorem harmless_of_start_done (hpc : (start cfg r).pc = .done) : Harmless cfg r where
  effect s acts s₁ m s₂ hrun hstep := by
    rw [step_done (handler_of_start_done hpc hrun) hpc] at hstep
    cases hstep
  status s t acts acts' s₁ t₁ hd hd' resp resp' hs ht hhd hresp hhd' hresp' := by
    -- both runs have the answer that `start` computed from the request alone
    rw [handler_of_start_done hpc hs] at hhd
    rw [handler_of_start_done hpc ht] at hhd'
    cases hhd
    cases hhd'
    rw [hresp] at hresp'
    cases hresp'
    rfl

/-- A connection with one chunk queued, registered under `connID`. -/
def oneQueued (connID : UInt32) : Server :=
  { Server.new with
    clients := Function.update (fun _ => none) connID (some 0)
    conns := [{ ClientConn.dialed connID ⟨[], []⟩ 0 with
      dataCh := ⟨[[7]], false, by decide⟩, received := [[7]] }] }

/-- A handler at the download lookup takes a queued chunk. -/
theorem not_harmless_of_reachesDownload (hdown : ReachesDownload r) : ¬ Harmless cfg r := by
  obtain ⟨connID, hstart⟩ := @start_reachesDownload cfg r hdown
  intro hharm
  -- one chunk is queued for the id in the request; lookup and receive take it
  have hfound : (oneQueued connID).clients connID = some 0 := by simp [oneQueued]
  have hrun : exec (step cfg) (oneQueued connID) [.request r, .handler 0 .lookup] =
      some { oneQueued connID with handlers := [⟨.downLoop connID 0, some streaming, []⟩] } := by
    have hlookup : step cfg { oneQueued connID with handlers := [start cfg r] }
        (.handler 0 .lookup) =
          some { oneQueued connID with handlers := [⟨.downLoop connID 0, some streaming, []⟩] } := by
      simp only [step, List.getElem?_cons_zero, handlerStep, hstart, Handler.at, Server.getClient,
        hfound]
      rfl
    exact exec_cons_some.mpr ⟨_, rfl, exec_cons_some.mpr ⟨_, hlookup, rfl⟩⟩
  have hsame := hharm.effect (oneQueued connID) [.handler 0 .lookup] _ .receive _ hrun rfl
  have hbufs : ([[]] : List (List Bytes)) = [[[7]]] := congrArg (List.map Chan.buf) hsame.queued
  exact absurd hbufs (by decide)

end

/-- A keyless request has no effect and reveals nothing exactly if it does not reach the lookup of
`handleDownload`. -/
theorem keyless_harmless_iff (cfg : Config) (r : Request) (hkey : Keyless cfg r) :
    Harmless cfg r ↔ ¬ ReachesDownload r :=
  ⟨fun hharm hdown => not_harmless_of_reachesDownload hdown hharm,
    fun hdown => harmless_of_start_done (start_keyless hkey hdown)⟩

/-- An upload with a body too short for the key. -/
theorem keyless_upload_harmless : Harmless .plain (post uploadPath [1, 2, 3]) := by
  refine (keyless_harmless_iff .plain (post uploadPath [1, 2, 3]) ?_).mpr (by decide)
  intro body plaintext hbody hdec
  cases hbody
  cases hdec

/-- A chunk waits for client id 1; a download without the key takes it from the queue. -/
theorem keyless_download_takes_chunk :
    Keyless .plain (downloadRequest 1) ∧
      ∃ s s₁ s₂, exec (step .plain) .new
          (connectOne ++ [.reader 0 (.read [7] none), .reader 0 .send]) = some s ∧
        exec (step .plain) s [.request (downloadRequest 1), .handler 1 .lookup] = some s₁ ∧
        step .plain s₁ (.handler 1 .receive) = some s₂ ∧
        s₁.conns.map (·.dataCh.buf) = [[[7]]] ∧ s₂.conns.map (·.dataCh.buf) = [[]] := by
  constructor
  · -- a GET has no body
    intro body plaintext hbody hdec
    cases hbody
    cases hdec
  · have hqueue : (exec (step .plain) .new
        (connectOne ++ [.reader 0 (.read [7] none), .reader 0 .send] ++
          [.request (downloadRequest 1), .handler 1 .lookup])).any (fun s₁ =>
        (step .plain s₁ (.handler 1 .receive)).any fun s₂ =>
          decide (s₁.conns.map (·.dataCh.buf) = [[[7]]] ∧
            s₂.conns.map (·.dataCh.buf) = [[]])) = true := by decide +kernel
    obtain ⟨s₁, hrun, hq⟩ := (Option.any_eq_true _ _).mp hqueue
    obtain ⟨s₂, hrecv, hbufs⟩ := (Option.any_eq_true _ _).mp hq
    obtain ⟨s, hs, hs₁⟩ := exec_append_some.mp hrun
    exact ⟨s, s₁, s₂, hs, hs₁, hrecv, of_decide_eq_true hbufs⟩

end PTBridge.Dpi
