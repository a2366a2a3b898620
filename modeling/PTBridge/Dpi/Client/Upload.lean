import PTBridge.Dpi.Client.Transport
import PTBridge.Dpi.Server.Wellformed

/-!
# What `SendData` knows about delivery

One `SendData` call and the run of the server's handler for it. The network decides what of the
request reaches the server and what the client gets back; the remote decides whether it takes the
payload.

- `runHandler` runs one handler alone, to its end.
- `Delivered` says that this run wrote exactly the data to the remote registered under the id.
- `sendData_delivers_iff` says when a `SendData` that returns `nil` has delivered its data.
-/

namespace PTBridge.Dpi

open PTBridge.Stream PTBridge.Container PTBridge.Transition

/-! ## A handler run alone -/

/-- What the outside world answers to a handler. -/
structure Outside where
  dialOk : Bool
  /-- an open remote takes the whole payload -/
  accepts : Bool
  /-- the number of bytes a failing write took -/
  taken : Nat

/-- The next move of a handler, up to the loop of a download. -/
def nextMove (env : Outside) (s : Server) : Pc → Option HandlerMove
  | .dial _ _ => some (.dial env.dialOk)
  | .dataLookup _ _ => some .lookup
  | .dataWrite _ payload c =>
      -- a write to a closed remote fails whatever the other side would do
      if env.accepts = true ∧ s.conns[c]?.any (fun cc => !cc.remoteClosed) = true then
        some (.write payload.length true)
      else some (.write (min env.taken payload.length) false)
  | .closeLookup _ => some .lookup
  | .closeRemote _ _ => some .closeRemote
  | .unregister _ => some .unregister
  | .downLookup _ => some .lookup
  | _ => none

/-- Run handler `h` alone: the moves it makes and the state it leaves. -/
def runHandler (cfg : Config) (env : Outside) (h : Nat) :
    Nat → Server → List HandlerMove × Server
  | 0, s => ([], s)
  | n + 1, s =>
      match nextMove env s (s.pcOf h) with
      | none => ([], s)
      | some m =>
          match step cfg s (.handler h m) with
          | none => ([], s)
          | some s' =>
              let rest := runHandler cfg env h n s'
              (m :: rest.1, rest.2)

/-- The server with the handler of `r` at its start. -/
def asked (cfg : Config) (s : Server) (r : Request) : Server :=
  { s with handlers := s.handlers ++ [start cfg r] }

/-- Serve a request to its end; an upload takes at most four moves (`serve_finished`). -/
def serve (cfg : Config) (env : Outside) (s : Server) (r : Request) : List HandlerMove × Server :=
  runHandler cfg env s.handlers.length 4 (asked cfg s r)

section Run

variable {cfg : Config} {env : Outside} {h n : Nat} {s s' : Server} {hd : Handler}

theorem pcOf_of_some (hh : s.handlers[h]? = some hd) : s.pcOf h = hd.pc := by
  simp only [Server.pcOf, hh]

theorem runHandler_move {m : HandlerMove} (hm : nextMove env s (s.pcOf h) = some m)
    (hs : Step cfg s (.handler h m) s') :
    runHandler cfg env h (n + 1) s =
      (m :: (runHandler cfg env h n s').1, (runHandler cfg env h n s').2) := by
  simp only [runHandler, hm, hs.enabled]

theorem runHandler_stop (hm : nextMove env s (s.pcOf h) = none) :
    runHandler cfg env h n s = ([], s) := by
  cases n with
  | zero => rfl
  | succ n => simp only [runHandler, hm]

/-- A handler that has returned makes no move. -/
theorem runHandler_done (hh : s.handlers[h]? = some hd) (hpc : hd.pc = .done) :
    runHandler cfg env h n s = ([], s) := by
  refine runHandler_stop ?_
  rw [pcOf_of_some hh, hpc]
  rfl

/-- Places from which a handler can still write to a remote. -/
def Pc.canWrite : Pc → Bool
  | .dataLookup _ _ => true
  | .dataWrite _ _ _ => true
  | _ => false

theorem Pc.Next.canWrite {pc pc' : Pc} (hnext : pc.Next pc') (hno : pc.canWrite = false) :
    pc'.canWrite = false := by
  cases hnext <;> first | rfl | cases hno

theorem nextMove_ne_write {pc : Pc} (hno : pc.canWrite = false) (k : Nat) (ok : Bool) :
    nextMove env s pc ≠ some (.write k ok) := by
  cases pc <;> simp_all [nextMove, Pc.canWrite]

/-- A handler at any other place writes nothing in the rest of its run. -/
theorem runHandler_no_write {k : Nat} {ok : Bool} (hno : (s.pcOf h).canWrite = false) :
    HandlerMove.write k ok ∉ (runHandler cfg env h n s).1 := by
  -- along the moves of the handler
  induction n generalizing s with
  | zero => exact nofun
  | succ n ih =>
    rw [runHandler]
    split
    · exact nofun
    · rename_i m hm
      split
      · exact nofun
      · rename_i s' hs
        rintro (hhead | hrest)
        · exact nextMove_ne_write hno k ok hm
        · -- the control flow does not lead back to a write
          obtain ⟨gd, gd', hg, hset, hnext⟩ := handler_next (step_cases hs)
          have hpc' : s'.pcOf h = gd'.pc := pcOf_of_some (by rw [hset]; exact pool_set_self hg)
          rw [pcOf_of_some hg] at hno
          exact ih (by rw [hpc']; exact hnext.canWrite hno) (by assumption)

/-- The moves that are left for the handler of an upload; none for a download. -/
def Pc.movesLeft : Pc → Option Nat
  | .dial _ _ => some 1
  | .dataLookup _ _ => some 4
  | .dataWrite _ _ _ => some 3
  | .closeLookup _ => some 3
  | .closeRemote _ _ => some 2
  | .unregister _ => some 1
  | .done => some 0
  | _ => none

/-- The handler of an upload can always move on, and has less to do after it. -/
theorem upload_moves (hwf : WellFormed s) (hh : s.handlers[h]? = some hd) {k : Nat}
    (hleft : hd.pc.movesLeft = some (k + 1)) :
    ∃ m s' k', nextMove env s (s.pcOf h) = some m ∧ Step cfg s (.handler h m) s' ∧
      (s'.pcOf h).movesLeft = some k' ∧ k' ≤ k := by
  have hleft_of : ∀ {t : Server} {gd : Handler} {k' : Nat}, t.handlers[h]? = some gd →
      gd.pc.movesLeft = some k' → (t.pcOf h).movesLeft = some k' := by
    intro t gd k' ht hk'
    rw [pcOf_of_some ht, hk']
  rw [pcOf_of_some hh]
  -- one case for each place, with the move `nextMove` picks there
  cases hpc : hd.pc with
  | dial connID req =>
    cases hok : env.dialOk with
    | true =>
      exact ⟨_, _, 0, by rw [nextMove, hok], .dialed hh hpc, hleft_of (pool_set_self hh) rfl,
        Nat.zero_le _⟩
    | false =>
      exact ⟨_, _, 0, by rw [nextMove, hok], .dialFailed hh hpc, hleft_of (pool_set_self hh) rfl,
        Nat.zero_le _⟩
  | dataLookup connID payload =>
    rw [hpc] at hleft
    cases hleft
    cases hc : s.clients connID with
    | none =>
      exact ⟨_, _, 0, rfl, .dataUnknown hh hpc hc, hleft_of (pool_set_self hh) rfl, Nat.zero_le _⟩
    | some c =>
      exact ⟨_, _, 3, rfl, .dataFound hh hpc hc, hleft_of (pool_set_self hh) rfl, Nat.le_refl _⟩
  | dataWrite connID payload c =>
    rw [hpc] at hleft
    cases hleft
    obtain ⟨cc, hcc, -⟩ := hwf.target h hd connID c hh (by rw [hpc]; rfl)
    by_cases hok : env.accepts = true ∧ cc.remoteClosed = false
    · refine ⟨.write payload.length true, _, 0, ?_, .wrote hh hpc hcc hok.2,
        hleft_of (pool_set_self hh) rfl, Nat.zero_le _⟩
      simp [nextMove, hcc, hok.1, hok.2]
    · refine ⟨.write (min env.taken payload.length) false, _, 2, ?_,
        .writeFailed hh hpc hcc (Nat.min_le_right _ _), hleft_of (pool_set_self hh) rfl,
        Nat.le_refl _⟩
      simp [nextMove, hcc, hok]
  | closeLookup connID =>
    rw [hpc] at hleft
    cases hleft
    cases hc : s.clients connID with
    | none =>
      exact ⟨_, _, 0, rfl, .closeUnknown hh hpc hc, hleft_of (pool_set_self hh) rfl, Nat.zero_le _⟩
    | some c =>
      exact ⟨_, _, 2, rfl, .closeFound hh hpc hc, hleft_of (pool_set_self hh) rfl, Nat.le_refl _⟩
  | closeRemote connID c =>
    rw [hpc] at hleft
    cases hleft
    obtain ⟨cc, hcc, -⟩ := hwf.target h hd connID c hh (by rw [hpc]; rfl)
    exact ⟨_, _, 1, rfl, .closedRemote hh hpc hcc, hleft_of (pool_set_self hh) rfl, Nat.le_refl _⟩
  | unregister connID =>
    exact ⟨_, _, 0, rfl, .unregistered hh hpc, hleft_of (pool_set_self hh) rfl, Nat.zero_le _⟩
  | downLookup _ => rw [hpc] at hleft; cases hleft
  | downLoop _ _ => rw [hpc] at hleft; cases hleft
  | downWrite _ _ _ => rw [hpc] at hleft; cases hleft
  | done => rw [hpc] at hleft; cases hleft

/-- The run of an upload comes to its end. -/
theorem runHandler_finished (hwf : WellFormed s) {k : Nat}
    (hleft : (s.pcOf h).movesLeft = some k) (hk : k ≤ n) :
    (runHandler cfg env h n s).2.pcOf h = .done := by
  -- the moves that are left bound the run
  induction n generalizing s k with
  | zero =>
    obtain rfl : k = 0 := Nat.le_zero.mp hk
    cases hpc : s.pcOf h <;> rw [hpc] at hleft <;> first | exact hpc | cases hleft
  | succ n ih =>
    cases k with
    | zero =>
      have hdone : s.pcOf h = .done := by
        cases hpc : s.pcOf h <;> rw [hpc] at hleft <;> first | rfl | cases hleft
      rw [runHandler_stop (by rw [hdone]; rfl)]
      exact hdone
    | succ k =>
      obtain ⟨hd, hh, hpc⟩ := Server.pcOf_eq (s := s) (h := h) rfl (by
        intro hdone
        rw [hdone] at hleft
        cases hleft)
      obtain ⟨m, s', k', hm, hs, hleft', hk'⟩ :=
        @upload_moves cfg env h s hd hwf hh k (by rw [hpc]; exact hleft)
      rw [runHandler_move hm hs]
      exact ih (hwf.step hs) hleft' (by omega)

end Run

/-! ## The run of an upload -/

section Serve

variable {cfg : Config} {env : Outside} {s : Server} {r : Request} {connID : UInt32}
  {payload : Bytes} {c : Nat} {cc : ClientConn}

/-- The server decodes the request as data for `connID`. -/
def Decodes (cfg : Config) (r : Request) (connID : UInt32) (data : Bytes) : Prop :=
  (start cfg r).pc = .dataLookup connID data

instance (cfg : Config) (r : Request) (connID : UInt32) (data : Bytes) :
    Decidable (Decodes cfg r connID data) :=
  inferInstanceAs (Decidable (_ = _))

theorem asked_handler : (asked cfg s r).handlers[s.handlers.length]? = some (start cfg r) :=
  pool_snoc_new

theorem nextMove_lookup (hdec : Decodes cfg r connID payload) :
    nextMove env (asked cfg s r) ((asked cfg s r).pcOf s.handlers.length) = some .lookup := by
  rw [pcOf_of_some asked_handler, hdec]
  rfl

/-- Serving an upload runs its handler to the end. -/
theorem serve_finished (hwf : WellFormed s) (hup : (start cfg r).pc.movesLeft ≠ none) :
    (serve cfg env s r).2.pcOf s.handlers.length = .done := by
  obtain ⟨k, hk⟩ := Option.ne_none_iff_exists'.mp hup
  have hasked : Step cfg s (.request r) (asked cfg s r) := .request r
  refine runHandler_finished (hwf.step hasked) (k := k) ?_ ?_
  · rw [pcOf_of_some asked_handler]
    exact hk
  · cases hpc : (start cfg r).pc <;> rw [hpc] at hk <;> cases hk <;> decide

/-- Data for an id that is not registered is dropped. -/
theorem serve_unknown (hdec : Decodes cfg r connID payload) (hc : s.clients connID = none) :
    (serve cfg env s r).1 = [.lookup] := by
  have hs := @Step.dataUnknown cfg (asked cfg s r) _ _ connID payload asked_handler hdec hc
  rw [serve, runHandler_move (nextMove_lookup hdec) hs,
    runHandler_done (pool_set_self asked_handler) rfl]

/-- The server once the handler of `r` has found connection `c`. -/
def writing (cfg : Config) (s : Server) (r : Request) (connID : UInt32) (payload : Bytes)
    (c : Nat) : Server :=
  (asked cfg s r).setHandler s.handlers.length (.at (.dataWrite connID payload c))

theorem writing_handler :
    (writing cfg s r connID payload c).handlers[s.handlers.length]? =
      some (.at (.dataWrite connID payload c)) :=
  pool_set_self asked_handler

/-- Data for a registered id goes on to the write. -/
theorem serve_found (hdec : Decodes cfg r connID payload) (hc : s.clients connID = some c) :
    serve cfg env s r =
      (.lookup :: (runHandler cfg env s.handlers.length 3 (writing cfg s r connID payload c)).1,
        (runHandler cfg env s.handlers.length 3 (writing cfg s r connID payload c)).2) := by
  have hs := @Step.dataFound cfg (asked cfg s r) _ _ connID payload c asked_handler hdec hc
  rw [serve, runHandler_move (nextMove_lookup hdec) hs, writing]

/-- An open remote that takes the payload gets exactly that. -/
theorem serve_written (hdec : Decodes cfg r connID payload) (hc : s.clients connID = some c)
    (hcc : s.conns[c]? = some cc) (hopen : cc.remoteClosed = false) (hok : env.accepts = true) :
    (serve cfg env s r).1 = [.lookup, .write payload.length true] ∧
      (serve cfg env s r).2.conns =
        s.conns.set c { cc with written := cc.written ++ [(s.handlers.length, payload)] } := by
  have hcc' : (writing cfg s r connID payload c).conns[c]? = some cc := hcc
  have hs := @Step.wrote cfg _ _ _ connID payload c cc (@writing_handler cfg s r connID payload c)
    rfl hcc' hopen
  have hm : nextMove env (writing cfg s r connID payload c)
      ((writing cfg s r connID payload c).pcOf s.handlers.length) =
        some (.write payload.length true) := by
    rw [pcOf_of_some writing_handler]
    simp [nextMove, Handler.at, hok, hcc', hopen]
  rw [serve_found hdec hc, runHandler_move hm hs, runHandler_done (pool_set_self writing_handler) rfl]
  exact ⟨rfl, rfl⟩

/-- A remote that is closed or does not take the payload makes no successful write. -/
theorem serve_failed (hdec : Decodes cfg r connID payload) (hc : s.clients connID = some c)
    (hcc : s.conns[c]? = some cc) (hno : ¬ (cc.remoteClosed = false ∧ env.accepts = true))
    (k : Nat) : HandlerMove.write k true ∉ (serve cfg env s r).1 := by
  have hcc' : (writing cfg s r connID payload c).conns[c]? = some cc := hcc
  have hs := @Step.writeFailed cfg _ _ _ connID payload c cc (min env.taken payload.length)
    (@writing_handler cfg s r connID payload c) rfl hcc' (Nat.min_le_right _ _)
  have hm : nextMove env (writing cfg s r connID payload c)
      ((writing cfg s r connID payload c).pcOf s.handlers.length) =
        some (.write (min env.taken payload.length) false) := by
    rw [pcOf_of_some writing_handler]
    have hno' : ¬ (env.accepts = true ∧
        (writing cfg s r connID payload c).conns[c]?.any (fun cc => !cc.remoteClosed) = true) := by
      rw [hcc']
      simpa [and_comm] using hno
    simp only [nextMove, Handler.at, if_neg hno']
  -- after the failed write the handler closes and unregisters, and writes no more
  rw [serve_found hdec hc, runHandler_move hm hs]
  simp only [List.mem_cons, reduceCtorEq, HandlerMove.write.injEq, Bool.true_eq_false, and_false,
    false_or]
  refine runHandler_no_write ?_
  rw [pcOf_of_some (pool_set_self writing_handler)]
  rfl

end Serve

/-! ## Delivery -/

/-- Serving `r` wrote exactly `data` to the remote registered under `connID`, without error. -/
def Delivered (cfg : Config) (env : Outside) (s : Server) (r : Request) (connID : UInt32)
    (data : Bytes) : Prop :=
  HandlerMove.write data.length true ∈ (serve cfg env s r).1 ∧
    ∃ (c : Nat) (cc cc' : ClientConn), s.clients connID = some c ∧ s.conns[c]? = some cc ∧
      (serve cfg env s r).2.conns[c]? = some cc' ∧
      cc'.written = cc.written ++ [(s.handlers.length, data)]

/-- The server has an open remote registered under `connID`, and it takes what is written. -/
def Accepting (env : Outside) (s : Server) (connID : UInt32) : Prop :=
  env.accepts = true ∧ ∃ (c : Nat) (cc : ClientConn), s.clients connID = some c ∧
    s.conns[c]? = some cc ∧ cc.remoteClosed = false

theorem delivered_iff {cfg : Config} {env : Outside} {s : Server} {r : Request} {connID : UInt32}
    {data : Bytes} (hwf : WellFormed s) :
    Delivered cfg env s r connID data ↔ Decodes cfg r connID data ∧ Accepting env s connID := by
  constructor
  · rintro ⟨hmem, c, cc, cc', hc, hcc, hcc', hwritten⟩
    -- a handler that wrote started at the lookup of a data message
    have hstart : ∃ id payload, Decodes cfg r id payload := by
      cases hpc : (start cfg r).pc with
      | dataLookup id payload => exact ⟨id, payload, hpc⟩
      | dataWrite id payload d =>
        have ht := start_target cfg r
        rw [hpc] at ht
        cases ht
      | _ =>
        refine absurd hmem (runHandler_no_write ?_)
        rw [pcOf_of_some asked_handler, hpc]
        rfl
    obtain ⟨id, payload, hdec⟩ := hstart
    cases hid : s.clients id with
    | none =>
      rw [serve_unknown hdec hid] at hmem
      simp at hmem
    | some d =>
      obtain ⟨dd, hdd, hdid⟩ := hwf.table id d hid
      by_cases hok : dd.remoteClosed = false ∧ env.accepts = true
      · obtain ⟨-, hconns⟩ := serve_written hdec hid hdd hok.1 hok.2
        rw [hconns] at hcc'
        rcases pool_set_some hcc' with ⟨rfl, rfl⟩ | ⟨-, hold⟩
        · -- the connection written to is the one registered under `connID`
          rw [hdd] at hcc
          cases hcc
          obtain ⟨ee, hee, heid⟩ := hwf.table connID c hc
          rw [hdd] at hee
          cases hee
          obtain rfl : id = connID := hdid.symm.trans heid
          have hpayload := List.append_cancel_left hwritten
          simp only [List.cons.injEq, Prod.mk.injEq, true_and, and_true] at hpayload
          subst hpayload
          exact ⟨hdec, hok.2, _, _, hc, hdd, hok.1⟩
        · rw [hcc] at hold
          cases hold
          exact absurd (congrArg List.length hwritten) (by simp)
      · exact absurd hmem (serve_failed hdec hid hdd hok data.length)
  · rintro ⟨hdec, hok, c, cc, hc, hcc, hopen⟩
    obtain ⟨hmoves, hconns⟩ := serve_written hdec hc hcc hopen hok
    refine ⟨by rw [hmoves]; simp, c, cc,
      { cc with written := cc.written ++ [(s.handlers.length, data)] }, hc, hcc, ?_, rfl⟩
    rw [hconns]
    exact pool_set_self hcc

/-- What the network does with a request: what of it reaches the server, and what the client gets
back. -/
structure Network where
  carry : Request → Option Request
  answer : Request → Except TransportError Response

/-- The request was served and its data delivered. -/
def NetworkDelivered (cfg : Config) (env : Outside) (s : Server) (net : Network) (e : Encryptor)
    (rand : Option Nonce) (connID : UInt32) (data : Bytes) : Prop :=
  ∃ nonce r, rand = some nonce ∧ net.carry (sendDataRequest e nonce connID data) = some r ∧
    Delivered cfg env s r connID data

/-- `Encrypt`, `NewRequest` or `Do` failed. -/
def ExchangeFailed (net : Network) (e : Encryptor) (rand : Option Nonce) (connID : UInt32)
    (data : Bytes) : Prop :=
  ∀ nonce, rand = some nonce → ∀ resp, net.answer (sendDataRequest e nonce connID data) ≠ .ok resp

theorem sendData_ok_iff (t : Transport) (rand : Option Nonce) (connID : UInt32) (data : Bytes)
    (net : Network) :
    t.sendData rand connID data net.answer = .ok () ↔
      ¬ ExchangeFailed net t.encryptor rand connID data := by
  cases rand with
  | none => simp [Transport.sendData, ExchangeFailed]
  | some nonce =>
    cases hans : net.answer (sendDataRequest t.encryptor nonce connID data) <;>
      simp [Transport.sendData, ExchangeFailed, hans]

/-- In every state the server can reach: `SendData` returns `nil` only for data that was delivered,
exactly if the exchange fails, or the server decodes the request as this data and has an open
remote under the id that takes it. -/
theorem sendData_delivers_iff (cfg : Config) (acts : List Act) (s : Server)
    (hrun : exec (step cfg) .new acts = some s) (env : Outside) (net : Network) (t : Transport)
    (rand : Option Nonce) (connID : UInt32) (data : Bytes) :
    (t.sendData rand connID data net.answer = .ok () →
        NetworkDelivered cfg env s net t.encryptor rand connID data) ↔
      ExchangeFailed net t.encryptor rand connID data ∨
        ∃ nonce r, rand = some nonce ∧
          net.carry (sendDataRequest t.encryptor nonce connID data) = some r ∧
          Decodes cfg r connID data ∧ Accepting env s connID := by
  have hwf : WellFormed s := wellFormed_run hrun
  rw [sendData_ok_iff, ← or_iff_not_imp_left]
  simp only [NetworkDelivered, delivered_iff hwf]

/-- An unaltered request under the shared key, id 1 connected, and a remote that takes the data. -/
theorem sendData_delivers_connected :
    Accepting ⟨true, true, 0⟩ connectedOne 1 ∧
      ((Transport.new [] [] Config.plain.encryptor).sendData (some .zero) 1 [5]
          (fun _ => .ok statusOk) = .ok () →
        NetworkDelivered .plain ⟨true, true, 0⟩ connectedOne ⟨some, fun _ => .ok statusOk⟩
          Config.plain.encryptor (some .zero) 1 [5]) := by
  have hacc : Accepting ⟨true, true, 0⟩ connectedOne 1 := ⟨rfl, 0, _, rfl, rfl, rfl⟩
  refine ⟨hacc, ?_⟩
  exact (sendData_delivers_iff .plain connectOne connectedOne exec_connectOne ⟨true, true, 0⟩
    ⟨some, fun _ => .ok statusOk⟩ (.new [] [] Config.plain.encryptor) (some .zero) 1 [5]).mpr
    (Or.inr ⟨.zero, _, rfl, rfl, by decide +kernel, hacc⟩)

/-- A fresh server knows no id: it drops the data and replies, and `SendData` returns `nil`. -/
theorem sendData_acknowledges_dropped :
    (Transport.new [] [] Config.plain.encryptor).sendData (some .zero) 1 [5]
        (fun _ => .ok statusOk) = .ok () ∧
      (serve .plain ⟨true, true, 0⟩ .new
        (sendDataRequest Config.plain.encryptor .zero 1 [5])).2.handlers =
          [.reply statusOk] ∧
      ¬ NetworkDelivered .plain ⟨true, true, 0⟩ .new ⟨some, fun _ => .ok statusOk⟩
        Config.plain.encryptor (some .zero) 1 [5] := by
  refine ⟨rfl, by decide +kernel, ?_⟩
  rintro ⟨nonce, r, hn, hr, -, c, cc, cc', hc, -⟩
  cases hc

end PTBridge.Dpi
