import PTBridge.Dpi.Datagrams

/-!
# The upload path as a byte stream

For a `tcp` target the boundaries of the writes do not matter, but nothing may be missing in the
middle, come twice or change places. `pumpWrite` has one request out at a time; but a handler may
find its connection gone and answer `200` all the same, the remote may take a part of a batch and
fail, and a second connection may be registered under the id meanwhile.

- `Serial`: the handlers of the batches run one after the other, in the order of the batches.
- `Stage`: what the remote of the connection has got from them. Once a batch went elsewhere or was
  cut, the table does not have the connection any more (`ended`), and no later batch gets there.
- `upload_in_order`: the remote gets the batches from the first on, whole and in order, and perhaps
  a first part of the next one.
-/

namespace PTBridge.Dpi

open PTBridge.Stream PTBridge.Container PTBridge.Transition

/-! ## What some handlers write to one remote -/

/-- What the handlers in `own` have written to the remote of the connection. -/
def ClientConn.writtenByAny (cc : ClientConn) (own : List Nat) : List Bytes :=
  (cc.written.filter fun e => e.1 ∈ own).map Prod.snd

section Server

variable {cfg : Config} {s s' : Server} {a : Act} {c h : Nat} {cc : ClientConn} {hd : Handler}
  {connID : UInt32} {payload : Bytes}

/-- What a step adds to what was written to a remote. -/
inductive Writes (s : Server) (c : Nat) (cc cc' : ClientConn) (a : Act) : Prop where
  | none (hsame : cc'.written = cc.written)
  | one {h m connID payload bytes} (ha : a = .handler h m)
      (hpc : s.pcOf h = .dataWrite connID payload c)
      (hnew : cc'.written = cc.written ++ [(h, bytes)])

theorem writes_step (hs : Step cfg s a s') (hcc : s.conns[c]? = some cc) :
    ∃ cc', s'.conns[c]? = some cc' ∧ Writes s c cc cc' a := by
  -- a step that changes connection `d` without writing to its remote
  have hset : ∀ {d : Nat} {dd dd' : ClientConn}, s.conns[d]? = some dd →
      dd'.written = dd.written → ∃ cc', (s.conns.set d dd')[c]? = some cc' ∧ Writes s c cc cc' a := by
    intro d dd dd' hdd hsame
    by_cases hdc : c = d
    · subst hdc
      rw [hcc] at hdd
      cases hdd
      exact ⟨dd', pool_set_self hcc, .none hsame⟩
    · exact ⟨cc, by rw [List.getElem?_set_ne (Ne.symm hdc), hcc], .none rfl⟩
  -- handler `h` writes to connection `d`
  have hwrite : ∀ {d h : Nat} {m : HandlerMove} {dd dd' : ClientConn} {hd : Handler} {id : UInt32}
      {payload bytes : Bytes}, a = .handler h m → s.conns[d]? = some dd →
      s.handlers[h]? = some hd → hd.pc = .dataWrite id payload d →
      dd'.written = dd.written ++ [(h, bytes)] →
      ∃ cc', (s.conns.set d dd')[c]? = some cc' ∧ Writes s c cc cc' a := by
    intro d h m dd dd' hd id payload bytes ha hdd hh hpc hnew
    by_cases hdc : c = d
    · subst hdc
      rw [hcc] at hdd
      cases hdd
      exact ⟨dd', pool_set_self hcc, .one ha (by rw [Server.pcOf, hh]; exact hpc) hnew⟩
    · exact ⟨cc, by rw [List.getElem?_set_ne (Ne.symm hdc), hcc], .none rfl⟩
  cases hs with
  | dialed _ _ => exact ⟨cc, pool_snoc_old hcc, .none rfl⟩
  | wrote hh hpc hdd _ => exact hwrite rfl hdd hh hpc rfl
  | writeFailed hh hpc hdd _ => exact hwrite rfl hdd hh hpc rfl
  | closedRemote _ _ hdd => exact hset hdd rfl
  | downReceived _ _ hdd _ _ => exact hset hdd rfl
  | readData hdd _ _ _ _ => exact hset hdd rfl
  | readEmpty hdd _ _ => exact hset hdd rfl
  | readErr hdd _ => exact hset hdd rfl
  | sent hdd _ _ _ _ _ => exact hset hdd rfl
  | sendStopped hdd _ _ => exact hset hdd rfl
  | closedCh hdd _ => exact hset hdd rfl
  | closedOwn hdd _ => exact hset hdd rfl
  | unregisteredOwn hdd _ => exact hset hdd rfl
  | _ => exact ⟨cc, hcc, .none rfl⟩

/-- Unless one of the handlers writes, they have written what they had. -/
theorem writtenByAny_frame {own : List Nat} (hs : Step cfg s a s') (hcc : s.conns[c]? = some cc)
    (hother : ∀ h ∈ own, ∀ m, a = .handler h m → ∀ id payload, s.pcOf h ≠ .dataWrite id payload c) :
    ∃ cc', s'.conns[c]? = some cc' ∧ cc'.writtenByAny own = cc.writtenByAny own := by
  obtain ⟨cc', hcc', hwrites⟩ := writes_step hs hcc
  refine ⟨cc', hcc', ?_⟩
  cases hwrites with
  | none hsame => rw [ClientConn.writtenByAny, ClientConn.writtenByAny, hsame]
  | @one h m id payload bytes ha hpc hnew =>
    have hnot : h ∉ own := fun hmem => hother h hmem m ha id payload hpc
    simp [ClientConn.writtenByAny, hnew, List.filter_append, hnot]

/-- A handler keeps its place while others move. -/
theorem pcOf_frame (hs : Step cfg s a s') (hh : h < s.handlers.length)
    (hother : ∀ m, a ≠ .handler h m) : s'.pcOf h = s.pcOf h := by
  have hget := List.getElem?_eq_getElem hh
  rw [Server.pcOf, Server.pcOf, handler_frame hs hother hget, hget]

/-- A handler that has returned does not move. -/
theorem pcOf_done (hs : Step cfg s a s') (hh : h < s.handlers.length) (hdone : s.pcOf h = .done) :
    s'.pcOf h = .done := by
  have hget := List.getElem?_eq_getElem hh
  have hpc : s.handlers[h].pc = .done := by rwa [Server.pcOf, hget] at hdone
  rw [Server.pcOf, returned_step hget hpc hs]
  exact hpc

/-- A handler that makes a step has not returned. -/
theorem running_of_step {m : HandlerMove} (hs : Step cfg s (.handler h m) s')
    (hh : h < s.handlers.length) : s.pcOf h ≠ .done := by
  intro hdone
  have hget := List.getElem?_eq_getElem hh
  have hpc : s.handlers[h].pc = .done := by rwa [Server.pcOf, hget] at hdone
  have hstep := hs.enabled
  rw [step_done hget hpc] at hstep
  cases hstep

/-- A connection that the table does not have is not registered again. -/
theorem unlinked_step (hs : Step cfg s a s') (hc : c < s.conns.length)
    (hgone : s.clients connID ≠ some c) : s'.clients connID ≠ some c := by
  intro hlinked
  rcases clients_step hs hlinked with hold | ⟨h, req, hnew, -⟩
  · exact hgone hold
  · omega

/-! ## The steps of an upload's handler -/

theorem lookup_own {m : HandlerMove} (hs : Step cfg s (.handler h m) s')
    (hpc : s.pcOf h = .dataLookup connID payload) :
    (s.clients connID = none ∧ s'.clients connID = none ∧ s'.pcOf h = .done) ∨
      ∃ d, s.clients connID = some d ∧ s'.clients connID = some d ∧
        s'.pcOf h = .dataWrite connID payload d := by
  obtain ⟨hd, hh, hpc'⟩ := Server.pcOf_eq hpc nofun
  obtain ⟨-, ⟨hc, rfl⟩ | ⟨d, hc, rfl⟩⟩ := lookup_move hs hh hpc'
  · exact Or.inl ⟨hc, hc, by simp [Server.pcOf, pool_set_self hh, Handler.reply]⟩
  · exact Or.inr ⟨d, hc, hc, by simp [Server.pcOf, pool_set_self hh, Handler.at]⟩

theorem write_own {m : HandlerMove} (hs : Step cfg s (.handler h m) s')
    (hpc : s.pcOf h = .dataWrite connID payload c) :
    ∃ cc cc', s.conns[c]? = some cc ∧ s'.conns[c]? = some cc' ∧
      (cc'.written = cc.written ++ [(h, payload)] ∧ s'.pcOf h = .done ∨
        ∃ n, cc'.written = cc.written ++ [(h, payload.take n)] ∧
          s'.pcOf h = .closeRemote connID c) := by
  obtain ⟨hd, hh, hpc'⟩ := Server.pcOf_eq hpc nofun
  obtain ⟨cc, hcc, ⟨-, rfl⟩ | ⟨n, -, rfl⟩⟩ := write_move hs hh hpc'
  · refine ⟨cc, _, hcc, pool_set_self hcc, Or.inl ⟨rfl, ?_⟩⟩
    simp [Server.pcOf, pool_set_self hh, Handler.reply]
  · refine ⟨cc, _, hcc, pool_set_self hcc, Or.inr ⟨n, rfl, ?_⟩⟩
    simp [Server.pcOf, pool_set_self hh, Handler.at]

theorem close_own {m : HandlerMove} (hs : Step cfg s (.handler h m) s') {d : Nat}
    (hpc : s.pcOf h = .closeRemote connID d) : s'.pcOf h = .unregister connID := by
  obtain ⟨hd, hh, hpc'⟩ := Server.pcOf_eq hpc nofun
  have hstep := hs.enabled
  cases m <;> simp only [step, hh, handlerStep, hpc', reduceCtorEq] at hstep
  split at hstep
  · cases hstep
  · cases hstep
    simp [Server.pcOf, pool_set_self hh, Handler.at]

theorem unregister_own {m : HandlerMove} (hs : Step cfg s (.handler h m) s')
    (hpc : s.pcOf h = .unregister connID) :
    s'.clients connID = none ∧ s'.pcOf h = .done := by
  obtain ⟨hd, hh, hpc'⟩ := Server.pcOf_eq hpc nofun
  have hstep := hs.enabled
  cases m <;> simp only [step, hh, handlerStep, hpc', reduceCtorEq] at hstep
  cases hstep
  exact ⟨by simp, by simp [Server.pcOf, pool_set_self hh, Handler.reply]⟩

end Server

/-! ## One batch at a time -/

namespace Datagrams

variable {cfg : Config} {connID : UInt32} {d d' : Datagrams} {a : Act}

/-- The handlers of the batches. -/
def own (d : Datagrams) : List Nat := d.uploads.map Prod.snd

/-- Every handler of a batch has returned. -/
def AllReturned (d : Datagrams) : Prop := ∀ h ∈ d.own, d.server.pcOf h = .done

/-- `pumpWrite` sends no batch before the handler of the one before it has returned. -/
structure Serial (d : Datagrams) : Prop where
  batched : d.client.Batched
  signed : Signed d.server
  known : ∀ h ∈ d.own, h < d.server.handlers.length
  /-- The batches that got to the server are the first ones. -/
  numbered : d.uploads.map Prod.fst = List.range d.uploads.length
  length_le : d.uploads.length ≤ d.client.batches.length
  /-- All handlers but the last have returned. -/
  earlier : ∀ h ∈ d.own.dropLast, d.server.pcOf h = .done
  idle : d.client.pump = .top ∨ (∃ last i, d.client.pump = .flushing none last i) →
    d.uploads.length = d.client.batches.length ∧ d.AllReturned
  unsent : ∀ last, d.client.pump = .sending false last →
    d.uploads.length + 1 = d.client.batches.length ∧ d.AllReturned

theorem serial_new {server : Server} (hsigned : Signed server) : Serial (new server) where
  batched := TunnelWriter.batched_new
  signed := hsigned
  known := nofun
  numbered := rfl
  length_le := Nat.le_refl _
  earlier := nofun
  idle _ := ⟨rfl, nofun⟩
  unsent := nofun

/-- Once there is a response, all handlers have returned and all batches got there. -/
theorem Serial.replied (h : Serial d) (hreplied : d.replied = true) :
    d.uploads.length = d.client.batches.length ∧ d.AllReturned := by
  obtain ⟨u, hu, hcond⟩ := List.any_eq_true.mp hreplied
  obtain ⟨hcur, hdone⟩ := of_decide_eq_true hcond
  obtain ⟨i, hi⟩ := List.mem_iff_getElem?.mp hu
  -- the upload of the current batch is the last one
  have hfst : (d.uploads.map Prod.fst)[i]? = some u.1 := by rw [List.getElem?_map, hi]; rfl
  have hlt := (List.getElem?_eq_some_iff.mp hi).1
  rw [h.numbered, List.getElem?_range hlt] at hfst
  have hiu := Option.some.inj hfst
  rw [current] at hcur
  have hle := h.length_le
  have hlen : d.uploads.length = d.client.batches.length := by omega
  refine ⟨hlen, fun g hg => ?_⟩
  have hlast : d.own[i]? = some u.2 := by rw [own, List.getElem?_map, hi]; rfl
  have hown : d.own.length = i + 1 := by rw [own, List.length_map]; omega
  obtain ⟨j, hj⟩ := List.mem_iff_getElem?.mp hg
  by_cases hji : j = i
  · rw [hji, hlast] at hj
    cases hj
    exact hdone
  · refine h.earlier g (List.mem_iff_getElem?.mpr ⟨j, ?_⟩)
    have hjlt := (List.getElem?_eq_some_iff.mp hj).1
    rw [List.getElem?_dropLast, if_pos (by omega), hj]

/-- `pumpWrite` waits for the next request, or acknowledges a batch that was sent. -/
def Resting (s : TunnelWriter) : Prop :=
  s.pump = .top ∨ ∃ last i, s.pump = .flushing none last i

section Pump

variable {s s' : TunnelWriter} {b : TunnelWriter.Act}

theorem resting_step (hs : TunnelWriter.Step s b s') (hrest : Resting s') :
    s'.batches = s.batches ∧ (Resting s ∨ b = .pump (.reply none)) := by
  cases hs with
  | tookFull | ticked | flushLast | stopped | issuedData | flushedErr | left =>
    rcases hrest with hpc | ⟨last, i, hpc⟩ <;> cases hpc
  | @replied isOut last err _ _ =>
    rcases hrest with hpc | ⟨last, i, hpc⟩ <;> cases hpc
    exact ⟨rfl, Or.inr rfl⟩
  | acknowledged hpc _ _ =>
    rcases hrest with hpc' | ⟨last, i, hpc'⟩ <;> cases hpc'
    exact ⟨rfl, Or.inl (Or.inr ⟨_, _, hpc⟩)⟩
  | flushedOk hpc _ _ => exact ⟨rfl, Or.inl (Or.inr ⟨_, _, hpc⟩)⟩
  | took hpc _ _ _ => exact ⟨rfl, Or.inl (Or.inl hpc)⟩
  | tookFirst hpc _ _ _ => exact ⟨rfl, Or.inl (Or.inl hpc)⟩
  | _ => exact ⟨rfl, Or.inl hrest⟩

theorem unsent_step {last : Bool} (hs : TunnelWriter.Step s b s')
    (hpc' : s'.pump = .sending false last) :
    (s.pump = .sending false last ∧ s'.batches = s.batches) ∨
      (s.pump = .top ∧ ∃ x, s'.batches = s.batches ++ [x]) := by
  cases hs with
  | tookFull hpc _ _ => exact Or.inr ⟨hpc, _, rfl⟩
  | ticked hpc _ _ => exact Or.inr ⟨hpc, _, rfl⟩
  | flushLast hpc _ _ => exact Or.inr ⟨hpc, _, rfl⟩
  | flushedOk _ _ hnext => rcases hnext with rfl | rfl <;> cases hpc'
  | stopped | issuedData | replied | acknowledged | flushedErr | left => cases hpc'
  | _ => exact Or.inl ⟨hpc', rfl⟩

theorem issue_step (hs : TunnelWriter.Step s (.pump .issue) s') :
    ∃ last, s.pump = .sending false last ∧ s'.pump = .sending true last ∧ s'.batches = s.batches := by
  cases hs with
  | issuedData hpc => exact ⟨_, hpc, rfl, rfl⟩

end Pump

@[simp] theorem arrive_own (nonce : Nonce) (c : TunnelWriter) :
    (d.arrive cfg connID nonce c).own = d.own ++ [d.server.handlers.length] := by
  simp [arrive, own]

theorem arrive_request (nonce : Nonce) (c : TunnelWriter) :
    Dpi.Step cfg d.server (.request (sendDataRequest cfg.encryptor nonce connID d.client.batch))
      (d.arrive cfg connID nonce c).server := .request _

/-- The new handler is about to look the connection up. -/
theorem arrive_pcOf (nonce : Nonce) (c : TunnelWriter) :
    (d.arrive cfg connID nonce c).server.pcOf d.server.handlers.length =
      .dataLookup connID d.client.batch := by
  have hget : (d.arrive cfg connID nonce c).server.handlers[d.server.handlers.length]? =
      some (.at (.dataLookup connID d.client.batch)) := by
    rw [← start_sendDataRequest]
    exact pool_snoc_new
  rw [Server.pcOf, hget]
  rfl

/-- A step of the client. -/
theorem Serial.client {c : TunnelWriter} {b : TunnelWriter.Act} (h : Serial d)
    (hreply : b = .pump (.reply none) → d.replied = true) (hs : TunnelWriter.Step d.client b c) :
    Serial { d with client := c } := by
  obtain ⟨hbatches, -, -⟩ := TunnelWriter.logs_step hs
  refine ⟨h.batched.step hs, h.signed, h.known, h.numbered,
    h.length_le.trans hbatches.length_le, h.earlier, fun hrest => ?_, fun last hpc => ?_⟩
  · obtain ⟨hsame, hold | rfl⟩ := resting_step hs hrest
    · rw [hsame]
      exact h.idle hold
    · rw [hsame]
      exact h.replied (hreply rfl)
  · rcases unsent_step hs hpc with ⟨hold, hsame⟩ | ⟨htop, x, hnew⟩
    · rw [hsame]
      exact h.unsent last hold
    · obtain ⟨hlen, hall⟩ := h.idle (Or.inl htop)
      refine ⟨?_, hall⟩
      show d.uploads.length + 1 = c.batches.length
      rw [hnew, List.length_append, hlen]
      rfl

/-- The request of a batch gets to the server. -/
theorem Serial.deliver {c : TunnelWriter} (h : Serial d)
    (hs : TunnelWriter.Step d.client (.pump .issue) c) (nonce : Nonce) :
    Serial (d.arrive cfg connID nonce c) := by
  obtain ⟨last, hpc, hpc', hbatches⟩ := issue_step hs
  obtain ⟨hlen, hall⟩ := h.unsent last hpc
  have hrequest := @arrive_request cfg connID d nonce c
  have hhandlers : (d.arrive cfg connID nonce c).server.handlers.length =
      d.server.handlers.length + 1 := by simp [arrive]
  have huploads : (d.arrive cfg connID nonce c).uploads.length = d.uploads.length + 1 := by
    simp [arrive]
  refine ⟨h.batched.step hs, h.signed.step hrequest, fun g hg => ?_, ?_, ?_,
    fun g hg => ?_, fun hrest => ?_, fun last' hsend => ?_⟩
  · rw [arrive_own] at hg
    rw [hhandlers]
    rcases List.mem_append.mp hg with hg | hg
    · exact Nat.lt_succ_of_lt (h.known g hg)
    · rw [List.mem_singleton.mp hg]
      exact Nat.lt_succ_self _
  · -- the current batch is the first that was not out
    have hcur : d.current = d.uploads.length := by
      rw [current]
      omega
    rw [huploads, List.range_succ, ← h.numbered, ← hcur]
    simp [arrive]
  · rw [huploads]
    show d.uploads.length + 1 ≤ c.batches.length
    rw [hbatches, hlen]
  · rw [arrive_own, List.dropLast_concat] at hg
    exact pcOf_done hrequest (h.known g hg) (hall g hg)
  · change Resting c at hrest
    rw [Resting, hpc'] at hrest
    rcases hrest with hrest | ⟨last', i, hrest⟩ <;> cases hrest
  · change c.pump = _ at hsend
    rw [hpc'] at hsend
    cases hsend

theorem Serial.serve {s : Server} {b : Dpi.Act} (h : Serial d) (hs : Dpi.Step cfg d.server b s) :
    Serial { d with server := s } where
  batched := h.batched
  signed := h.signed.step hs
  known g hg := Nat.lt_of_lt_of_le (h.known g hg) (handlers_length_le hs)
  numbered := h.numbered
  length_le := h.length_le
  earlier g hg :=
    pcOf_done hs (h.known g (List.mem_of_mem_dropLast hg)) (h.earlier g hg)
  idle hrest := by
    obtain ⟨hlen, hall⟩ := h.idle hrest
    exact ⟨hlen, fun g hg => pcOf_done hs (h.known g hg) (hall g hg)⟩
  unsent last hpc := by
    obtain ⟨hlen, hall⟩ := h.unsent last hpc
    exact ⟨hlen, fun g hg => pcOf_done hs (h.known g hg) (hall g hg)⟩

/-! ## What the remote gets -/

/-- The batches, in the order of their calls of `SendData`. -/
def payloads (d : Datagrams) : List Bytes := d.client.batches.map Batch.payload

/-- Whole batches from the first on, and perhaps a first part of the next one. -/
def Begins (payloads writes : List Bytes) : Prop :=
  ∃ k ≤ payloads.length, writes = payloads.take k ∨
    ∃ b n, payloads[k]? = some b ∧ writes = payloads.take k ++ [b.take n]

section Begins

variable {ps ps' ws : List Bytes}

theorem take_grown {k : Nat} (hle : ps <+: ps') (hk : k ≤ ps.length) : ps'.take k = ps.take k := by
  obtain ⟨rest, rfl⟩ := hle
  exact List.take_append_of_le_length hk

theorem Begins.grow (h : Begins ps ws) (hle : ps <+: ps') : Begins ps' ws := by
  obtain ⟨k, hk, hws⟩ := h
  refine ⟨k, hk.trans hle.length_le, ?_⟩
  rw [take_grown hle hk]
  exact hws.imp_right fun ⟨b, n, hb, hws⟩ => ⟨b, n, pool_grown hle hb, hws⟩

/-- As bytes, they begin the batches. -/
theorem Begins.flatten (h : Begins ps ws) : ws.flatten <+: ps.flatten := by
  obtain ⟨k, -, rfl | ⟨b, n, hb, rfl⟩⟩ := h
  · conv_rhs => rw [← List.take_append_drop k ps, List.flatten_append]
    exact List.prefix_append _ _
  · obtain ⟨hlt, hget⟩ := List.getElem?_eq_some_iff.mp hb
    have hsplit : ps = ps.take k ++ b :: ps.drop (k + 1) := by
      rw [← hget, List.getElem_cons_drop, List.take_append_drop]
    conv_rhs => rw [hsplit, List.flatten_append, List.flatten_cons]
    rw [List.flatten_append, List.flatten_singleton, List.prefix_append_right_inj]
    exact (List.take_prefix _ _).trans (List.prefix_append _ _)

end Begins

/-- Where the upload to connection `c` stands, and what its remote has got. -/
inductive Stage (connID : UInt32) (c : Nat) (d : Datagrams) (writes : List Bytes) : Prop where
  /-- All batches that got to the server were written, whole. -/
  | idle (hall : d.AllReturned) (hwrites : writes = d.payloads.take d.own.length)
  /-- The handler of the next one is about to look the connection up, -/
  | asked {earlier h b} (hown : d.own = earlier ++ [h])
      (hb : d.payloads[earlier.length]? = some b) (hpc : d.server.pcOf h = .dataLookup connID b)
      (hwrites : writes = d.payloads.take earlier.length)
  /-- or to write the batch. -/
  | found {earlier h b} (hown : d.own = earlier ++ [h])
      (hb : d.payloads[earlier.length]? = some b) (hpc : d.server.pcOf h = .dataWrite connID b c)
      (hwrites : writes = d.payloads.take earlier.length)
  /-- A write has failed, and its handler is about to remove the connection from the table. -/
  | breaking {earlier h} (hown : d.own = earlier ++ [h])
      (hpc : d.server.pcOf h = .closeRemote connID c ∨ d.server.pcOf h = .unregister connID)
      (hwrites : Begins d.payloads writes)
  /-- The table does not have the connection, and no handler is about to write to it. -/
  | ended (hgone : d.server.clients connID ≠ some c)
      (hnone : ∀ h ∈ d.own, ∀ id b, d.server.pcOf h ≠ .dataWrite id b c)
      (hask : ∀ h ∈ d.own, ∀ id b, d.server.pcOf h = .dataLookup id b → id = connID)
      (hwrites : Begins d.payloads writes)

theorem Stage.begins {c : Nat} {writes : List Bytes} (hserial : Serial d)
    (h : Stage connID c d writes) : Begins d.payloads writes := by
  have hle : d.own.length ≤ d.payloads.length := by
    rw [own, payloads, List.length_map, List.length_map]
    exact hserial.length_le
  cases h with
  | idle _ hwrites => exact ⟨_, hle, Or.inl hwrites⟩
  | asked _ hb _ hwrites =>
    exact ⟨_, Nat.le_of_lt (List.getElem?_eq_some_iff.mp hb).1, Or.inl hwrites⟩
  | found _ hb _ hwrites =>
    exact ⟨_, Nat.le_of_lt (List.getElem?_eq_some_iff.mp hb).1, Or.inl hwrites⟩
  | breaking _ _ hwrites => exact hwrites
  | ended _ _ _ hwrites => exact hwrites

/-- A step of the client adds batches at most. -/
theorem Stage.client {c : Nat} {writes : List Bytes} {w : TunnelWriter} {b : TunnelWriter.Act}
    (hserial : Serial d) (h : Stage connID c d writes) (hs : TunnelWriter.Step d.client b w) :
    Stage connID c { d with client := w } writes := by
  obtain ⟨hbatches, -, -⟩ := TunnelWriter.logs_step hs
  have hgrown : d.payloads <+: payloads { d with client := w } := hbatches.map _
  cases h with
  | idle hall hwrites =>
    refine .idle hall ?_
    have hle : d.own.length ≤ d.payloads.length := by
      rw [own, payloads, List.length_map, List.length_map]
      exact hserial.length_le
    rw [hwrites]
    exact (take_grown hgrown hle).symm
  | asked hown hb hpc hwrites =>
    refine .asked hown (pool_grown hgrown hb) hpc ?_
    rw [hwrites, take_grown hgrown (Nat.le_of_lt (List.getElem?_eq_some_iff.mp hb).1)]
  | found hown hb hpc hwrites =>
    refine .found hown (pool_grown hgrown hb) hpc ?_
    rw [hwrites, take_grown hgrown (Nat.le_of_lt (List.getElem?_eq_some_iff.mp hb).1)]
  | breaking hown hpc hwrites => exact .breaking hown hpc (hwrites.grow hgrown)
  | ended hgone hnone hask hwrites => exact .ended hgone hnone hask (hwrites.grow hgrown)

/-- The batch that `SendData` works on is the last one. -/
theorem Serial.current_batch {last : Bool} (h : Serial d)
    (hpc : d.client.pump = .sending false last) : d.payloads[d.own.length]? = some d.client.batch := by
  obtain ⟨earlier, hbatches⟩ := h.batched.ledger.current (by simp [TunnelWriter.busy, hpc])
  obtain ⟨hlen, -⟩ := h.unsent last hpc
  rw [hbatches, List.length_append, List.length_singleton] at hlen
  have hown : d.own.length = earlier.length := by
    rw [own, List.length_map]
    omega
  rw [payloads, hbatches, hown, List.getElem?_map, pool_snoc_new]
  rfl

/-- The request of the next batch gets to the server. -/
theorem Stage.deliver {c : Nat} {writes : List Bytes} {w : TunnelWriter} (hserial : Serial d)
    (h : Stage connID c d writes) (hs : TunnelWriter.Step d.client (.pump .issue) w)
    (nonce : Nonce) : Stage connID c (d.arrive cfg connID nonce w) writes := by
  obtain ⟨last, hpc, -, hbatches⟩ := issue_step hs
  obtain ⟨-, hall⟩ := hserial.unsent last hpc
  have hpayloads : (d.arrive cfg connID nonce w).payloads = d.payloads := by
    show w.batches.map Batch.payload = _
    rw [hbatches]
    rfl
  -- the handlers before this one have returned, so nothing is in progress
  have hreturned : ∀ {earlier : List Nat} {g : Nat}, d.own = earlier ++ [g] →
      d.server.pcOf g = .done := fun hown => hall _ (by rw [hown]; simp)
  have hold : ∀ g ∈ d.own, (d.arrive cfg connID nonce w).server.pcOf g = .done := fun g hg =>
    pcOf_done (arrive_request nonce w) (hserial.known g hg) (hall g hg)
  cases h with
  | idle _ hwrites =>
    exact .asked (arrive_own nonce w) (by rw [hpayloads]; exact hserial.current_batch hpc)
      (arrive_pcOf nonce w) (by rw [hpayloads]; exact hwrites)
  | asked hown _ hpc' _ =>
    rw [hreturned hown] at hpc'
    cases hpc'
  | found hown _ hpc' _ =>
    rw [hreturned hown] at hpc'
    cases hpc'
  | breaking hown hpc' _ =>
    rw [hreturned hown] at hpc'
    rcases hpc' with hpc' | hpc' <;> cases hpc'
  | ended hgone _ _ hwrites =>
    refine .ended hgone (fun g hg id b hpc' => ?_) (fun g hg id b hpc' => ?_)
      (by rw [hpayloads]; exact hwrites)
    · rw [arrive_own] at hg
      rcases List.mem_append.mp hg with hg | hg
      · rw [hold g hg] at hpc'
        cases hpc'
      · rw [List.mem_singleton.mp hg, arrive_pcOf] at hpc'
        cases hpc'
    · rw [arrive_own] at hg
      rcases List.mem_append.mp hg with hg | hg
      · rw [hold g hg] at hpc'
        cases hpc'
      · rw [List.mem_singleton.mp hg, arrive_pcOf] at hpc'
        cases hpc'
        rfl

section Serve

variable {s : Server} {b : Dpi.Act} {c : Nat} {cc : ClientConn}

/-- What the last handler of the upload writes is added to what the remote has got. -/
theorem writtenByAny_snoc {own : List Nat} {cc' : ClientConn} {h : Nat} {bytes : Bytes}
    (hmem : h ∈ own) (hnew : cc'.written = cc.written ++ [(h, bytes)]) :
    cc'.writtenByAny own = cc.writtenByAny own ++ [bytes] := by
  simp [ClientConn.writtenByAny, hnew, List.filter_append, hmem]

/-- A handler of the upload that makes a step is the last one, and the others have returned. -/
theorem Serial.last_of_step {h : Nat} {m : HandlerMove} (hserial : Serial d)
    (hs : Dpi.Step cfg d.server (.handler h m) s) (hmem : h ∈ d.own) :
    ∃ earlier, d.own = earlier ++ [h] ∧ ∀ x ∈ earlier, s.pcOf x = .done := by
  have hrunning := running_of_step hs (hserial.known h hmem)
  rcases List.eq_nil_or_concat' d.own with hnil | ⟨earlier, g, hown⟩
  · rw [hnil] at hmem
    cases hmem
  · have hearlier : ∀ x ∈ earlier, d.server.pcOf x = .done := fun x hx =>
      hserial.earlier x (by rw [hown, List.dropLast_concat]; exact hx)
    rw [hown] at hmem
    obtain rfl : h = g := by
      rcases List.mem_append.mp hmem with hold | hnew
      · exact absurd (hearlier h hold) hrunning
      · exact List.mem_singleton.mp hnew
    refine ⟨earlier, hown, fun x hx => pcOf_done hs (hserial.known x ?_) (hearlier x hx)⟩
    rw [hown]
    exact List.mem_append_left _ hx

/-- The handler of a batch looks the connection up. -/
theorem Stage.asked_step {h : Nat} {m : HandlerMove} {earlier : List Nat} {x : Bytes}
    {writes : List Bytes} (hs : Dpi.Step cfg d.server (.handler h m) s)
    (hown : d.own = earlier ++ [h]) (hreturned : ∀ g ∈ earlier, s.pcOf g = .done)
    (hb : d.payloads[earlier.length]? = some x) (hpc : d.server.pcOf h = .dataLookup connID x)
    (hwrites : writes = d.payloads.take earlier.length) :
    Stage connID c { d with server := s } writes := by
  have hbegins : Begins d.payloads writes :=
    ⟨_, Nat.le_of_lt (List.getElem?_eq_some_iff.mp hb).1, Or.inl hwrites⟩
  -- where the handlers are, in the terms of the last one
  have hall : ∀ {P : Pc → Prop}, P .done → P (s.pcOf h) → ∀ g ∈ d.own, P (s.pcOf g) := by
    intro P hdone hlast g hg
    rw [hown] at hg
    rcases List.mem_append.mp hg with hg | hg
    · rw [hreturned g hg]
      exact hdone
    · rw [List.mem_singleton.mp hg]
      exact hlast
  rcases lookup_own hs hpc with ⟨-, hgone, hdone⟩ | ⟨e, -, hlinked, hwrite⟩
  · -- nothing is registered under the id
    refine .ended (by rw [hgone]; nofun) ?_ ?_ hbegins
    · exact hall (P := fun pc => ∀ id y, pc ≠ .dataWrite id y c) nofun (by rw [hdone]; nofun)
    · exact hall (P := fun pc => ∀ id y, pc = .dataLookup id y → id = connID) nofun
        (by rw [hdone]; nofun)
  · by_cases hec : e = c
    · subst hec
      exact .found hown hb hwrite hwrites
    · -- another connection is registered under the id
      refine .ended (by rw [hlinked]; exact fun heq => hec (Option.some.inj heq)) ?_ ?_ hbegins
      · refine hall (P := fun pc => ∀ id y, pc ≠ .dataWrite id y c) nofun ?_
        rw [hwrite]
        intro id y heq
        cases heq
        exact hec rfl
      · exact hall (P := fun pc => ∀ id y, pc = .dataLookup id y → id = connID) nofun
          (by rw [hwrite]; nofun)

/-- The handler of a batch writes it to the remote. -/
theorem Stage.found_step {h : Nat} {m : HandlerMove} {earlier : List Nat} {x : Bytes}
    (hs : Dpi.Step cfg d.server (.handler h m) s) (hcc : d.server.conns[c]? = some cc)
    (hown : d.own = earlier ++ [h]) (hreturned : ∀ g ∈ earlier, s.pcOf g = .done)
    (hb : d.payloads[earlier.length]? = some x) (hpc : d.server.pcOf h = .dataWrite connID x c)
    (hwrites : cc.writtenByAny d.own = d.payloads.take earlier.length) :
    ∃ cc', s.conns[c]? = some cc' ∧
      Stage connID c { d with server := s } (cc'.writtenByAny d.own) := by
  have hmem : h ∈ d.own := by rw [hown]; simp
  obtain ⟨dd, cc', hdd, hcc', hwrote⟩ := write_own hs hpc
  rw [hcc] at hdd
  cases hdd
  refine ⟨cc', hcc', ?_⟩
  rcases hwrote with ⟨hnew, hdone⟩ | ⟨n, hnew, hclose⟩
  · -- all of it
    refine .idle (fun g hg => ?_) ?_
    · change g ∈ d.own at hg
      rw [hown] at hg
      rcases List.mem_append.mp hg with hg | hg
      · exact hreturned g hg
      · rw [List.mem_singleton.mp hg]
        exact hdone
    · rw [writtenByAny_snoc hmem hnew, hwrites]
      show _ = d.payloads.take d.own.length
      rw [hown, List.length_append, List.length_singleton, List.take_add_one, hb]
      rfl
  · refine .breaking hown (Or.inl hclose) ?_
    rw [writtenByAny_snoc hmem hnew, hwrites]
    exact ⟨_, Nat.le_of_lt (List.getElem?_eq_some_iff.mp hb).1, Or.inr ⟨x, n, hb, rfl⟩⟩

/-- The handler of a batch whose write failed removes the connection. -/
theorem Stage.breaking_step {h : Nat} {m : HandlerMove} {earlier : List Nat} {writes : List Bytes}
    (hs : Dpi.Step cfg d.server (.handler h m) s) (hown : d.own = earlier ++ [h])
    (hreturned : ∀ g ∈ earlier, s.pcOf g = .done)
    (hpc : d.server.pcOf h = .closeRemote connID c ∨ d.server.pcOf h = .unregister connID)
    (hwrites : Begins d.payloads writes) : Stage connID c { d with server := s } writes := by
  rcases hpc with hpc | hpc
  · exact .breaking hown (Or.inr (close_own hs hpc)) hwrites
  · obtain ⟨hgone, hdone⟩ := unregister_own hs hpc
    have hall : ∀ g ∈ d.own, s.pcOf g = .done := by
      intro g hg
      rw [hown] at hg
      rcases List.mem_append.mp hg with hg | hg
      · exact hreturned g hg
      · rw [List.mem_singleton.mp hg]
        exact hdone
    refine .ended (by rw [hgone]; nofun) (fun g hg => ?_) (fun g hg => ?_) hwrites
    · rw [hall g hg]
      nofun
    · rw [hall g hg]
      nofun

/-- After the end no handler of the upload comes to the remote. -/
theorem Stage.ended_step {writes : List Bytes} (hserial : Serial d)
    (hs : Dpi.Step cfg d.server b s) (hc : c < d.server.conns.length)
    (hgone : d.server.clients connID ≠ some c)
    (hnone : ∀ h ∈ d.own, ∀ id x, d.server.pcOf h ≠ .dataWrite id x c)
    (hask : ∀ h ∈ d.own, ∀ id x, d.server.pcOf h = .dataLookup id x → id = connID)
    (hwrites : Begins d.payloads writes) : Stage connID c { d with server := s } writes := by
  -- a handler stays where it is, or follows the control flow
  have hmoves : ∀ g ∈ d.own, (∀ id x, s.pcOf g ≠ .dataWrite id x c) ∧
      ∀ id x, s.pcOf g = .dataLookup id x → id = connID := by
    intro g hg
    by_cases hown : ∃ m, b = .handler g m
    · obtain ⟨m, rfl⟩ := hown
      obtain ⟨hd, hd', hh, hset, hnext⟩ := handler_next hs
      have hpc : d.server.pcOf g = hd.pc := by rw [Server.pcOf, hh]
      have hpc' : s.pcOf g = hd'.pc := by rw [Server.pcOf, hset, pool_set_self hh]
      rw [hpc']
      refine ⟨fun id x hwrite => ?_, fun id x hlookup => ?_⟩
      · -- it could only have found the connection in the table
        rw [hwrite] at hnext
        generalize hold : hd.pc = pc at hnext
        cases hnext
        rw [hold] at hpc
        obtain rfl := hask g hg _ _ hpc
        rcases lookup_own hs hpc with ⟨-, -, hdone⟩ | ⟨e, hlinked, -, hfound⟩
        · rw [hpc', hwrite] at hdone
          cases hdone
        · rw [hpc', hwrite] at hfound
          cases hfound
          exact hgone hlinked
      · rw [hlookup] at hnext
        generalize hd.pc = pc at hnext
        cases hnext
    · rw [pcOf_frame hs (hserial.known g hg) fun m hm => hown ⟨m, hm⟩]
      exact ⟨hnone g hg, hask g hg⟩
  exact .ended (unlinked_step hs hc hgone) (fun g hg => (hmoves g hg).1)
    (fun g hg => (hmoves g hg).2) hwrites

/-- A step of a handler of the upload. -/
theorem Stage.own_step {h : Nat} {m : HandlerMove} (hserial : Serial d)
    (hcc : d.server.conns[c]? = some cc) (hstage : Stage connID c d (cc.writtenByAny d.own))
    (hs : Dpi.Step cfg d.server (.handler h m) s) (hmem : h ∈ d.own) :
    ∃ cc', s.conns[c]? = some cc' ∧
      Stage connID c { d with server := s } (cc'.writtenByAny d.own) := by
  obtain ⟨earlier, hlist, hreturned⟩ := hserial.last_of_step hs hmem
  -- unless it writes to the remote, the remote gets nothing
  have hquiet : (∀ id x, d.server.pcOf h ≠ .dataWrite id x c) →
      ∃ cc', s.conns[c]? = some cc' ∧ cc'.writtenByAny d.own = cc.writtenByAny d.own := by
    intro hnot
    refine writtenByAny_frame hs hcc fun g _ m' hm' => ?_
    cases hm'
    exact hnot
  cases hstage with
  | idle hall _ => exact absurd (hall h hmem) (running_of_step hs (hserial.known h hmem))
  | asked hown hb hpc hwrites =>
    obtain ⟨rfl, hsame⟩ := List.append_inj' (hown.symm.trans hlist) rfl
    cases hsame
    obtain ⟨cc', hcc', hsame⟩ := hquiet (by rw [hpc]; nofun)
    exact ⟨cc', hcc', .asked_step hs hown hreturned hb hpc (hsame.trans hwrites)⟩
  | found hown hb hpc hwrites =>
    obtain ⟨rfl, hsame⟩ := List.append_inj' (hown.symm.trans hlist) rfl
    cases hsame
    exact Stage.found_step hs hcc hown hreturned hb hpc hwrites
  | breaking hown hpc hwrites =>
    obtain ⟨rfl, hsame⟩ := List.append_inj' (hown.symm.trans hlist) rfl
    cases hsame
    obtain ⟨cc', hcc', hsame⟩ := hquiet (by rcases hpc with hpc | hpc <;> rw [hpc] <;> nofun)
    exact ⟨cc', hcc', .breaking_step hs hown hreturned hpc (hsame ▸ hwrites)⟩
  | ended hgone hnone hask hwrites =>
    obtain ⟨cc', hcc', hsame⟩ := hquiet (hnone h hmem)
    exact ⟨cc', hcc', .ended_step hserial hs (List.getElem?_eq_some_iff.mp hcc).1 hgone hnone hask
      (hsame ▸ hwrites)⟩

/-- A step of anyone else on the server. -/
theorem Stage.frame (hserial : Serial d) (hcc : d.server.conns[c]? = some cc)
    (hstage : Stage connID c d (cc.writtenByAny d.own)) (hs : Dpi.Step cfg d.server b s)
    (hother : ∀ h ∈ d.own, ∀ m, b ≠ .handler h m) :
    ∃ cc', s.conns[c]? = some cc' ∧
      Stage connID c { d with server := s } (cc'.writtenByAny d.own) := by
  obtain ⟨cc', hcc', hsame⟩ :=
    writtenByAny_frame hs hcc fun h hmem m hm => absurd hm (hother h hmem m)
  refine ⟨cc', hcc', ?_⟩
  rw [hsame]
  have hpcs : ∀ h ∈ d.own, s.pcOf h = d.server.pcOf h := fun h hmem =>
    pcOf_frame hs (hserial.known h hmem) (hother h hmem)
  have hlast : ∀ {earlier : List Nat} {h : Nat}, d.own = earlier ++ [h] →
      s.pcOf h = d.server.pcOf h := fun hown => hpcs _ (by rw [hown]; simp)
  cases hstage with
  | idle hall hwrites => exact .idle (fun h hmem => (hpcs h hmem).trans (hall h hmem)) hwrites
  | asked hown hb hpc hwrites => exact .asked hown hb ((hlast hown).trans hpc) hwrites
  | found hown hb hpc hwrites => exact .found hown hb ((hlast hown).trans hpc) hwrites
  | breaking hown hpc hwrites =>
    refine .breaking hown ?_ hwrites
    show s.pcOf _ = _ ∨ s.pcOf _ = _
    rw [hlast hown]
    exact hpc
  | ended hgone hnone hask hwrites =>
    exact .ended_step hserial hs (List.getElem?_eq_some_iff.mp hcc).1 hgone hnone hask hwrites

end Serve

/-! ## Every run -/

/-- The remote of connection `c` has got the first batches of the upload. -/
def Streams (connID : UInt32) (c : Nat) (d : Datagrams) : Prop :=
  Serial d ∧ ∃ cc, d.server.conns[c]? = some cc ∧ Stage connID c d (cc.writtenByAny d.own)

theorem Streams.step {c : Nat} (h : Streams connID c d) (hs : Step cfg connID d a d') :
    Streams connID c d' := by
  obtain ⟨hserial, cc, hcc, hstage⟩ := h
  cases hs with
  | client hreply hs => exact ⟨hserial.client hreply hs, cc, hcc, hstage.client hserial hs⟩
  | @delivered nonce w hs =>
    refine ⟨hserial.deliver hs nonce, cc, hcc, ?_⟩
    -- the new handler has written nothing
    have hsame : cc.writtenByAny (d.arrive cfg connID nonce w).own = cc.writtenByAny d.own := by
      rw [arrive_own, ClientConn.writtenByAny, ClientConn.writtenByAny]
      congr 1
      refine List.filter_congr fun e he => ?_
      have hne : e.1 ≠ d.server.handlers.length :=
        Nat.ne_of_lt (hserial.signed c cc e.1 e.2 hcc he)
      simp [hne]
    rw [hsame]
    exact hstage.deliver hserial hs nonce
  | @served b s hs =>
    refine ⟨hserial.serve hs, ?_⟩
    by_cases hown : ∃ h ∈ d.own, ∃ m, b = .handler h m
    · obtain ⟨h, hmem, m, rfl⟩ := hown
      exact hstage.own_step hserial hcc hs hmem
    · exact hstage.frame hserial hcc hs fun h hmem m hm => hown ⟨h, hmem, m, hm⟩

/-- What the remote of a connection has got through one `tunnelConn`. -/
structure InOrder (d : Datagrams) (cc : ClientConn) : Prop where
  /-- Each call of `remote.Write` has one batch, from the first on and in order; only the last may
  have taken a part of it. -/
  batches : Begins d.payloads (cc.writtenByAny d.own)
  /-- As bytes, it begins what `pumpWrite` received from the calls of `Write`. -/
  bytes : (cc.writtenByAny d.own).flatten <+: d.client.dequeued.flatMap d.client.dataOf

/-- Connection `c` is registered under the id when the upload starts. In every run, whatever other
requests do to the connection and to its id: nothing is missing in what its remote gets, nothing
comes twice, and nothing out of order. -/
theorem upload_in_order (cfg : Config) (connID : UInt32) (c : Nat) (before : List Dpi.Act)
    (server : Server) (hbefore : exec (Dpi.step cfg) .new before = some server)
    (hconn : server.clients connID = some c) (acts : List Act) (d : Datagrams)
    (hrun : exec (step cfg connID) (new server) acts = some d) :
    ∃ cc, d.server.conns[c]? = some cc ∧ d.InOrder cc := by
  have hstart : Streams connID c (new server) := by
    obtain ⟨cc, hcc, -⟩ := (wellFormed_run hbefore).table connID c hconn
    refine ⟨serial_new (signed_run hbefore), cc, hcc, .idle nofun ?_⟩
    simp [ClientConn.writtenByAny, own, new]
  obtain ⟨hserial, cc, hcc, hstage⟩ := exec_invariant_all
    (fun _ _ _ h hs => Streams.step h (step_cases hs)) acts _ d hstart hrun
  have hbegins := hstage.begins hserial
  refine ⟨cc, hcc, hbegins, hbegins.flatten.trans ?_⟩
  -- the batches are what was received, in order
  have hpayloads : d.payloads.flatten = (d.client.batches.flatMap Batch.reqs).flatMap d.client.dataOf := by
    rw [payloads, ← List.flatMap_def, List.flatMap_assoc]
    exact List.flatMap_congr fun b hb => hserial.batched.filled.payload b hb
  rw [hpayloads, hserial.batched.ledger.order, List.flatMap_append]
  exact List.prefix_append _ _

/-- The batch goes out, and handler `h` looks its connection up. -/
def sendNext (h : Nat) : List Act :=
  [.client .fire, .client (.pump .tick), .deliver .zero, .server (.handler h .lookup)]

/-- The second of three batches is cut by its remote, and the connection is gone; `SendData` returns
nil for all three. -/
def cutUpload : List Act :=
  queueOne 0 [1] ++ sendOne 1 1 ++ ackOne 0 ++ queueOne 1 [2, 3] ++ sendNext 2 ++
    [.server (.handler 2 (.write 1 false)), .server (.handler 2 .closeRemote),
      .server (.handler 2 .unregister), .client (.pump (.reply none))] ++ ackOne 1 ++
    queueOne 2 [4] ++ sendNext 3 ++ [.client (.pump (.reply none))]

theorem upload_in_order_cut :
    ∃ d, exec (step .plain 1) (new connectedUdp) cutUpload = some d ∧
      d.client.results = [none, none, none] ∧
      d.server.conns.map (·.written) = [[(1, [1]), (2, [2])]] ∧
      ∃ cc, d.server.conns[0]? = some cc ∧ d.InOrder cc := by
  apply exec_reaches (P := fun d : Datagrams => d.client.results = [none, none, none] ∧
    d.server.conns.map (·.written) = [[(1, [1]), (2, [2])]])
  · decide +kernel
  · rintro d hd ⟨hresults, hwritten⟩
    exact ⟨hresults, hwritten, upload_in_order .plain 1 0 connectUdp connectedUdp exec_connectUdp rfl
      cutUpload d hd⟩

end Datagrams

end PTBridge.Dpi
