import PTBridge.Container.Channel
import PTBridge.Dpi.Client.Transport
import PTBridge.Transition.Pool
import PTBridge.Transition.Run

/-!
# `dpi/client/proxy.go`: the write side of `tunnelConn`

`Write` hands its data to `pumpWrite` through `writeCh` and waits for an acknowledgement on a
channel of its own. `pumpWrite` collects requests into a batch and sends it when it is large enough,
when a timer ticks, or for the last time when `closeCh` is closed; after a failed send it closes the
connection itself. `Close` runs its body once: it closes `closeCh`, then tells the server, then
closes the reader. Any number of callers write and close at the same time.

- `step` is the code; the label says who moves. `Step` and `step_cases` list what a step can do.
- `batches` and `results` log the calls of `SendData` and what they returned, `issued` the requests
  in the order in which they went out, `dequeued` the requests that `pumpWrite` has received.
-/

namespace PTBridge.Dpi

open PTBridge.Stream PTBridge.Container PTBridge.Transition

/-! ## State -/

/-- What a call of `tunnelConn.Write` returned. -/
inductive WriteResult where
  /-- `(n, nil)` -/
  | ok (n : Nat)
  /-- `(0, io.EOF)` -/
  | eof
  /-- `(0, err)` -/
  | failed (err : TransportError)
  deriving DecidableEq

/-- Where a call of `Write` stands. -/
inductive WriteStage where
  /-- at the select that sends the request -/
  | queueing
  /-- at the select that waits for the acknowledgement -/
  | waiting
  | returned (r : WriteResult)
  deriving DecidableEq

/-- A call of `Write`, which is also its `writeReq`. -/
structure WriteCall where
  data : Bytes
  stage : WriteStage
  /-- The values that were sent on `ack`; `none` is nil. -/
  acked : List (Option TransportError)
  deriving DecidableEq

/-- The `timer` of `pumpWrite`. -/
inductive Timer where
  /-- nil -/
  | nil
  | armed
  /-- the tick is in its channel -/
  | fired
  /-- the tick was received -/
  | spent
  deriving DecidableEq

/-- Where `pumpWrite` stands. -/
inductive WritePumpPc where
  /-- at the select -/
  | top
  /-- in `SendData`: whether its request is out, and whether it is the flush after `closeCh` -/
  | sending (isOut last : Bool)
  /-- in `flush(err)`, with `i` acknowledgements sent -/
  | flushing (err : Option TransportError) (last : Bool) (i : Nat)
  /-- in `tc.Close()` after a failed send -/
  | closing (k : Nat)
  | done
  deriving DecidableEq

/-- `sync.Once`. -/
inductive Once where
  | idle
  | running
  | done
  deriving DecidableEq

/-- Where a call of `Close` stands. -/
inductive CloseCallPc where
  /-- at `closeOnce.Do` -/
  | entering
  /-- before `close(tc.closeCh)` -/
  | closingCh
  /-- before `CloseConn` -/
  | closingConn
  /-- in `CloseConn`, after the point where its request goes out -/
  | awaiting
  /-- before `tc.reader.Close()` -/
  | closingReader
  | returned
  deriving DecidableEq

/-- The requests of the connection to the server. -/
inductive Msg where
  | data (payload : Bytes)
  | close
  deriving DecidableEq

/-- A call of `SendData`: the requests in the batch and its bytes. -/
structure Batch where
  reqs : List Nat
  payload : Bytes
  deriving DecidableEq

/-- `tunnelConn`, its write side. A request is named by its call of `Write`. -/
structure TunnelWriter where
  writes : List WriteCall
  writeCh : Chan 64 Nat
  /-- `closeCh` is closed. -/
  closeCh : Bool
  batch : Bytes
  acks : List Nat
  timer : Timer
  pump : WritePumpPc
  closeOnce : Once
  closers : List CloseCallPc
  /-- `CloseConn` was called. -/
  closeCalled : Bool
  dequeued : List Nat
  batches : List Batch
  results : List (Option TransportError)
  issued : List Msg

namespace TunnelWriter

/-- `newTunnelConn` once `DownloadStream` has returned. -/
def new : TunnelWriter where
  writes := []
  writeCh := .make
  closeCh := false
  batch := []
  acks := []
  timer := .nil
  pump := .top
  closeOnce := .idle
  closers := []
  closeCalled := false
  dequeued := []
  batches := []
  results := []
  issued := []

/-- The data of request `k`. -/
def dataOf (s : TunnelWriter) (k : Nat) : Bytes := (s.writes[k]?.map WriteCall.data).getD []

def setWrite (s : TunnelWriter) (k : Nat) (w : WriteCall) : TunnelWriter :=
  { s with writes := s.writes.set k w }

def setCloser (s : TunnelWriter) (k : Nat) (c : CloseCallPc) : TunnelWriter :=
  { s with closers := s.closers.set k c }

/-! ## Steps -/

def maxBatchBytes : Nat := 64 * 1024

inductive PumpMove where
  /-- `req := <-tc.writeCh` -/
  | recv
  /-- `<-timerC` -/
  | tick
  /-- `<-tc.closeCh` -/
  | closed
  /-- the request of `SendData` goes out -/
  | issue
  /-- `SendData` returns -/
  | reply (err : Option TransportError)
  /-- `ack <- err; close(ack)` -/
  | ack
  /-- the end of `flush`, and what follows it -/
  | flushed
  /-- `tc.Close()` has returned -/
  | leave
  deriving DecidableEq

inductive CloseMove where
  /-- `closeOnce.Do` lets the call in, or returns -/
  | enter
  | closeCh
  /-- `CloseConn` is called, and its request goes out or not -/
  | conn (isOut : Bool)
  | reply
  | reader
  deriving DecidableEq

inductive Act where
  /-- a call of `Write(b)` -/
  | write (b : Bytes)
  /-- `tc.writeCh <- req` -/
  | enqueue (k : Nat)
  /-- `<-tc.closeCh` instead -/
  | refuse (k : Nat)
  /-- `err := <-req.ack` -/
  | collect (k : Nat)
  /-- `<-tc.closeCh` instead -/
  | abandon (k : Nat)
  /-- `flushDelay` is over -/
  | fire
  | pump (m : PumpMove)
  /-- a call of `Close` -/
  | close
  | closer (k : Nat) (m : CloseMove)
  deriving DecidableEq

/-- `sendBatch` with a batch that is not empty, up to the call of `SendData`. -/
def sendBatch (s : TunnelWriter) (last : Bool) : TunnelWriter :=
  { s with pump := .sending false last, batches := s.batches ++ [⟨s.acks, s.batch⟩] }

/-- The request `k` is received and added to the batch. -/
def take (s : TunnelWriter) (k : Nat) (ch : Chan 64 Nat) : TunnelWriter :=
  { s with
    writeCh := ch
    batch := s.batch ++ s.dataOf k
    acks := s.acks ++ [k]
    dequeued := s.dequeued ++ [k] }

/-- `flush` after the last acknowledgement. -/
def reset (s : TunnelWriter) : TunnelWriter := { s with acks := [], batch := [], timer := .nil }

def pumpStep (s : TunnelWriter) (m : PumpMove) : Option TunnelWriter :=
  match s.pump, m with
  | .top, .recv =>
      match s.writeCh.recv with
      | some (some k, ch) =>
          let s' := s.take k ch
          if maxBatchBytes ≤ s'.batch.length then some (s'.sendBatch false)
          else if s'.timer = .nil then some { s' with timer := .armed }
          else some s'
      | _ => none
  | .top, .tick =>
      if s.timer = .fired then
        let s' := { s with timer := .spent }
        -- an empty batch is not sent, and not flushed either
        if s'.batch = [] then some s' else some (s'.sendBatch false)
      else none
  | .top, .closed =>
      if s.closeCh then
        if s.batch = [] then some { s with pump := .done } else some (s.sendBatch true)
      else none
  | .sending false last, .issue =>
      some { s with pump := .sending true last, issued := s.issued ++ [.data s.batch] }
  | .sending isOut last, .reply err =>
      -- without a request there is no success
      if err = none ∧ isOut = false then none
      else some { s with pump := .flushing err last 0, results := s.results ++ [err] }
  | .flushing err last i, .ack =>
      match s.acks[i]? with
      | none => none
      | some k =>
          match s.writes[k]? with
          | none => none
          | some w =>
              some { s.setWrite k { w with acked := w.acked ++ [err] } with
                pump := .flushing err last (i + 1) }
  | .flushing err last i, .flushed =>
      if i = s.acks.length then
        match err with
        | none => some { s.reset with pump := if last then .done else .top }
        | some _ =>
            some { s.reset with
              pump := .closing s.closers.length
              closers := s.closers ++ [.entering] }
      else none
  | .closing k, .leave =>
      if s.closers[k]? = some .returned then some { s with pump := .done } else none
  | _, _ => none

def closerStep (s : TunnelWriter) (k : Nat) (m : CloseMove) : Option TunnelWriter :=
  match s.closers[k]?, m with
  | some .entering, .enter =>
      match s.closeOnce with
      | .idle => some { s.setCloser k .closingCh with closeOnce := .running }
      | .running => none
      | .done => some (s.setCloser k .returned)
  | some .closingCh, .closeCh => some { s.setCloser k .closingConn with closeCh := true }
  | some .closingConn, .conn isOut =>
      some { s.setCloser k .awaiting with
        closeCalled := true
        issued := if isOut then s.issued ++ [.close] else s.issued }
  | some .awaiting, .reply => some (s.setCloser k .closingReader)
  | some .closingReader, .reader => some { s.setCloser k .returned with closeOnce := .done }
  | _, _ => none

def step (s : TunnelWriter) : Act → Option TunnelWriter
  | .write b => some { s with writes := s.writes ++ [⟨b, .queueing, []⟩] }
  | .enqueue k =>
      match s.writes[k]?, s.writeCh.send k with
      | some ⟨data, .queueing, acked⟩, some ch =>
          some { s.setWrite k ⟨data, .waiting, acked⟩ with writeCh := ch }
      | _, _ => none
  | .refuse k =>
      match s.writes[k]?, s.closeCh with
      | some ⟨data, .queueing, acked⟩, true =>
          some (s.setWrite k ⟨data, .returned .eof, acked⟩)
      | _, _ => none
  | .collect k =>
      match s.writes[k]? with
      | some ⟨data, .waiting, none :: acked⟩ =>
          some (s.setWrite k ⟨data, .returned (.ok data.length), none :: acked⟩)
      | some ⟨data, .waiting, some err :: acked⟩ =>
          some (s.setWrite k ⟨data, .returned (.failed err), some err :: acked⟩)
      | _ => none
  | .abandon k =>
      match s.writes[k]?, s.closeCh with
      | some ⟨data, .waiting, acked⟩, true => some (s.setWrite k ⟨data, .returned .eof, acked⟩)
      | _, _ => none
  | .fire => if s.timer = .armed then some { s with timer := .fired } else none
  | .pump m => pumpStep s m
  | .close => some { s with closers := s.closers ++ [.entering] }
  | .closer k m => closerStep s k m

/-! ## What a step can do -/

/-- The steps, one case for each branch of the code. -/
inductive Step (s : TunnelWriter) : Act → TunnelWriter → Prop where
  | wrote {b} : Step s (.write b) { s with writes := s.writes ++ [⟨b, .queueing, []⟩] }
  | enqueued {k data acked ch} (hk : s.writes[k]? = some ⟨data, .queueing, acked⟩)
      (hsend : s.writeCh.send k = some ch) :
      Step s (.enqueue k) { s.setWrite k ⟨data, .waiting, acked⟩ with writeCh := ch }
  | refused {k data acked} (hk : s.writes[k]? = some ⟨data, .queueing, acked⟩)
      (hclosed : s.closeCh = true) :
      Step s (.refuse k) (s.setWrite k ⟨data, .returned .eof, acked⟩)
  | collected {k data err acked r} (hk : s.writes[k]? = some ⟨data, .waiting, err :: acked⟩)
      (hok : r = .ok data.length ∧ err = none ∨ ∃ e, r = .failed e ∧ err = some e) :
      Step s (.collect k) (s.setWrite k ⟨data, .returned r, err :: acked⟩)
  | abandoned {k data acked} (hk : s.writes[k]? = some ⟨data, .waiting, acked⟩)
      (hclosed : s.closeCh = true) :
      Step s (.abandon k) (s.setWrite k ⟨data, .returned .eof, acked⟩)
  | fired (ht : s.timer = .armed) : Step s .fire { s with timer := .fired }
  | took {k ch} (hpc : s.pump = .top) (hrecv : s.writeCh.recv = some (some k, ch))
      (hsmall : (s.take k ch).batch.length < maxBatchBytes) (ht : s.timer ≠ .nil) :
      Step s (.pump .recv) (s.take k ch)
  | tookFirst {k ch} (hpc : s.pump = .top) (hrecv : s.writeCh.recv = some (some k, ch))
      (hsmall : (s.take k ch).batch.length < maxBatchBytes) (ht : s.timer = .nil) :
      Step s (.pump .recv) { s.take k ch with timer := .armed }
  | tookFull {k ch} (hpc : s.pump = .top) (hrecv : s.writeCh.recv = some (some k, ch))
      (hfull : maxBatchBytes ≤ (s.take k ch).batch.length) :
      Step s (.pump .recv) ((s.take k ch).sendBatch false)
  | tickedEmpty (hpc : s.pump = .top) (ht : s.timer = .fired) (hbatch : s.batch = []) :
      Step s (.pump .tick) { s with timer := .spent }
  | ticked (hpc : s.pump = .top) (ht : s.timer = .fired) (hbatch : s.batch ≠ []) :
      Step s (.pump .tick) ({ s with timer := .spent }.sendBatch false)
  | stopped (hpc : s.pump = .top) (hclosed : s.closeCh = true) (hbatch : s.batch = []) :
      Step s (.pump .closed) { s with pump := .done }
  | flushLast (hpc : s.pump = .top) (hclosed : s.closeCh = true) (hbatch : s.batch ≠ []) :
      Step s (.pump .closed) (s.sendBatch true)
  | issuedData {last} (hpc : s.pump = .sending false last) :
      Step s (.pump .issue)
        { s with pump := .sending true last, issued := s.issued ++ [.data s.batch] }
  | replied {isOut last err} (hpc : s.pump = .sending isOut last)
      (hout : err = none → isOut = true) :
      Step s (.pump (.reply err))
        { s with pump := .flushing err last 0, results := s.results ++ [err] }
  | acknowledged {err last i k w} (hpc : s.pump = .flushing err last i)
      (hi : s.acks[i]? = some k) (hk : s.writes[k]? = some w) :
      Step s (.pump .ack)
        { s.setWrite k { w with acked := w.acked ++ [err] } with
          pump := .flushing err last (i + 1) }
  | flushedOk {last i pc} (hpc : s.pump = .flushing none last i) (hi : i = s.acks.length)
      (hnext : pc = .done ∨ pc = .top) :
      Step s (.pump .flushed) { s.reset with pump := pc }
  | flushedErr {err last i} (hpc : s.pump = .flushing (some err) last i) (hi : i = s.acks.length) :
      Step s (.pump .flushed)
        { s.reset with
          pump := .closing s.closers.length
          closers := s.closers ++ [.entering] }
  | left {k} (hpc : s.pump = .closing k) (hk : s.closers[k]? = some .returned) :
      Step s (.pump .leave) { s with pump := .done }
  | closeCalls : Step s .close { s with closers := s.closers ++ [.entering] }
  | entered {k} (hk : s.closers[k]? = some .entering) (honce : s.closeOnce = .idle) :
      Step s (.closer k .enter) { s.setCloser k .closingCh with closeOnce := .running }
  | passed {k} (hk : s.closers[k]? = some .entering) (honce : s.closeOnce = .done) :
      Step s (.closer k .enter) (s.setCloser k .returned)
  | closedCh {k} (hk : s.closers[k]? = some .closingCh) :
      Step s (.closer k .closeCh) { s.setCloser k .closingConn with closeCh := true }
  | closedConn {k isOut} (hk : s.closers[k]? = some .closingConn) :
      Step s (.closer k (.conn isOut))
        { s.setCloser k .awaiting with
          closeCalled := true
          issued := if isOut then s.issued ++ [.close] else s.issued }
  | closeReplied {k} (hk : s.closers[k]? = some .awaiting) :
      Step s (.closer k .reply) (s.setCloser k .closingReader)
  | closedReader {k} (hk : s.closers[k]? = some .closingReader) :
      Step s (.closer k .reader) { s.setCloser k .returned with closeOnce := .done }

variable {s s' : TunnelWriter} {a : Act}

theorem pumpStep_cases {m : PumpMove} (h : pumpStep s m = some s') : Step s (.pump m) s' := by
  -- one constructor for each branch that has a successor
  unfold pumpStep at h
  split at h
  · rename_i hpc
    split at h
    · rename_i k ch hrecv
      dsimp only at h
      split at h
      · rename_i hfull
        cases h
        exact .tookFull hpc hrecv hfull
      · rename_i hfull
        have hsmall := Nat.lt_of_not_le hfull
        split at h
        · rename_i ht
          cases h
          exact .tookFirst hpc hrecv hsmall ht
        · rename_i ht
          cases h
          exact .took hpc hrecv hsmall ht
    · cases h
  · rename_i hpc
    split at h
    · rename_i ht
      dsimp only at h
      split at h
      · rename_i hbatch
        cases h
        exact .tickedEmpty hpc ht hbatch
      · rename_i hbatch
        cases h
        exact .ticked hpc ht hbatch
    · cases h
  · rename_i hpc
    split at h
    · rename_i hclosed
      split at h
      · rename_i hbatch
        cases h
        exact .stopped hpc hclosed hbatch
      · rename_i hbatch
        cases h
        exact .flushLast hpc hclosed hbatch
    · cases h
  · rename_i last hpc
    cases h
    exact .issuedData hpc
  · rename_i isOut last err hpc
    split at h
    · cases h
    · rename_i hout
      cases h
      apply Step.replied hpc
      intro herr
      cases isOut with
      | true => rfl
      | false => exact absurd ⟨herr, rfl⟩ hout
  · rename_i err last i hpc
    split at h
    · cases h
    · rename_i k hi
      split at h
      · cases h
      · rename_i w hk
        cases h
        exact .acknowledged hpc hi hk
  · rename_i err last i hpc
    split at h
    · rename_i hi
      split at h
      · cases h
        apply Step.flushedOk hpc hi
        cases last <;> simp
      · cases h
        exact .flushedErr hpc hi
    · cases h
  · rename_i k hpc
    split at h
    · rename_i hk
      cases h
      exact .left hpc hk
    · cases h
  · cases h

theorem closerStep_cases {k : Nat} {m : CloseMove} (h : closerStep s k m = some s') :
    Step s (.closer k m) s' := by
  unfold closerStep at h
  split at h
  · rename_i hk
    split at h
    · rename_i honce
      cases h
      exact .entered hk honce
    · cases h
    · rename_i honce
      cases h
      exact .passed hk honce
  · rename_i hk
    cases h
    exact .closedCh hk
  · rename_i isOut hk
    cases h
    exact .closedConn hk
  · rename_i hk
    cases h
    exact .closeReplied hk
  · rename_i hk
    cases h
    exact .closedReader hk
  · cases h

theorem step_cases (h : step s a = some s') : Step s a s' := by
  cases a with
  | write b =>
    cases h
    exact .wrote
  | enqueue k =>
    simp only [step] at h
    split at h
    · rename_i data acked ch hk hsend
      cases h
      exact .enqueued hk hsend
    · cases h
  | refuse k =>
    simp only [step] at h
    split at h
    · rename_i data acked hk hclosed
      cases h
      exact .refused hk hclosed
    · cases h
  | collect k =>
    simp only [step] at h
    split at h
    · rename_i data acked hk
      cases h
      exact .collected hk (Or.inl ⟨rfl, rfl⟩)
    · rename_i data err acked hk
      cases h
      exact .collected hk (Or.inr ⟨err, rfl, rfl⟩)
    · cases h
  | abandon k =>
    simp only [step] at h
    split at h
    · rename_i data acked hk hclosed
      cases h
      exact .abandoned hk hclosed
    · cases h
  | fire =>
    simp only [step] at h
    split at h
    · rename_i ht
      cases h
      exact .fired ht
    · cases h
  | pump m => exact pumpStep_cases h
  | close =>
    cases h
    exact .closeCalls
  | closer k m => exact closerStep_cases h

/-! ## `Close` -/

/-- The call has closed `closeCh`. -/
def pastCh : CloseCallPc → Bool
  | .closingConn | .awaiting | .closingReader => true
  | _ => false

/-- The call has called `CloseConn`. -/
def pastConn : CloseCallPc → Bool
  | .awaiting | .closingReader => true
  | _ => false

/-- What the calls of `Close` have done by the time they are where they are. -/
structure CloseOk (s : TunnelWriter) : Prop where
  ch : ∀ c ∈ s.closers, pastCh c = true → s.closeCh = true
  conn : ∀ c ∈ s.closers, pastConn c = true → s.closeCalled = true
  returned : .returned ∈ s.closers → s.closeOnce = .done
  finished : s.closeOnce = .done → s.closeCalled = true
  out : .close ∈ s.issued → s.closeCh = true

theorem closeOk_new : CloseOk .new where
  ch := nofun
  conn := nofun
  returned := nofun
  finished := nofun
  out := nofun

/-- A step outside of `Close`, which may make a call or send data. -/
theorem CloseOk.keep (h : CloseOk s) (hclosers : ∀ c ∈ s'.closers, c ∈ s.closers ∨ c = .entering)
    (hch : s'.closeCh = s.closeCh) (hcalled : s'.closeCalled = s.closeCalled)
    (honce : s'.closeOnce = s.closeOnce) (hout : .close ∈ s'.issued → .close ∈ s.issued) :
    CloseOk s' := by
  constructor
  · intro c hc hpast
    rw [hch]
    rcases hclosers c hc with hold | rfl
    · exact h.ch c hold hpast
    · cases hpast
  · intro c hc hpast
    rw [hcalled]
    rcases hclosers c hc with hold | rfl
    · exact h.conn c hold hpast
    · cases hpast
  · intro hret
    rw [honce]
    rcases hclosers _ hret with hold | hnew
    · exact h.returned hold
    · cases hnew
  · rw [honce, hcalled]
    exact h.finished
  · rw [hch]
    exact fun hclose => h.out (hout hclose)

/-- A step of one call of `Close`, from where it stands to `c`. -/
theorem CloseOk.move (h : CloseOk s) {k : Nat} {c : CloseCallPc}
    (hclosers : s'.closers = s.closers.set k c) (hch : s.closeCh = true → s'.closeCh = true)
    (hcalled : s.closeCalled = true → s'.closeCalled = true)
    (honce : s.closeOnce = .done → s'.closeOnce = .done)
    (hpastCh : pastCh c = true → s'.closeCh = true)
    (hpastConn : pastConn c = true → s'.closeCalled = true)
    (hret : c = .returned → s'.closeOnce = .done)
    (hfin : s'.closeOnce = .done → s'.closeCalled = true)
    (hout : .close ∈ s'.issued → s'.closeCh = true) : CloseOk s' := by
  have hmem : ∀ x ∈ s'.closers, x ∈ s.closers ∨ x = c := by
    intro x hx
    rw [hclosers] at hx
    exact List.mem_or_eq_of_mem_set hx
  refine ⟨?_, ?_, ?_, hfin, hout⟩
  · intro x hx hpast
    rcases hmem x hx with hold | rfl
    · exact hch (h.ch x hold hpast)
    · exact hpastCh hpast
  · intro x hx hpast
    rcases hmem x hx with hold | rfl
    · exact hcalled (h.conn x hold hpast)
    · exact hpastConn hpast
  · intro hx
    rcases hmem _ hx with hold | hnew
    · exact honce (h.returned hold)
    · exact hret hnew.symm

theorem closeOk_step (h : CloseOk s) (hstep : Step s a s') : CloseOk s' := by
  have hsame : ∀ c ∈ s.closers, c ∈ s.closers ∨ c = .entering := fun _ hc => Or.inl hc
  have hcall : ∀ c ∈ s.closers ++ [CloseCallPc.entering], c ∈ s.closers ∨ c = .entering := by
    intro c hc
    simpa using hc
  cases hstep with
  | wrote | enqueued | refused | collected | abandoned | fired => exact h.keep hsame rfl rfl rfl id
  | took | tookFirst | tookFull | tickedEmpty | ticked | stopped | flushLast =>
    exact h.keep hsame rfl rfl rfl id
  | issuedData hpc =>
    refine h.keep hsame rfl rfl rfl fun hclose => ?_
    simpa using hclose
  | replied | acknowledged | flushedOk | left => exact h.keep hsame rfl rfl rfl id
  | flushedErr => exact h.keep hcall rfl rfl rfl id
  | closeCalls => exact h.keep hcall rfl rfl rfl id
  | entered hk honce =>
    have hno : s.closeOnce ≠ .done := by
      rw [honce]
      nofun
    exact h.move rfl id id (fun hdone => absurd hdone hno) nofun nofun nofun nofun h.out
  | passed hk honce => exact h.move rfl id id id nofun nofun (fun _ => honce) h.finished h.out
  | closedCh hk =>
    exact h.move rfl (fun _ => rfl) id id (fun _ => rfl) nofun nofun h.finished fun _ => rfl
  | @closedConn k isOut hk =>
    have hch : s.closeCh = true := h.ch _ (List.mem_of_getElem? hk) rfl
    exact h.move rfl id (fun _ => rfl) id (fun _ => hch) (fun _ => rfl) nofun (fun _ => rfl)
      fun _ => hch
  | closeReplied hk =>
    have hmem := List.mem_of_getElem? hk
    exact h.move rfl id id id (fun _ => h.ch _ hmem rfl) (fun _ => h.conn _ hmem rfl) nofun
      h.finished h.out
  | closedReader hk =>
    have hcalled := h.conn _ (List.mem_of_getElem? hk) rfl
    exact h.move rfl id id (fun _ => rfl) nofun nofun (fun _ => rfl) (fun _ => hcalled) h.out

theorem closeOk_run {acts : List Act} (hrun : exec step .new acts = some s) : CloseOk s :=
  exec_invariant_all (fun _ _ _ h hs => closeOk_step h (step_cases hs)) acts _ _ closeOk_new hrun

end TunnelWriter

end PTBridge.Dpi
