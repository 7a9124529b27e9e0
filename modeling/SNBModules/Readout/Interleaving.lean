import SNBModules.Lib.Accounting
import SNBModules.Lib.Runs
import SNBModules.Readout.Delivery

/-!
# One run: writes, requests and cleanups in any order

Source: `SNBDataHandlingModel.hxx`, `process_item`, and
`SNBRequestHandlerModel.hxx`, `data_request`, `get_fragment_pieces` and
`cleanup_check`.

The producer, the workers of the thread pool and the callers of `cleanup_check`
take turns.  A worker's turn is as short as the source's locks make it: it
classifies its window, then handles one frame under `m_pop_list_mutex` at a
time while frames are written and other workers collect, and at last copies its
pieces into a fragment.  A cleanup waits for `m_requests_running == 0`
(`SNBModules.Readout.CleanupLock`), so it takes one turn, with no worker inside.
-/

namespace SNBModules
namespace Readout

open Lib

/-- A worker inside `data_request`: the request, the result code and status
bits of its window, where its iterator stands and the pieces it points to. -/
structure Worker where
  request : DataRequest
  resultCode : ResultCode
  statusBits : Finset FragmentStatusBits
  position : ℕ
  fragPieces : List Frame
  deriving DecidableEq

/-- The run: the handler, the workers inside `data_request`, the fragments made
so far.  `written` is the history of the frames inserted during the run. -/
structure RunState where
  handler : RequestHandler
  workers : List Worker
  fragments : List Fragment
  written : List Frame
  deriving DecidableEq

/-- One turn. -/
inductive Action where
  | processItem (payload : Frame)
  | enter (dr : DataRequest)
  | collect (i : ℕ)
  | leave (i : ℕ)
  | cleanupCheck
  deriving DecidableEq

/-- The frames in the latency buffer. -/
def RunState.frames (s : RunState) : List Frame := s.handler.latencyBuffer.frames

/-- The frames put into a fragment, or collected for one. -/
def RunState.included (s : RunState) : List Frame :=
  s.fragments.flatMap Fragment.pieces ++ s.workers.flatMap Worker.fragPieces

/-- A worker starts `data_request`, up to the collecting loop. -/
def startRequest (h : RequestHandler) (dr : DataRequest) : Option Worker :=
  if h.latencyBuffer.occupancy = 0 then
    some ⟨dr, .kNotFound, {.kLatencyBufferEmpty}, 0, []⟩
  else do
    let rc ← windowResult h.latencyBuffer dr.requestInformation.windowBegin
      dr.requestInformation.windowEnd
    some ⟨dr, rc, statusBitsOf rc, 0, []⟩

/-- The frame a worker handles next; `none` when it is not in the collecting
loop or the loop's condition fails. -/
def Worker.element (w : Worker) (lb : LatencyBuffer) : Option Frame :=
  if w.resultCode = .kFound then
    lb.frames[w.position]?.filter fun f => f.timestamp ≤ w.request.requestInformation.windowEnd
  else none

/-- The worker `w`, the `i`-th, has collected up to `position`, with these pieces
and this pop list. -/
def RunState.advance (s : RunState) (i : ℕ) (w : Worker) (position : ℕ)
    (acc : List Frame × Finset ℕ) : RunState :=
  { s with
    handler := { s.handler with popList := acc.2 }
    workers := s.workers.set i { w with position := position, fragPieces := acc.1 } }

/-- One turn of the collecting loop of the worker `w`, the `i`-th. -/
def RunState.collect (s : RunState) (i : ℕ) (w : Worker) (element : Frame) : RunState :=
  s.advance i w (w.position + 1)
    (collectElement w.request.requestInformation.windowBegin element
      (w.fragPieces, s.handler.popList))

/-- The worker `w`, the `i`-th, makes its fragment and leaves. -/
def RunState.leave (s : RunState) (i : ℕ) (w : Worker) : RunState :=
  { s with
    handler := { s.handler with stats := countResult s.handler.stats w.resultCode }
    workers := s.workers.eraseIdx i
    fragments := s.fragments ++
      [⟨{ createFragmentHeader s.handler w.request with statusBits := w.statusBits },
        w.fragPieces⟩] }

/-- The turns of a run.  `none` is a turn that cannot be taken: a write into a
full buffer waits, a cleanup waits for the workers. -/
def step (s : RunState) : Action → Option RunState
  | .processItem payload => do
      let (lb, inserted) ← processItem s.handler.latencyBuffer payload
      some { s with
        handler := { s.handler with latencyBuffer := lb }
        written := if inserted then s.written ++ [payload] else s.written }
  | .enter dr => do
      let w ← startRequest s.handler dr
      some { s with workers := s.workers ++ [w] }
  | .collect i => do
      let w ← s.workers[i]?
      let element ← w.element s.handler.latencyBuffer
      some (s.collect i w element)
  | .leave i => do
      let w ← s.workers[i]?
      if w.element s.handler.latencyBuffer = none then some (s.leave i w) else none
  | .cleanupCheck =>
      if s.workers = [] then do
        let h ← cleanupCheck s.handler
        some { s with handler := h }
      else none

/-! ### What each turn does -/

theorem startRequest_fragPieces {h : RequestHandler} {dr : DataRequest} {w : Worker}
    (hw : startRequest h dr = some w) : w.fragPieces = [] := by
  unfold startRequest at hw
  split at hw
  · exact Option.some.inj hw ▸ rfl
  · obtain ⟨rc, -, hw⟩ := Option.bind_eq_some_iff.1 hw
    exact Option.some.inj hw ▸ rfl

theorem Worker.mem_of_element {w : Worker} {lb : LatencyBuffer} {e : Frame}
    (h : w.element lb = some e) : e ∈ lb.frames := by
  unfold Worker.element at h
  split at h
  · exact List.mem_of_getElem? (Option.filter_eq_some_iff.1 h).1
  · cases h

theorem step_processItem {s s' : RunState} {payload : Frame}
    (h : step s (.processItem payload) = some s') :
    s'.frames = s.frames ++ [payload] ∧ s'.handler.popList = s.handler.popList ∧
      s'.included = s.included ∧ s'.written = s.written ++ [payload] := by
  obtain ⟨⟨lb, inserted⟩, hp, h⟩ := Option.bind_eq_some_iff.1 h
  obtain ⟨rfl, rfl⟩ := processItem_eq_some hp
  obtain rfl := Option.some.inj h
  exact ⟨rfl, rfl, rfl, rfl⟩

theorem step_enter {s s' : RunState} {dr : DataRequest} (h : step s (.enter dr) = some s') :
    s'.handler = s.handler ∧ s'.included = s.included ∧ s'.written = s.written := by
  obtain ⟨w, hw, h⟩ := Option.bind_eq_some_iff.1 h
  obtain rfl := Option.some.inj h
  refine ⟨rfl, ?_, rfl⟩
  simp [RunState.included, startRequest_fragPieces hw]

theorem step_collect {s s' : RunState} {i : ℕ} (h : step s (.collect i) = some s') :
    ∃ w e, s.workers[i]? = some w ∧ w.element s.handler.latencyBuffer = some e ∧
      s' = s.collect i w e := by
  obtain ⟨w, hw, h⟩ := Option.bind_eq_some_iff.1 h
  obtain ⟨e, he, h⟩ := Option.bind_eq_some_iff.1 h
  exact ⟨w, e, hw, he, (Option.some.inj h).symm⟩

theorem step_leave {s s' : RunState} {i : ℕ} (h : step s (.leave i) = some s') :
    ∃ w, s.workers[i]? = some w ∧ w.element s.handler.latencyBuffer = none ∧
      s' = s.leave i w := by
  obtain ⟨w, hw, h⟩ := Option.bind_eq_some_iff.1 h
  split at h
  · rename_i he
    exact ⟨w, hw, he, (Option.some.inj h).symm⟩
  · cases h

/-- A cleanup has the popping loop's effect on the buffer and on the pop list,
also when the pop list is empty and `cleanup` is not called. -/
theorem step_cleanupCheck {s s' : RunState} (h : step s .cleanupCheck = some s') :
    s'.frames = (cleanupLoop s.frames s.handler.popList).1 ∧
      s'.handler.popList = (cleanupLoop s.frames s.handler.popList).2 ∧
      s'.included = s.included ∧ s'.written = s.written ∧ s.workers = [] := by
  simp only [step] at h
  split at h
  · rename_i hw
    obtain ⟨h', hc, h⟩ := Option.bind_eq_some_iff.1 h
    obtain rfl := Option.some.inj h
    obtain ⟨hf, hp⟩ := cleanupCheck_eq_some hc
    exact ⟨hf, hp, rfl, rfl, hw⟩
  · cases h

/-- What a worker holds, apart from the rest. -/
theorem included_perm {s : RunState} {i : ℕ} {w : Worker} (hw : s.workers[i]? = some w) :
    s.included.Perm (s.fragments.flatMap Fragment.pieces ++
      (s.workers.eraseIdx i).flatMap Worker.fragPieces ++ w.fragPieces) := by
  have h := (flatMap_eraseIdx_perm Worker.fragPieces hw).symm.trans List.perm_append_comm
  rw [List.append_assoc]
  exact h.append_left _

/-- A turn of a collecting loop changes the pop list and what the worker holds
as `collectElement` says, and nothing else. -/
theorem included_collect_perm {s : RunState} {i : ℕ} {w : Worker} {e : Frame}
    (hw : s.workers[i]? = some w) :
    (s.collect i w e).included.Perm (s.fragments.flatMap Fragment.pieces ++
      (s.workers.eraseIdx i).flatMap Worker.fragPieces ++
      (collectElement w.request.requestInformation.windowBegin e
        (w.fragPieces, s.handler.popList)).1) := by
  obtain ⟨hi, -⟩ := List.getElem?_eq_some_iff.1 hw
  have hget : (s.collect i w e).workers[i]? = some _ := List.getElem?_set_self hi
  have h := included_perm hget
  rwa [RunState.collect, RunState.advance, List.eraseIdx_set_eq] at h

/-- A worker's pieces go into the fragment it makes. -/
theorem included_leave_perm {s : RunState} {i : ℕ} {w : Worker} (hw : s.workers[i]? = some w) :
    (s.leave i w).included.Perm s.included := by
  have h := (flatMap_eraseIdx_perm Worker.fragPieces hw).append_left
    (s.fragments.flatMap Fragment.pieces)
  simpa [RunState.included, RunState.leave] using h

/-! ### The invariant -/

/-- While the frames arrive in timestamp order, buffer, pop list and included
frames implement a store that has received what was written. -/
def Implements (s : RunState) : Prop :=
  Increasing s.written →
    ∃ d, Delivers s.frames s.handler.popList s.included d ∧ d.stored = s.written

/-- A handler with an empty buffer and an empty pop list starts a run. -/
def RunState.ofHandler (h : RequestHandler) : RunState := ⟨h, [], [], []⟩

theorem implements_ofHandler {h : RequestHandler} (hbuf : h.latencyBuffer.frames = [])
    (hpop : h.popList = ∅) : Implements (.ofHandler h) := by
  refine fun _ => ⟨OnceStore.ofList [] List.nodup_nil, ?_, rfl⟩
  rw [RunState.frames, RunState.ofHandler, hbuf, hpop]
  exact Delivers.ofList List.Pairwise.nil

/-- Every turn keeps the invariant. -/
theorem Implements.step {s s' : RunState} {a : Action} (h : Implements s)
    (hs : step s a = some s') : Implements s' := by
  intro hinc
  cases a with
  | processItem payload =>
      obtain ⟨hf, hp, hi, hw⟩ := step_processItem hs
      rw [hw] at hinc ⊢
      obtain ⟨hold, -, hnew⟩ := List.pairwise_append.1 hinc
      obtain ⟨d, hd, hst⟩ := h hold
      obtain ⟨d', hd', hst'⟩ := hd.write (f := payload) fun g hg =>
        hnew g (hst ▸ hg) payload (List.mem_singleton_self _)
      rw [hf, hp, hi]
      exact ⟨d', hd', by rw [hst', hst]⟩
  | enter dr =>
      obtain ⟨hh, hi, hw⟩ := step_enter hs
      rw [hw] at hinc
      obtain ⟨d, hd, hst⟩ := h hinc
      rw [RunState.frames, hh, hi, hw]
      exact ⟨d, hd, hst⟩
  | collect i =>
      obtain ⟨w, e, hw, he, rfl⟩ := step_collect hs
      obtain ⟨d, hd, hst⟩ := h hinc
      obtain ⟨d', hd', hst'⟩ := (hd.perm (included_perm hw)).collectElement
        w.request.requestInformation.windowBegin (Worker.mem_of_element he)
      exact ⟨d', hd'.perm (included_collect_perm hw).symm, hst'.trans hst⟩
  | leave i =>
      obtain ⟨w, hw, -, rfl⟩ := step_leave hs
      obtain ⟨d, hd, hst⟩ := h hinc
      exact ⟨d, hd.perm (included_leave_perm hw).symm, hst⟩
  | cleanupCheck =>
      obtain ⟨hf, hp, hi, hw, -⟩ := step_cleanupCheck hs
      rw [hw] at hinc
      obtain ⟨d, hd, hst⟩ := h hinc
      obtain ⟨d', hd', hst'⟩ := hd.cleanupLoop
      rw [hf, hp, hi, hw]
      exact ⟨d', hd', hst'.trans hst⟩

/-- **Safety within a run.**  From an empty buffer and an empty pop list, for
frames in strictly increasing timestamp order and any interleaving of turns: no
frame is included twice; a cleanup pops only frames that are in exactly one
fragment, and the newest frame stays. -/
theorem run_included_once {h : RequestHandler} {trace : List Action} {s : RunState}
    (hbuf : h.latencyBuffer.frames = []) (hpop : h.popList = ∅)
    (hrun : exec step (.ofHandler h) trace = some s) (hinc : Increasing s.written) :
    s.included.Nodup ∧
      ∀ s', step s .cleanupCheck = some s' →
        (∃ popped, s.frames = popped ++ s'.frames ∧
          ∀ f ∈ popped, s.fragments.countP (fun fr => f ∈ fr.pieces) = 1) ∧
        s'.handler.latencyBuffer.back = s.handler.latencyBuffer.back := by
  have hinv := exec_invariant (fun _ _ _ h hs => h.step hs) (implements_ofHandler hbuf hpop) hrun
  obtain ⟨d, hd, hst⟩ := hinv hinc
  refine ⟨hd.nodup, fun s' hs => ⟨?_, ?_⟩⟩
  · obtain ⟨hf, -, -, -, hw⟩ := step_cleanupCheck hs
    obtain ⟨popped, heq, hpopped, -⟩ := cleanupLoop_spec s.frames s.handler.popList
    have hincluded : s.included = s.fragments.flatMap Fragment.pieces := by
      simp [RunState.included, hw]
    refine ⟨popped, hf ▸ heq, fun f hmem => ?_⟩
    have hbuffered : f ∈ s.frames := heq ▸ List.mem_append_left _ hmem
    have hclaim := (hd.marked f hbuffered).1 (hpopped f hmem)
    rw [hincluded] at hclaim
    exact countP_mem_eq_one _ (hincluded ▸ hd.nodup) hclaim
  · obtain ⟨-, -, -, hw, -⟩ := step_cleanupCheck hs
    obtain ⟨d', hd', hst'⟩ := hinv.step hs (hw ▸ hinc)
    calc s'.handler.latencyBuffer.back
        = d'.stored.getLast? := by rw [← d'.getLast?_held, ← hd'.held]; rfl
      _ = d.stored.getLast? := by rw [hst', hw, hst]
      _ = s.handler.latencyBuffer.back := by rw [← d.getLast?_held, ← hd.held]; rfl

/-- Two workers with overlapping windows take turns while frames arrive. -/
def overlappingTrace : List Action :=
  [.processItem ⟨1, []⟩, .processItem ⟨2, []⟩, .processItem ⟨3, []⟩,
    .enter (requestFor 1 3), .enter (requestFor 2 3), .collect 0, .collect 1, .collect 1,
    .processItem ⟨4, []⟩, .collect 0, .collect 1, .collect 0, .leave 0, .leave 0]

/-- Where that run ends. -/
def overlappingState : RunState :=
  (exec step (.ofHandler (.new 8 ⟨0, 0⟩ 0 0)) overlappingTrace).get (by decide)

theorem exec_overlappingTrace :
    exec step (.ofHandler (.new 8 ⟨0, 0⟩ 0 0)) overlappingTrace = some overlappingState :=
  (Option.some_get _).symm

/-- The theorem there: frame 3 is in the second fragment only, and a cleanup
keeps the newest frame. -/
theorem run_included_once_overlapping :
    overlappingState.included.Nodup ∧
      (overlappingState.fragments.map Fragment.pieces = [[⟨1, []⟩], [⟨2, []⟩, ⟨3, []⟩]]) ∧
      ∃ s', step overlappingState .cleanupCheck = some s' ∧
        s'.handler.latencyBuffer.back = overlappingState.handler.latencyBuffer.back := by
  obtain ⟨hnd, hclean⟩ := run_included_once (s := overlappingState)
    (h := .new 8 ⟨0, 0⟩ 0 0) rfl rfl exec_overlappingTrace (by decide)
  have hstep : step overlappingState .cleanupCheck = some _ :=
    (Option.some_get (by decide)).symm
  exact ⟨hnd, by decide, _, hstep, (hclean _ hstep).2⟩

end Readout
end SNBModules
