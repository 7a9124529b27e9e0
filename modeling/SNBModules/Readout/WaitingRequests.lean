import SNBModules.Lib.Accounting
import SNBModules.Lib.Runs
import SNBModules.Readout.Types

/-!
# Requests between the thread pool and the waiting list

Source: `SNBRequestHandlerModel.hxx`, `start`, `stop`, `issue_request` and
`check_waiting_requests`, and `SNBDataHandlingModel.hxx`, `dispatch_requests`.

An accepted request is posted to the thread pool; a worker executes it and
answers it or, when its data is not there yet, puts it on `m_waiting_requests`.
The waiting thread scans that list every millisecond while the run marker is
set and posts what is due once more, as a retry, which is always answered.

The pool may run the posted jobs in any order and with any number of workers,
and the result of `data_request`, the newest timestamp and every reading of the
clock are chosen freely.  A request carries its number and the run it was
accepted in; an answer carries the run it was given in.
-/

namespace SNBModules
namespace Readout

open Lib

/-- A request that `issue_request` accepted from `dispatch_requests`. -/
structure Accepted where
  id : ℕ
  run : ℕ
  request : DataRequest
  deriving DecidableEq, Repr

/-- What is posted to the thread pool. -/
structure Job where
  accepted : Accepted
  isRetry : Bool
  deriving DecidableEq, Repr

/-- `RequestElement`: a waiting request and when its waiting began, in
nanoseconds of the steady clock. -/
structure RequestElement where
  accepted : Accepted
  startTime : ℤ
  deriving DecidableEq, Repr

/-- The attempt to send the fragment of a request, and the run it was made in. -/
structure Answer where
  accepted : Accepted
  run : ℕ
  deriving DecidableEq, Repr

/-- Where the handler is between `start` and the return of `stop`; the run
marker is set exactly while it is running. -/
inductive FlowPhase where
  | idle
  | running
  | stopping
  deriving DecidableEq, Repr

/-- Where the waiting thread is in the loop of `check_waiting_requests`. -/
inductive Poller where
  | loadMarker
  | testSize
  | scan
  | finished
  deriving DecidableEq, Repr

/-- The members that the flow of requests uses.  `accepted` and `retried` are
the history of the accepted requests and of the retries posted. -/
structure FlowState where
  sourceid : SourceID
  requestTimeoutMs : ℤ
  phase : FlowPhase
  run : ℕ
  pool : List Job
  executing : List Job
  waitingRequests : List RequestElement
  answered : List Answer
  poller : Poller
  numRequests : ℕ
  handledRequests : ℕ
  numRequestsBad : ℕ
  numRequestsTimedOut : ℕ
  accepted : List Accepted
  retried : List Accepted
  deriving DecidableEq

/-- The handler before its first run. -/
def FlowState.new (sourceid : SourceID) (requestTimeoutMs : ℤ) : FlowState :=
  ⟨sourceid, requestTimeoutMs, .idle, 0, [], [], [], [], .finished, 0, 0, 0, 0, [], []⟩

/-! ### The functions of the handler -/

/-- `issue_request` posts a job. -/
def issueRequest (s : FlowState) (a : Accepted) (isRetry : Bool) : FlowState :=
  { s with pool := s.pool ++ [⟨a, isRetry⟩] }

/-- `dispatch_requests`: a request for another component is refused. -/
def dispatchRequests (s : FlowState) (dr : DataRequest) : FlowState :=
  if dr.requestInformation.component ≠ s.sourceid then s
  else
    let a : Accepted := ⟨s.accepted.length, s.run, dr⟩
    { issueRequest s a false with
      accepted := s.accepted ++ [a]
      numRequests := s.numRequests + 1 }

/-- Whether a worker puts its request on the waiting list instead of sending
its fragment. -/
def requeues (requestTimeoutMs : ℤ) (rc : ResultCode) (isRetry : Bool) : Bool :=
  (rc = .kNotYet ∨ rc = .kPartial) ∧ requestTimeoutMs > 0 ∧ isRetry = false

/-- A posted job after `data_request`, for the `i`-th executing worker. -/
def finishJob (s : FlowState) (i : ℕ) (job : Job) (rc : ResultCode) (now : ℤ) : FlowState :=
  if requeues s.requestTimeoutMs rc job.isRetry then
    { s with
      executing := s.executing.eraseIdx i
      waitingRequests := s.waitingRequests ++ [⟨job.accepted, now⟩]
      handledRequests := s.handledRequests + 1 }
  else
    { s with
      executing := s.executing.eraseIdx i
      answered := s.answered ++ [⟨job.accepted, s.run⟩]
      handledRequests := s.handledRequests + 1 }

/-- What a scan of the waiting list keeps, what it issues again, and how many of
these timed out. -/
structure ScanResult where
  kept : List RequestElement
  issued : List Accepted
  timedOut : ℕ
  deriving DecidableEq, Repr

/-- The loop of `check_waiting_requests` over the waiting list; `now i` is the
clock as read for the `i`-th element. -/
def scanWaiting (requestTimeoutMs : ℤ) (newestTs : ℕ) : (ℕ → ℤ) → List RequestElement → ScanResult
  | _, [] => ⟨[], [], 0⟩
  | now, e :: rest =>
      let r := scanWaiting requestTimeoutMs newestTs (fun i => now (i + 1)) rest
      if e.accepted.request.requestInformation.windowEnd ≤ newestTs then
        { r with issued := e.accepted :: r.issued }
      else if (now 0 - e.startTime).tdiv 1000000 ≥ requestTimeoutMs then
        { r with issued := e.accepted :: r.issued, timedOut := r.timedOut + 1 }
      else { r with kept := e :: r.kept }

/-- One scan under `m_waiting_requests_lock`; `newest` is the timestamp of the
newest frame, if there is one. -/
def checkWaitingRequests (s : FlowState) (newest : Option ℕ) (now : ℕ → ℤ) : FlowState :=
  let r := scanWaiting s.requestTimeoutMs (newest.getD 0) now s.waitingRequests
  { s with
    waitingRequests := r.kept
    pool := s.pool ++ r.issued.map fun a => ⟨a, true⟩
    numRequestsBad := s.numRequestsBad + r.timedOut
    numRequestsTimedOut := s.numRequestsTimedOut + r.timedOut
    poller := .loadMarker
    retried := s.retried ++ r.issued }

/-! ### The threads -/

/-- One turn of some thread, with what the environment chooses in it. -/
inductive FlowAction where
  | start
  | dispatch (dr : DataRequest)
  | pick (i : ℕ)
  | finish (i : ℕ) (rc : ResultCode) (now : ℤ)
  | pollMarker
  | pollSize
  | pollScan (newest : Option ℕ) (now : ℕ → ℤ)
  | stop
  | join

/-- The turns.  `stop` clears the run marker; it returns with `join`, after the
waiting thread has left its loop and the pool has run out of jobs.  The callback
for new requests is registered from `start` to `stop`. -/
def flowStep (s : FlowState) : FlowAction → Option FlowState
  | .start =>
      if s.phase = .idle then
        some { s with
          phase := .running
          run := s.run + 1
          pool := []
          poller := .loadMarker
          numRequests := 0
          handledRequests := 0
          numRequestsBad := 0
          numRequestsTimedOut := 0 }
      else none
  | .dispatch dr => if s.phase = .running then some (dispatchRequests s dr) else none
  | .pick i => do
      let job ← s.pool[i]?
      some { s with pool := s.pool.eraseIdx i, executing := s.executing ++ [job] }
  | .finish i rc now => do
      let job ← s.executing[i]?
      some (finishJob s i job rc now)
  | .pollMarker =>
      if s.poller = .loadMarker then
        some { s with poller := if s.phase = .running then .testSize else .finished }
      else none
  | .pollSize =>
      if s.poller = .testSize then
        some { s with poller := if s.waitingRequests.length > 0 then .scan else .loadMarker }
      else none
  | .pollScan newest now =>
      if s.poller = .scan then some (checkWaitingRequests s newest now) else none
  | .stop => if s.phase = .running then some { s with phase := .stopping } else none
  | .join =>
      if s.phase = .stopping ∧ s.poller = .finished ∧ s.pool = [] ∧ s.executing = [] then
        some { s with phase := .idle }
      else none

/-- A scan keeps or issues every waiting request, once. -/
theorem scanWaiting_perm (requestTimeoutMs : ℤ) (newestTs : ℕ) (now : ℕ → ℤ)
    (l : List RequestElement) :
    ((scanWaiting requestTimeoutMs newestTs now l).issued ++
        (scanWaiting requestTimeoutMs newestTs now l).kept.map RequestElement.accepted).Perm
      (l.map RequestElement.accepted) := by
  induction l generalizing now with
  | nil => exact List.Perm.refl _
  | cons e rest ih =>
      rw [scanWaiting]
      split
      · exact (ih _).cons e.accepted
      · split
        · exact (ih _).cons e.accepted
        · exact List.perm_middle.trans ((ih _).cons e.accepted)

/-- What a scan keeps was waiting. -/
theorem scanWaiting_kept (requestTimeoutMs : ℤ) (newestTs : ℕ) (now : ℕ → ℤ)
    (l : List RequestElement) : (scanWaiting requestTimeoutMs newestTs now l).kept ⊆ l := by
  induction l generalizing now with
  | nil => exact List.Subset.refl _
  | cons e rest ih =>
      rw [scanWaiting]
      split
      · exact List.subset_cons_of_subset e (ih _)
      · split
        · exact List.subset_cons_of_subset e (ih _)
        · exact List.cons_subset_cons e (ih _)

/-! ### Conservation -/

/-- How often a request is posted, executed, waiting or answered. -/
def FlowState.held (s : FlowState) (r : Accepted) : ℕ :=
  (s.pool.map Job.accepted).count r + (s.executing.map Job.accepted).count r +
    (s.waitingRequests.map RequestElement.accepted).count r +
    (s.answered.map Answer.accepted).count r

/-- Every accepted request is held once; a job is a retry exactly when it was
issued by a scan, and what waits was not; between runs no thread has anything to
do. -/
structure FlowInv (s : FlowState) : Prop where
  ids : s.accepted.map Accepted.id = List.range s.accepted.length
  conserved : ∀ r, s.held r = s.accepted.count r
  retried_nodup : s.retried.Nodup
  retried_subset : s.retried ⊆ s.accepted
  retry_iff : ∀ j ∈ s.pool ++ s.executing, j.isRetry = true ↔ j.accepted ∈ s.retried
  waiting_fresh : ∀ e ∈ s.waitingRequests, e.accepted ∉ s.retried
  idle : s.phase = .idle → s.pool = [] ∧ s.executing = [] ∧ s.poller = .finished

namespace FlowInv

variable {s s' : FlowState}

theorem new (sourceid : SourceID) (requestTimeoutMs : ℤ) :
    FlowInv (.new sourceid requestTimeoutMs) where
  ids := rfl
  conserved _ := rfl
  retried_nodup := List.nodup_nil
  retried_subset := List.Subset.refl _
  retry_iff := by simp [FlowState.new]
  waiting_fresh := by simp [FlowState.new]
  idle _ := ⟨rfl, rfl, rfl⟩

theorem held_le_one (h : FlowInv s) (r : Accepted) : s.held r ≤ 1 := by
  have hnd : s.accepted.Nodup := List.Nodup.of_map Accepted.id (h.ids ▸ List.nodup_range)
  rw [h.conserved]
  exact List.nodup_iff_count_le_one.1 hnd r

theorem fresh_id (h : FlowInv s) {a : Accepted} (ha : a.id = s.accepted.length) :
    a ∉ s.accepted := fun hmem => by
  have := List.mem_map_of_mem (f := Accepted.id) hmem
  rw [h.ids, List.mem_range, ha] at this
  exact Nat.lt_irrefl _ this

theorem dispatch (h : FlowInv s) (hphase : s.phase = .running) (dr : DataRequest) :
    FlowInv (dispatchRequests s dr) := by
  unfold dispatchRequests
  split
  · exact h
  · set a : Accepted := ⟨s.accepted.length, s.run, dr⟩ with ha
    have hnew : a ∉ s.accepted := h.fresh_id rfl
    have hnotretried : a ∉ s.retried := fun hmem => hnew (h.retried_subset hmem)
    refine ⟨?_, fun r => ?_, h.retried_nodup, ?_, fun j hj => ?_, h.waiting_fresh, ?_⟩
    · simp [h.ids, List.range_succ, ha]
    · have := h.conserved r
      simp only [FlowState.held, issueRequest, List.map_append, List.map_cons, List.map_nil,
        List.count_append] at this ⊢
      omega
    · exact List.subset_append_of_subset_left _ h.retried_subset
    · by_cases hja : j = ⟨a, false⟩
      · subst hja
        exact ⟨fun hf => absurd hf Bool.false_ne_true, fun hmem => absurd hmem hnotretried⟩
      · have hold : j ∈ s.pool ++ s.executing := by
          simp only [issueRequest, List.mem_append, List.mem_singleton] at hj ⊢
          tauto
        exact h.retry_iff j hold
    · exact fun hidle => absurd (hphase.symm.trans hidle) (by decide)

theorem pick (h : FlowInv s) {i : ℕ} {job : Job} (hj : s.pool[i]? = some job) :
    FlowInv { s with pool := s.pool.eraseIdx i, executing := s.executing ++ [job] } := by
  refine ⟨h.ids, fun r => ?_, h.retried_nodup, h.retried_subset, fun j hmem => ?_,
    h.waiting_fresh, fun hidle => ?_⟩
  · have hc := count_map_eraseIdx Job.accepted hj r
    have := h.conserved r
    simp only [FlowState.held, List.map_append, List.map_cons, List.map_nil,
      List.count_append] at this ⊢
    omega
  · refine h.retry_iff j ?_
    rcases List.mem_append.1 hmem with hmem | hmem
    · exact List.mem_append_left _ (List.eraseIdx_subset hmem)
    · rcases List.mem_append.1 hmem with hmem | hmem
      · exact List.mem_append_right _ hmem
      · exact List.mem_append_left _ (List.mem_singleton.1 hmem ▸ List.mem_of_getElem? hj)
  · rw [(h.idle hidle).1] at hj
    cases hj

theorem finish (h : FlowInv s) {i : ℕ} {job : Job} (hj : s.executing[i]? = some job)
    (rc : ResultCode) (now : ℤ) : FlowInv (finishJob s i job rc now) := by
  have hc := count_map_eraseIdx Job.accepted hj
  have hjob : job ∈ s.pool ++ s.executing := List.mem_append_right _ (List.mem_of_getElem? hj)
  have hjobs : ∀ j ∈ s.pool ++ s.executing.eraseIdx i,
      (j.isRetry = true ↔ j.accepted ∈ s.retried) := fun j hmem => by
    refine h.retry_iff j ?_
    rcases List.mem_append.1 hmem with hmem | hmem
    · exact List.mem_append_left _ hmem
    · exact List.mem_append_right _ (List.eraseIdx_subset hmem)
  have hidle : s.phase ≠ .idle := fun hidle => by
    rw [(h.idle hidle).2.1] at hj
    cases hj
  unfold finishJob
  split
  · rename_i hre
    have hfirst : job.accepted ∉ s.retried := fun hmem => by
      have hretry := (h.retry_iff job hjob).2 hmem
      simp [requeues, hretry] at hre
    refine ⟨h.ids, fun r => ?_, h.retried_nodup, h.retried_subset, hjobs, fun e he => ?_,
      fun hphase => absurd hphase hidle⟩
    · have := h.conserved r
      have := hc r
      simp only [FlowState.held, List.map_append, List.map_cons, List.map_nil,
        List.count_append] at *
      omega
    · rcases List.mem_append.1 he with he | he
      · exact h.waiting_fresh e he
      · rw [List.mem_singleton.1 he]
        exact hfirst
  · refine ⟨h.ids, fun r => ?_, h.retried_nodup, h.retried_subset, hjobs, h.waiting_fresh,
      fun hphase => absurd hphase hidle⟩
    have := h.conserved r
    have := hc r
    simp only [FlowState.held, List.map_append, List.map_cons, List.map_nil,
      List.count_append] at *
    omega

/-- The waiting requests that a scan issues were in the waiting list only. -/
theorem issued_fresh (h : FlowInv s) (newestTs : ℕ) (now : ℕ → ℤ) {r : Accepted}
    (hr : r ∈ (scanWaiting s.requestTimeoutMs newestTs now s.waitingRequests).issued) :
    (s.pool.map Job.accepted).count r = 0 ∧ (s.executing.map Job.accepted).count r = 0 ∧
      (scanWaiting s.requestTimeoutMs newestTs now s.waitingRequests).issued.count r = 1 ∧
      r ∉ (scanWaiting s.requestTimeoutMs newestTs now s.waitingRequests).kept.map
        RequestElement.accepted ∧
      r ∉ s.retried := by
  have hperm := scanWaiting_perm s.requestTimeoutMs newestTs now s.waitingRequests
  have hcount := hperm.count_eq r
  have hle := h.held_le_one r
  have hpos := List.count_pos_iff.2 hr
  rw [List.count_append] at hcount
  rw [FlowState.held] at hle
  refine ⟨by omega, by omega, by omega, List.count_eq_zero.1 (by omega), fun hmem => ?_⟩
  obtain ⟨e, he, heq⟩ := List.mem_map.1 (hperm.subset (List.mem_append_left _ hr))
  exact h.waiting_fresh e he (heq ▸ hmem)

theorem scan (h : FlowInv s) (hscan : s.poller = .scan) (newest : Option ℕ) (now : ℕ → ℤ) :
    FlowInv (checkWaitingRequests s newest now) := by
  have hperm := scanWaiting_perm s.requestTimeoutMs (newest.getD 0) now s.waitingRequests
  have hkept := scanWaiting_kept s.requestTimeoutMs (newest.getD 0) now s.waitingRequests
  have hissued := fun r => h.issued_fresh (newest.getD 0) now (r := r)
  unfold checkWaitingRequests
  set res := scanWaiting s.requestTimeoutMs (newest.getD 0) now s.waitingRequests
  have hpool : (res.issued.map fun a => (⟨a, true⟩ : Job)).map Job.accepted = res.issued := by
    simp [Function.comp_def]
  refine ⟨h.ids, fun r => ?_, ?_, ?_, fun j hj => ?_, fun e he hmem => ?_, fun hidle => ?_⟩
  · have := h.conserved r
    have := hperm.count_eq r
    simp only [FlowState.held, List.map_append, hpool, List.count_append] at *
    omega
  · refine List.nodup_append.2 ⟨h.retried_nodup, List.nodup_iff_count_le_one.2 fun r => ?_,
      fun r hr r' hr' heq => (hissued r' hr').2.2.2.2 (heq ▸ hr)⟩
    by_cases hr : r ∈ res.issued
    · exact Nat.le_of_eq (hissued r hr).2.2.1
    · rw [List.count_eq_zero.2 hr]
      exact Nat.zero_le 1
  · refine List.append_subset.2 ⟨h.retried_subset, fun r hr => ?_⟩
    have hw := List.count_pos_iff.2 (hperm.subset (List.mem_append_left _ hr))
    have := h.conserved r
    rw [FlowState.held] at this
    have hacc : 0 < s.accepted.count r := by omega
    exact List.count_pos_iff.1 hacc
  · rw [List.mem_append]
    by_cases hnew : j ∈ res.issued.map fun a => (⟨a, true⟩ : Job)
    · obtain ⟨a, ha, rfl⟩ := List.mem_map.1 hnew
      exact ⟨fun _ => Or.inr ha, fun _ => rfl⟩
    · have hold : j ∈ s.pool ++ s.executing := by
        simp only [List.mem_append] at hj ⊢
        tauto
      rw [h.retry_iff j hold]
      refine ⟨Or.inl, fun hmem => hmem.resolve_right fun hr => ?_⟩
      obtain ⟨hp, he, -⟩ := hissued _ hr
      rcases List.mem_append.1 hold with hmem | hmem
      · exact List.count_eq_zero.1 hp (List.mem_map_of_mem hmem)
      · exact List.count_eq_zero.1 he (List.mem_map_of_mem hmem)
  · rcases List.mem_append.1 hmem with hmem | hmem
    · exact h.waiting_fresh e (hkept he) hmem
    · exact (hissued _ hmem).2.2.2.1 (List.mem_map_of_mem he)
  · rw [(h.idle hidle).2.2] at hscan
    cases hscan

/-- Every turn keeps the invariant. -/
theorem step {a : FlowAction} (h : FlowInv s) (hs : flowStep s a = some s') : FlowInv s' := by
  cases a with
  | start =>
      obtain ⟨hidle, hs⟩ := Option.ite_none_right_eq_some.1 hs
      obtain rfl := Option.some.inj hs
      have hpool := (h.idle hidle).1
      refine ⟨h.ids, fun r => ?_, h.retried_nodup, h.retried_subset, fun j hj => ?_,
        h.waiting_fresh, fun hphase => FlowPhase.noConfusion hphase⟩
      · rw [← h.conserved r, FlowState.held, FlowState.held, hpool]
      · exact h.retry_iff j (hpool ▸ hj)
  | dispatch dr =>
      obtain ⟨hphase, hs⟩ := Option.ite_none_right_eq_some.1 hs
      exact Option.some.inj hs ▸ h.dispatch hphase dr
  | pick i =>
      obtain ⟨job, hj, hs⟩ := Option.bind_eq_some_iff.1 hs
      exact Option.some.inj hs ▸ h.pick hj
  | finish i rc now =>
      obtain ⟨job, hj, hs⟩ := Option.bind_eq_some_iff.1 hs
      exact Option.some.inj hs ▸ h.finish hj rc now
  | pollMarker =>
      obtain ⟨hload, hs⟩ := Option.ite_none_right_eq_some.1 hs
      obtain rfl := Option.some.inj hs
      refine ⟨h.ids, h.conserved, h.retried_nodup, h.retried_subset, h.retry_iff,
        h.waiting_fresh, fun hidle => ?_⟩
      exact absurd (hload.symm.trans (h.idle hidle).2.2) (by decide)
  | pollSize =>
      obtain ⟨htest, hs⟩ := Option.ite_none_right_eq_some.1 hs
      obtain rfl := Option.some.inj hs
      refine ⟨h.ids, h.conserved, h.retried_nodup, h.retried_subset, h.retry_iff,
        h.waiting_fresh, fun hidle => ?_⟩
      exact absurd (htest.symm.trans (h.idle hidle).2.2) (by decide)
  | pollScan newest now =>
      obtain ⟨hscan, hs⟩ := Option.ite_none_right_eq_some.1 hs
      exact Option.some.inj hs ▸ h.scan hscan newest now
  | stop =>
      obtain ⟨-, hs⟩ := Option.ite_none_right_eq_some.1 hs
      obtain rfl := Option.some.inj hs
      exact ⟨h.ids, h.conserved, h.retried_nodup, h.retried_subset, h.retry_iff, h.waiting_fresh,
        fun hphase => FlowPhase.noConfusion hphase⟩
  | join =>
      obtain ⟨⟨-, hfin, hpool, hexec⟩, hs⟩ := Option.ite_none_right_eq_some.1 hs
      obtain rfl := Option.some.inj hs
      exact ⟨h.ids, h.conserved, h.retried_nodup, h.retried_subset, h.retry_iff, h.waiting_fresh,
        fun _ => ⟨hpool, hexec, hfin⟩⟩

end FlowInv

/-! ### One place for every request -/

/-- Where an accepted request can be. -/
inductive Place where
  | posted
  | executing
  | waiting
  | retryPosted
  | answered
  deriving DecidableEq, Repr

/-- The requests in a place. -/
def FlowState.inPlace (s : FlowState) : Place → List Accepted
  | .posted => (s.pool.filter fun j => !j.isRetry).map Job.accepted
  | .executing => s.executing.map Job.accepted
  | .waiting => s.waitingRequests.map RequestElement.accepted
  | .retryPosted => (s.pool.filter Job.isRetry).map Job.accepted
  | .answered => s.answered.map Answer.accepted

theorem held_eq_places (s : FlowState) (r : Accepted) :
    s.held r = (s.inPlace .posted).count r + (s.inPlace .executing).count r +
      (s.inPlace .waiting).count r + (s.inPlace .retryPosted).count r +
      (s.inPlace .answered).count r := by
  have hpool : (s.pool.map Job.accepted).count r =
      (s.inPlace .retryPosted).count r + (s.inPlace .posted).count r := by
    have := ((List.filter_append_perm Job.isRetry s.pool).map Job.accepted).count_eq r
    rwa [List.map_append, List.count_append, eq_comm] at this
  rw [FlowState.held, hpool]
  simp only [FlowState.inPlace]
  omega

/-- **Conservation of requests.**  Over any sequence of runs and any
interleaving, every accepted request is in exactly one place, once; at most one
answer is attempted for it, and at most one retry issued. -/
theorem request_in_one_place {sourceid : SourceID} {requestTimeoutMs : ℤ} {l : List FlowAction}
    {s : FlowState} (hrun : exec flowStep (.new sourceid requestTimeoutMs) l = some s) :
    (∀ r ∈ s.accepted, ∃ p, (s.inPlace p).count r = 1 ∧
        ∀ q, q ≠ p → (s.inPlace q).count r = 0) ∧
      (s.inPlace .answered).Nodup ∧ s.retried.Nodup := by
  have h : FlowInv s := exec_invariant (fun _ _ _ h hs => h.step hs) (.new _ _) hrun
  refine ⟨fun r hr => ?_, List.nodup_iff_count_le_one.2 fun r => ?_, h.retried_nodup⟩
  · have hone : s.held r = 1 := by
      have hpos := List.count_pos_iff.2 hr
      have hle := h.held_le_one r
      rw [h.conserved] at hle ⊢
      omega
    rw [held_eq_places] at hone
    have hcases : ∀ p, (s.inPlace p).count r ≠ 0 →
        (s.inPlace p).count r = 1 ∧ ∀ q, q ≠ p → (s.inPlace q).count r = 0 := by
      intro p hp
      refine ⟨by cases p <;> omega, fun q hq => ?_⟩
      cases p <;> cases q <;> first | exact absurd rfl hq | omega
    by_contra hnone
    have hzero : ∀ p, (s.inPlace p).count r = 0 := fun p => by
      by_contra hp
      exact hnone ⟨p, hcases p hp⟩
    simp only [hzero] at hone
    omega
  · have := h.held_le_one r
    rw [held_eq_places] at this
    omega

/-! ### What is left when `stop` returns -/

/-- When `stop` has returned nothing is waiting and every accepted request was
answered in its own run; and no answer is given in another run than its
request's. -/
def Drained (s : FlowState) : Prop :=
  (s.phase = .idle → s.waitingRequests = [] ∧
      ∀ r ∈ s.accepted, ∃ a ∈ s.answered, a.accepted = r ∧ a.run = r.run) ∧
    ∀ a ∈ s.answered, a.run = a.accepted.run

/-- The waiting thread leaves its loop with nothing waiting, and no worker puts
a request on the list after that. -/
def LeavesNothing (s : FlowState) : FlowAction → Prop
  | .pollMarker => s.phase ≠ .running → s.waitingRequests = []
  | .finish i rc _ => s.poller = .finished →
      ∀ job ∈ s.executing[i]?, requeues s.requestTimeoutMs rc job.isRetry = false
  | _ => True

instance (s : FlowState) : ∀ a, Decidable (LeavesNothing s a)
  | .pollMarker => inferInstanceAs (Decidable (_ → _))
  | .finish .. => inferInstanceAs (Decidable (_ → _))
  | .start | .dispatch _ | .pick _ | .pollSize | .pollScan .. | .stop | .join =>
      inferInstanceAs (Decidable True)

/-- The accepted requests without an answer. -/
def FlowState.pending (s : FlowState) : List Accepted :=
  s.pool.map Job.accepted ++ s.executing.map Job.accepted ++
    s.waitingRequests.map RequestElement.accepted

theorem mem_pending {s : FlowState} {r : Accepted} :
    r ∈ s.pending ↔ r ∈ s.pool.map Job.accepted ∨ r ∈ s.executing.map Job.accepted ∨
      r ∈ s.waitingRequests.map RequestElement.accepted := by
  rw [FlowState.pending, List.mem_append, List.mem_append, or_assoc]

/-- The request of a job that is executed is pending. -/
theorem pending_of_executing {s : FlowState} {i : ℕ} {job : Job} (hj : s.executing[i]? = some job) :
    job.accepted ∈ s.pending :=
  mem_pending.2 (Or.inr (Or.inl (List.mem_map_of_mem (List.mem_of_getElem? hj))))

/-- A worker that finishes leaves no more pending than there was. -/
theorem pending_finishJob {s : FlowState} {i : ℕ} {job : Job} (hj : s.executing[i]? = some job)
    (rc : ResultCode) (now : ℤ) : (finishJob s i job rc now).pending ⊆ s.pending := by
  have hsub : (s.executing.eraseIdx i).map Job.accepted ⊆ s.executing.map Job.accepted :=
    List.map_subset _ List.eraseIdx_subset
  intro r hr
  rw [mem_pending] at hr ⊢
  rw [finishJob] at hr
  split_ifs at hr
  · rw [List.map_append, List.mem_append, List.map_singleton, List.mem_singleton] at hr
    rcases hr with hr | hr | hr | rfl
    · exact Or.inl hr
    · exact Or.inr (Or.inl (hsub hr))
    · exact Or.inr (Or.inr hr)
    · exact mem_pending.1 (pending_of_executing hj)
  · exact hr.imp_right (Or.imp_left (@hsub r))

/-- A scan issues what was waiting. -/
theorem pending_checkWaitingRequests (s : FlowState) (newest : Option ℕ) (now : ℕ → ℤ) :
    (checkWaitingRequests s newest now).pending ⊆ s.pending := by
  have hperm := scanWaiting_perm s.requestTimeoutMs (newest.getD 0) now s.waitingRequests
  intro r hr
  rw [mem_pending] at hr ⊢
  simp only [checkWaitingRequests, List.map_append, List.map_map, Function.comp_def, List.map_id',
    List.mem_append] at hr
  rcases hr with (hr | hr) | hr | hr
  · exact Or.inl hr
  · exact Or.inr (Or.inr (hperm.subset (List.mem_append_left _ hr)))
  · exact Or.inr (Or.inl hr)
  · exact Or.inr (Or.inr (hperm.subset (List.mem_append_right _ hr)))

/-- **What is pending after a turn** was pending before, or was accepted in it. -/
theorem pending_step {s s' : FlowState} {a : FlowAction} (hs : flowStep s a = some s')
    {r : Accepted} (hr : r ∈ s'.pending) : r ∈ s.pending ∨ r.run = s.run := by
  cases a with
  | start =>
      obtain ⟨-, hs⟩ := Option.ite_none_right_eq_some.1 hs
      obtain rfl := Option.some.inj hs
      rw [mem_pending] at hr ⊢
      exact Or.inl (Or.inr (hr.resolve_left (by simp)))
  | dispatch dr =>
      obtain ⟨-, hs⟩ := Option.ite_none_right_eq_some.1 hs
      obtain rfl := Option.some.inj hs
      rw [dispatchRequests] at hr
      split_ifs at hr
      · exact Or.inl hr
      · rw [mem_pending] at hr ⊢
        simp only [issueRequest, List.map_append, List.mem_append, List.map_singleton,
          List.mem_singleton] at hr
        rcases hr with (hr | rfl) | hr
        · exact Or.inl (Or.inl hr)
        · exact Or.inr rfl
        · exact Or.inl (Or.inr hr)
  | pick i =>
      obtain ⟨job, hj, hs⟩ := Option.bind_eq_some_iff.1 hs
      obtain rfl := Option.some.inj hs
      have hsub : (s.pool.eraseIdx i).map Job.accepted ⊆ s.pool.map Job.accepted :=
        List.map_subset _ List.eraseIdx_subset
      left
      rw [mem_pending] at hr ⊢
      rw [List.map_append, List.mem_append, List.map_singleton, List.mem_singleton] at hr
      rcases hr with hr | (hr | rfl) | hr
      · exact Or.inl (hsub hr)
      · exact Or.inr (Or.inl hr)
      · exact Or.inl (List.mem_map_of_mem (List.mem_of_getElem? hj))
      · exact Or.inr (Or.inr hr)
  | finish i rc now =>
      obtain ⟨job, hj, hs⟩ := Option.bind_eq_some_iff.1 hs
      obtain rfl := Option.some.inj hs
      exact Or.inl (pending_finishJob hj rc now hr)
  | pollScan newest now =>
      obtain ⟨-, hs⟩ := Option.ite_none_right_eq_some.1 hs
      obtain rfl := Option.some.inj hs
      exact Or.inl (pending_checkWaitingRequests s newest now hr)
  | pollMarker | pollSize | stop | join =>
      obtain ⟨-, hs⟩ := Option.ite_none_right_eq_some.1 hs
      obtain rfl := Option.some.inj hs
      exact Or.inl hr

/-- What is pending belongs to the current run, answers to their request's run,
and a waiting thread that has left its loop has left nothing behind. -/
structure DrainInv (s : FlowState) : Prop where
  flow : FlowInv s
  same_run : ∀ a ∈ s.answered, a.run = a.accepted.run
  current : ∀ r ∈ s.pending, r.run = s.run
  left : s.poller = .finished → s.phase ≠ .running ∧ s.waitingRequests = []

namespace DrainInv

variable {s s' : FlowState}

theorem drained (h : DrainInv s) : Drained s := by
  refine ⟨fun hidle => ?_, h.same_run⟩
  obtain ⟨hpool, hexec, hfin⟩ := h.flow.idle hidle
  have hwait := (h.left hfin).2
  refine ⟨hwait, fun r hr => ?_⟩
  have hpos := List.count_pos_iff.2 hr
  rw [← h.flow.conserved, FlowState.held, hpool, hexec, hwait] at hpos
  obtain ⟨a, ha, rfl⟩ : ∃ a ∈ s.answered, a.accepted = r := by simpa using hpos
  exact ⟨a, ha, rfl, h.same_run a ha⟩

/-- Every turn that leaves nothing behind keeps the invariant. -/
theorem step {a : FlowAction} (h : DrainInv s) (hok : LeavesNothing s a)
    (hs : flowStep s a = some s') : DrainInv s' := by
  have hflow := h.flow.step hs
  have hrun : ∀ r ∈ s'.pending, r.run = s.run := fun r hr =>
    (pending_step hs hr).elim (h.current r) id
  cases a with
  | start =>
      obtain ⟨hidle, hs⟩ := Option.ite_none_right_eq_some.1 hs
      obtain rfl := Option.some.inj hs
      obtain ⟨-, hexec, hfin⟩ := h.flow.idle hidle
      refine ⟨hflow, h.same_run, ?_, fun hfin => Poller.noConfusion hfin⟩
      simp [FlowState.pending, hexec, (h.left hfin).2]
  | dispatch dr =>
      obtain ⟨-, hs⟩ := Option.ite_none_right_eq_some.1 hs
      obtain rfl := Option.some.inj hs
      rw [dispatchRequests] at hflow hrun ⊢
      split_ifs at hflow hrun ⊢
      · exact h
      · exact ⟨hflow, h.same_run, hrun, h.left⟩
  | pick i =>
      obtain ⟨job, -, hs⟩ := Option.bind_eq_some_iff.1 hs
      obtain rfl := Option.some.inj hs
      exact ⟨hflow, h.same_run, hrun, h.left⟩
  | finish i rc now =>
      obtain ⟨job, hj, hs⟩ := Option.bind_eq_some_iff.1 hs
      obtain rfl := Option.some.inj hs
      by_cases hre : requeues s.requestTimeoutMs rc job.isRetry = true
      · rw [finishJob, if_pos hre] at hflow hrun ⊢
        refine ⟨hflow, h.same_run, hrun, fun hfin => ?_⟩
        exact absurd hre (by rw [hok hfin job hj]; exact Bool.false_ne_true)
      · rw [finishJob, if_neg hre] at hflow hrun ⊢
        refine ⟨hflow, fun a ha => ?_, hrun, h.left⟩
        rcases List.mem_append.1 ha with ha | ha
        · exact h.same_run a ha
        · rw [List.mem_singleton.1 ha]
          exact (h.current _ (pending_of_executing hj)).symm
  | pollMarker =>
      obtain ⟨-, hs⟩ := Option.ite_none_right_eq_some.1 hs
      obtain rfl := Option.some.inj hs
      refine ⟨hflow, h.same_run, hrun, fun hfin => ?_⟩
      by_cases hphase : s.phase = .running
      · simp [hphase] at hfin
      · exact ⟨hphase, hok hphase⟩
  | pollSize =>
      obtain ⟨-, hs⟩ := Option.ite_none_right_eq_some.1 hs
      obtain rfl := Option.some.inj hs
      refine ⟨hflow, h.same_run, hrun, fun hfin => ?_⟩
      dsimp only at hfin
      split at hfin <;> cases hfin
  | pollScan newest now =>
      obtain ⟨-, hs⟩ := Option.ite_none_right_eq_some.1 hs
      obtain rfl := Option.some.inj hs
      exact ⟨hflow, h.same_run, hrun, fun hfin => Poller.noConfusion hfin⟩
  | stop | join =>
      obtain ⟨-, hs⟩ := Option.ite_none_right_eq_some.1 hs
      obtain rfl := Option.some.inj hs
      exact ⟨hflow, h.same_run, hrun,
        fun hfin => ⟨fun hphase => FlowPhase.noConfusion hphase, (h.left hfin).2⟩⟩

end DrainInv

/-- The waiting thread has left its loop and a request still waits. -/
def LeftBehind (s : FlowState) : Prop :=
  s.phase = .stopping ∧ s.poller = .finished ∧ s.waitingRequests ≠ []

/-- A turn outside the side condition leaves a request behind. -/
theorem leftBehind_of_not_ok {s s' : FlowState} {a : FlowAction} (h : DrainInv s)
    (hbad : ¬ LeavesNothing s a) (hs : flowStep s a = some s') : LeftBehind s' := by
  cases a with
  | pollMarker =>
      obtain ⟨hload, hs⟩ := Option.ite_none_right_eq_some.1 hs
      obtain rfl := Option.some.inj hs
      obtain ⟨hrun, hwait⟩ := Classical.not_imp.1 hbad
      have hidle : s.phase ≠ .idle := fun hidle =>
        absurd (hload.symm.trans (h.flow.idle hidle).2.2) (by decide)
      refine ⟨?_, if_neg hrun, hwait⟩
      cases hphase : s.phase with
      | idle => exact absurd hphase hidle
      | running => exact absurd hphase hrun
      | stopping => rfl
  | finish i rc now =>
      obtain ⟨job, hj, hs⟩ := Option.bind_eq_some_iff.1 hs
      obtain rfl := Option.some.inj hs
      obtain ⟨hfin, hre⟩ := Classical.not_imp.1 hbad
      have hre : requeues s.requestTimeoutMs rc job.isRetry = true := by
        by_contra hno
        refine hre fun job' hj' => ?_
        obtain rfl := Option.some.inj (hj.symm.trans hj')
        simpa using hno
      have hidle : s.phase ≠ .idle := fun hidle => by
        rw [(h.flow.idle hidle).2.1] at hj
        cases hj
      rw [finishJob, if_pos hre]
      refine ⟨?_, hfin, by simp⟩
      cases hphase : s.phase with
      | idle => exact absurd hphase hidle
      | running => exact absurd hphase (h.left hfin).1
      | stopping => rfl
  | start | dispatch dr | pick i | pollSize | pollScan newest now | stop | join =>
      exact absurd trivial hbad

/-- A request left behind is still there when `stop` returns. -/
theorem LeftBehind.step {s s' : FlowState} {a : FlowAction} (h : LeftBehind s)
    (hs : flowStep s a = some s') : LeftBehind s' ∨ ¬ Drained s' := by
  obtain ⟨hphase, hfin, hwait⟩ := h
  cases a with
  | start | dispatch dr | stop =>
      obtain ⟨hphase', -⟩ := Option.ite_none_right_eq_some.1 hs
      exact absurd (hphase.symm.trans hphase') (by decide)
  | pollMarker | pollSize | pollScan newest now =>
      obtain ⟨hpoll, -⟩ := Option.ite_none_right_eq_some.1 hs
      exact absurd (hfin.symm.trans hpoll) (by decide)
  | pick i =>
      obtain ⟨job, -, hs⟩ := Option.bind_eq_some_iff.1 hs
      exact Or.inl (Option.some.inj hs ▸ ⟨hphase, hfin, hwait⟩)
  | finish i rc now =>
      obtain ⟨job, -, hs⟩ := Option.bind_eq_some_iff.1 hs
      obtain rfl := Option.some.inj hs
      refine Or.inl ?_
      unfold finishJob
      split
      · exact ⟨hphase, hfin, by simp⟩
      · exact ⟨hphase, hfin, hwait⟩
  | join =>
      obtain ⟨-, hs⟩ := Option.ite_none_right_eq_some.1 hs
      obtain rfl := Option.some.inj hs
      exact Or.inr fun h => hwait (h.1 rfl).1

theorem drainInv_new (sourceid : SourceID) (requestTimeoutMs : ℤ) :
    DrainInv (.new sourceid requestTimeoutMs) where
  flow := .new _ _
  same_run := by simp [FlowState.new]
  current := by simp [FlowState.new, FlowState.pending]
  left _ := ⟨by simp [FlowState.new], rfl⟩

/-- **Draining at stop.**  A run of the handler whose turns all leave nothing
behind is drained in every state; and a run that ends with `stop` returned is
drained in every state only if they do. -/
theorem drained_iff (sourceid : SourceID) (requestTimeoutMs : ℤ) {l : List FlowAction}
    {s : FlowState} (hrun : exec flowStep (.new sourceid requestTimeoutMs) l = some s) :
    (Guarded flowStep LeavesNothing (.new sourceid requestTimeoutMs) l →
        Always flowStep Drained (.new sourceid requestTimeoutMs) l) ∧
      (s.phase = .idle → Always flowStep Drained (.new sourceid requestTimeoutMs) l →
        Guarded flowStep LeavesNothing (.new sourceid requestTimeoutMs) l) := by
  have hinit := drainInv_new sourceid requestTimeoutMs
  refine ⟨fun hok => ?_, fun hidle h => ?_⟩
  · exact (always_of_guarded (fun _ _ _ h hok hs => h.step hok hs) hinit hok).mono
      fun _ h => h.drained
  · have hend : ¬ LeftBehind s := fun hleft =>
      absurd (hidle.symm.trans hleft.1) (by decide)
    exact (always_iff_guarded_of_doomed (fun _ h => h.drained)
      (fun _ _ _ h hok hs => h.step hok hs)
      (fun _ _ _ h hbad hs => Or.inl (leftBehind_of_not_ok h hbad hs))
      (fun _ _ _ h hs => h.step hs) hinit hrun hend).1 h

/-- A request is accepted, not yet served, waits, is issued again by a scan and
answered, before `stop`. -/
def retriedRun : List FlowAction :=
  [.start, .dispatch (requestFor 1 2), .pick 0, .finish 0 .kNotYet 0, .pollMarker, .pollSize,
    .pollScan (some 3) (fun _ => 0), .pick 0, .finish 0 .kFound 0, .stop, .pollMarker, .join]

/-- Where that run ends. -/
def retriedState : FlowState := (exec flowStep (.new ⟨0, 0⟩ 1000) retriedRun).get (by decide)

theorem exec_retriedRun : exec flowStep (.new ⟨0, 0⟩ 1000) retriedRun = some retriedState :=
  (Option.some_get _).symm

/-- Conservation there: the request is answered once, after one retry. -/
theorem request_in_one_place_retried :
    retriedState.retried.length = 1 ∧ (retriedState.inPlace .answered).Nodup ∧
      ∃ p, (retriedState.inPlace p).count ⟨0, 1, requestFor 1 2⟩ = 1 := by
  obtain ⟨hplace, hanswered, -⟩ := request_in_one_place exec_retriedRun
  obtain ⟨p, hp, -⟩ := hplace ⟨0, 1, requestFor 1 2⟩ (by decide)
  exact ⟨by decide, hanswered, p, hp⟩

/-- That run is drained in every state. -/
theorem drained_iff_retried : Always flowStep Drained (.new ⟨0, 0⟩ 1000) retriedRun :=
  (drained_iff ⟨0, 0⟩ 1000 exec_retriedRun).1 (by decide)

/-- A request still waits when the marker is cleared: the waiting thread leaves
its loop, `stop` returns, and the request is answered in the next run. -/
theorem waiting_at_stop :
    ∃ s, exec flowStep (.new ⟨0, 0⟩ 1000)
        [.start, .dispatch (requestFor 1 2), .pick 0, .finish 0 .kNotYet 0, .stop, .pollMarker,
          .join] = some s ∧
      s.phase = .idle ∧ s.waitingRequests ≠ [] ∧ s.answered = [] ∧ ¬ Drained s ∧
      ∃ s', exec flowStep s
          [.start, .pollMarker, .pollSize, .pollScan (some 3) (fun _ => 0), .pick 0,
            .finish 0 .kFound 0] = some s' ∧
        s'.answered = [⟨⟨0, 1, requestFor 1 2⟩, 2⟩] := by
  refine ⟨_, (Option.some_get (by decide)).symm, by decide, by decide, by decide, fun h => ?_, _,
    (Option.some_get (by decide)).symm, by decide⟩
  exact absurd (h.1 (by decide)).1 (by decide)

end Readout
end SNBModules
