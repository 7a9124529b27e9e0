import SNBModules.Lib.Accounting
import SNBModules.Lib.Tally
import SNBModules.Readout.RequestHandler
import SNBModules.Readout.WaitingRequests

/-!
# The statistics of the request handler

Source: `SNBRequestHandlerModel.hxx`, `data_request`, `issue_request`, `check_waiting_requests`,
`start` and `generate_opmon_data`.

Workers and the waiting thread increment the counters one at a time, and the monitoring thread
exchanges them one at a time for zero, all while requests come and go
(`SNBModules.Readout.WaitingRequests`).  A job is counted by its result inside `data_request` and
as handled at its very end; a request that times out is counted as bad and as timed out by the
waiting thread, and by its result once more when it has been issued again.

Over a run the reports add up to the requests (`totals_at_stop`).  A single report need not fit
together, but the handled requests are exchanged first, so the reports never have more of them
than of results (`reported_handled_le`).  That holds over any number of runs as long as none of
them starts during a report: `start` zeroes the counters, here in one turn, and a report that has
the handled requests by then loses their results.
-/

namespace SNBModules
namespace Readout

open Lib

/-! ### The code -/

/-- The counters of requests. -/
inductive Counter where
  | found
  | bad
  | oldWindow
  | delayed
  | uncategorized
  | timedOut
  | handled
  deriving DecidableEq, Repr

/-- The increments of `data_request` for a result code, in their order. -/
def countersOf : ResultCode → List Counter
  | .kTooOld => [.oldWindow, .bad]
  | .kPartiallyOld => [.oldWindow, .found]
  | .kFound => [.found]
  | .kPartial | .kNotYet => [.delayed]
  | .kNotFound | .kUnknown => [.bad]

/-- The order in which `generate_opmon_data` exchanges them. -/
def exchangeOrder : List Counter :=
  [.handled, .found, .bad, .oldWindow, .delayed, .uncategorized, .timedOut]

/-- A worker: before `data_request` has its result, and then with the increments still to do. -/
inductive Counting where
  | called
  | counting (rc : ResultCode) (rest : List Counter)
  deriving DecidableEq, Repr

/-- The handler with its counters.  `workers` says of each executing job where it is with its
counting, and `leaving` how many workers have sent or put aside their request and have yet to
count it as handled; `timeouts` has the increments that the waiting thread still has to do.
`retriedBefore` is how many requests had been issued again when the run began. -/
structure MonitoredState where
  flow : FlowState
  workers : List Counting
  leaving : ℕ
  timeouts : List Counter
  tally : Tally Counter
  retriedBefore : ℕ

/-- The handler before its first run. -/
def MonitoredState.new (sourceid : SourceID) (requestTimeoutMs : ℤ) : MonitoredState :=
  ⟨.new sourceid requestTimeoutMs, [], 0, [], .zero, 0⟩

/-- One turn of some thread. -/
inductive MonitoredAction where
  | flow (a : FlowAction)
  | evaluate (i : ℕ) (rc : ResultCode)
  | count (i : ℕ)
  | countHandled
  | countTimeout
  | report
  | exchange

/-- What the waiting thread counts when `n` requests have timed out. -/
def timeoutCounters (n : ℕ) : List Counter := (List.replicate n [.bad, .timedOut]).flatten

/-- The turns.  `start` sets the counters to zero.  A worker does its increments before it is
finished with the request, and the waiting thread before it goes on with its loop; `join` waits
for both. -/
def monitoredStep (s : MonitoredState) : MonitoredAction → Option MonitoredState
  | .flow a => do
      let flow ← flowStep s.flow a
      match a with
      | .start =>
          some { s with flow := flow, tally := s.tally.clear, retriedBefore := flow.retried.length }
      | .pick _ => some { s with flow := flow, workers := s.workers ++ [.called] }
      | .finish i rc _ =>
          if s.workers[i]? = some (.counting rc []) then
            some { s with
              flow := flow
              workers := s.workers.eraseIdx i
              leaving := s.leaving + 1 }
          else none
      | .pollMarker => if s.timeouts = [] then some { s with flow := flow } else none
      | .pollScan newest now =>
          let r := scanWaiting s.flow.requestTimeoutMs (newest.getD 0) now s.flow.waitingRequests
          some { s with flow := flow, timeouts := timeoutCounters r.timedOut }
      | .join => if s.leaving = 0 then some { s with flow := flow } else none
      | _ => some { s with flow := flow }
  | .evaluate i rc =>
      if s.workers[i]? = some .called then
        some { s with workers := s.workers.set i (.counting rc (countersOf rc)) }
      else none
  | .count i => do
      match ← s.workers[i]? with
      | .counting rc (k :: rest) =>
          some { s with workers := s.workers.set i (.counting rc rest), tally := s.tally.bump k }
      | _ => none
  | .countHandled =>
      if s.leaving = 0 then none
      else some { s with leaving := s.leaving - 1, tally := s.tally.bump .handled }
  | .countTimeout =>
      match s.timeouts with
      | k :: rest => some { s with timeouts := rest, tally := s.tally.bump k }
      | [] => none
  | .report => do
      let tally ← s.tally.report exchangeOrder
      some { s with tally := tally }
  | .exchange => do
      let tally ← s.tally.exchange
      some { s with tally := tally }

/-- The increments are those of `data_request` as one piece of code. -/
theorem countResult_eq (s : Stats) (rc : ResultCode) :
    countResult s rc =
      { s with
        numRequestsFound := s.numRequestsFound + (countersOf rc).count .found
        numRequestsBad := s.numRequestsBad + (countersOf rc).count .bad
        numRequestsOldWindow := s.numRequestsOldWindow + (countersOf rc).count .oldWindow
        numRequestsDelayed := s.numRequestsDelayed + (countersOf rc).count .delayed } := by
  cases rc <;> rfl

/-! ### The requests of a run -/

/-- What the flow of requests says of the current run, before which `n` requests had been issued
again: each job of it is posted, executed or handled. -/
structure RunCount (f : FlowState) (n : ℕ) : Prop where
  jobs : f.handledRequests + f.pool.length + f.executing.length + n =
    (f.accepted.map Accepted.run).count f.run + f.retried.length
  timedOut_le : f.numRequestsTimedOut + n ≤ f.retried.length
  runs : ∀ a ∈ f.accepted, a.run ≤ f.run

/-- A request that times out is issued again. -/
theorem scanWaiting_timedOut_le (requestTimeoutMs : ℤ) (newestTs : ℕ) (now : ℕ → ℤ)
    (l : List RequestElement) :
    (scanWaiting requestTimeoutMs newestTs now l).timedOut ≤
      (scanWaiting requestTimeoutMs newestTs now l).issued.length := by
  induction l generalizing now with
  | nil => exact le_rfl
  | cons e rest ih =>
      have hrest := ih fun i => now (i + 1)
      rw [scanWaiting]
      split
      · exact hrest.trans (Nat.le_succ _)
      · split
        · exact Nat.succ_le_succ hrest
        · exact hrest

namespace RunCount

variable {f g : FlowState} {n : ℕ}

/-- A run begins with nothing to do. -/
theorem start (h : RunCount f n) (hf : FlowInv f) (hs : flowStep f .start = some g) :
    RunCount g g.retried.length := by
  obtain ⟨hidle, hs⟩ := Option.ite_none_right_eq_some.1 hs
  obtain rfl := Option.some.inj hs
  have hnone : (f.accepted.map Accepted.run).count (f.run + 1) = 0 := by
    refine List.count_eq_zero.2 fun hmem => ?_
    obtain ⟨a, ha, hrun⟩ := List.mem_map.1 hmem
    have hle := h.runs a ha
    omega
  refine ⟨?_, (Nat.zero_add _).le, fun a ha => (h.runs a ha).trans (Nat.le_succ _)⟩
  simp only [hnone, (hf.idle hidle).2.1, List.length_nil]

theorem dispatch (h : RunCount f n) (dr : DataRequest) : RunCount (dispatchRequests f dr) n := by
  unfold dispatchRequests
  split
  · exact h
  · refine ⟨?_, h.timedOut_le, fun a ha => ?_⟩
    · have hjobs := h.jobs
      simp only [issueRequest, List.length_append, List.length_singleton, List.map_append,
        List.map_cons, List.map_nil, List.count_append, List.count_singleton_self]
      omega
    · rcases List.mem_append.1 ha with ha | ha
      · exact h.runs a ha
      · exact (congrArg Accepted.run (List.mem_singleton.1 ha)).le

theorem pick (h : RunCount f n) {i : ℕ} {job : Job} (hj : f.pool[i]? = some job) :
    RunCount { f with pool := f.pool.eraseIdx i, executing := f.executing ++ [job] } n := by
  refine ⟨?_, h.timedOut_le, h.runs⟩
  have hi := (List.getElem?_eq_some_iff.1 hj).1
  have hjobs := h.jobs
  simp only [List.length_append, List.length_singleton, List.length_eraseIdx_of_lt hi]
  omega

theorem finish (h : RunCount f n) {i : ℕ} {job : Job} (hj : f.executing[i]? = some job)
    (rc : ResultCode) (now : ℤ) : RunCount (finishJob f i job rc now) n := by
  have hi := (List.getElem?_eq_some_iff.1 hj).1
  have hjobs := h.jobs
  unfold finishJob
  split
  all_goals
    refine ⟨?_, h.timedOut_le, h.runs⟩
    simp only [List.length_eraseIdx_of_lt hi]
    omega

theorem scan (h : RunCount f n) (newest : Option ℕ) (now : ℕ → ℤ) :
    RunCount (checkWaitingRequests f newest now) n := by
  have htimedOut := scanWaiting_timedOut_le f.requestTimeoutMs (newest.getD 0) now f.waitingRequests
  have hjobs := h.jobs
  have hle := h.timedOut_le
  refine ⟨?_, ?_, h.runs⟩
  · simp only [checkWaitingRequests, List.length_append, List.length_map]
    omega
  · simp only [checkWaitingRequests, List.length_append]
    omega

/-- Every turn of a run. -/
theorem step {a : FlowAction} (h : RunCount f n) (ha : a ≠ .start) (hs : flowStep f a = some g) :
    RunCount g n := by
  cases a with
  | start => exact absurd rfl ha
  | dispatch dr =>
      obtain ⟨-, hs⟩ := Option.ite_none_right_eq_some.1 hs
      exact Option.some.inj hs ▸ h.dispatch dr
  | pick i =>
      obtain ⟨job, hj, hs⟩ := Option.bind_eq_some_iff.1 hs
      exact Option.some.inj hs ▸ h.pick hj
  | finish i rc now =>
      obtain ⟨job, hj, hs⟩ := Option.bind_eq_some_iff.1 hs
      exact Option.some.inj hs ▸ h.finish hj rc now
  | pollScan newest now =>
      obtain ⟨-, hs⟩ := Option.ite_none_right_eq_some.1 hs
      exact Option.some.inj hs ▸ h.scan newest now
  | pollMarker | pollSize | stop | join =>
      obtain ⟨-, hs⟩ := Option.ite_none_right_eq_some.1 hs
      obtain rfl := Option.some.inj hs
      exact ⟨h.jobs, h.timedOut_le, h.runs⟩

end RunCount

/-! ### What is counted and what is still to be counted -/

/-- How many of these counters are for the result of a request. -/
def results (l : List Counter) : ℕ := l.count .found + l.count .bad + l.count .delayed

/-- Every request is counted by one result. -/
theorem results_countersOf (rc : ResultCode) : results (countersOf rc) = 1 := by
  cases rc <;> rfl

theorem results_le_of_suffix {l m : List Counter} (h : l <:+ m) : results l ≤ results m :=
  Nat.add_le_add (Nat.add_le_add (h.sublist.count_le _) (h.sublist.count_le _))
    (h.sublist.count_le _)

theorem count_timeoutCounters (n : ℕ) (k : Counter) :
    (timeoutCounters n).count k = n * [Counter.bad, .timedOut].count k := by
  unfold timeoutCounters
  induction n with
  | zero => rw [Nat.zero_mul]; rfl
  | succ n ih =>
      rw [List.replicate_succ, List.flatten_cons, List.count_append, ih, Nat.succ_mul, Nat.add_comm]

namespace Counting

/-- The increments that a worker still has to do. -/
def rest : Counting → List Counter
  | called => []
  | counting _ rest => rest

/-- One, when the result is there. -/
def evaluated : Counting → ℕ
  | called => 0
  | counting _ _ => 1

/-- A worker does the increments of its result. -/
def Ok : Counting → Prop
  | called => True
  | counting rc rest => rest <:+ countersOf rc

theorem Ok.results_le {w : Counting} (h : w.Ok) : results w.rest ≤ w.evaluated := by
  cases w with
  | called => exact le_rfl
  | counting rc rest => exact (results_le_of_suffix h).trans (results_countersOf rc).le

end Counting

namespace MonitoredState

/-- The increments of a counter that the threads still have to do. -/
def pending (s : MonitoredState) (k : Counter) : ℕ :=
  (s.workers.map fun w => w.rest.count k).sum + s.timeouts.count k +
    if k = .handled then s.leaving else 0

/-- What is counted, and what is still to be counted. -/
def booked (s : MonitoredState) (k : Counter) : ℕ := s.tally.total k + s.pending k

/-- The workers that have a result. -/
def inHand (s : MonitoredState) : ℕ := (s.workers.map Counting.evaluated).sum

/-- The requests issued again in this run. -/
def retriedInRun (s : MonitoredState) : ℕ := s.flow.retried.length - s.retriedBefore

end MonitoredState

/-- The counters `b` agree with the jobs that are handled, those in hand, and the requests that
timed out. -/
structure Booked (b : Counter → ℕ) (handled inHand timedOut : ℕ) : Prop where
  handled_eq : b .handled = handled
  timedOut_eq : b .timedOut = timedOut
  results_eq : b .found + b .bad + b .delayed = handled + inHand + timedOut
  oldWindow_le : b .oldWindow ≤ b .found + b .bad
  uncategorized_eq : b .uncategorized = 0

namespace Booked

variable {b c : Counter → ℕ} {handled inHand timedOut : ℕ}

theorem zero (hb : ∀ k, b k = 0) : Booked b 0 0 0 := by
  refine ⟨hb _, hb _, ?_, ?_, hb _⟩
  · rw [hb, hb, hb]
  · rw [hb]
    exact Nat.zero_le _

/-- `data_request` has a result. -/
theorem evaluate (h : Booked b handled inHand timedOut) (rc : ResultCode)
    (hc : ∀ k, c k = b k + (countersOf rc).count k) : Booked c handled (inHand + 1) timedOut := by
  obtain ⟨hhandled, htimedOut, hresults, hold, huncategorized⟩ := h
  have hone := results_countersOf rc
  unfold results at hone
  refine ⟨?_, ?_, ?_, ?_, ?_⟩
  · rw [hc, hhandled]
    cases rc <;> rfl
  · rw [hc, htimedOut]
    cases rc <;> rfl
  · rw [hc, hc, hc]
    omega
  · have hle : (countersOf rc).count .oldWindow ≤
        (countersOf rc).count .found + (countersOf rc).count .bad := by
      cases rc <;> decide
    rw [hc, hc, hc]
    omega
  · rw [hc, huncategorized]
    cases rc <;> rfl

/-- A job is done. -/
theorem finish (h : Booked b handled (inHand + 1) timedOut)
    (hc : ∀ k, c k = b k + if k = .handled then 1 else 0) :
    Booked c (handled + 1) inHand timedOut := by
  obtain ⟨hhandled, htimedOut, hresults, hold, huncategorized⟩ := h
  refine ⟨?_, ?_, ?_, ?_, ?_⟩
  all_goals
    simp only [hc, reduceCtorEq, if_true, if_false]
    omega

/-- A scan finds `n` requests timed out. -/
theorem scan (h : Booked b handled inHand timedOut) (n : ℕ)
    (hc : ∀ k, c k = b k + (timeoutCounters n).count k) :
    Booked c handled inHand (timedOut + n) := by
  obtain ⟨hhandled, htimedOut, hresults, hold, huncategorized⟩ := h
  have hcount : ∀ k, c k = b k + n * [Counter.bad, .timedOut].count k := fun k => by
    rw [hc, count_timeoutCounters]
  refine ⟨?_, ?_, ?_, ?_, ?_⟩
  all_goals
    simp only [hcount, List.count_cons, List.count_nil, beq_iff_eq, reduceCtorEq, if_true, if_false]
    omega

end Booked

/-- What holds between turns. -/
structure Books (s : MonitoredState) : Prop where
  flow : FlowInv s.flow
  run : RunCount s.flow s.retriedBefore
  booked : Booked s.booked s.flow.handledRequests s.inHand s.flow.numRequestsTimedOut
  length : s.workers.length = s.flow.executing.length
  workers : ∀ w ∈ s.workers, w.Ok
  timeouts : ∃ n ≤ s.flow.numRequestsTimedOut, s.timeouts <:+ timeoutCounters n
  polling : s.timeouts ≠ [] → s.flow.poller = .loadMarker
  idle : s.flow.phase = .idle → s.leaving = 0
  reports : s.tally.Reports exchangeOrder .handled [.found, .bad, .delayed]

namespace Books

variable {s s' : MonitoredState}

theorem new (sourceid : SourceID) (requestTimeoutMs : ℤ) :
    Books (.new sourceid requestTimeoutMs) where
  flow := FlowInv.new sourceid requestTimeoutMs
  run := ⟨rfl, le_rfl, fun _ ha => absurd ha List.not_mem_nil⟩
  booked := ⟨rfl, rfl, rfl, le_rfl, rfl⟩
  length := rfl
  workers _ hw := absurd hw List.not_mem_nil
  timeouts := ⟨0, le_rfl, List.suffix_refl _⟩
  polling h := absurd rfl h
  idle _ := rfl
  reports := Tally.Reports.zero

/-- The handled requests are exchanged first. -/
theorem handled_first {rest : List Counter} (h : .handled :: rest <:+ exchangeOrder) :
    rest = exchangeOrder.tail := by
  obtain ⟨done, hdone⟩ := h
  cases done with
  | nil => exact (List.cons.inj hdone).2
  | cons k done =>
      have htail : done ++ .handled :: rest = exchangeOrder.tail := (List.cons.inj hdone).2
      have hmem : Counter.handled ∈ exchangeOrder.tail :=
        htail ▸ List.mem_append_right done List.mem_cons_self
      exact absurd hmem (by decide)

/-- At no moment are more jobs counted as handled than results. -/
theorem handled_le (h : Books s) :
    s.tally.total .handled ≤ ([Counter.found, .bad, .delayed].map s.tally.total).sum := by
  obtain ⟨n, hn, hsuffix⟩ := h.timeouts
  have hworkers : (s.workers.map fun w => w.rest.count .found).sum +
      (s.workers.map fun w => w.rest.count .bad).sum +
      (s.workers.map fun w => w.rest.count .delayed).sum ≤ s.inHand := by
    rw [← List.sum_map_add, ← List.sum_map_add]
    exact List.sum_le_sum fun w hw => (h.workers w hw).results_le
  have htimeouts := results_le_of_suffix hsuffix
  have hn' : results (timeoutCounters n) = n := by
    simp [results, count_timeoutCounters]
  have hhandled : s.tally.total .handled ≤ s.flow.handledRequests :=
    h.booked.handled_eq ▸ Nat.le_add_right _ _
  have hresults := h.booked.results_eq
  simp only [MonitoredState.booked, MonitoredState.pending, reduceCtorEq, if_false] at hresults
  simp only [List.map_cons, List.map_nil, List.sum_cons, List.sum_nil]
  rw [hn', results] at htimeouts
  omega

/-- A turn of the flow in which no job and no time-out is counted. -/
theorem of_flow (h : Books s) {flow : FlowState} {a : FlowAction} (ha : a ≠ .start)
    (hs : flowStep s.flow a = some flow)
    (hhandled : flow.handledRequests = s.flow.handledRequests)
    (htimedOut : flow.numRequestsTimedOut = s.flow.numRequestsTimedOut)
    (hexecuting : flow.executing = s.flow.executing)
    (hpolling : s.timeouts ≠ [] → flow.poller = .loadMarker)
    (hidle : flow.phase = .idle → s.leaving = 0) : Books { s with flow := flow } := by
  refine ⟨h.flow.step hs, h.run.step ha hs, ?_, ?_, h.workers, ?_, hpolling, hidle, h.reports⟩
  · rw [hhandled, htimedOut]
    exact h.booked
  · rw [hexecuting]
    exact h.length
  · rw [htimedOut]
    exact h.timeouts

/-- Nothing is left from the run before. -/
theorem start (h : Books s) (hs : monitoredStep s (.flow .start) = some s') : Books s' := by
  obtain ⟨flow, hflow, hs⟩ := Option.bind_eq_some_iff.1 hs
  obtain rfl := Option.some.inj hs
  have hinv := h.flow.step hflow
  have hrun := h.run.start h.flow hflow
  obtain ⟨hphase, hflow⟩ := Option.ite_none_right_eq_some.1 hflow
  obtain rfl := Option.some.inj hflow
  obtain ⟨-, hexecuting, hfinished⟩ := h.flow.idle hphase
  have hworkers : s.workers = [] := by
    rw [← List.length_eq_zero_iff, h.length, hexecuting, List.length_nil]
  have htimeouts : s.timeouts = [] := by
    by_contra hne
    exact absurd (hfinished.symm.trans (h.polling hne)) (by decide)
  have hpending : ∀ k, s.pending k = 0 := fun k => by
    rw [MonitoredState.pending, hworkers, htimeouts, h.idle hphase, ite_self]
    rfl
  refine ⟨hinv, hrun, ?_, h.length, h.workers, ?_, fun _ => rfl, fun hidle => ?_, h.reports.clear⟩
  · have hbooked : ∀ k, s.tally.clear.total k + s.pending k = 0 := fun k => by
      rw [Tally.total_clear, hpending]
    have hinHand : s.inHand = 0 := by
      rw [MonitoredState.inHand, hworkers]
      rfl
    show Booked _ 0 s.inHand 0
    rw [hinHand]
    exact .zero hbooked
  · exact ⟨0, le_rfl, htimeouts ▸ List.nil_suffix⟩
  · cases hidle

theorem pick (h : Books s) {i : ℕ} (hs : monitoredStep s (.flow (.pick i)) = some s') :
    Books s' := by
  obtain ⟨flow, hflow, hs⟩ := Option.bind_eq_some_iff.1 hs
  obtain rfl := Option.some.inj hs
  have hinv := h.flow.step hflow
  have hrun := h.run.step (by simp) hflow
  obtain ⟨job, hjob, hflow⟩ := Option.bind_eq_some_iff.1 hflow
  obtain rfl := Option.some.inj hflow
  refine ⟨hinv, hrun, ?_, ?_, fun w hw => ?_, h.timeouts, h.polling, h.idle, h.reports⟩
  · have hbooked : ∀ k, ((s.workers ++ [Counting.called]).map fun w => w.rest.count k).sum =
        (s.workers.map fun w => w.rest.count k).sum := fun k => by
      rw [List.map_append, List.sum_append]
      rfl
    have hinHand : ((s.workers ++ [Counting.called]).map Counting.evaluated).sum = s.inHand := by
      rw [List.map_append, List.sum_append]
      rfl
    have heq : MonitoredState.booked { s with workers := s.workers ++ [.called] } = s.booked := by
      funext k
      simp only [MonitoredState.booked, MonitoredState.pending, hbooked]
    rw [MonitoredState.inHand, hinHand]
    exact heq ▸ h.booked
  · rw [List.length_append, List.length_append, h.length]
    rfl
  · rcases List.mem_append.1 hw with hw | hw
    · exact h.workers w hw
    · rw [List.mem_singleton.1 hw]
      trivial

/-- The worker's counting passes from its result to the job. -/
theorem finish (h : Books s) {i : ℕ} {rc : ResultCode} {now : ℤ}
    (hs : monitoredStep s (.flow (.finish i rc now)) = some s') : Books s' := by
  obtain ⟨flow, hflow, hs⟩ := Option.bind_eq_some_iff.1 hs
  obtain ⟨hworker, hs⟩ := Option.ite_none_right_eq_some.1 hs
  obtain rfl := Option.some.inj hs
  have hinv := h.flow.step hflow
  have hrun := h.run.step (by simp) hflow
  obtain ⟨job, hjob, hflow⟩ := Option.bind_eq_some_iff.1 hflow
  obtain rfl := Option.some.inj hflow
  have hbusy : s.flow.phase ≠ .idle := fun hidle => by
    rw [(h.flow.idle hidle).2.1] at hjob
    cases hjob
  have hdone : (finishJob s.flow i job rc now).handledRequests = s.flow.handledRequests + 1 ∧
      (finishJob s.flow i job rc now).numRequestsTimedOut = s.flow.numRequestsTimedOut ∧
      (finishJob s.flow i job rc now).executing = s.flow.executing.eraseIdx i ∧
      (finishJob s.flow i job rc now).poller = s.flow.poller ∧
      (finishJob s.flow i job rc now).phase = s.flow.phase := by
    unfold finishJob
    split <;> exact ⟨rfl, rfl, rfl, rfl, rfl⟩
  obtain ⟨hhandled, htimedOut, hexecuting, hpoller, hphase⟩ := hdone
  refine ⟨hinv, hrun, ?_, ?_, fun w hw => h.workers w (List.eraseIdx_subset hw), ?_, ?_, ?_,
    h.reports⟩
  · rw [hhandled, htimedOut]
    have hinHand := sum_map_eraseIdx Counting.evaluated hworker
    have hbooked := h.booked
    rw [MonitoredState.inHand, ← hinHand] at hbooked
    refine hbooked.finish fun k => ?_
    have hsum : ((s.workers.eraseIdx i).map fun w => w.rest.count k).sum =
        (s.workers.map fun w => w.rest.count k).sum :=
      sum_map_eraseIdx (fun w : Counting => w.rest.count k) hworker
    simp only [MonitoredState.booked, MonitoredState.pending, hsum]
    split_ifs <;> omega
  · rw [hexecuting, List.length_eraseIdx, List.length_eraseIdx, h.length]
  · rw [htimedOut]
    exact h.timeouts
  · rw [hpoller]
    exact h.polling
  · rw [hphase]
    exact fun hidle => absurd hidle hbusy

/-- The waiting thread has counted what the last scan found. -/
theorem scan (h : Books s) {newest : Option ℕ} {now : ℕ → ℤ}
    (hs : monitoredStep s (.flow (.pollScan newest now)) = some s') : Books s' := by
  obtain ⟨flow, hflow, hs⟩ := Option.bind_eq_some_iff.1 hs
  obtain rfl := Option.some.inj hs
  have hinv := h.flow.step hflow
  have hrun := h.run.step (by simp) hflow
  obtain ⟨hscan, hflow⟩ := Option.ite_none_right_eq_some.1 hflow
  obtain rfl := Option.some.inj hflow
  have htimeouts : s.timeouts = [] := by
    by_contra hne
    exact absurd (hscan.symm.trans (h.polling hne)) (by decide)
  refine ⟨hinv, hrun, h.booked.scan _ fun k => ?_, h.length, h.workers,
    ⟨_, Nat.le_add_left _ _, List.suffix_refl _⟩, fun _ => rfl, h.idle, h.reports⟩
  simp only [MonitoredState.booked, MonitoredState.pending, htimeouts, List.count_nil]
  omega

/-- A turn of the flow of requests. -/
theorem step_flow (h : Books s) {a : FlowAction} (hs : monitoredStep s (.flow a) = some s') :
    Books s' := by
  cases a with
  | start => exact h.start hs
  | pick i => exact h.pick hs
  | finish i rc now => exact h.finish hs
  | pollScan newest now => exact h.scan hs
  | dispatch dr =>
      obtain ⟨flow, hflow, hs⟩ := Option.bind_eq_some_iff.1 hs
      obtain rfl := Option.some.inj hs
      have hsame : flow.handledRequests = s.flow.handledRequests ∧
          flow.numRequestsTimedOut = s.flow.numRequestsTimedOut ∧
          flow.executing = s.flow.executing ∧ flow.poller = s.flow.poller ∧
          flow.phase = s.flow.phase := by
        obtain ⟨-, hflow⟩ := Option.ite_none_right_eq_some.1 hflow
        obtain rfl := Option.some.inj hflow
        unfold dispatchRequests
        split <;> exact ⟨rfl, rfl, rfl, rfl, rfl⟩
      obtain ⟨hhandled, htimedOut, hexecuting, hpoller, hphase⟩ := hsame
      exact h.of_flow (by simp) hflow hhandled htimedOut hexecuting (hpoller ▸ h.polling)
        (hphase ▸ h.idle)
  | pollMarker =>
      obtain ⟨flow, hflow, hs⟩ := Option.bind_eq_some_iff.1 hs
      obtain ⟨htimeouts, hs⟩ := Option.ite_none_right_eq_some.1 hs
      obtain rfl := Option.some.inj hs
      obtain ⟨-, hnew⟩ := Option.ite_none_right_eq_some.1 hflow
      obtain rfl := Option.some.inj hnew
      exact h.of_flow (by simp) hflow rfl rfl rfl (fun hne => absurd htimeouts hne) h.idle
  | pollSize =>
      obtain ⟨flow, hflow, hs⟩ := Option.bind_eq_some_iff.1 hs
      obtain rfl := Option.some.inj hs
      obtain ⟨htest, hnew⟩ := Option.ite_none_right_eq_some.1 hflow
      obtain rfl := Option.some.inj hnew
      refine h.of_flow (by simp) hflow rfl rfl rfl (fun hne => ?_) h.idle
      exact absurd (htest.symm.trans (h.polling hne)) (by decide)
  | stop =>
      obtain ⟨flow, hflow, hs⟩ := Option.bind_eq_some_iff.1 hs
      obtain rfl := Option.some.inj hs
      obtain ⟨-, hnew⟩ := Option.ite_none_right_eq_some.1 hflow
      obtain rfl := Option.some.inj hnew
      exact h.of_flow (by simp) hflow rfl rfl rfl h.polling fun hidle => by cases hidle
  | join =>
      obtain ⟨flow, hflow, hs⟩ := Option.bind_eq_some_iff.1 hs
      obtain ⟨hleaving, hs⟩ := Option.ite_none_right_eq_some.1 hs
      obtain rfl := Option.some.inj hs
      obtain ⟨-, hnew⟩ := Option.ite_none_right_eq_some.1 hflow
      obtain rfl := Option.some.inj hnew
      exact h.of_flow (by simp) hflow rfl rfl rfl h.polling fun _ => hleaving

/-- Counting and reporting change what is counted and what is still to be counted, not their
sum. -/
theorem of_counts (h : Books s) {workers : List Counting} {leaving : ℕ} {timeouts : List Counter}
    {tally : Tally Counter}
    (hbooked : ∀ k, (MonitoredState.mk s.flow workers leaving timeouts tally
      s.retriedBefore).booked k = s.booked k)
    (hinHand : (workers.map Counting.evaluated).sum = s.inHand)
    (hlength : workers.length = s.workers.length) (hworkers : ∀ w ∈ workers, w.Ok)
    (htimeouts : timeouts <:+ s.timeouts) (hleaving : leaving ≤ s.leaving)
    (hreports : tally.Reports exchangeOrder .handled [.found, .bad, .delayed]) :
    Books ⟨s.flow, workers, leaving, timeouts, tally, s.retriedBefore⟩ := by
  obtain ⟨n, hn, hsuffix⟩ := h.timeouts
  refine ⟨h.flow, h.run, ?_, hlength.trans h.length, hworkers, ⟨n, hn, htimeouts.trans hsuffix⟩,
    fun hne => h.polling fun hnil => ?_, fun hidle => ?_, hreports⟩
  · rw [MonitoredState.inHand, hinHand]
    exact (funext hbooked : _ = s.booked) ▸ h.booked
  · rw [hnil] at htimeouts
    exact hne (List.suffix_nil.1 htimeouts)
  · exact Nat.le_zero.1 (hleaving.trans (h.idle hidle).le)

/-- Each increment is booked where it was pending, and an exchange finds fewer jobs handled than
results. -/
theorem step {a : MonitoredAction} (h : Books s) (hs : monitoredStep s a = some s') :
    Books s' := by
  cases a with
  | flow a => exact h.step_flow hs
  | evaluate i rc =>
      obtain ⟨hworker, hs⟩ := Option.ite_none_right_eq_some.1 hs
      obtain rfl := Option.some.inj hs
      refine ⟨h.flow, h.run, ?_, ?_, fun w hw => ?_, h.timeouts, h.polling, h.idle, h.reports⟩
      · have hinHand : ((s.workers.set i (.counting rc (countersOf rc))).map
            Counting.evaluated).sum = s.inHand + 1 :=
          sum_map_set Counting.evaluated hworker (.counting rc (countersOf rc))
        rw [MonitoredState.inHand, hinHand]
        refine h.booked.evaluate rc fun k => ?_
        have hsum : ((s.workers.set i (.counting rc (countersOf rc))).map
            fun w => w.rest.count k).sum =
              (s.workers.map fun w => w.rest.count k).sum + (countersOf rc).count k :=
          sum_map_set (fun w : Counting => w.rest.count k) hworker (.counting rc (countersOf rc))
        simp only [MonitoredState.booked, MonitoredState.pending, hsum]
        omega
      · rw [List.length_set, h.length]
      · rcases List.mem_or_eq_of_mem_set hw with hw | rfl
        · exact h.workers w hw
        · exact List.suffix_refl _
  | count i =>
      obtain ⟨w, hworker, hs⟩ := Option.bind_eq_some_iff.1 hs
      split at hs
      · rename_i rc k rest
        obtain rfl := Option.some.inj hs
        have hok : (k :: rest) <:+ countersOf rc := h.workers _ (List.mem_of_getElem? hworker)
        refine h.of_counts (fun j => ?_) ?_ List.length_set (fun w hw => ?_) (List.suffix_refl _)
          le_rfl (h.reports.bump k)
        · have hsum : ((s.workers.set i (.counting rc rest)).map fun w => w.rest.count j).sum +
              (k :: rest).count j =
                (s.workers.map fun w => w.rest.count j).sum + rest.count j :=
            sum_map_set (fun w : Counting => w.rest.count j) hworker (.counting rc rest)
          rw [List.count_cons] at hsum
          simp only [MonitoredState.booked, MonitoredState.pending, Tally.total_bump]
          simp only [beq_iff_eq, eq_comm (a := k)] at hsum
          omega
        · have hinHand := sum_map_set Counting.evaluated hworker (.counting rc rest)
          exact Nat.add_right_cancel hinHand
        · rcases List.mem_or_eq_of_mem_set hw with hw | rfl
          · exact h.workers w hw
          · exact (List.suffix_cons k rest).trans hok
      · cases hs
  | countHandled =>
      obtain ⟨hleaving, hs⟩ := Option.ite_none_left_eq_some.1 hs
      obtain rfl := Option.some.inj hs
      refine h.of_counts (fun j => ?_) rfl rfl h.workers (List.suffix_refl _) (Nat.sub_le _ _)
        (h.reports.bump .handled)
      simp only [MonitoredState.booked, MonitoredState.pending, Tally.total_bump]
      split_ifs <;> omega
  | countTimeout =>
      cases htimeouts : s.timeouts with
      | nil => simp [monitoredStep, htimeouts] at hs
      | cons k rest =>
          simp only [monitoredStep, htimeouts] at hs
          obtain rfl := Option.some.inj hs
          refine h.of_counts (fun j => ?_) rfl rfl h.workers ?_ le_rfl (h.reports.bump k)
          · simp only [MonitoredState.booked, MonitoredState.pending, Tally.total_bump, htimeouts,
              List.count_cons, beq_iff_eq, eq_comm (a := k)]
            omega
          · rw [htimeouts]
            exact List.suffix_cons k rest
  | report =>
      obtain ⟨tally, htally, hs⟩ := Option.bind_eq_some_iff.1 hs
      obtain rfl := Option.some.inj hs
      refine h.of_counts (fun j => ?_) rfl rfl h.workers (List.suffix_refl _) le_rfl
        (h.reports.report htally)
      obtain ⟨-, rfl⟩ := Tally.report_eq_some htally
      rfl
  | exchange =>
      obtain ⟨tally, htally, hs⟩ := Option.bind_eq_some_iff.1 hs
      obtain rfl := Option.some.inj hs
      refine h.of_counts (fun j => ?_) rfl rfl h.workers (List.suffix_refl _) le_rfl
        (h.reports.exchange (fun rest hrest => ?_) h.handled_le htally)
      · simp only [MonitoredState.booked, MonitoredState.pending, Tally.total_exchange htally]
      · rw [handled_first hrest]
        decide

end Books

/-! ### Results -/

/-- A run does not start during a report. -/
def StartsBetweenReports (s : MonitoredState) : MonitoredAction → Prop
  | .flow .start => s.tally.pending = []
  | _ => True

instance (s : MonitoredState) : ∀ a, Decidable (StartsBetweenReports s a)
  | .flow .start => inferInstanceAs (Decidable (s.tally.pending = []))
  | .flow (.dispatch _) | .flow (.pick _) | .flow (.finish ..) | .flow .pollMarker
  | .flow .pollSize | .flow (.pollScan ..) | .flow .stop | .flow .join | .evaluate .. | .count _
  | .countHandled | .countTimeout | .report | .exchange => inferInstanceAs (Decidable True)

/-- Only a start changes what the reports had when the counts last began anew. -/
theorem earlier_step {s s' : MonitoredState} {a : MonitoredAction}
    (hs : monitoredStep s a = some s') :
    a = .flow .start ∧ s'.tally = s.tally.clear ∨ s'.tally.earlier = s.tally.earlier := by
  cases a with
  | flow a =>
      obtain ⟨flow, -, hs⟩ := Option.bind_eq_some_iff.1 hs
      cases a with
      | start =>
          obtain rfl := Option.some.inj hs
          exact Or.inl ⟨rfl, rfl⟩
      | finish i rc now | pollMarker | join =>
          obtain ⟨-, hs⟩ := Option.ite_none_right_eq_some.1 hs
          obtain rfl := Option.some.inj hs
          exact Or.inr rfl
      | dispatch dr | pick i | pollSize | pollScan newest now | stop =>
          obtain rfl := Option.some.inj hs
          exact Or.inr rfl
  | evaluate i rc =>
      obtain ⟨-, hs⟩ := Option.ite_none_right_eq_some.1 hs
      obtain rfl := Option.some.inj hs
      exact Or.inr rfl
  | count i =>
      obtain ⟨w, -, hs⟩ := Option.bind_eq_some_iff.1 hs
      split at hs
      · obtain rfl := Option.some.inj hs
        exact Or.inr rfl
      · cases hs
  | countHandled =>
      obtain ⟨-, hs⟩ := Option.ite_none_left_eq_some.1 hs
      obtain rfl := Option.some.inj hs
      exact Or.inr rfl
  | countTimeout =>
      cases htimeouts : s.timeouts with
      | nil => simp [monitoredStep, htimeouts] at hs
      | cons k rest =>
          simp only [monitoredStep, htimeouts] at hs
          obtain rfl := Option.some.inj hs
          exact Or.inr rfl
  | report =>
      obtain ⟨tally, htally, hs⟩ := Option.bind_eq_some_iff.1 hs
      obtain rfl := Option.some.inj hs
      obtain ⟨-, rfl⟩ := Tally.report_eq_some htally
      exact Or.inr rfl
  | exchange =>
      obtain ⟨tally, htally, hs⟩ := Option.bind_eq_some_iff.1 hs
      obtain rfl := Option.some.inj hs
      obtain ⟨k, rest, -, -, -, hearlier, -⟩ := Tally.exchange_eq_some htally
      exact Or.inr hearlier

/-- One turn keeps what the reports had before the current run in balance. -/
theorem covered_step {s s' : MonitoredState} {a : MonitoredAction} (hbooks : Books s)
    (hcovered : s.tally.Covered .handled [.found, .bad, .delayed])
    (ha : StartsBetweenReports s a) (hs : monitoredStep s a = some s') :
    s'.tally.Covered .handled [.found, .bad, .delayed] := by
  rcases earlier_step hs with ⟨rfl, htally⟩ | hearlier
  · rw [htally]
    exact hcovered.clear hbooks.reports ha
  · rw [Tally.Covered, hearlier]
    exact hcovered

/-- **The reports never have more requests handled than results,** in any interleaving of the
workers, the waiting thread and the monitoring thread, over any number of runs that each start
between two reports. -/
theorem reported_handled_le {sourceid : SourceID} {requestTimeoutMs : ℤ}
    {l : List MonitoredAction} {s : MonitoredState}
    (h : exec monitoredStep (.new sourceid requestTimeoutMs) l = some s)
    (hstarts : Guarded monitoredStep StartsBetweenReports (.new sourceid requestTimeoutMs) l)
    (hreport : s.tally.pending = []) :
    s.tally.reported .handled ≤
      s.tally.reported .found + s.tally.reported .bad + s.tally.reported .delayed := by
  have hkept : Always monitoredStep
      (fun s => Books s ∧ s.tally.Covered .handled [.found, .bad, .delayed])
      (.new sourceid requestTimeoutMs) l :=
    always_of_guarded (fun s a t hs ha ht => ⟨hs.1.step ht, covered_step hs.1 hs.2 ha ht⟩)
      ⟨Books.new sourceid requestTimeoutMs, Nat.zero_le _⟩ hstarts
  obtain ⟨hbooks, hcovered⟩ := hkept.last h
  simpa [Nat.add_assoc] using Tally.reported_le hbooks.reports hcovered hreport

/-- A run that starts during a report: the monitor has the request, and never its result. -/
example : (exec monitoredStep (.new ⟨0, 0⟩ 1000)
    ([.flow .start, .flow (.dispatch (requestFor 0 10)), .flow (.pick 0), .evaluate 0 .kFound,
      .count 0, .flow (.finish 0 .kFound 0), .countHandled, .report, .exchange, .flow .stop,
      .flow .pollMarker, .flow .join, .flow .start] ++ List.replicate 6 .exchange)).map
      (fun s => (s.tally.pending, s.tally.reported .handled, s.tally.reported .found,
        s.tally.reported .bad, s.tally.reported .delayed)) = some ([], 1, 0, 0, 0) := by
  decide

/-- A request that waits and times out, with a report under way when its first attempt ends. -/
def timedOutRun : List MonitoredAction :=
  [.flow .start, .flow (.dispatch (requestFor 0 10)), .flow (.pick 0), .report, .exchange,
    .evaluate 0 .kNotYet, .count 0, .flow (.finish 0 .kNotYet 0), .countHandled, .exchange,
    .exchange, .exchange, .exchange, .exchange, .exchange]

/-- How the run goes on. -/
def timedOutRest : List MonitoredAction :=
  [.flow .pollMarker, .flow .pollSize, .flow (.pollScan none fun _ => 1000000000), .countTimeout,
    .flow (.pick 0), .evaluate 0 .kNotYet, .count 0, .flow (.finish 0 .kNotYet 0), .flow .stop,
    .countTimeout, .flow .pollMarker, .countHandled, .flow .join]

/-- The state after the report. -/
def reportedState : MonitoredState :=
  (exec monitoredStep (.new ⟨0, 0⟩ 1000) timedOutRun).get (by decide)

/-- The state when `stop` has returned. -/
def stoppedState : MonitoredState :=
  (exec monitoredStep (.new ⟨0, 0⟩ 1000) (timedOutRun ++ timedOutRest)).get (by decide)

theorem reported_handled_le_waiting :
    reportedState.tally.reported .handled ≤
      reportedState.tally.reported .found + reportedState.tally.reported .bad +
        reportedState.tally.reported .delayed :=
  reported_handled_le (l := timedOutRun) (Option.some_get _).symm (by decide) rfl

/-- **What the statistics of a run add up to,** in the reports and in the counters that are still
to be exchanged, when `stop` has returned: a job is handled for each request of the run and for
each request issued again, and the results are one for each job and one for each time-out. -/
theorem totals_at_stop {sourceid : SourceID} {requestTimeoutMs : ℤ} {l : List MonitoredAction}
    {s : MonitoredState} (h : exec monitoredStep (.new sourceid requestTimeoutMs) l = some s)
    (hstop : s.flow.phase = .idle) :
    s.tally.total .handled = (s.flow.accepted.map Accepted.run).count s.flow.run + s.retriedInRun ∧
      s.tally.total .found + s.tally.total .bad + s.tally.total .delayed =
        s.tally.total .handled + s.tally.total .timedOut ∧
      s.tally.total .timedOut ≤ s.retriedInRun ∧
      s.tally.total .oldWindow ≤ s.tally.total .found + s.tally.total .bad ∧
      s.tally.total .uncategorized = 0 := by
  have hbooks := exec_invariant (fun _ _ _ => Books.step) (Books.new sourceid requestTimeoutMs) h
  obtain ⟨hpool, hexecuting, hfinished⟩ := hbooks.flow.idle hstop
  have hworkers : s.workers = [] := by
    rw [← List.length_eq_zero_iff, hbooks.length, hexecuting, List.length_nil]
  have htimeouts : s.timeouts = [] := by
    by_contra hne
    exact absurd (hfinished.symm.trans (hbooks.polling hne)) (by decide)
  -- nothing is left to be counted, so what is booked is what was counted
  have htotal : s.booked = s.tally.total := by
    funext k
    rw [MonitoredState.booked, MonitoredState.pending, hworkers, htimeouts, hbooks.idle hstop,
      ite_self]
    rfl
  have hinHand : s.inHand = 0 := by
    rw [MonitoredState.inHand, hworkers]
    rfl
  obtain ⟨hhandled, htimedOut, hresults, hold, huncategorized⟩ := hbooks.booked
  rw [htotal] at hhandled htimedOut hresults hold huncategorized
  have hjobs := hbooks.run.jobs
  have hle := hbooks.run.timedOut_le
  rw [hpool, hexecuting, List.length_nil] at hjobs
  unfold MonitoredState.retriedInRun
  exact ⟨by omega, by omega, by omega, hold, huncategorized⟩

theorem totals_at_stop_waiting :
    stoppedState.tally.total .handled =
        (stoppedState.flow.accepted.map Accepted.run).count stoppedState.flow.run +
          stoppedState.retriedInRun ∧
      stoppedState.tally.total .found + stoppedState.tally.total .bad +
          stoppedState.tally.total .delayed =
        stoppedState.tally.total .handled + stoppedState.tally.total .timedOut ∧
      stoppedState.tally.total .timedOut ≤ stoppedState.retriedInRun ∧
      stoppedState.tally.total .oldWindow ≤
        stoppedState.tally.total .found + stoppedState.tally.total .bad ∧
      stoppedState.tally.total .uncategorized = 0 :=
  totals_at_stop (l := timedOutRun ++ timedOutRest) (Option.some_get _).symm (by decide)

end Readout
end SNBModules
