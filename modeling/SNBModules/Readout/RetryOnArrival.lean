import SNBModules.Readout.RunBoundary
import SNBModules.Readout.WaitingRequests

/-!
# Requests that are issued again when their data has arrived

Source: `SNBRequestHandlerModel.hxx`, `issue_request`, `data_request`,
`get_fragment_pieces`, `check_waiting_requests` and `cleanup_check`, and
`SNBDataHandlingModel.hxx`, `process_item` and `stop`.

Here the flow of requests (`SNBModules.Readout.WaitingRequests`) and the latency
buffer (`SNBModules.Readout.RequestHandler`) run together: a worker classifies its
request by what it reads of the buffer, and the scan of the waiting list reads the
newest timestamp there.  A worker reads `occupancy()`, `front()` and `back()` in
separate turns, between which frames arrive and others collect; a cleanup waits
until no worker is inside `data_request`.
-/

namespace SNBModules
namespace Readout

open Lib

/-- The result code of `get_fragment_pieces`, after both ends were read. -/
def classify (lb : LatencyBuffer) (lastTs newestTs startWinTs endWinTs : ℕ) : ResultCode :=
  if startWinTs > newestTs ∨ newestTs < endWinTs then .kNotYet
  else if endWinTs ≤ lastTs then .kTooOld
  else if lb.frames = [] then .kNotFound
  else .kFound

/-- Read at one moment, the ends of the buffer give the code of `windowResult`. -/
theorem windowResult_eq_classify {lb : LatencyBuffer} {front last : Frame}
    (hf : lb.front = some front) (hl : lb.back = some last) (b e : ℕ) :
    windowResult lb b e = some (classify lb front.timestamp last.timestamp b e) := by
  simp only [windowResult, classify, hf, hl, Option.bind_eq_bind, Option.bind_some]
  split_ifs <;> rfl

/-- Where a worker of the pool is in its job. -/
inductive Stage where
  | waiting
  | entered
  | occupied
  | readFront (lastTs : ℕ)
  | serving (w : Worker)
  | returned (rc : ResultCode)
  deriving DecidableEq

namespace Stage

/-- Whether the worker counts in `m_requests_running`. -/
def isInside : Stage → Bool
  | waiting | returned _ => false
  | _ => true

/-- The result code, once there is one. -/
def resultCode? : Stage → Option ResultCode
  | serving w => some w.resultCode
  | returned rc => some rc
  | _ => none

end Stage

/-- The next turn of a worker with this request. -/
def turn (h : RequestHandler) (dr : DataRequest) : Stage → Option (RequestHandler × Stage)
  | .waiting => some (h, .entered)
  | .entered =>
      if h.latencyBuffer.occupancy = 0 then
        some (h, .serving ⟨dr, .kNotFound, {.kLatencyBufferEmpty}, 0, []⟩)
      else some (h, .occupied)
  | .occupied => do
      let front ← h.latencyBuffer.front
      some (h, .readFront front.timestamp)
  | .readFront lastTs => do
      let last ← h.latencyBuffer.back
      let rc := classify h.latencyBuffer lastTs last.timestamp dr.requestInformation.windowBegin
        dr.requestInformation.windowEnd
      some (h, .serving ⟨dr, rc, statusBitsOf rc, 0, []⟩)
  | .serving w =>
      match w.element h.latencyBuffer with
      | some element =>
          let acc := collectElement dr.requestInformation.windowBegin element
            (w.fragPieces, h.popList)
          some ({ h with popList := acc.2 },
            .serving { w with position := w.position + 1, fragPieces := acc.1 })
      | none => some ({ h with stats := countResult h.stats w.resultCode }, .returned w.resultCode)
  | .returned _ => none

/-- The handler and the flow of its requests; `stages` says of each executing job
where its worker is.  `written` are the frames since the last flush, and `arrived`
the requests that a scan issued because their data was there. -/
structure ServingState where
  handler : RequestHandler
  flow : FlowState
  stages : List Stage
  written : List Frame
  arrived : List Accepted

namespace ServingState

/-- A new module. -/
def new (capacity : ℕ) (sourceid : SourceID) (detid fragmentType : ℕ) (requestTimeoutMs : ℤ) :
    ServingState :=
  ⟨.new capacity sourceid detid fragmentType, .new sourceid requestTimeoutMs, [], [], []⟩

/-- The frames in the latency buffer. -/
def frames (s : ServingState) : List Frame := s.handler.latencyBuffer.frames

/-- The newest timestamp, if there is a frame. -/
def newest (s : ServingState) : Option ℕ := s.handler.latencyBuffer.back.map Frame.timestamp

end ServingState

/-- The waiting requests whose window ends at the newest timestamp or before. -/
def FlowState.arrivals (s : FlowState) (newest : Option ℕ) : List Accepted :=
  (s.waitingRequests.filter fun e =>
    e.accepted.request.requestInformation.windowEnd ≤ newest.getD 0).map RequestElement.accepted

/-- One turn: of the producer, of a call of `cleanup_check`, of the worker of the
`i`-th executing job, or of the flow of requests. -/
inductive ServingAction where
  | processItem (payload : Frame)
  | cleanupCheck
  | turn (i : ℕ)
  | flow (a : FlowAction)

/-- The turns.  Of what a flow action leaves open, the buffer and the workers decide
the result code and the newest timestamp; `join` ends `stop`, and the flush of the
buffer follows it. -/
def servingStep (s : ServingState) : ServingAction → Option ServingState
  | .processItem payload => do
      let (lb, inserted) ← processItem s.handler.latencyBuffer payload
      some { s with
        handler := { s.handler with latencyBuffer := lb }
        written := if inserted then s.written ++ [payload] else s.written }
  | .cleanupCheck =>
      if s.stages.any Stage.isInside then none
      else do
        let h ← cleanupCheck s.handler
        some { s with handler := h }
  | .turn i => do
      let job ← s.flow.executing[i]?
      let stage ← s.stages[i]?
      let q ← turn s.handler job.accepted.request stage
      some { s with handler := q.1, stages := s.stages.set i q.2 }
  | .flow a => do
      let flow ← flowStep s.flow a
      match a with
      | .start => some { s with handler := startHandler s.handler, flow := flow }
      | .pick _ => some { s with flow := flow, stages := s.stages ++ [.waiting] }
      | .finish i rc _ =>
          if s.stages[i]? = some (.returned rc) then
            some { s with flow := flow, stages := s.stages.eraseIdx i }
          else none
      | .pollScan newest _ =>
          if newest = s.newest then
            some { s with flow := flow, arrived := s.arrived ++ s.flow.arrivals newest }
          else none
      | .join => some { s with handler := flushBuffer s.handler, flow := flow, written := [] }
      | _ => some { s with flow := flow }

/-! ### What a worker finds -/

/-- The timestamps do not go back. -/
def Ordered (frames : List Frame) : Prop := frames.Pairwise fun f g => f.timestamp ≤ g.timestamp

instance (frames : List Frame) : Decidable (Ordered frames) :=
  inferInstanceAs (Decidable (frames.Pairwise _))

/-- There is a frame at the end of the window or after it. -/
def Reached (lb : LatencyBuffer) (dr : DataRequest) : Prop :=
  ∃ f, lb.back = some f ∧ dr.requestInformation.windowEnd ≤ f.timestamp

/-- The job is the retry of a request that was issued again on arrival. -/
def IsArrival (arrived : List Accepted) (job : Job) : Prop :=
  job.isRetry = true ∧ job.accepted ∈ arrived ∧
    job.accepted.request.requestInformation.windowBegin ≤
      job.accepted.request.requestInformation.windowEnd

theorem Reached.frames_ne_nil {lb : LatencyBuffer} {dr : DataRequest} (h : Reached lb dr) :
    lb.frames ≠ [] := by
  obtain ⟨f, hf, -⟩ := h
  exact fun hnil => by simp [LatencyBuffer.back, hnil] at hf

/-- A window is not there yet only when it reaches past the newest frame. -/
theorem lt_of_classify {lb : LatencyBuffer} {lastTs newestTs b e : ℕ}
    (h : classify lb lastTs newestTs b e = .kNotYet ∨ classify lb lastTs newestTs b e = .kPartial) :
    b > newestTs ∨ newestTs < e := by
  unfold classify at h
  split_ifs at h with hwindow
  · exact hwindow
  all_goals simp at h

/-- A window that ends at the newest frame or before is found or too old, whatever
the oldest frame was. -/
theorem classify_of_le {lb : LatencyBuffer} (hne : lb.frames ≠ []) {newestTs b e : ℕ} (hbe : b ≤ e)
    (he : e ≤ newestTs) (lastTs : ℕ) :
    classify lb lastTs newestTs b e = .kFound ∨ classify lb lastTs newestTs b e = .kTooOld := by
  have hhere : ¬ (b > newestTs ∨ newestTs < e) := by omega
  unfold classify
  rw [if_neg hhere, if_neg hne]
  split_ifs
  · exact Or.inr rfl
  · exact Or.inl rfl

/-- What is known of an executing job and its worker. -/
structure Placed (written : List Frame) (arrived : List Accepted) (job : Job) (stage : Stage) :
    Prop where
  notYet : ∀ rc, stage.resultCode? = some rc → rc = .kNotYet ∨ rc = .kPartial →
    job.accepted.request.requestInformation.windowBegin ≤
      job.accepted.request.requestInformation.windowEnd →
    0 < job.accepted.request.requestInformation.windowEnd
  settled : Ordered written → IsArrival arrived job →
    ∀ rc, stage.resultCode? = some rc → rc = .kFound ∨ rc = .kTooOld

/-- A worker without a result code. -/
theorem Placed.of_none {written : List Frame} {arrived : List Accepted} {job : Job} {stage : Stage}
    (h : stage.resultCode? = none) : Placed written arrived job stage where
  notYet rc hrc := by rw [h] at hrc; cases hrc
  settled _ _ rc hrc := by rw [h] at hrc; cases hrc

/-- A worker that keeps its result code. -/
theorem Placed.congr {written : List Frame} {arrived : List Accepted} {job : Job}
    {stage stage' : Stage} (h : Placed written arrived job stage)
    (hrc : stage'.resultCode? = stage.resultCode?) : Placed written arrived job stage' where
  notYet rc h' := h.notYet rc (hrc ▸ h')
  settled hord harr rc h' := h.settled hord harr rc (hrc ▸ h')

/-- **A turn of a worker** leaves the buffer as it is, and classifies a request on
whose window's end the buffer has got as found or too old. -/
theorem Placed.turn {written : List Frame} {arrived : List Accepted} {job : Job} {stage : Stage}
    {h : RequestHandler} {q : RequestHandler × Stage} (hp : Placed written arrived job stage)
    (hreached : Ordered written → IsArrival arrived job →
      Reached h.latencyBuffer job.accepted.request)
    (hq : turn h job.accepted.request stage = some q) :
    q.1.latencyBuffer = h.latencyBuffer ∧ Placed written arrived job q.2 := by
  cases stage with
  | waiting =>
      obtain rfl := Option.some.inj hq
      exact ⟨rfl, .of_none rfl⟩
  | entered =>
      rw [Readout.turn] at hq
      split at hq
      · rename_i hempty
        obtain rfl := Option.some.inj hq
        refine ⟨rfl, ?_, fun hord harr => ?_⟩
        · rintro rc hrc (rfl | rfl) <;> simp [Stage.resultCode?] at hrc
        · have hne := (hreached hord harr).frames_ne_nil
          exact absurd (List.length_eq_zero_iff.1 hempty) hne
      · obtain rfl := Option.some.inj hq
        exact ⟨rfl, .of_none rfl⟩
  | occupied =>
      obtain ⟨front, -, hq⟩ := Option.bind_eq_some_iff.1 hq
      obtain rfl := Option.some.inj hq
      exact ⟨rfl, .of_none rfl⟩
  | readFront lastTs =>
      obtain ⟨last, hlast, hq⟩ := Option.bind_eq_some_iff.1 hq
      obtain rfl := Option.some.inj hq
      refine ⟨rfl, ?_, fun hord harr rc hrc => ?_⟩
      · intro rc hrc hcode hwindow
        obtain rfl := Option.some.inj hrc
        have := lt_of_classify hcode
        omega
      · obtain rfl := Option.some.inj hrc
        obtain ⟨f, hf, hend⟩ := hreached hord harr
        obtain rfl := Option.some.inj (hf.symm.trans hlast)
        exact classify_of_le (hreached hord harr).frames_ne_nil harr.2.2 hend lastTs
  | serving w =>
      rw [Readout.turn] at hq
      split at hq
      · obtain rfl := Option.some.inj hq
        exact ⟨rfl, hp.congr rfl⟩
      · obtain rfl := Option.some.inj hq
        exact ⟨rfl, hp.congr rfl⟩
  | returned rc => cases hq

/-! ### The invariant -/

/-- What holds between turns.  A waiting request has a window that ends after
timestamp 0, since its first attempt found its data missing; and while the frames
arrive in order, the buffer stays past the end of every window that it was found
past. -/
structure ServingInv (s : ServingState) : Prop where
  flow : FlowInv s.flow
  arrived : s.arrived ⊆ s.flow.retried
  suffix : s.frames <:+ s.written
  waiting : ∀ e ∈ s.flow.waitingRequests,
    e.accepted.request.requestInformation.windowBegin ≤
      e.accepted.request.requestInformation.windowEnd →
    0 < e.accepted.request.requestInformation.windowEnd
  stages : List.Forall₂ (Placed s.written s.arrived) s.flow.executing s.stages
  reached : Ordered s.written → ∀ job ∈ s.flow.pool ++ s.flow.executing, IsArrival s.arrived job →
    Reached s.handler.latencyBuffer job.accepted.request

/-- The popping loop keeps the newest frame. -/
theorem getLast?_cleanupLoop (frames : List Frame) (popList : Finset ℕ) :
    (cleanupLoop frames popList).1.getLast? = frames.getLast? := by
  by_cases hnil : frames = []
  · rw [hnil]
    rfl
  · obtain ⟨popped, heq, -⟩ := cleanupLoop_spec frames popList
    have hlast := List.getLast?_eq_some_getLast (cleanupLoop_ne_nil popList hnil)
    conv_rhs => rw [heq, List.getLast?_append, hlast]
    exact hlast

/-- What arrives is issued. -/
theorem arrivals_subset (requestTimeoutMs : ℤ) (newestTs : ℕ) (now : ℕ → ℤ)
    (l : List RequestElement) :
    ((l.filter fun e => e.accepted.request.requestInformation.windowEnd ≤ newestTs).map
      RequestElement.accepted) ⊆ (scanWaiting requestTimeoutMs newestTs now l).issued := by
  induction l generalizing now with
  | nil => exact List.Subset.refl _
  | cons e rest ih =>
      have hrest := ih fun i => now (i + 1)
      by_cases he : e.accepted.request.requestInformation.windowEnd ≤ newestTs
      · rw [List.filter_cons_of_pos (by simpa using he), List.map_cons, scanWaiting, if_pos he]
        exact List.cons_subset_cons _ hrest
      · rw [List.filter_cons_of_neg (by simpa using he), scanWaiting, if_neg he]
        split
        · exact List.subset_cons_of_subset _ hrest
        · exact hrest

namespace ServingInv

variable {s s' : ServingState}

theorem new (capacity : ℕ) (sourceid : SourceID) (detid fragmentType : ℕ)
    (requestTimeoutMs : ℤ) :
    ServingInv (.new capacity sourceid detid fragmentType requestTimeoutMs) where
  flow := FlowInv.new sourceid requestTimeoutMs
  arrived := List.Subset.refl _
  suffix := List.suffix_refl _
  waiting _ he := absurd he List.not_mem_nil
  stages := List.Forall₂.nil
  reached _ _ hjob := absurd hjob List.not_mem_nil

/-- The newest frame stays where it is, or a later one takes its place. -/
theorem processItem (h : ServingInv s) {payload : Frame}
    (hs : servingStep s (.processItem payload) = some s') : ServingInv s' := by
  obtain ⟨⟨lb, inserted⟩, hp, hs⟩ := Option.bind_eq_some_iff.1 hs
  obtain ⟨rfl, rfl⟩ := processItem_eq_some hp
  obtain rfl := Option.some.inj hs
  have hordered : Ordered (s.written ++ [payload]) → Ordered s.written := fun hord =>
    (List.pairwise_append.1 hord).1
  refine ⟨h.flow, h.arrived, ?_, h.waiting, ?_, fun hord job hjob harr => ?_⟩
  · obtain ⟨older, hold⟩ := h.suffix
    exact ⟨older, by rw [if_pos rfl, ← hold, List.append_assoc]; rfl⟩
  · refine h.stages.imp fun job stage hplaced => ⟨hplaced.notYet, fun hord => ?_⟩
    exact hplaced.settled (hordered hord)
  · obtain ⟨f, hf, hend⟩ := h.reached (hordered hord) job hjob harr
    have hmem : f ∈ s.written := h.suffix.subset (List.mem_of_getLast? hf)
    have hle := (List.pairwise_append.1 hord).2.2 f hmem payload (List.mem_singleton_self _)
    exact ⟨payload, List.getLast?_concat, hend.trans hle⟩

/-- A cleanup keeps the newest frame. -/
theorem cleanupCheck (h : ServingInv s) (hs : servingStep s .cleanupCheck = some s') :
    ServingInv s' := by
  rw [servingStep] at hs
  split at hs
  · cases hs
  · obtain ⟨h', hc, hs⟩ := Option.bind_eq_some_iff.1 hs
    obtain rfl := Option.some.inj hs
    obtain ⟨hframes, -⟩ := cleanupCheck_eq_some hc
    obtain ⟨popped, heq, -⟩ := cleanupLoop_spec s.frames s.handler.popList
    have hsuffix : h'.latencyBuffer.frames <:+ s.frames := ⟨popped, by rw [hframes]; exact heq.symm⟩
    have hback : h'.latencyBuffer.back = s.handler.latencyBuffer.back := by
      rw [LatencyBuffer.back, hframes]
      exact getLast?_cleanupLoop s.frames s.handler.popList
    refine ⟨h.flow, h.arrived, hsuffix.trans h.suffix, h.waiting, h.stages,
      fun hord job hjob harr => ?_⟩
    rw [Reached, hback]
    exact h.reached hord job hjob harr

/-- A turn of a worker leaves the buffer as it is. -/
theorem turn (h : ServingInv s) {i : ℕ} (hs : servingStep s (.turn i) = some s') :
    ServingInv s' := by
  obtain ⟨job, hjob, hs⟩ := Option.bind_eq_some_iff.1 hs
  obtain ⟨stage, hstage, hs⟩ := Option.bind_eq_some_iff.1 hs
  obtain ⟨q, hq, hs⟩ := Option.bind_eq_some_iff.1 hs
  obtain rfl := Option.some.inj hs
  have hmem : job ∈ s.flow.pool ++ s.flow.executing :=
    List.mem_append_right _ (List.mem_of_getElem? hjob)
  obtain ⟨hlb, hplaced⟩ := (forall₂_getElem? h.stages hjob hstage).turn
    (fun hord harr => h.reached hord job hmem harr) hq
  refine ⟨h.flow, h.arrived, ?_, h.waiting, ?_, ?_⟩
  · rw [ServingState.frames, hlb]
    exact h.suffix
  · refine forall₂_set_right h.stages fun job' hjob' => ?_
    obtain rfl := Option.some.inj (hjob.symm.trans hjob')
    exact hplaced
  · rw [hlb]
    exact h.reached

/-- A turn of the flow that leaves the requests where they are, or brings in a first
attempt. -/
theorem of_flow (h : ServingInv s) {flow : FlowState} (hflow : FlowInv flow)
    (hpool : ∀ job ∈ flow.pool, job ∈ s.flow.pool ∨ job.isRetry = false)
    (hexecuting : flow.executing = s.flow.executing)
    (hwaiting : flow.waitingRequests = s.flow.waitingRequests)
    (hretried : flow.retried = s.flow.retried) : ServingInv { s with flow := flow } := by
  refine ⟨hflow, ?_, h.suffix, ?_, ?_, fun hord job hjob harr => ?_⟩
  · rw [hretried]
    exact h.arrived
  · rw [hwaiting]
    exact h.waiting
  · rw [hexecuting]
    exact h.stages
  · refine h.reached hord job ?_ harr
    rcases List.mem_append.1 hjob with hjob | hjob
    · refine List.mem_append_left _ ((hpool job hjob).resolve_right fun hfirst => ?_)
      exact Bool.false_ne_true (hfirst.symm.trans harr.1)
    · exact List.mem_append_right _ (hexecuting ▸ hjob)

theorem pick (h : ServingInv s) {i : ℕ} (hs : servingStep s (.flow (.pick i)) = some s') :
    ServingInv s' := by
  obtain ⟨flow, hflow, hs⟩ := Option.bind_eq_some_iff.1 hs
  obtain rfl := Option.some.inj hs
  have hinv := h.flow.step hflow
  obtain ⟨job, hjob, hflow⟩ := Option.bind_eq_some_iff.1 hflow
  obtain rfl := Option.some.inj hflow
  refine ⟨hinv, h.arrived, h.suffix, h.waiting, ?_, fun hord job' hjob' harr => ?_⟩
  · exact List.rel_append h.stages (List.Forall₂.cons (.of_none rfl) List.Forall₂.nil)
  · refine h.reached hord job' ?_ harr
    rcases List.mem_append.1 hjob' with hjob' | hjob'
    · exact List.mem_append_left _ (List.eraseIdx_subset hjob')
    · rcases List.mem_append.1 hjob' with hjob' | hjob'
      · exact List.mem_append_right _ hjob'
      · rw [List.mem_singleton.1 hjob']
        exact List.mem_append_left _ (List.mem_of_getElem? hjob)

/-- A request that is put on the waiting list is one whose data was not there. -/
theorem finish (h : ServingInv s) {i : ℕ} {rc : ResultCode} {now : ℤ}
    (hs : servingStep s (.flow (.finish i rc now)) = some s') : ServingInv s' := by
  obtain ⟨flow, hflow, hs⟩ := Option.bind_eq_some_iff.1 hs
  have hinv := h.flow.step hflow
  obtain ⟨job, hjob, hflow⟩ := Option.bind_eq_some_iff.1 hflow
  obtain rfl := Option.some.inj hflow
  obtain ⟨hstage, hs⟩ := Option.ite_none_right_eq_some.1 hs
  obtain rfl := Option.some.inj hs
  have hplaced := forall₂_getElem? h.stages hjob hstage
  have hstages := forall₂_eraseIdx h.stages i
  have hsubset : ∀ job' ∈ s.flow.pool ++ s.flow.executing.eraseIdx i,
      job' ∈ s.flow.pool ++ s.flow.executing := fun job' hjob' => by
    rcases List.mem_append.1 hjob' with hjob' | hjob'
    · exact List.mem_append_left _ hjob'
    · exact List.mem_append_right _ (List.eraseIdx_subset hjob')
  unfold finishJob at hinv ⊢
  split at hinv
  · rename_i hrequeue
    rw [if_pos hrequeue]
    refine ⟨hinv, h.arrived, h.suffix, fun e he hwindow => ?_, hstages,
      fun hord job' hjob' => h.reached hord job' (hsubset job' hjob')⟩
    rcases List.mem_append.1 he with he | he
    · exact h.waiting e he hwindow
    · rw [List.mem_singleton.1 he] at hwindow ⊢
      have hcode : rc = .kNotYet ∨ rc = .kPartial := by
        simp only [requeues, Bool.decide_and, Bool.and_eq_true, decide_eq_true_eq] at hrequeue
        exact hrequeue.1
      exact hplaced.notYet rc rfl hcode hwindow
  · rename_i hanswer
    rw [if_neg hanswer]
    exact ⟨hinv, h.arrived, h.suffix, h.waiting, hstages,
      fun hord job' hjob' => h.reached hord job' (hsubset job' hjob')⟩

/-- **A request that is issued on arrival has its data in the buffer:** its window
ends after timestamp 0, so that the newest timestamp is that of a frame. -/
theorem pollScan (h : ServingInv s) {newest : Option ℕ} {now : ℕ → ℤ}
    (hs : servingStep s (.flow (.pollScan newest now)) = some s') : ServingInv s' := by
  obtain ⟨flow, hflow, hs⟩ := Option.bind_eq_some_iff.1 hs
  have hinv := h.flow.step hflow
  obtain ⟨-, hflow⟩ := Option.ite_none_right_eq_some.1 hflow
  obtain rfl := Option.some.inj hflow
  obtain ⟨hnewest, hs⟩ := Option.ite_none_right_eq_some.1 hs
  obtain rfl := Option.some.inj hs
  have hfresh := fun r => h.flow.issued_fresh (newest.getD 0) now (r := r)
  have harrivals := arrivals_subset s.flow.requestTimeoutMs (newest.getD 0) now
    s.flow.waitingRequests
  -- an executing or posted request is not among those that arrive now
  have hold : ∀ job ∈ s.flow.pool ++ s.flow.executing,
      IsArrival (s.arrived ++ s.flow.arrivals newest) job → IsArrival s.arrived job := by
    rintro job hjob ⟨hretry, harr, hwindow⟩
    refine ⟨hretry, (List.mem_append.1 harr).resolve_right fun harr => ?_, hwindow⟩
    obtain ⟨hpool, hexecuting, -⟩ := hfresh _ (harrivals harr)
    rcases List.mem_append.1 hjob with hjob | hjob
    · exact List.count_eq_zero.1 hpool (List.mem_map_of_mem hjob)
    · exact List.count_eq_zero.1 hexecuting (List.mem_map_of_mem hjob)
  refine ⟨hinv, ?_, h.suffix, fun e he => ?_, ?_, fun hord job hjob harr => ?_⟩
  · exact List.append_subset.2 ⟨List.subset_append_of_subset_left _ h.arrived,
      List.subset_append_of_subset_right _ harrivals⟩
  · exact h.waiting e (scanWaiting_kept _ _ _ _ he)
  · refine forall₂_imp_of_mem h.stages fun job hjob stage hplaced => ⟨hplaced.notYet, ?_⟩
    exact fun hord harr => hplaced.settled hord (hold job (List.mem_append_right _ hjob) harr)
  · by_cases hjob' : job ∈ s.flow.pool ++ s.flow.executing
    · exact h.reached hord job hjob' (hold job hjob' harr)
    · -- the job is one that the scan posts
      have hissued : job.accepted ∈ (scanWaiting s.flow.requestTimeoutMs (newest.getD 0) now
          s.flow.waitingRequests).issued := by
        simp only [checkWaitingRequests, List.mem_append, List.mem_map] at hjob hjob'
        rcases hjob with (hjob | ⟨a, ha, rfl⟩) | hjob
        · exact absurd (Or.inl hjob) hjob'
        · exact ha
        · exact absurd (Or.inr hjob) hjob'
      obtain ⟨-, harr, hwindow⟩ := harr
      rcases List.mem_append.1 harr with harr | harr
      · exact absurd (h.arrived harr) (hfresh _ hissued).2.2.2.2
      · obtain ⟨e, he, heq⟩ := List.mem_map.1 harr
        obtain ⟨hwaits, hend⟩ := List.mem_filter.1 he
        rw [decide_eq_true_eq, heq, hnewest] at hend
        have hpos := h.waiting e hwaits
        rw [heq] at hpos
        cases hback : s.handler.latencyBuffer.back with
        | none =>
            rw [ServingState.newest, hback] at hend
            have := hpos hwindow
            simp only [Option.map_none, Option.getD_none] at hend
            omega
        | some f =>
            rw [ServingState.newest, hback] at hend
            exact ⟨f, hback, hend⟩

/-- **Every turn keeps the invariant.** -/
theorem step {a : ServingAction} (h : ServingInv s) (hs : servingStep s a = some s') :
    ServingInv s' := by
  cases a with
  | processItem payload => exact h.processItem hs
  | cleanupCheck => exact h.cleanupCheck hs
  | turn i => exact h.turn hs
  | flow a =>
      cases a with
      | pick i => exact h.pick hs
      | finish i rc now => exact h.finish hs
      | pollScan newest now => exact h.pollScan hs
      | start =>
          obtain ⟨flow, hflow, hs⟩ := Option.bind_eq_some_iff.1 hs
          obtain rfl := Option.some.inj hs
          have hinv := h.flow.step hflow
          obtain ⟨-, hflow⟩ := Option.ite_none_right_eq_some.1 hflow
          obtain rfl := Option.some.inj hflow
          have h' := h.of_flow hinv (fun _ hjob => absurd hjob List.not_mem_nil) rfl rfl rfl
          exact ⟨h'.flow, h'.arrived, h'.suffix, h'.waiting, h'.stages, h'.reached⟩
      | dispatch dr =>
          obtain ⟨flow, hflow, hs⟩ := Option.bind_eq_some_iff.1 hs
          obtain rfl := Option.some.inj hs
          have hinv := h.flow.step hflow
          obtain ⟨-, hflow⟩ := Option.ite_none_right_eq_some.1 hflow
          obtain rfl := Option.some.inj hflow
          rw [dispatchRequests] at hinv ⊢
          split
          · exact h
          · rename_i hmine
            rw [if_neg hmine] at hinv
            refine h.of_flow hinv (fun job hjob => ?_) rfl rfl rfl
            rcases List.mem_append.1 hjob with hjob | hjob
            · exact Or.inl hjob
            · exact Or.inr (by rw [List.mem_singleton.1 hjob])
      | join =>
          obtain ⟨flow, hflow, hs⟩ := Option.bind_eq_some_iff.1 hs
          obtain rfl := Option.some.inj hs
          have hinv := h.flow.step hflow
          obtain ⟨⟨-, -, hpool, hexecuting⟩, hflow⟩ := Option.ite_none_right_eq_some.1 hflow
          obtain rfl := Option.some.inj hflow
          have hstages : s.stages = [] := by
            have := h.stages
            rw [hexecuting] at this
            exact List.forall₂_nil_left_iff.1 this
          refine ⟨hinv, h.arrived, List.suffix_refl _, h.waiting, ?_, fun _ job hjob => ?_⟩
          · show List.Forall₂ _ s.flow.executing s.stages
            rw [hexecuting, hstages]
            exact List.Forall₂.nil
          · have hnil : s.flow.pool ++ s.flow.executing = [] := by rw [hpool, hexecuting]; rfl
            exact absurd (hnil ▸ hjob) List.not_mem_nil
      | pollMarker | pollSize | stop =>
          obtain ⟨flow, hflow, hs⟩ := Option.bind_eq_some_iff.1 hs
          obtain rfl := Option.some.inj hs
          have hinv := h.flow.step hflow
          obtain ⟨-, hflow⟩ := Option.ite_none_right_eq_some.1 hflow
          obtain rfl := Option.some.inj hflow
          exact h.of_flow hinv (fun _ hjob => Or.inl hjob) rfl rfl rfl

end ServingInv

/-! ### Result -/

/-- **A retry on arrival finds its data.**  In every run, over any number of
`start`s and `stop`s, whatever is written, collected and cleaned up in between:
when the frames since the last flush came in order, a worker that executes a
request which was issued again because its window's end had arrived classifies it
as found or as too old. -/
theorem retry_on_arrival {capacity : ℕ} {sourceid : SourceID} {detid fragmentType : ℕ}
    {requestTimeoutMs : ℤ} {l : List ServingAction} {s : ServingState}
    (hrun : exec servingStep (.new capacity sourceid detid fragmentType requestTimeoutMs) l =
      some s)
    (hordered : Ordered s.written) {i : ℕ} {job : Job} (hjob : s.flow.executing[i]? = some job)
    (hretry : job.isRetry = true) (harrived : job.accepted ∈ s.arrived)
    (hwindow : job.accepted.request.requestInformation.windowBegin ≤
      job.accepted.request.requestInformation.windowEnd) :
    ∃ stage, s.stages[i]? = some stage ∧
      ∀ rc, stage.resultCode? = some rc → rc = .kFound ∨ rc = .kTooOld := by
  have hinv : ServingInv s := exec_invariant (fun _ _ _ h hs => h.step hs)
    (ServingInv.new capacity sourceid detid fragmentType requestTimeoutMs) hrun
  obtain ⟨hlt, -⟩ := List.getElem?_eq_some_iff.1 hjob
  have hlt' : i < s.stages.length := hinv.stages.length_eq ▸ hlt
  have hstage : s.stages[i]? = some s.stages[i] := List.getElem?_eq_getElem hlt'
  have hplaced := forall₂_getElem? hinv.stages hjob hstage
  exact ⟨_, hstage, hplaced.settled hordered ⟨hretry, harrived, hwindow⟩⟩

/-- A request is executed before its data is there, issued again when a frame at the
end of its window has come, and executed once more while the next frame comes. -/
def retryRun : List ServingAction :=
  [.flow .start, .processItem ⟨1, []⟩, .flow (.dispatch (requestFor 1 2)), .flow (.pick 0)] ++
    List.replicate 5 (.turn 0) ++
    [.flow (.finish 0 .kNotYet 0), .processItem ⟨2, []⟩, .flow .pollMarker, .flow .pollSize,
      .flow (.pollScan (some 2) fun _ => 0), .flow (.pick 0), .turn 0, .turn 0,
      .processItem ⟨3, []⟩, .turn 0, .turn 0]

/-- Where that run ends. -/
def retryState : ServingState :=
  (exec servingStep (.new 8 ⟨0, 0⟩ 0 0 1000) retryRun).get (by decide)

theorem exec_retryRun : exec servingStep (.new 8 ⟨0, 0⟩ 0 0 1000) retryRun = some retryState :=
  (Option.some_get _).symm

/-- There the retry has been classified, and its data is found. -/
theorem retry_on_arrival_found :
    ∃ stage, retryState.stages[0]? = some stage ∧ stage.resultCode?.isSome ∧
      ∀ rc, stage.resultCode? = some rc → rc = .kFound ∨ rc = .kTooOld := by
  obtain ⟨stage, hstage, hcode⟩ := retry_on_arrival (i := 0) exec_retryRun (by decide)
    (Option.some_get (by decide)).symm (by decide) (by decide) (by decide)
  refine ⟨stage, hstage, ?_, hcode⟩
  have hdone : (retryState.stages[0]?.bind Stage.resultCode?).isSome := by decide
  rwa [hstage] at hdone

end Readout
end SNBModules
