import SNBModules.Readout.Types
import Mathlib.Data.Finset.Lattice.Lemmas
import Mathlib.Data.Finset.SDiff

/-!
# `SNBRequestHandlerModel`: answering a data request, cleaning the buffer

Source: `include/snbmodules/readout/detail/SNBRequestHandlerModel.hxx`,
`get_fragment_pieces`, `data_request`, `cleanup` and `cleanup_check`, each read
as one sequential piece of code; the locks around them are the subject of
`SNBModules.Readout.CleanupLock`.

`m_pop_list` remembers the timestamps of the frames that were put into a
fragment.  `get_fragment_pieces` skips a frame whose timestamp is there and
inserts the timestamps of the frames it takes; `cleanup` pops the oldest frame
while its timestamp is there, but never the last frame of the buffer.

`none` is a read through a null pointer: `front()` and `back()` of an empty
buffer are null and both functions dereference them.
-/

namespace SNBModules
namespace Readout

/-- The monitoring counters that the two functions below write. -/
structure Stats where
  numRequestsFound : ℕ := 0
  numRequestsBad : ℕ := 0
  numRequestsOldWindow : ℕ := 0
  numRequestsDelayed : ℕ := 0
  popReqs : ℕ := 0
  popsCount : ℕ := 0
  occupancy : ℕ := 0
  oldestTimestamp : ℕ := 0
  numBufferCleanups : ℕ := 0
  deriving DecidableEq, Repr

/-- The members of `SNBRequestHandlerModel` that its data path uses;
`fragmentType` is the constant `RDT::fragment_type`. -/
structure RequestHandler where
  latencyBuffer : LatencyBuffer
  popList : Finset ℕ
  sourceid : SourceID
  detid : ℕ
  fragmentType : ℕ
  stats : Stats
  deriving DecidableEq

/-- The handler of a new module, its buffer allocated and empty. -/
def RequestHandler.new (capacity : ℕ) (sourceid : SourceID) (detid fragmentType : ℕ) :
    RequestHandler :=
  ⟨⟨capacity, []⟩, ∅, sourceid, detid, fragmentType, {}⟩

/-! ### Collecting the pieces of a fragment -/

/-- One turn of the collecting loop of `get_fragment_pieces`, the part under
`m_pop_list_mutex`, on the pieces collected so far and the pop list. -/
def collectElement (startWinTs : ℕ) (element : Frame) (acc : List Frame × Finset ℕ) :
    List Frame × Finset ℕ :=
  if element.timestamp ∈ acc.2 then acc -- already included in trigger
  else if element.timestamp < startWinTs then acc -- out of readout window
  else (acc.1 ++ [element], insert element.timestamp acc.2)

/-- The collecting loop, from the frame the iterator stands on. -/
def collectLoop (startWinTs endWinTs : ℕ) :
    List Frame → List Frame × Finset ℕ → List Frame × Finset ℕ
  | [], acc => acc
  | element :: rest, acc =>
      if element.timestamp ≤ endWinTs then
        collectLoop startWinTs endWinTs rest (collectElement startWinTs element acc)
      else acc

/-- The result code that `get_fragment_pieces` gives a window, decided on the
oldest and the newest frame before the collecting loop. -/
def windowResult (lb : LatencyBuffer) (startWinTs endWinTs : ℕ) : Option ResultCode := do
  let frontElement ← lb.front
  let lastElement ← lb.back
  let lastTs := frontElement.timestamp
  let newestTs := lastElement.timestamp
  if startWinTs > newestTs ∨ newestTs < endWinTs then
    some .kNotYet -- give it another chance
  else if endWinTs ≤ lastTs then
    some .kTooOld
  else if lb.frames = [] then
    some .kNotFound -- the iterator `begin()` is not good
  else
    some .kFound

/-- `get_fragment_pieces`: the result code, the pieces and the new pop list. -/
def getFragmentPieces (lb : LatencyBuffer) (popList : Finset ℕ) (startWinTs endWinTs : ℕ) :
    Option (ResultCode × List Frame × Finset ℕ) := do
  let rc ← windowResult lb startWinTs endWinTs
  if rc = .kFound then
    some (rc, collectLoop startWinTs endWinTs lb.frames ([], popList))
  else
    some (rc, [], popList)

/-! ### Answering a request -/

/-- `create_fragment_header`. -/
def createFragmentHeader (h : RequestHandler) (dr : DataRequest) : FragmentHeader where
  triggerNumber := dr.triggerNumber
  triggerTimestamp := dr.triggerTimestamp
  windowBegin := dr.requestInformation.windowBegin
  windowEnd := dr.requestInformation.windowEnd
  runNumber := dr.runNumber
  fragmentType := h.fragmentType
  sequenceNumber := dr.sequenceNumber
  detectorId := h.detid
  elementId := h.sourceid
  statusBits := ∅

/-- The status bits that the switch of `data_request` sets for a result code. -/
def statusBitsOf : ResultCode → Finset FragmentStatusBits
  | .kTooOld => {.kEmptyFragment, .kRequestWindowBeforeBuffer}
  | .kPartiallyOld => {.kIncomplete, .kRequestWindowBeforeBuffer}
  | .kFound => ∅
  | .kPartial => {.kIncomplete, .kRequestWindowAfterBuffer}
  | .kNotYet => {.kEmptyFragment, .kRequestWindowAfterBuffer}
  | .kNotFound | .kUnknown => {.kEmptyFragment}

/-- The counters that the switch of `data_request` increments. -/
def countResult (s : Stats) : ResultCode → Stats
  | .kTooOld =>
      { s with numRequestsOldWindow := s.numRequestsOldWindow + 1,
               numRequestsBad := s.numRequestsBad + 1 }
  | .kPartiallyOld =>
      { s with numRequestsOldWindow := s.numRequestsOldWindow + 1,
               numRequestsFound := s.numRequestsFound + 1 }
  | .kFound => { s with numRequestsFound := s.numRequestsFound + 1 }
  | .kPartial | .kNotYet => { s with numRequestsDelayed := s.numRequestsDelayed + 1 }
  | .kNotFound | .kUnknown => { s with numRequestsBad := s.numRequestsBad + 1 }

/-- The fragment of a request, from its result code and its pieces. -/
def makeFragment (h : RequestHandler) (dr : DataRequest) (rc : ResultCode) (pieces : List Frame) :
    Fragment :=
  ⟨{ createFragmentHeader h dr with statusBits := statusBitsOf rc }, pieces⟩

/-- `data_request`. -/
def dataRequest (h : RequestHandler) (dr : DataRequest) : Option (RequestResult × RequestHandler) :=
  if h.latencyBuffer.occupancy = 0 then
    let header := { createFragmentHeader h dr with statusBits := {.kLatencyBufferEmpty} }
    some (⟨.kNotFound, dr, ⟨header, []⟩⟩,
      { h with stats := { h.stats with numRequestsBad := h.stats.numRequestsBad + 1 } })
  else do
    let (rc, fragPieces, popList') ← getFragmentPieces h.latencyBuffer h.popList
      dr.requestInformation.windowBegin dr.requestInformation.windowEnd
    some (⟨rc, dr, makeFragment h dr rc fragPieces⟩,
      { h with popList := popList', stats := countResult h.stats rc })

/-! ### Cleaning the buffer -/

/-- The popping loop of `cleanup`, on the frames of the buffer and the pop
list. -/
def cleanupLoop : List Frame → Finset ℕ → List Frame × Finset ℕ
  | front :: next :: rest, popList =>
      if popList = ∅ then (front :: next :: rest, popList)
      else if front.timestamp ∈ popList then
        cleanupLoop (next :: rest) (popList.erase front.timestamp)
      else (front :: next :: rest, popList)
  | frames, popList => (frames, popList)

/-- `cleanup`. -/
def cleanup (h : RequestHandler) : Option RequestHandler := do
  let (frames, popList) := cleanupLoop h.latencyBuffer.frames h.popList
  let lb := { h.latencyBuffer with frames := frames }
  let popped := h.latencyBuffer.occupancy - lb.occupancy
  let front ← lb.front
  some { h with
    latencyBuffer := lb
    popList := popList
    stats := { h.stats with
      popReqs := h.stats.popReqs + 1
      popsCount := h.stats.popsCount + popped
      occupancy := lb.occupancy
      oldestTimestamp := front.timestamp
      numBufferCleanups := h.stats.numBufferCleanups + 1 } }

/-- `cleanup_check`, without its locking. -/
def cleanupCheck (h : RequestHandler) : Option RequestHandler :=
  if h.popList = ∅ then some h else cleanup h

/-! ### What each function does -/

/-- What one turn of the collecting loop does: it takes the frame, or nothing
changes and the frame was included before or lies before the window. -/
theorem collectElement_cases (startWinTs : ℕ) (e : Frame) (acc : List Frame × Finset ℕ) :
    (e.timestamp ∉ acc.2 ∧ startWinTs ≤ e.timestamp ∧
        collectElement startWinTs e acc = (acc.1 ++ [e], insert e.timestamp acc.2)) ∨
      ((e.timestamp ∈ acc.2 ∨ e.timestamp < startWinTs) ∧
        collectElement startWinTs e acc = acc) := by
  unfold collectElement
  by_cases h₁ : e.timestamp ∈ acc.2
  · exact Or.inr ⟨Or.inl h₁, if_pos h₁⟩
  · by_cases h₂ : e.timestamp < startWinTs
    · exact Or.inr ⟨Or.inr h₂, by rw [if_neg h₁, if_pos h₂]⟩
    · exact Or.inl ⟨h₁, Nat.le_of_not_lt h₂, by rw [if_neg h₁, if_neg h₂]⟩

/-- The collecting loop adds to the pieces some of the frames it passes, all of
the window and not included before, and records exactly their timestamps. -/
theorem collectLoop_spec (startWinTs endWinTs : ℕ) (frames : List Frame)
    (acc : List Frame × Finset ℕ) :
    ∃ taken, taken.Sublist frames ∧
      (∀ f ∈ taken, startWinTs ≤ f.timestamp ∧ f.timestamp ≤ endWinTs ∧ f.timestamp ∉ acc.2) ∧
      collectLoop startWinTs endWinTs frames acc =
        (acc.1 ++ taken, acc.2 ∪ (taken.map Frame.timestamp).toFinset) := by
  induction frames generalizing acc with
  | nil => exact ⟨[], List.Sublist.refl _, by simp, by simp [collectLoop]⟩
  | cons e rest ih =>
      by_cases hend : e.timestamp ≤ endWinTs
      · rw [collectLoop, if_pos hend]
        rcases collectElement_cases startWinTs e acc with ⟨hnew, hstart, he⟩ | ⟨-, he⟩
        · obtain ⟨taken, hsub, hwin, heq⟩ := ih (acc.1 ++ [e], insert e.timestamp acc.2)
          refine ⟨e :: taken, hsub.cons_cons e, fun f hf => ?_, ?_⟩
          · rcases List.mem_cons.1 hf with rfl | hf
            · exact ⟨hstart, hend, hnew⟩
            · obtain ⟨h₁, h₂, h₃⟩ := hwin f hf
              exact ⟨h₁, h₂, fun h => h₃ (Finset.mem_insert_of_mem h)⟩
          · rw [he, heq]
            ext1
            · simp
            · ext ts
              simp only [Finset.mem_union, Finset.mem_insert, List.map_cons, List.toFinset_cons]
              tauto
        · obtain ⟨taken, hsub, hwin, heq⟩ := ih acc
          exact ⟨taken, hsub.cons e, hwin, by rw [he, heq]⟩
      · exact ⟨[], List.nil_sublist _, by simp, by simp [collectLoop, hend]⟩

/-- On frames in timestamp order the loop passes every frame of the window, so
all their timestamps end up recorded. -/
theorem collectLoop_covers (startWinTs endWinTs : ℕ) {frames : List Frame}
    (hs : frames.Pairwise (fun f g => f.timestamp ≤ g.timestamp)) (acc : List Frame × Finset ℕ)
    {f : Frame} (hf : f ∈ frames) (hstart : startWinTs ≤ f.timestamp)
    (hend : f.timestamp ≤ endWinTs) :
    f.timestamp ∈ (collectLoop startWinTs endWinTs frames acc).2 := by
  induction frames generalizing acc with
  | nil => exact absurd hf List.not_mem_nil
  | cons e rest ih =>
      obtain ⟨hle, hs⟩ := List.pairwise_cons.1 hs
      have hpass : e.timestamp ≤ endWinTs := by
        rcases List.mem_cons.1 hf with rfl | hf
        · exact hend
        · exact (hle f hf).trans hend
      rw [collectLoop, if_pos hpass]
      rcases List.mem_cons.1 hf with rfl | hf
      · obtain ⟨taken, -, -, heq⟩ := collectLoop_spec startWinTs endWinTs rest
          (collectElement startWinTs f acc)
        rw [heq]
        refine Finset.mem_union_left _ ?_
        rcases collectElement_cases startWinTs f acc with ⟨-, -, he⟩ | ⟨hold | hlt, he⟩
        · rw [he]; exact Finset.mem_insert_self _ _
        · rwa [he]
        · omega
      · exact ih hs _ hf

/-- The result code on a buffer with a front and a back. -/
theorem windowResult_eq {lb : LatencyBuffer} {front last : Frame} (hf : lb.front = some front)
    (hl : lb.back = some last) (b e : ℕ) :
    windowResult lb b e =
      some (if b > last.timestamp ∨ last.timestamp < e then .kNotYet
        else if e ≤ front.timestamp then .kTooOld else .kFound) := by
  have hne : lb.frames ≠ [] := fun h => by simp [LatencyBuffer.front, h] at hf
  simp only [windowResult, hf, hl, Option.bind_eq_bind, Option.bind_some, if_neg hne]
  split_ifs <;> rfl

/-- A window is given a result code exactly when the buffer is not empty. -/
theorem windowResult_isSome (lb : LatencyBuffer) (b e : ℕ) :
    (windowResult lb b e).isSome ↔ lb.frames ≠ [] := by
  cases h : lb.frames with
  | nil => simp [windowResult, LatencyBuffer.front, h]
  | cons f rest =>
      have hf : lb.front = some f := by rw [LatencyBuffer.front, h, List.head?_cons]
      have hl : lb.back = some ((f :: rest).getLast (List.cons_ne_nil f rest)) := by
        rw [LatencyBuffer.back, h, List.getLast?_eq_some_getLast]
      rw [windowResult_eq hf hl]
      simp

/-- What `data_request` does: on an empty buffer it only answers; otherwise its
fragment has the pieces of the collecting loop or, when the window was not
found, none. -/
theorem dataRequest_cases {h h' : RequestHandler} {dr : DataRequest} {result : RequestResult}
    (hr : dataRequest h dr = some (result, h')) :
    (h.latencyBuffer.occupancy = 0 ∧
        result.fragment =
          ⟨{ createFragmentHeader h dr with statusBits := {.kLatencyBufferEmpty} }, []⟩ ∧
        h' = { h with stats := countResult h.stats .kNotFound }) ∨
      ∃ rc acc, h.latencyBuffer.occupancy ≠ 0 ∧
        windowResult h.latencyBuffer dr.requestInformation.windowBegin
          dr.requestInformation.windowEnd = some rc ∧
        ((rc ≠ .kFound ∧ acc = ([], h.popList)) ∨
          (rc = .kFound ∧ acc = collectLoop dr.requestInformation.windowBegin
            dr.requestInformation.windowEnd h.latencyBuffer.frames ([], h.popList))) ∧
        result.fragment = makeFragment h dr rc acc.1 ∧
        h' = { h with popList := acc.2, stats := countResult h.stats rc } := by
  unfold dataRequest at hr
  split at hr
  · rename_i hempty
    obtain ⟨rfl, rfl⟩ := Prod.mk.inj (Option.some.inj hr)
    exact Or.inl ⟨hempty, rfl, rfl⟩
  · rename_i hempty
    obtain ⟨⟨rc, acc⟩, hpieces, hr⟩ := Option.bind_eq_some_iff.1 hr
    obtain ⟨rfl, rfl⟩ := Prod.mk.inj (Option.some.inj hr)
    obtain ⟨rc', hrc, hpieces⟩ := Option.bind_eq_some_iff.1 hpieces
    refine Or.inr ⟨rc, acc, hempty, ?_⟩
    split at hpieces
    · rename_i hfound
      obtain ⟨rfl, rfl⟩ := Prod.mk.inj (Option.some.inj hpieces)
      exact ⟨hrc, Or.inr ⟨hfound, rfl⟩, rfl, rfl⟩
    · rename_i hfound
      obtain ⟨rfl, rfl⟩ := Prod.mk.inj (Option.some.inj hpieces)
      exact ⟨hrc, Or.inl ⟨hfound, rfl⟩, rfl, rfl⟩

/-- `data_request` answers every request. -/
theorem dataRequest_isSome (h : RequestHandler) (dr : DataRequest) : (dataRequest h dr).isSome := by
  unfold dataRequest
  split
  · rfl
  · rename_i hne
    obtain ⟨rc, hrc⟩ := Option.isSome_iff_exists.1
      ((windowResult_isSome h.latencyBuffer dr.requestInformation.windowBegin
        dr.requestInformation.windowEnd).2 (List.ne_nil_of_length_pos (Nat.pos_of_ne_zero hne)))
    simp only [getFragmentPieces, hrc, Option.bind_eq_bind, Option.bind_some]
    split <;> rfl

/-- The popping loop removes a run of frames from the front, all of them
recorded in the pop list, and removes exactly their timestamps from it. -/
theorem cleanupLoop_spec (frames : List Frame) (popList : Finset ℕ) :
    ∃ popped, frames = popped ++ (cleanupLoop frames popList).1 ∧
      (∀ f ∈ popped, f.timestamp ∈ popList) ∧
      (cleanupLoop frames popList).2 = popList \ (popped.map Frame.timestamp).toFinset := by
  induction frames, popList using cleanupLoop.induct with
  | case1 front next rest => exact ⟨[], by simp [cleanupLoop]⟩
  | case2 front next rest popList hne hmem ih =>
      obtain ⟨popped, heq, hpop, hlist⟩ := ih
      rw [cleanupLoop, if_neg hne, if_pos hmem]
      refine ⟨front :: popped, congrArg (front :: ·) heq, fun f hf => ?_, ?_⟩
      · rcases List.mem_cons.1 hf with rfl | hf
        · exact hmem
        · exact Finset.mem_of_mem_erase (hpop f hf)
      · rw [hlist]
        ext ts
        simp only [Finset.mem_sdiff, Finset.mem_erase, List.map_cons, List.toFinset_cons,
          Finset.mem_insert]
        tauto
  | case3 front next rest popList hne hmem =>
      exact ⟨[], by simp [cleanupLoop, hne, hmem]⟩
  | case4 frames popList hshort =>
      refine ⟨[], ?_⟩
      rcases frames with _ | ⟨f, _ | ⟨g, rest⟩⟩
      · simp [cleanupLoop]
      · simp [cleanupLoop]
      · exact absurd rfl (hshort f g rest)

theorem cleanupLoop_empty (frames : List Frame) : cleanupLoop frames ∅ = (frames, ∅) := by
  rcases frames with _ | ⟨f, _ | ⟨g, rest⟩⟩
  · rfl
  · rfl
  · simp [cleanupLoop]

/-- The popping loop never empties a buffer. -/
theorem cleanupLoop_ne_nil {frames : List Frame} (popList : Finset ℕ) (h : frames ≠ []) :
    (cleanupLoop frames popList).1 ≠ [] := by
  induction frames, popList using cleanupLoop.induct with
  | case1 front next rest => simp [cleanupLoop]
  | case2 front next rest popList hne hmem ih =>
      rw [cleanupLoop, if_neg hne, if_pos hmem]
      exact ih (List.cons_ne_nil _ _)
  | case3 front next rest popList hne hmem => simp [cleanupLoop, hne, hmem]
  | case4 frames popList hshort =>
      rcases frames with _ | ⟨f, _ | ⟨g, rest⟩⟩
      · exact absurd rfl h
      · simp [cleanupLoop]
      · exact absurd rfl (hshort f g rest)

/-- `cleanup` reads through a null pointer exactly on an empty buffer. -/
theorem cleanup_isSome (h : RequestHandler) :
    (cleanup h).isSome ↔ h.latencyBuffer.frames ≠ [] := by
  by_cases hne : h.latencyBuffer.frames = []
  · simp [cleanup, hne, cleanupLoop, LatencyBuffer.front]
  · obtain ⟨f, rest, hf⟩ := List.exists_cons_of_ne_nil (cleanupLoop_ne_nil h.popList hne)
    simp [cleanup, hne, LatencyBuffer.front, hf]

/-- What `cleanup` leaves in the buffer and in the pop list. -/
theorem cleanup_eq_some {h h' : RequestHandler} (hc : cleanup h = some h') :
    h'.latencyBuffer.frames = (cleanupLoop h.latencyBuffer.frames h.popList).1 ∧
      h'.popList = (cleanupLoop h.latencyBuffer.frames h.popList).2 := by
  simp only [cleanup, Option.bind_eq_bind, Option.bind_eq_some_iff, Option.some.injEq] at hc
  obtain ⟨front, -, rfl⟩ := hc
  exact ⟨rfl, rfl⟩

/-- What `cleanup_check` leaves: the popping loop on an empty pop list would
change nothing. -/
theorem cleanupCheck_eq_some {h h' : RequestHandler} (hc : cleanupCheck h = some h') :
    h'.latencyBuffer.frames = (cleanupLoop h.latencyBuffer.frames h.popList).1 ∧
      h'.popList = (cleanupLoop h.latencyBuffer.frames h.popList).2 := by
  unfold cleanupCheck at hc
  split at hc
  · rename_i hempty
    obtain rfl := Option.some.inj hc
    rw [hempty, cleanupLoop_empty]
    exact ⟨rfl, rfl⟩
  · exact cleanup_eq_some hc

end Readout
end SNBModules
