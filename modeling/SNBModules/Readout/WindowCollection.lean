import SNBModules.Readout.Completeness
import SNBModules.Readout.Delivery
import SNBModules.Readout.WaitingRequests

/-!
# What a window collects

Source: `SNBRequestHandlerModel.hxx`, `get_fragment_pieces`, `data_request` and
`check_waiting_requests`.

On a buffer in timestamp order the collecting loop takes the frames of its
window that no fragment has yet, all of them and nothing else
(`collectLoop_eq`), so what `get_fragment_pieces` returns and records can be
written down (`getFragmentPieces_exact`).

The loop only runs for a window that ends at or before the newest frame.  A
request that has waited for too long ends after it, so its retry is classified
`kNotYet` like its first attempt: `kPartial`, for which `data_request` has a
branch of its own, is a result code that `get_fragment_pieces` never gives
(`dataRequest_timedOut`).
-/

namespace SNBModules
namespace Readout

/-- A frame of the window whose timestamp is not recorded. -/
def Collectable (popList : Finset ℕ) (b e : ℕ) (f : Frame) : Prop :=
  b ≤ f.timestamp ∧ f.timestamp ≤ e ∧ f.timestamp ∉ popList

instance (popList : Finset ℕ) (b e : ℕ) (f : Frame) : Decidable (Collectable popList b e f) :=
  inferInstanceAs (Decidable (_ ∧ _ ∧ _))

/-- The frames of the window that no fragment has, in buffer order. -/
def collectable (frames : List Frame) (popList : Finset ℕ) (b e : ℕ) : List Frame :=
  frames.filter fun f => Collectable popList b e f

/-- Recording a timestamp that no frame has changes nothing. -/
theorem collectable_insert {frames : List Frame} {ts : ℕ} (h : ∀ f ∈ frames, f.timestamp ≠ ts)
    (popList : Finset ℕ) (b e : ℕ) :
    collectable frames (insert ts popList) b e = collectable frames popList b e := by
  refine List.filter_congr fun f hf => ?_
  have hmem : f.timestamp ∈ insert ts popList ↔ f.timestamp ∈ popList :=
    Finset.mem_insert.trans (or_iff_right (h f hf))
  exact decide_eq_decide.2 (and_congr_right fun _ => and_congr_right fun _ => not_congr hmem)

/-- Past the end of the window there is nothing to collect. -/
theorem collectable_eq_nil {frames : List Frame} {e : ℕ} (h : ∀ f ∈ frames, e < f.timestamp)
    (popList : Finset ℕ) (b : ℕ) : collectable frames popList b e = [] := by
  refine List.filter_eq_nil_iff.2 fun f hf hc => ?_
  exact Nat.not_le_of_lt (h f hf) (of_decide_eq_true hc).2.1

/-- On frames in timestamp order the collecting loop takes the collectable
frames and records their timestamps. -/
theorem collectLoop_eq (b e : ℕ) {frames : List Frame} (h : Increasing frames)
    (acc : List Frame × Finset ℕ) :
    collectLoop b e frames acc =
      (acc.1 ++ collectable frames acc.2 b e,
        acc.2 ∪ ((collectable frames acc.2 b e).map Frame.timestamp).toFinset) := by
  induction frames generalizing acc with
  | nil => simp [collectLoop, collectable]
  | cons f rest ih =>
      obtain ⟨hlt, hrest⟩ := List.pairwise_cons.1 h
      by_cases hend : f.timestamp ≤ e
      · rw [collectLoop, if_pos hend, ih hrest]
        rcases collectElement_cases b f acc with ⟨hnew, hstart, he⟩ | ⟨hskip, he⟩
        · -- the timestamps that follow are later, so recording this one skips none of them
          have hc : Collectable acc.2 b e f := ⟨hstart, hend, hnew⟩
          have hcons : collectable (f :: rest) acc.2 b e = f :: collectable rest acc.2 b e :=
            List.filter_cons_of_pos (decide_eq_true hc)
          rw [he, collectable_insert (fun g hg => Nat.ne_of_gt (hlt g hg)), hcons]
          ext1
          · simp
          · ext ts
            simp only [Finset.mem_union, Finset.mem_insert, List.map_cons, List.toFinset_cons]
            tauto
        · have hc : ¬ Collectable acc.2 b e f := by
            rintro ⟨hstart, -, hnew⟩
            exact hskip.elim hnew (Nat.not_lt.2 hstart)
          have hcons : collectable (f :: rest) acc.2 b e = collectable rest acc.2 b e :=
            List.filter_cons_of_neg fun hd => hc (of_decide_eq_true hd)
          rw [he, hcons]
      · have hpast : ∀ g ∈ f :: rest, e < g.timestamp := by
          intro g hg
          rcases List.mem_cons.1 hg with rfl | hg
          · exact Nat.lt_of_not_le hend
          · exact (Nat.lt_of_not_le hend).trans (hlt g hg)
        rw [collectLoop, if_neg hend, collectable_eq_nil hpast]
        simp

/-- A buffer with a newest frame has an oldest one. -/
theorem LatencyBuffer.exists_front {lb : LatencyBuffer} {newest : Frame}
    (h : lb.back = some newest) : ∃ oldest, lb.front = some oldest := by
  obtain ⟨oldest, rest, hframes⟩ :=
    List.exists_cons_of_ne_nil (List.ne_nil_of_mem (List.mem_of_getLast? h))
  exact ⟨oldest, by rw [LatencyBuffer.front, hframes, List.head?_cons]⟩

/-- **A window is collected exactly.**  On a buffer in strictly increasing
timestamp order with a newest frame, for every pop list and every window: with
`kFound` the pieces are the frames of the window that were not recorded, each
once and in buffer order, and the pop list grows by their timestamps; with any
other code there is no piece and the pop list stays; `kNotYet` means that a bound
of the window lies after the newest frame; `kNotFound` is never given. -/
theorem getFragmentPieces_exact {lb : LatencyBuffer} {newest : Frame} (hinc : Increasing lb.frames)
    (hback : lb.back = some newest) (popList : Finset ℕ) (b e : ℕ) :
    ∃ rc pieces popList', getFragmentPieces lb popList b e = some (rc, pieces, popList') ∧
      (rc = .kFound → pieces = collectable lb.frames popList b e ∧ pieces.Nodup ∧
        popList' = popList ∪ (pieces.map Frame.timestamp).toFinset) ∧
      (rc ≠ .kFound → pieces = [] ∧ popList' = popList) ∧
      (rc = .kNotYet ↔ newest.timestamp < b ∨ newest.timestamp < e) ∧
      rc ≠ .kNotFound := by
  obtain ⟨oldest, hfront⟩ := LatencyBuffer.exists_front hback
  have hnodup : (collectable lb.frames popList b e).Nodup := hinc.nodup.filter _
  have hrc := windowResult_eq hfront hback b e
  rw [getFragmentPieces, hrc]
  by_cases hlate : b > newest.timestamp ∨ newest.timestamp < e
  · exact ⟨.kNotYet, [], popList, by simp [hlate], fun h => absurd h (by decide),
      fun _ => ⟨rfl, rfl⟩, iff_of_true rfl hlate, by decide⟩
  · rw [if_neg hlate]
    by_cases hold : e ≤ oldest.timestamp
    · exact ⟨.kTooOld, [], popList, by simp [hold], fun h => absurd h (by decide),
        fun _ => ⟨rfl, rfl⟩, iff_of_false (by decide) hlate, by decide⟩
    · refine ⟨.kFound, _, _, ?_, fun _ => ⟨rfl, hnodup, rfl⟩, fun h => absurd rfl h,
        iff_of_false (by decide) hlate, by decide⟩
      rw [if_neg hold, Option.bind_eq_bind, Option.bind_some, if_pos rfl, collectLoop_eq b e hinc,
        List.nil_append]

/-- The buffer 1, 2, 3 with frame 2 included before. -/
theorem getFragmentPieces_exact_one_to_three :
    ∃ rc pieces popList', getFragmentPieces ⟨8, [⟨1, []⟩, ⟨2, []⟩, ⟨3, []⟩]⟩ {2} 1 3 =
        some (rc, pieces, popList') ∧ rc = .kFound ∧ pieces = [⟨1, []⟩, ⟨3, []⟩] ∧
      popList' = {1, 2, 3} := by
  have hinc : Increasing [⟨1, []⟩, ⟨2, []⟩, ⟨3, []⟩] := by decide
  have hback : LatencyBuffer.back ⟨8, [⟨1, []⟩, ⟨2, []⟩, ⟨3, []⟩]⟩ = some ⟨3, []⟩ := rfl
  obtain ⟨rc, pieces, popList', heq, hfound, -⟩ := getFragmentPieces_exact hinc hback {2} 1 3
  have hrc : rc = .kFound :=
    (congrArg Prod.fst (Option.some.inj heq)).symm.trans rfl
  obtain ⟨hpieces, -, hpop⟩ := hfound hrc
  have hp : pieces = [⟨1, []⟩, ⟨3, []⟩] := hpieces.trans (by decide)
  exact ⟨rc, pieces, popList', heq, hrc, hp, by rw [hpop, hp]; decide⟩

/-! ### A request that timed out -/

/-- A scan issues again every waiting request whose time is over. -/
theorem mem_issued_of_timedOut {requestTimeoutMs : ℤ} {newestTs : ℕ} {now : ℕ → ℤ}
    {waiting : List RequestElement} {i : ℕ} {element : RequestElement}
    (hi : waiting[i]? = some element)
    (hover : (now i - element.startTime).tdiv 1000000 ≥ requestTimeoutMs) :
    element.accepted ∈ (scanWaiting requestTimeoutMs newestTs now waiting).issued := by
  induction waiting generalizing now i with
  | nil => cases hi
  | cons e rest ih =>
      rw [scanWaiting]
      cases i with
      | zero =>
          obtain rfl := Option.some.inj hi
          split
          · exact List.mem_cons_self
          · exact List.mem_cons_self
      | succ i =>
          have hmem : element.accepted ∈
              (scanWaiting requestTimeoutMs newestTs (fun j => now (j + 1)) rest).issued :=
            ih hi hover
          split
          · exact List.mem_cons_of_mem _ hmem
          · split
            · exact List.mem_cons_of_mem _ hmem
            · exact hmem

/-- The frames of a request's window that no fragment has. -/
def RequestHandler.collectableOf (h : RequestHandler) (dr : DataRequest) : List Frame :=
  collectable h.latencyBuffer.frames h.popList dr.requestInformation.windowBegin
    dr.requestInformation.windowEnd

/-- What the comment on the loop of `check_waiting_requests` says of a request
that timed out: its answer has what there is of the window and is marked
incomplete, and what it has is recorded. -/
structure PartialAnswer (h : RequestHandler) (dr : DataRequest) (result : RequestResult)
    (h' : RequestHandler) : Prop where
  pieces : ∀ f ∈ h.collectableOf dr, f ∈ result.fragment.pieces
  incomplete : .kIncomplete ∈ result.fragment.header.statusBits
  recorded : ∀ f ∈ h.collectableOf dr, f.timestamp ∈ h'.popList

/-- A window that ends after the newest frame gets an empty fragment, and
nothing is recorded. -/
theorem dataRequest_of_newest_lt {h : RequestHandler} {newest : Frame}
    (hback : h.latencyBuffer.back = some newest) {dr : DataRequest}
    (hend : newest.timestamp < dr.requestInformation.windowEnd) :
    dataRequest h dr = some (⟨.kNotYet, dr, makeFragment h dr .kNotYet []⟩,
      { h with stats := countResult h.stats .kNotYet }) := by
  obtain ⟨oldest, hfront⟩ := LatencyBuffer.exists_front hback
  have hne : h.latencyBuffer.occupancy ≠ 0 :=
    Nat.ne_of_gt (List.length_pos_of_mem (List.mem_of_getLast? hback))
  have hrc := windowResult_eq hfront hback dr.requestInformation.windowBegin
    dr.requestInformation.windowEnd
  rw [if_pos (Or.inr hend)] at hrc
  rw [dataRequest, if_neg hne, getFragmentPieces, hrc]
  rfl

/-- **A request that timed out is answered without data.**  For every buffer and
every window that ends after its newest frame: when the waiting time is over,
the scan issues the request again and the retry is sent, but never with the
partial answer.  The frames it should have are all there only when there are
none, and none is recorded. -/
theorem dataRequest_timedOut {h : RequestHandler} {newest : Frame}
    (hback : h.latencyBuffer.back = some newest) {requestTimeoutMs : ℤ} {newestTs : ℕ}
    {now : ℕ → ℤ} {waiting : List RequestElement} {i : ℕ} {element : RequestElement}
    (hi : waiting[i]? = some element)
    (hover : (now i - element.startTime).tdiv 1000000 ≥ requestTimeoutMs)
    (hend : newest.timestamp < element.accepted.request.requestInformation.windowEnd) :
    element.accepted ∈ (scanWaiting requestTimeoutMs newestTs now waiting).issued ∧
      ∃ result h', dataRequest h element.accepted.request = some (result, h') ∧
        requeues requestTimeoutMs result.resultCode true = false ∧
        ¬ PartialAnswer h element.accepted.request result h' ∧
        ((∀ f ∈ h.collectableOf element.accepted.request, f ∈ result.fragment.pieces) ↔
          h.collectableOf element.accepted.request = []) ∧
        h'.popList = h.popList := by
  refine ⟨mem_issued_of_timedOut hi hover, _, _, dataRequest_of_newest_lt hback hend, ?_,
    fun hp => ?_, ?_, rfl⟩
  · simp [requeues]
  · have hbit : (.kIncomplete : FragmentStatusBits) ∉ statusBitsOf .kNotYet := by decide
    exact hbit hp.incomplete
  · refine ⟨fun hall => ?_, fun hnil f hf => absurd (hnil ▸ hf) List.not_mem_nil⟩
    exact List.eq_nil_iff_forall_not_mem.2 fun f hf => List.not_mem_nil (hall f hf)

/-- A request that has waited two seconds of one for the window from 2 to 5. -/
def waitedTooLong : RequestElement := ⟨⟨0, 1, requestFor 2 5⟩, 0⟩

theorem dataRequest_timedOut_two_to_five :
    waitedTooLong.accepted ∈
        (scanWaiting 1000 3 (fun _ => 2000000000) [waitedTooLong]).issued ∧
      ∃ result h', dataRequest threeFrames (requestFor 2 5) = some (result, h') ∧
        requeues 1000 result.resultCode true = false ∧
        ¬ PartialAnswer threeFrames (requestFor 2 5) result h' ∧
        ((∀ f ∈ threeFrames.collectableOf (requestFor 2 5), f ∈ result.fragment.pieces) ↔
          threeFrames.collectableOf (requestFor 2 5) = []) ∧
        h'.popList = threeFrames.popList :=
  have hback : threeFrames.latencyBuffer.back = some ⟨3, []⟩ := rfl
  have hi : [waitedTooLong][0]? = some waitedTooLong := rfl
  dataRequest_timedOut hback hi (by decide) (by decide)

/-- Frames 2 and 3 are buffered and in no fragment, and the answer for the window
from 2 to 5 has neither. -/
theorem timedOut_without_frames :
    Increasing threeFrames.latencyBuffer.frames ∧
      threeFrames.collectableOf (requestFor 2 5) = [⟨2, []⟩, ⟨3, []⟩] ∧
      ∃ result h', dataRequest threeFrames (requestFor 2 5) = some (result, h') ∧
        result.fragment.pieces = [] ∧
        result.fragment.header.statusBits = {.kEmptyFragment, .kRequestWindowAfterBuffer} ∧
        h'.popList = ∅ ∧ ¬ PartialAnswer threeFrames (requestFor 2 5) result h' := by
  refine ⟨by decide, by decide, _, _, (Option.some_get (by decide)).symm, by decide, by decide,
    by decide, fun hp => ?_⟩
  exact absurd hp.incomplete (by decide)

end Readout
end SNBModules
