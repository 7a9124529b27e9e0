import SNBModules.Lib.Runs
import SNBModules.Readout.Delivery

/-!
# Completeness: consecutive windows over the whole stream

Source: `SNBRequestHandlerModel.hxx`, `get_fragment_pieces`, `data_request` and
`cleanup`; the total-size check is `test_data_files` of
`integtest/simple_transform_test.py`.

All frames are written, consecutive windows from the first timestamp to the last
are requested once each, in any order, with cleanups in between.  The frames
inside a window are there when it is served, or were included before; the bound
`end_win_ts <= last_ts` classifies a window as too old when it ends exactly at
the oldest frame, which belongs to it.  For all frames but the newest another
window makes up for it.
-/

namespace SNBModules
namespace Readout

open Lib

/-! ### Consecutive windows -/

/-- The windows `[b₀,b₁], [b₁,b₂], …` of a list of bounds. -/
def windows (bounds : List ℕ) : List (ℕ × ℕ) := bounds.zip bounds.tail

/-- A window of sorted bounds is in order and ends at or before the last bound. -/
theorem window_le {bounds : List ℕ} (hs : bounds.Pairwise (· ≤ ·)) {w : ℕ × ℕ}
    (hw : w ∈ windows bounds) {bn : ℕ} (hn : bounds.getLast? = some bn) : w.1 ≤ w.2 ∧ w.2 ≤ bn := by
  induction bounds with
  | nil => exact absurd hw List.not_mem_nil
  | cons b rest ih =>
      obtain ⟨hb, hs⟩ := List.pairwise_cons.1 hs
      cases rest with
      | nil => exact absurd hw List.not_mem_nil
      | cons e rest =>
          rw [List.getLast?_cons_cons] at hn
          rcases List.mem_cons.1 hw with rfl | hw
          · refine ⟨hb e (List.mem_cons_self ..), ?_⟩
            rcases List.mem_cons.1 (List.mem_of_getLast? hn) with rfl | hmem
            · exact Nat.le_refl _
            · exact (List.pairwise_cons.1 hs).1 bn hmem
          · exact ih hs hw hn

/-- A timestamp before the last bound lies in a window that ends after it. -/
theorem exists_window {bounds : List ℕ} {b₀ bn t : ℕ} (h₀ : bounds.head? = some b₀)
    (hn : bounds.getLast? = some bn) (hle : b₀ ≤ t) (hlt : t < bn) :
    ∃ w ∈ windows bounds, w.1 ≤ t ∧ t < w.2 := by
  induction bounds generalizing b₀ with
  | nil => cases h₀
  | cons b rest ih =>
      obtain rfl : b = b₀ := Option.some.inj h₀
      cases rest with
      | nil =>
          obtain rfl : b = bn := Option.some.inj hn
          omega
      | cons e rest =>
          by_cases he : e ≤ t
          · obtain ⟨w, hw, h⟩ := ih rfl (List.getLast?_cons_cons ▸ hn) he
            exact ⟨w, List.mem_cons_of_mem _ hw, h⟩
          · exact ⟨(b, e), List.mem_cons_self .., hle, by omega⟩

/-! ### Serving the requests -/

/-- A request is served, or `cleanup` is called. -/
inductive Service where
  | request (dr : DataRequest)
  | cleanup
  deriving DecidableEq

/-- One service, on the handler and the fragments so far. -/
def serve (s : RequestHandler × List Fragment) : Service → Option (RequestHandler × List Fragment)
  | .request dr => (dataRequest s.1 dr).map fun r => (r.2, s.2 ++ [r.1.fragment])
  | .cleanup => (cleanup s.1).map fun h => (h, s.2)

/-- The window of a request. -/
def DataRequest.window (dr : DataRequest) : ℕ × ℕ :=
  (dr.requestInformation.windowBegin, dr.requestInformation.windowEnd)

/-- The windows that a schedule requests, in the order of serving. -/
def requestedWindows (schedule : List Service) : List (ℕ × ℕ) :=
  schedule.filterMap fun
    | .request dr => some dr.window
    | .cleanup => none

theorem mem_requestedWindows {schedule : List Service} {w : ℕ × ℕ} :
    w ∈ requestedWindows schedule ↔ ∃ dr, .request dr ∈ schedule ∧ dr.window = w := by
  simp only [requestedWindows, List.mem_filterMap]
  constructor
  · rintro ⟨a, ha, hw⟩
    cases a with
    | request dr => exact ⟨dr, ha, Option.some.inj hw⟩
    | cleanup => cases hw
  · rintro ⟨dr, hdr, rfl⟩
    exact ⟨_, hdr, rfl⟩

/-- The pieces of all fragments. -/
def delivered (s : RequestHandler × List Fragment) : List Frame := s.2.flatMap Fragment.pieces

/-- Some request whose window ends at `bn` is served while the buffer holds at
least two frames. -/
def ServedInTime (h : RequestHandler) (bn : ℕ) (schedule : List Service) : Prop :=
  ∃ pre dr post s, schedule = pre ++ .request dr :: post ∧ exec serve (h, []) pre = some s ∧
    dr.requestInformation.windowEnd = bn ∧ 2 ≤ s.1.latencyBuffer.occupancy

/-- The state implements a store that has received the stream. -/
def Serving (stream : List Frame) (s : RequestHandler × List Fragment) : Prop :=
  ∃ d, Delivers s.1.latencyBuffer.frames s.1.popList (delivered s) d ∧ d.stored = stream

theorem serve_request {s s' : RequestHandler × List Fragment} {dr : DataRequest}
    (hs : serve s (.request dr) = some s') :
    ∃ result, dataRequest s.1 dr = some (result, s'.1) ∧
      delivered s' = delivered s ++ result.fragment.pieces := by
  obtain ⟨⟨result, h'⟩, hr, rfl⟩ := Option.map_eq_some_iff.1 hs
  exact ⟨result, hr, by simp [delivered]⟩

theorem serve_cleanup {s s' : RequestHandler × List Fragment}
    (hs : serve s .cleanup = some s') : cleanup s.1 = some s'.1 ∧ delivered s' = delivered s := by
  obtain ⟨h', hc, rfl⟩ := Option.map_eq_some_iff.1 hs
  exact ⟨hc, rfl⟩

theorem Serving.serve {stream : List Frame} {s s' : RequestHandler × List Fragment} {a : Service}
    (h : Serving stream s) (hs : serve s a = some s') : Serving stream s' := by
  obtain ⟨d, hd, hst⟩ := h
  cases a with
  | request dr =>
      obtain ⟨result, hr, hdel⟩ := serve_request hs
      obtain ⟨d', hd', hst'⟩ := hd.dataRequest hr
      exact ⟨d', hdel ▸ hd', hst'.trans hst⟩
  | cleanup =>
      obtain ⟨hc, hdel⟩ := serve_cleanup hs
      obtain ⟨d', hd', hst'⟩ := hd.cleanup hc
      exact ⟨d', hdel ▸ hd', hst'.trans hst⟩

/-- What has been delivered stays delivered. -/
theorem delivered_mono {s s' : RequestHandler × List Fragment} {l : List Service} {f : Frame}
    (hf : f ∈ delivered s) (hrun : exec Readout.serve s l = some s') : f ∈ delivered s' := by
  refine exec_invariant (I := fun s => f ∈ delivered s) (fun s a t hf hs => ?_) hf hrun
  cases a with
  | request dr =>
      obtain ⟨result, -, hdel⟩ := serve_request hs
      exact hdel ▸ List.mem_append_left _ hf
  | cleanup => exact (serve_cleanup hs).2 ▸ hf

theorem serving_start {h : RequestHandler} {stream : List Frame}
    (hbuf : h.latencyBuffer.frames = stream) (hpop : h.popList = ∅) (hinc : Increasing stream) :
    Serving stream (h, []) := by
  refine ⟨OnceStore.ofList stream hinc.nodup, ?_, rfl⟩
  rw [hbuf, hpop]
  exact Delivers.ofList hinc

/-- While the stream is served the newest frame is its last one. -/
theorem Serving.back {stream : List Frame} {s : RequestHandler × List Fragment}
    (h : Serving stream s) : s.1.latencyBuffer.back = stream.getLast? := by
  obtain ⟨d, hd, hst⟩ := h
  rw [LatencyBuffer.back, hd.held, d.getLast?_held, hst]

/-- Every service of a nonempty stream is possible. -/
theorem Serving.isSome {stream : List Frame} (hne : stream ≠ [])
    (s : RequestHandler × List Fragment) (a : Service) (h : Serving stream s) :
    ∃ s', Readout.serve s a = some s' ∧ Serving stream s' := by
  suffices hs : ∃ s', Readout.serve s a = some s' by
    obtain ⟨s', hs⟩ := hs
    exact ⟨s', hs, h.serve hs⟩
  cases a with
  | request dr =>
      obtain ⟨r, hr⟩ := Option.isSome_iff_exists.1 (dataRequest_isSome s.1 dr)
      exact ⟨_, by rw [Readout.serve, hr]; rfl⟩
  | cleanup =>
      obtain ⟨d, hd, hst⟩ := h
      have hframes : s.1.latencyBuffer.frames ≠ [] := hd.held ▸ d.held_ne_nil (hst ▸ hne)
      obtain ⟨h', hc⟩ := Option.isSome_iff_exists.1 ((cleanup_isSome s.1).2 hframes)
      exact ⟨_, by rw [Readout.serve, hc]; rfl⟩

/-- With two frames in the buffer the oldest is older than the newest. -/
theorem Serving.front_lt_back {stream : List Frame} {s : RequestHandler × List Fragment}
    (h : Serving stream s) (hocc : 2 ≤ s.1.latencyBuffer.occupancy) {front back : Frame}
    (hfront : s.1.latencyBuffer.front = some front) (hback : s.1.latencyBuffer.back = some back) :
    front.timestamp < back.timestamp := by
  obtain ⟨d, hd, -⟩ := h
  obtain ⟨rest, hframes⟩ := List.head?_eq_some_iff.1 hfront
  have hinc := hd.increasing_frames
  rw [LatencyBuffer.occupancy] at hocc
  rw [LatencyBuffer.back] at hback
  rw [hframes] at hocc hback hinc
  cases rest with
  | nil => simp at hocc
  | cons next rest =>
      rw [List.getLast?_cons_cons] at hback
      exact (List.pairwise_cons.1 hinc).1 back (List.mem_of_getLast? hback)

/-- A served window delivers the frames inside it, unless it ends at or before
the oldest frame or after the newest. -/
theorem delivered_of_request {stream : List Frame} {s s' : RequestHandler × List Fragment}
    {dr : DataRequest} {f last : Frame} (h : Serving stream s)
    (hs : serve s (.request dr) = some s') (hf : f ∈ stream) (hlast : stream.getLast? = some last)
    (hbegin : dr.window.1 ≤ f.timestamp) (hend : f.timestamp ≤ dr.window.2)
    (hnewest : dr.window.2 ≤ last.timestamp)
    (holdest : f ∈ s.1.latencyBuffer.frames →
      ∀ g, s.1.latencyBuffer.front = some g → g.timestamp < dr.window.2) :
    f ∈ delivered s' := by
  have hback : s.1.latencyBuffer.back = some last := h.back.trans hlast
  obtain ⟨d, hd, rfl⟩ := h
  obtain ⟨result, hr, hdel⟩ := serve_request hs
  obtain ⟨d', hd', -⟩ := hd.dataRequest hr
  rw [hdel]
  by_cases hmem : f ∈ s.1.latencyBuffer.frames
  · obtain ⟨front, rest, hframes⟩ := List.exists_cons_of_ne_nil (List.ne_nil_of_mem hmem)
    have hfront : s.1.latencyBuffer.front = some front := by rw [LatencyBuffer.front, hframes]; rfl
    rcases dataRequest_cases hr with ⟨hempty, -⟩ | ⟨rc, acc, -, hrc, hacc, -, hs'⟩
    · exact absurd (List.eq_nil_of_length_eq_zero hempty) (List.ne_nil_of_mem hmem)
    · have hwin : dr.window.1 ≤ dr.window.2 := hbegin.trans hend
      have hfound : rc = .kFound := by
        rw [windowResult_eq hfront hback] at hrc
        rw [← Option.some.inj hrc, if_neg, if_neg]
        · exact Nat.not_le_of_lt (holdest hmem front hfront)
        · exact not_or.2 ⟨Nat.not_lt.2 (hwin.trans hnewest), Nat.not_lt.2 hnewest⟩
      obtain rfl := (hacc.resolve_left fun hn => hn.1 hfound).2
      have hsorted := hd.increasing_frames.imp fun hlt => Nat.le_of_lt hlt
      have hts := collectLoop_covers dr.window.1 dr.window.2 hsorted ([], s.1.popList) hmem hbegin
        hend
      rw [hs'] at hd'
      exact (hd'.marked f hmem).1 hts
  · exact List.mem_append_left _ (hd.mem_claims_of_not_mem_frames hf hmem)

/-- A request that delivers the newest frame found the buffer holding an older
one, and its window ends at the newest. -/
theorem front_lt_of_delivered {stream : List Frame} {s s' : RequestHandler × List Fragment}
    {dr : DataRequest} {last : Frame} (h : Serving stream s)
    (hs : serve s (.request dr) = some s') (hlast : stream.getLast? = some last)
    (hnewest : dr.window.2 ≤ last.timestamp) (hbefore : last ∉ delivered s)
    (hafter : last ∈ delivered s') :
    dr.window.2 = last.timestamp ∧ 2 ≤ s.1.latencyBuffer.occupancy := by
  have hback : s.1.latencyBuffer.back = some last := h.back.trans hlast
  obtain ⟨result, hr, hdel⟩ := serve_request hs
  have hpiece := (List.mem_append.1 (hdel ▸ hafter)).resolve_left hbefore
  rcases dataRequest_cases hr with ⟨-, hfrag, -⟩ | ⟨rc, acc, -, hrc, hacc, hfrag, -⟩
  · rw [hfrag] at hpiece
    exact absurd hpiece List.not_mem_nil
  · rw [hfrag] at hpiece
    rcases hacc with ⟨-, rfl⟩ | ⟨hfound, rfl⟩
    · exact absurd hpiece List.not_mem_nil
    · obtain ⟨taken, hsub, hwin, heq⟩ := collectLoop_spec dr.requestInformation.windowBegin
        dr.requestInformation.windowEnd s.1.latencyBuffer.frames ([], s.1.popList)
      have htaken : last ∈ taken := by simpa [makeFragment, heq] using hpiece
      have hend : dr.window.2 = last.timestamp := Nat.le_antisymm hnewest (hwin last htaken).2.1
      refine ⟨hend, ?_⟩
      by_contra hshort
      -- a buffer of one frame has the newest as its oldest, and the window is too old
      have hmem := hsub.subset htaken
      obtain ⟨front, hframes⟩ := List.length_eq_one_iff.1
        (Nat.le_antisymm (Nat.le_of_not_lt hshort) (List.length_pos_of_mem hmem))
      obtain rfl := List.mem_singleton.1 (hframes ▸ hmem)
      have hfront : s.1.latencyBuffer.front = some last := by
        rw [LatencyBuffer.front, hframes]; rfl
      have hold : dr.requestInformation.windowEnd ≤ last.timestamp := hnewest
      rw [windowResult_eq hfront hback, if_pos hold, hfound] at hrc
      split at hrc <;> cases hrc

/-! ### Exactly when nothing is missing -/

/-- The whole stream, from `first` to `last`, is buffered in timestamp order and
nothing of it is included yet; the schedule requests each window of the bounds
once. -/
structure FullyRequested (h : RequestHandler) (stream : List Frame) (first last : Frame)
    (bounds : List ℕ) (schedule : List Service) : Prop where
  buffered : h.latencyBuffer.frames = stream
  not_included : h.popList = ∅
  increasing : Increasing stream
  head : stream.head? = some first
  getLast : stream.getLast? = some last
  sorted : bounds.Pairwise (· ≤ ·)
  bounds_head : bounds.head? = some first.timestamp
  bounds_getLast : bounds.getLast? = some last.timestamp
  requested : (requestedWindows schedule).Perm (windows bounds)

namespace FullyRequested

variable {h : RequestHandler} {stream : List Frame} {first last : Frame} {bounds : List ℕ}
  {schedule : List Service}

/-- Every prefix of the schedule can be served. -/
theorem exec (r : FullyRequested h stream first last bounds schedule) (l : List Service) :
    ∃ s, exec serve (h, []) l = some s ∧ Serving stream s := by
  have hne : stream ≠ [] := List.ne_nil_of_mem (List.mem_of_getLast? r.getLast)
  exact exec_isSome (Serving.isSome hne)
    (serving_start r.buffered r.not_included r.increasing) l

theorem window_le (r : FullyRequested h stream first last bounds schedule) {dr : DataRequest}
    (hdr : .request dr ∈ schedule) :
    dr.window.1 ≤ dr.window.2 ∧ dr.window.2 ≤ last.timestamp :=
  Readout.window_le r.sorted (r.requested.mem_iff.1 (mem_requestedWindows.2 ⟨dr, hdr, rfl⟩))
    r.bounds_getLast

/-- If nothing is missing, the request that delivered the newest frame was
served in time. -/
theorem servedInTime (r : FullyRequested h stream first last bounds schedule)
    {s : RequestHandler × List Fragment} (hrun : Lib.exec serve (h, []) schedule = some s)
    (hperm : (delivered s).Perm stream) : ServedInTime h last.timestamp schedule := by
  obtain ⟨pre, a, post, t, t', rfl, hpre, hstep, hbefore, hafter⟩ :=
    exists_step_of_change (P := fun s => last ∈ delivered s) hrun List.not_mem_nil
      (hperm.mem_iff.2 (List.mem_of_getLast? r.getLast))
  obtain ⟨_, hpre', ht⟩ := r.exec pre
  obtain rfl := Option.some.inj (hpre'.symm.trans hpre)
  cases a with
  | cleanup => exact absurd ((serve_cleanup hstep).2 ▸ hafter) hbefore
  | request dr =>
      obtain ⟨hend, hocc⟩ := front_lt_of_delivered ht hstep r.getLast
        (r.window_le (by simp)).2 hbefore hafter
      exact ⟨pre, dr, post, _, rfl, hpre, hend, hocc⟩

/-- A frame is delivered when a window with the frame inside is served at a
moment when the frame is gone or the oldest frame lies before the window's
end. -/
theorem mem_delivered (r : FullyRequested h stream first last bounds schedule)
    {s t : RequestHandler × List Fragment} (hrun : Lib.exec serve (h, []) schedule = some s)
    {pre post : List Service} {dr : DataRequest} (heq : schedule = pre ++ .request dr :: post)
    (hpre : Lib.exec serve (h, []) pre = some t) {f : Frame} (hf : f ∈ stream)
    (hbegin : dr.window.1 ≤ f.timestamp) (hend : f.timestamp ≤ dr.window.2)
    (holdest : f ∈ t.1.latencyBuffer.frames →
      ∀ g, t.1.latencyBuffer.front = some g → g.timestamp < dr.window.2) :
    f ∈ delivered s := by
  obtain ⟨_, hpre', ht⟩ := r.exec pre
  obtain rfl := Option.some.inj (hpre'.symm.trans hpre)
  have hdr : .request dr ∈ schedule := by simp [heq]
  have hnewest := (r.window_le hdr).2
  rw [heq, exec_append, hpre, Option.bind_some] at hrun
  obtain ⟨t', hstep, hpost⟩ := exec_cons_eq_some.1 hrun
  exact delivered_mono
    (delivered_of_request ht hstep hf r.getLast hbegin hend hnewest holdest) hpost

/-- Every frame but the newest is delivered in any case. -/
theorem mem_delivered_of_ne (r : FullyRequested h stream first last bounds schedule)
    {s : RequestHandler × List Fragment} (hrun : Lib.exec serve (h, []) schedule = some s)
    {f : Frame} (hf : f ∈ stream) (hne : f ≠ last) : f ∈ delivered s := by
  obtain ⟨w, hw, hbegin, hend⟩ := exists_window r.bounds_head r.bounds_getLast
    (r.increasing.head_le r.head hf) (r.increasing.lt_getLast r.getLast hf hne)
  obtain ⟨dr, hdr, rfl⟩ := mem_requestedWindows.1 (r.requested.mem_iff.2 hw)
  obtain ⟨pre, post, heq⟩ := List.append_of_mem hdr
  obtain ⟨t, hpre, d, hd, -⟩ := r.exec pre
  refine r.mem_delivered hrun heq hpre hf hbegin (Nat.le_of_lt hend) fun hmem g hg => ?_
  exact (hd.increasing_frames.head_le hg hmem).trans_lt hend

/-- The newest frame is delivered by a window served in time. -/
theorem getLast_mem_delivered (r : FullyRequested h stream first last bounds schedule)
    {s : RequestHandler × List Fragment} (hrun : Lib.exec serve (h, []) schedule = some s)
    (hin : ServedInTime h last.timestamp schedule) : last ∈ delivered s := by
  obtain ⟨pre, dr, post, t, heq, hpre, hend, hocc⟩ := hin
  obtain ⟨_, hpre', ht⟩ := r.exec pre
  obtain rfl := Option.some.inj (hpre'.symm.trans hpre)
  have hdr : .request dr ∈ schedule := by simp [heq]
  have hbegin := (r.window_le hdr).1
  refine r.mem_delivered hrun heq hpre (List.mem_of_getLast? r.getLast) (hend ▸ hbegin)
    (Nat.le_of_eq hend.symm) fun _ g hg => ?_
  exact (ht.front_lt_back hocc hg (ht.back.trans r.getLast)).trans_eq hend.symm

end FullyRequested

/-- **Completeness.**  For a stream in strictly increasing timestamp order that
is buffered whole, and consecutive windows from its first to its last timestamp,
each requested once, in any order and with cleanups anywhere: every service is
possible, and the fragments have every frame exactly once if and only if a
window that ends at the last timestamp is served while an older frame is still
buffered. -/
theorem delivered_perm_iff {h : RequestHandler} {stream : List Frame} {first last : Frame}
    {bounds : List ℕ} {schedule : List Service}
    (r : FullyRequested h stream first last bounds schedule) :
    ∃ s, exec serve (h, []) schedule = some s ∧
      ((delivered s).Perm stream ↔ ServedInTime h last.timestamp schedule) := by
  obtain ⟨s, hrun, hs⟩ := r.exec schedule
  refine ⟨s, hrun, r.servedInTime hrun, fun hin => ?_⟩
  obtain ⟨d, hd, hst⟩ := hs
  refine (List.perm_ext_iff_of_nodup hd.nodup r.increasing.nodup).2 fun f =>
    ⟨fun hf => hst ▸ hd.mem_stored_of_mem_claims hf, fun hf => ?_⟩
  by_cases hfl : f = last
  · exact hfl ▸ r.getLast_mem_delivered hrun hin
  · exact r.mem_delivered_of_ne hrun hf hfl

/-- A handler that buffers the frames 1, 2 and 3. -/
def threeFrames : RequestHandler :=
  { RequestHandler.new 8 ⟨0, 0⟩ 0 0 with latencyBuffer := ⟨8, [⟨1, []⟩, ⟨2, []⟩, ⟨3, []⟩]⟩ }

theorem fullyRequested_threeFrames {schedule : List Service}
    (h : (requestedWindows schedule).Perm [(1, 2), (2, 3)]) :
    FullyRequested threeFrames [⟨1, []⟩, ⟨2, []⟩, ⟨3, []⟩] ⟨1, []⟩ ⟨3, []⟩ [1, 2, 3] schedule :=
  ⟨rfl, rfl, by decide, rfl, rfl, by decide, rfl, rfl, h⟩

/-- Served from the last window to the first, nothing is missing. -/
theorem delivered_perm_iff_last_first :
    ∃ s, exec serve (threeFrames, [])
        [.request (requestFor 2 3), .cleanup, .request (requestFor 1 2)] = some s ∧
      (delivered s).Perm [⟨1, []⟩, ⟨2, []⟩, ⟨3, []⟩] := by
  have hreq : (requestedWindows
      [.request (requestFor 2 3), .cleanup, .request (requestFor 1 2)]).Perm [(1, 2), (2, 3)] := by
    decide
  obtain ⟨s, hrun, hiff⟩ := delivered_perm_iff (fullyRequested_threeFrames hreq)
  exact ⟨s, hrun, hiff.2 ⟨[], _, _, _, rfl, rfl, rfl, by decide⟩⟩

/-- Served in order, with a cleanup in between, the last window finds the newest
frame alone in the buffer and is too old: frame 3 is in no fragment. -/
theorem delivered_in_order_incomplete :
    FullyRequested threeFrames [⟨1, []⟩, ⟨2, []⟩, ⟨3, []⟩] ⟨1, []⟩ ⟨3, []⟩ [1, 2, 3]
        [.request (requestFor 1 2), .cleanup, .request (requestFor 2 3)] ∧
      ∃ s, exec serve (threeFrames, [])
          [.request (requestFor 1 2), .cleanup, .request (requestFor 2 3)] = some s ∧
        delivered s = [⟨1, []⟩, ⟨2, []⟩] ∧
        ¬ (delivered s).Perm [⟨1, []⟩, ⟨2, []⟩, ⟨3, []⟩] :=
  ⟨fullyRequested_threeFrames (by decide), _, (Option.some_get (by decide)).symm, by decide,
    by decide⟩

end Readout
end SNBModules
