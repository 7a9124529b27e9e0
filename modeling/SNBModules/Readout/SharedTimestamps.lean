import SNBModules.Readout.Completeness

/-!
# Frames that share a timestamp

Source: `SNBRequestHandlerModel.hxx`, `get_fragment_pieces` and `cleanup`, with
`process_item` of `SNBDataHandlingModel.hxx`, which rejects no timestamp.

The pop list knows a frame by its timestamp.  Of the buffered frames that share one,
a timestamp in it stands for the first: that one is in a fragment, and the others are
skipped as already included (`marked`, `Included`).  When `cleanup` has popped the
first, the timestamp is erased and the next frame is the first.  So a frame gets out
with a request that is served when no older frame of its timestamp is buffered any
more, and with no other (`cleanup_progress_iff`).
-/

namespace SNBModules
namespace Readout

open Lib

/-! ### What a pop list stands for -/

/-- The frames that a pop list stands for: of the frames with a timestamp in it, the
first. -/
def marked : Finset ℕ → List Frame → List Frame
  | _, [] => []
  | popList, f :: rest =>
      if f.timestamp ∈ popList then f :: marked (popList.erase f.timestamp) rest
      else marked popList rest

theorem marked_sublist (popList : Finset ℕ) (frames : List Frame) :
    (marked popList frames).Sublist frames := by
  induction frames generalizing popList with
  | nil => exact List.Sublist.refl _
  | cons f rest ih =>
      rw [marked]
      split_ifs
      · exact (ih _).cons_cons f
      · exact (ih _).cons f

theorem marked_empty (frames : List Frame) : marked ∅ frames = [] := by
  induction frames with
  | nil => rfl
  | cons f rest ih => simp [marked, ih]

/-- A pop list stands for all frames when it has all timestamps, and no two frames
share one. -/
theorem marked_eq_self_iff {popList : Finset ℕ} {frames : List Frame} :
    marked popList frames = frames ↔
      (∀ f ∈ frames, f.timestamp ∈ popList) ∧ (frames.map Frame.timestamp).Nodup := by
  induction frames generalizing popList with
  | nil => simp [marked]
  | cons f rest ih =>
      rw [marked, List.forall_mem_cons, List.map_cons, List.nodup_cons]
      split_ifs with hf
      · rw [List.cons.injEq, ih]
        constructor
        · rintro ⟨-, hall, hnodup⟩
          refine ⟨⟨hf, fun g hg => Finset.mem_of_mem_erase (hall g hg)⟩, fun hmem => ?_, hnodup⟩
          obtain ⟨g, hg, hts⟩ := List.mem_map.1 hmem
          exact Finset.ne_of_mem_erase (hall g hg) hts
        · rintro ⟨⟨-, hall⟩, hnew, hnodup⟩
          refine ⟨rfl, fun g hg => Finset.mem_erase.2 ⟨fun hts => ?_, hall g hg⟩, hnodup⟩
          exact hnew (hts ▸ List.mem_map_of_mem hg)
      · constructor
        · intro heq
          have hlen := (marked_sublist popList rest).length_le
          rw [heq, List.length_cons] at hlen
          omega
        · exact fun h => absurd h.1.1 hf

/-- **A new timestamp stands for the first frame that has it.** -/
theorem marked_insert {popList : Finset ℕ} {before rest : List Frame} {f : Frame}
    (hnew : f.timestamp ∉ popList) (hfirst : ∀ g ∈ before, g.timestamp ≠ f.timestamp) :
    (marked (insert f.timestamp popList) (before ++ f :: rest)).Perm
      (f :: marked popList (before ++ f :: rest)) := by
  induction before generalizing popList with
  | nil =>
      rw [List.nil_append, marked, if_pos (Finset.mem_insert_self _ _), marked, if_neg hnew,
        Finset.erase_insert hnew]
  | cons g before ih =>
      obtain ⟨hg, hbefore⟩ := List.forall_mem_cons.1 hfirst
      rw [List.cons_append, marked, marked]
      by_cases hmem : g.timestamp ∈ popList
      · rw [if_pos (Finset.mem_insert_of_mem hmem), if_pos hmem,
          Finset.erase_insert_of_ne (Ne.symm hg)]
        have hnew' : f.timestamp ∉ popList.erase g.timestamp :=
          fun h => hnew (Finset.mem_of_mem_erase h)
        exact ((ih hnew' hbefore).cons g).trans (List.Perm.swap _ _ _)
      · rw [if_neg (by simp [hg, hmem]), if_neg hmem]
        exact ih hnew hbefore

/-- **The collecting loop takes what its pop list comes to stand for,** when no frame
of the window was left out before it; `gone` are frames that were popped. -/
theorem collectLoop_marked (startWinTs endWinTs : ℕ) {gone others before suffix : List Frame}
    {acc : List Frame × Finset ℕ}
    (hbefore : ∀ g ∈ before, g.timestamp ∈ acc.2 ∨ g.timestamp < startWinTs)
    (hacc : (others ++ acc.1).Perm (gone ++ marked acc.2 (before ++ suffix))) :
    (others ++ (collectLoop startWinTs endWinTs suffix acc).1).Perm
      (gone ++ marked (collectLoop startWinTs endWinTs suffix acc).2 (before ++ suffix)) := by
  induction suffix generalizing before acc with
  | nil => exact hacc
  | cons e rest ih =>
      rw [collectLoop]
      split_ifs with hend
      · have hsplit : before ++ e :: rest = (before ++ [e]) ++ rest := by simp
        rcases collectElement_cases startWinTs e acc with ⟨hnew, hstart, heq⟩ | ⟨hskip, heq⟩
        · have hfirst : ∀ g ∈ before, g.timestamp ≠ e.timestamp := by
            intro g hg hts
            rcases hbefore g hg with hold | hlow
            · exact hnew (hts ▸ hold)
            · omega
          rw [heq, hsplit]
          refine ih (fun g hg => ?_) ?_
          · rcases List.mem_append.1 hg with hg | hg
            · exact (hbefore g hg).imp_left Finset.mem_insert_of_mem
            · rw [List.mem_singleton.1 hg]
              exact Or.inl (Finset.mem_insert_self _ _)
          · have hpieces : (others ++ (acc.1 ++ [e])).Perm (e :: (others ++ acc.1)) := by
              rw [← List.append_assoc]
              exact List.perm_append_singleton e _
            have hmark : (marked (insert e.timestamp acc.2) (before ++ e :: rest)).Perm
                (e :: marked acc.2 (before ++ e :: rest)) := marked_insert hnew hfirst
            have hmarks := hmark.append_left gone
            rw [← hsplit]
            exact hpieces.trans ((hacc.cons e).trans (List.perm_middle.symm.trans hmarks.symm))
        · rw [heq, hsplit]
          refine ih (fun g hg => ?_) (hsplit ▸ hacc)
          rcases List.mem_append.1 hg with hg | hg
          · exact hbefore g hg
          · rw [List.mem_singleton.1 hg]
            exact hskip
      · exact hacc

/-! ### Which frames are out -/

/-- The frame at the place `j` is out, when `k` frames are popped: it is one of them,
or it is the first of its timestamp that is buffered, and that is in the pop list. -/
def Out (stream : List Frame) (k : ℕ) (popList : Finset ℕ) (j : ℕ) : Prop :=
  j < k ∨ ∃ f, stream[j]? = some f ∧ f.timestamp ∈ popList ∧
    ∀ i g, k ≤ i → i < j → stream[i]? = some g → g.timestamp ≠ f.timestamp

variable {stream : List Frame} {k : ℕ} {popList : Finset ℕ}

/-- **A pop puts no frame out and takes none back.** -/
theorem out_pop {front : Frame} (hfront : stream[k]? = some front)
    (hmem : front.timestamp ∈ popList) (j : ℕ) :
    Out stream (k + 1) (popList.erase front.timestamp) j ↔ Out stream k popList j := by
  rcases Nat.lt_trichotomy j k with hlt | rfl | hgt
  · exact ⟨fun _ => Or.inl hlt, fun _ => Or.inl (by omega)⟩
  · refine ⟨fun _ => Or.inr ⟨front, hfront, hmem, ?_⟩, fun _ => Or.inl (by omega)⟩
    intro i g hle hlt
    omega
  · constructor
    · rintro (hlt | ⟨f, hf, hts, hfirst⟩)
      · omega
      · obtain ⟨hne, hts⟩ := Finset.mem_erase.1 hts
        refine Or.inr ⟨f, hf, hts, fun i g hle hlt hg => ?_⟩
        rcases hle.eq_or_lt with rfl | hle
        · obtain rfl := Option.some.inj (hfront.symm.trans hg)
          exact hne.symm
        · exact hfirst i g hle hlt hg
    · rintro (hlt | ⟨f, hf, hts, hfirst⟩)
      · omega
      · have hne := hfirst k front (Nat.le_refl k) hgt hfront
        exact Or.inr ⟨f, hf, Finset.mem_erase.2 ⟨hne.symm, hts⟩,
          fun i g hle hlt => hfirst i g (by omega) hlt⟩

/-- All frames are out when the pop list stands for all that are buffered. -/
theorem forall_out_iff :
    (∀ j < stream.length, Out stream k popList j) ↔
      marked popList (stream.drop k) = stream.drop k := by
  rw [marked_eq_self_iff]
  constructor
  · intro h
    have hbuf : ∀ i (hi : i < (stream.drop k).length), ∃ f, (stream.drop k)[i]? = some f ∧
        f.timestamp ∈ popList ∧ ∀ i' g, i' < i → (stream.drop k)[i']? = some g →
          g.timestamp ≠ f.timestamp := by
      intro i hi
      rw [List.length_drop] at hi
      obtain hlt | ⟨f, hf, hts, hfirst⟩ := h (k + i) (by omega)
      · omega
      · refine ⟨f, by rw [List.getElem?_drop, hf], hts, fun i' g hlt hg => ?_⟩
        rw [List.getElem?_drop] at hg
        exact hfirst (k + i') g (by omega) (by omega) hg
    constructor
    · intro f hf
      obtain ⟨i, hi⟩ := List.mem_iff_getElem?.1 hf
      obtain ⟨f', hf', hts, -⟩ := hbuf i (List.getElem?_eq_some_iff.1 hi).1
      obtain rfl := Option.some.inj (hi.symm.trans hf')
      exact hts
    · rw [List.Nodup, List.pairwise_map, List.pairwise_iff_getElem]
      intro i i' hi hi' hlt heq
      obtain ⟨f, hf, -, hfirst⟩ := hbuf i' hi'
      have hfirst := hfirst i _ hlt (List.getElem?_eq_getElem hi)
      rw [List.getElem?_eq_getElem hi'] at hf
      exact hfirst (heq.trans (congrArg Frame.timestamp (Option.some.inj hf)))
  · rintro ⟨hall, hnodup⟩ j hj
    by_cases hlt : j < k
    · exact Or.inl hlt
    · rw [List.Nodup, List.pairwise_map, List.pairwise_iff_getElem] at hnodup
      have hget : ∀ i, k ≤ i → (hi : i < stream.length) →
          ∃ hi' : i - k < (stream.drop k).length, (stream.drop k)[i - k] = stream[i] := by
        intro i hki hi
        refine ⟨by rw [List.length_drop]; omega, ?_⟩
        simp only [List.getElem_drop]
        congr 1
        omega
      obtain ⟨hj', hjeq⟩ := hget j (by omega) hj
      refine Or.inr ⟨stream[j], List.getElem?_eq_getElem hj, ?_, fun i g hle hij hg hts => ?_⟩
      · exact hall _ (hjeq ▸ List.getElem_mem hj')
      · obtain ⟨hi, rfl⟩ := List.getElem?_eq_some_iff.1 hg
        obtain ⟨hi', hieq⟩ := hget i hle hi
        exact hnodup (i - k) (j - k) hi' hj' (by omega) (by rw [hieq, hjeq]; exact hts)

/-! ### Services -/

/-- How many frames of the stream have been popped. -/
def popped (stream : List Frame) (s : RequestHandler × List Fragment) : ℕ :=
  stream.length - s.1.latencyBuffer.occupancy

/-- The buffer holds what is left of the stream after `k` pops, and in the fragments are
the frames that were popped and those that the pop list stands for. -/
structure Included (stream : List Frame) (s : RequestHandler × List Fragment) (k : ℕ) : Prop where
  le : k ≤ stream.length
  frames : s.1.latencyBuffer.frames = stream.drop k
  delivered : (delivered s).Perm (stream.take k ++ marked s.1.popList (stream.drop k))

variable {s s' : RequestHandler × List Fragment}

theorem Included.popped_eq (h : Included stream s k) : popped stream s = k := by
  have hle := h.le
  rw [popped, LatencyBuffer.occupancy, h.frames, List.length_drop]
  omega

/-- The stream is in the fragments exactly when all its frames are out. -/
theorem Included.perm_iff (h : Included stream s k) :
    (Readout.delivered s).Perm stream ↔ ∀ j < stream.length, Out stream k s.1.popList j := by
  rw [forall_out_iff]
  constructor
  · intro hperm
    have hall := h.delivered.symm.trans hperm
    have hlen := hall.length_eq
    rw [List.length_append, List.length_take, Nat.min_eq_left h.le] at hlen
    refine (marked_sublist _ _).eq_of_length ?_
    rw [List.length_drop]
    omega
  · intro heq
    have hall := h.delivered
    rwa [heq, List.take_append_drop] at hall

/-- **A request** pops nothing, and adds to the pop list timestamps of its window. -/
theorem Included.request (h : Included stream s k) {dr : DataRequest}
    (hs : serve s (.request dr) = some s') :
    Included stream s' k ∧ s.1.popList ⊆ s'.1.popList ∧
      ∀ ts ∈ s'.1.popList, ts ∉ s.1.popList → dr.window.1 ≤ ts ∧ ts ≤ dr.window.2 := by
  obtain ⟨result, hr, hdel⟩ := serve_request hs
  rcases dataRequest_cases hr with ⟨-, hfrag, hh⟩ | ⟨rc, acc, -, -, hacc, hfrag, hh⟩
  · have hframes : s'.1.latencyBuffer.frames = stream.drop k := by rw [hh]; exact h.frames
    have hpop : s'.1.popList = s.1.popList := by rw [hh]
    have hnone : Readout.delivered s' = Readout.delivered s := by simp [hdel, hfrag]
    rw [hpop]
    refine ⟨⟨h.le, hframes, ?_⟩, Finset.Subset.refl _, fun ts hts hn => absurd hts hn⟩
    rw [hnone, hpop]
    exact h.delivered
  · have hframes : s'.1.latencyBuffer.frames = stream.drop k := by rw [hh]; exact h.frames
    have hpop : s'.1.popList = acc.2 := by rw [hh]
    have hpieces : Readout.delivered s' = Readout.delivered s ++ acc.1 := by
      rw [hdel, hfrag]
      rfl
    rw [hpop]
    rcases hacc with ⟨-, rfl⟩ | ⟨-, hloop⟩
    · refine ⟨⟨h.le, hframes, ?_⟩, Finset.Subset.refl _, fun ts hts hn => absurd hts hn⟩
      rw [hpieces, hpop, List.append_nil]
      exact h.delivered
    · obtain ⟨taken, -, hwin, heq⟩ := collectLoop_spec dr.window.1 dr.window.2
        s.1.latencyBuffer.frames ([], s.1.popList)
      have hlist : acc.2 = s.1.popList ∪ (taken.map Frame.timestamp).toFinset := by
        rw [hloop]
        exact congrArg Prod.snd heq
      refine ⟨⟨h.le, hframes, ?_⟩, hlist ▸ Finset.subset_union_left, fun ts hts hn => ?_⟩
      · have hstart : (Readout.delivered s ++ []).Perm
            (stream.take k ++ marked s.1.popList ([] ++ stream.drop k)) := by
          rw [List.append_nil]
          exact h.delivered
        rw [hpieces, hpop, hloop, h.frames]
        exact collectLoop_marked dr.window.1 dr.window.2
          (fun g hg => absurd hg List.not_mem_nil) hstart
      · rw [hlist, Finset.mem_union, List.mem_toFinset, List.mem_map] at hts
        obtain ⟨f, hf, rfl⟩ := hts.resolve_left hn
        exact ⟨(hwin f hf).1, (hwin f hf).2.1⟩

/-- The popping loop pops frames that are out, and puts none out. -/
theorem cleanupLoop_included {frames claims : List Frame} (hle : k ≤ stream.length)
    (hframes : frames = stream.drop k)
    (hclaims : claims.Perm (stream.take k ++ marked popList frames)) :
    ∃ k' ≤ stream.length, (cleanupLoop frames popList).1 = stream.drop k' ∧
      claims.Perm (stream.take k' ++ marked (cleanupLoop frames popList).2 (stream.drop k')) ∧
      ∀ j, Out stream k' (cleanupLoop frames popList).2 j ↔ Out stream k popList j := by
  induction frames, popList using cleanupLoop.induct generalizing k with
  | case1 front next rest =>
      rw [cleanupLoop_empty]
      exact ⟨k, hle, hframes, hframes ▸ hclaims, fun j => Iff.rfl⟩
  | case2 front next rest popList hne hmem ih =>
      have hfront : stream[k]? = some front := by
        rw [← Nat.add_zero k, ← List.getElem?_drop, ← hframes, List.getElem?_cons_zero]
      have hlt := (List.getElem?_eq_some_iff.1 hfront).1
      have hrest : next :: rest = stream.drop (k + 1) := by
        rw [← List.drop_drop, ← hframes, List.drop_one, List.tail_cons]
      have hnext : claims.Perm (stream.take (k + 1) ++
          marked (popList.erase front.timestamp) (next :: rest)) := by
        rw [List.take_add_one, hfront, List.append_assoc]
        rwa [marked, if_pos hmem] at hclaims
      obtain ⟨k', hk', hframes', hclaims', hout⟩ := ih hlt hrest hnext
      rw [cleanupLoop, if_neg hne, if_pos hmem]
      exact ⟨k', hk', hframes', hclaims', fun j => (hout j).trans (out_pop hfront hmem j)⟩
  | case3 front next rest popList hne hmem =>
      rw [cleanupLoop, if_neg hne, if_neg hmem]
      exact ⟨k, hle, hframes, hframes ▸ hclaims, fun j => Iff.rfl⟩
  | case4 frames popList hshort =>
      have hsame : cleanupLoop frames popList = (frames, popList) := by
        rcases frames with _ | ⟨f, _ | ⟨g, rest⟩⟩
        · rfl
        · rfl
        · exact absurd rfl (hshort f g rest)
      rw [hsame]
      exact ⟨k, hle, hframes, hframes ▸ hclaims, fun j => Iff.rfl⟩

/-- **A cleanup** puts no frame out and takes none back. -/
theorem Included.cleanup (h : Included stream s k) (hs : serve s .cleanup = some s') :
    ∃ k', Included stream s' k' ∧
      ∀ j, Out stream k' s'.1.popList j ↔ Out stream k s.1.popList j := by
  obtain ⟨hc, hdel⟩ := serve_cleanup hs
  obtain ⟨hf, hp⟩ := cleanup_eq_some hc
  obtain ⟨k', hk', hframes, hclaims, hout⟩ :=
    cleanupLoop_included h.le h.frames (h.frames ▸ h.delivered)
  rw [← hf] at hframes
  rw [← hp, ← hdel] at hclaims
  rw [← hp] at hout
  exact ⟨k', ⟨hk', hframes, hclaims⟩, hout⟩

/-! ### Schedules -/

/-- The frame at the place `j` of the stream is out. -/
def IsOut (stream : List Frame) (s : RequestHandler × List Fragment) (j : ℕ) : Prop :=
  Out stream (popped stream s) s.1.popList j

/-- A request is answered `kFound`. -/
def AnswersFound (s : RequestHandler × List Fragment) : Service → Prop
  | .request dr => windowResult s.1.latencyBuffer dr.window.1 dr.window.2 = some .kFound
  | .cleanup => True

instance (s : RequestHandler × List Fragment) : ∀ a, Decidable (AnswersFound s a)
  | .request dr => inferInstanceAs (Decidable
      (windowResult s.1.latencyBuffer dr.window.1 dr.window.2 = some .kFound))
  | .cleanup => inferInstanceAs (Decidable True)

/-- The stream is buffered in timestamp order and nothing of it is included yet; every
request of the schedule is answered `kFound`, and their windows cover every frame. -/
structure AnsweredFound (h : RequestHandler) (stream : List Frame) (schedule : List Service) :
    Prop where
  buffered : h.latencyBuffer.frames = stream
  not_included : h.popList = ∅
  sorted : stream.Pairwise fun f g => f.timestamp ≤ g.timestamp
  found : Guarded serve AnswersFound (h, []) schedule
  covered : ∀ f ∈ stream, ∃ dr, .request dr ∈ schedule ∧ dr.window.1 ≤ f.timestamp ∧
    f.timestamp ≤ dr.window.2

/-- Every frame is in a window that is served when no older frame of its timestamp is
buffered any more. -/
def ServedAsFirst (h : RequestHandler) (stream : List Frame) (schedule : List Service) : Prop :=
  ∀ j f, stream[j]? = some f → ∃ pre dr post t, schedule = pre ++ .request dr :: post ∧
    exec serve (h, []) pre = some t ∧ dr.window.1 ≤ f.timestamp ∧ f.timestamp ≤ dr.window.2 ∧
    ∀ i g, i < j → stream[i]? = some g → g.timestamp = f.timestamp → i < popped stream t

/-- Every frame is in a fragment, and repeated cleanups leave a single frame. -/
structure Progress (stream : List Frame) (s : RequestHandler × List Fragment) : Prop where
  delivered : (delivered s).Perm stream
  drains : ∃ n, ∀ m ≥ n, ∃ s', exec serve s (List.replicate m .cleanup) = some s' ∧
    s'.1.latencyBuffer.occupancy = 1

/-- The buffer holds one frame, and a service leaves it there. -/
theorem serve_of_single (s : RequestHandler × List Fragment) (a : Service)
    (hone : s.1.latencyBuffer.occupancy = 1) :
    ∃ t, serve s a = some t ∧ t.1.latencyBuffer.occupancy = 1 := by
  cases a with
  | request dr =>
      obtain ⟨⟨result, h'⟩, hr⟩ := Option.isSome_iff_exists.1 (dataRequest_isSome s.1 dr)
      refine ⟨_, by rw [serve, hr]; rfl, ?_⟩
      rcases dataRequest_cases hr with ⟨-, -, hh⟩ | ⟨rc, acc, -, -, -, -, hh⟩ <;>
        rw [hh] <;> exact hone
  | cleanup =>
      obtain ⟨f, hf⟩ := List.length_eq_one_iff.1 hone
      obtain ⟨h', hc⟩ := Option.isSome_iff_exists.1 ((cleanup_isSome s.1).2 (by simp [hf]))
      refine ⟨(h', s.2), by rw [serve, hc]; rfl, ?_⟩
      rw [LatencyBuffer.occupancy, (cleanup_eq_some hc).1, hf]
      rfl

/-- A pop list that has every timestamp, none of them shared, lets the popping loop go
down to one frame. -/
theorem cleanupLoop_single {frames : List Frame} {popList : Finset ℕ} (hne : frames ≠ [])
    (hall : marked popList frames = frames) : (cleanupLoop frames popList).1.length = 1 := by
  induction frames, popList using cleanupLoop.induct with
  | case1 front next rest =>
      rw [marked_empty] at hall
      cases hall
  | case2 front next rest popList hpop hmem ih =>
      rw [cleanupLoop, if_neg hpop, if_pos hmem]
      rw [marked, if_pos hmem] at hall
      exact ih (List.cons_ne_nil _ _) (List.cons.inj hall).2
  | case3 front next rest popList hpop hmem =>
      exact absurd ((marked_eq_self_iff.1 hall).1 front List.mem_cons_self) hmem
  | case4 frames popList hshort =>
      rcases frames with _ | ⟨f, _ | ⟨g, rest⟩⟩
      · exact absurd rfl hne
      · rfl
      · exact absurd rfl (hshort f g rest)

/-- **When all frames are out, cleanups leave one of them.** -/
theorem Included.progress (h : Included stream s k)
    (hout : ∀ j < stream.length, Out stream k s.1.popList j)
    (hbuf : s.1.latencyBuffer.frames ≠ []) : Progress stream s := by
  refine ⟨h.perm_iff.2 hout, 1, fun m hm => ?_⟩
  have hall := forall_out_iff.1 hout
  obtain ⟨h', hc⟩ := Option.isSome_iff_exists.1 ((cleanup_isSome s.1).2 hbuf)
  have hone : h'.latencyBuffer.occupancy = 1 := by
    rw [LatencyBuffer.occupancy, (cleanup_eq_some hc).1, h.frames]
    exact cleanupLoop_single (h.frames ▸ hbuf) hall
  obtain ⟨m, rfl⟩ := Nat.exists_eq_add_of_le' hm
  obtain ⟨u, hu, hone'⟩ := exec_isSome (I := fun s => s.1.latencyBuffer.occupancy = 1)
    serve_of_single (s := (h', s.2)) hone (List.replicate m .cleanup)
  refine ⟨u, ?_, hone'⟩
  rw [List.replicate_succ, exec_cons_eq_some]
  exact ⟨(h', s.2), by rw [serve, hc]; rfl, hu⟩

/-! ### Runs -/

/-- A service of a buffer that holds something is possible, and leaves something. -/
theorem serve_of_ne_nil (s : RequestHandler × List Fragment) (a : Service)
    (hne : s.1.latencyBuffer.frames ≠ []) :
    ∃ t, serve s a = some t ∧ t.1.latencyBuffer.frames ≠ [] := by
  cases a with
  | request dr =>
      obtain ⟨⟨result, h'⟩, hr⟩ := Option.isSome_iff_exists.1 (dataRequest_isSome s.1 dr)
      refine ⟨_, by rw [serve, hr]; rfl, ?_⟩
      rcases dataRequest_cases hr with ⟨-, -, hh⟩ | ⟨rc, acc, -, -, -, -, hh⟩ <;>
        rw [hh] <;> exact hne
  | cleanup =>
      obtain ⟨h', hc⟩ := Option.isSome_iff_exists.1 ((cleanup_isSome s.1).2 hne)
      refine ⟨(h', s.2), by rw [serve, hc]; rfl, ?_⟩
      rw [(cleanup_eq_some hc).1]
      exact cleanupLoop_ne_nil _ hne

/-- Some number of frames is popped. -/
theorem included_serve {a : Service} (h : ∃ k, Included stream s k) (hs : serve s a = some s') :
    ∃ k, Included stream s' k := by
  obtain ⟨k, h⟩ := h
  cases a with
  | request dr => exact ⟨k, (h.request hs).1⟩
  | cleanup =>
      obtain ⟨k', h', -⟩ := h.cleanup hs
      exact ⟨k', h'⟩

/-- **What one service puts out:** a frame that was not out before is out after a request
whose window it is in, when no older frame of its timestamp is buffered. -/
theorem isOut_serve {a : Service} (h : ∃ k, Included stream s k) (hs : serve s a = some s')
    (j : ℕ) :
    (IsOut stream s j → IsOut stream s' j) ∧
    (IsOut stream s' j → ¬ IsOut stream s j → ∃ dr f, a = .request dr ∧ stream[j]? = some f ∧
      dr.window.1 ≤ f.timestamp ∧ f.timestamp ≤ dr.window.2 ∧
      ∀ i g, i < j → stream[i]? = some g → g.timestamp = f.timestamp → i < popped stream s) := by
  obtain ⟨k, h⟩ := h
  cases a with
  | request dr =>
      obtain ⟨h', hsub, hnew⟩ := h.request hs
      rw [IsOut, IsOut, h.popped_eq, h'.popped_eq]
      constructor
      · rintro (hlt | ⟨f, hf, hts, hfirst⟩)
        · exact Or.inl hlt
        · exact Or.inr ⟨f, hf, hsub hts, hfirst⟩
      · rintro (hlt | ⟨f, hf, hts, hfirst⟩) hnot
        · exact absurd (Or.inl hlt) hnot
        · have hold : f.timestamp ∉ s.1.popList := fun hold =>
            hnot (Or.inr ⟨f, hf, hold, hfirst⟩)
          obtain ⟨hbegin, hend⟩ := hnew f.timestamp hts hold
          refine ⟨dr, f, rfl, hf, hbegin, hend, fun i g hlt hg heq => ?_⟩
          by_contra hle
          exact hfirst i g (Nat.le_of_not_lt hle) hlt hg heq
  | cleanup =>
      obtain ⟨k', h', hout⟩ := h.cleanup hs
      rw [IsOut, IsOut, h.popped_eq, h'.popped_eq]
      exact ⟨(hout j).2, fun hyes hnot => absurd ((hout j).1 hyes) hnot⟩

/-- **A request that is answered `kFound` puts a frame out,** when the frame is in its
window and no older frame of its timestamp is buffered. -/
theorem isOut_of_request (h : ∃ k, Included stream s k)
    (hsorted : stream.Pairwise fun f g => f.timestamp ≤ g.timestamp) {dr : DataRequest}
    (hs : serve s (.request dr) = some s')
    (hfound : windowResult s.1.latencyBuffer dr.window.1 dr.window.2 = some .kFound) {j : ℕ}
    {f : Frame} (hf : stream[j]? = some f) (hbegin : dr.window.1 ≤ f.timestamp)
    (hend : f.timestamp ≤ dr.window.2)
    (hfirst : ∀ i g, i < j → stream[i]? = some g → g.timestamp = f.timestamp →
      i < popped stream s) : IsOut stream s' j := by
  obtain ⟨k, h⟩ := h
  obtain ⟨h', -⟩ := h.request hs
  rw [IsOut, h'.popped_eq]
  rw [h.popped_eq] at hfirst
  by_cases hlt : j < k
  · exact Or.inl hlt
  · have hmem : f ∈ s.1.latencyBuffer.frames := by
      rw [h.frames]
      refine List.mem_of_getElem? (i := j - k) ?_
      rw [List.getElem?_drop, Nat.add_sub_cancel' (Nat.le_of_not_lt hlt), hf]
    refine Or.inr ⟨f, hf, ?_, fun i g hle hij hg heq => ?_⟩
    · obtain ⟨result, hr, -⟩ := serve_request hs
      have hsorted' : s.1.latencyBuffer.frames.Pairwise fun f g => f.timestamp ≤ g.timestamp :=
        h.frames ▸ hsorted.sublist (List.drop_sublist _ _)
      rcases dataRequest_cases hr with ⟨hempty, -⟩ | ⟨rc, acc, -, hrc, hacc, -, hh⟩
      · exact absurd (List.eq_nil_of_length_eq_zero hempty) (List.ne_nil_of_mem hmem)
      · obtain rfl : rc = .kFound := Option.some.inj (hrc.symm.trans hfound)
        obtain ⟨-, rfl⟩ := hacc.resolve_left fun hn => hn.1 rfl
        rw [hh]
        exact collectLoop_covers _ _ hsorted' _ hmem hbegin hend
    · exact absurd (hfirst i g hij hg heq) (Nat.not_lt.2 hle)

/-- Nothing is out at the start. -/
theorem included_start {h : RequestHandler} (hbuf : h.latencyBuffer.frames = stream)
    (hpop : h.popList = ∅) : Included stream (h, []) 0 where
  le := Nat.zero_le _
  frames := hbuf
  delivered := by
    rw [hpop, marked_empty]
    exact List.Perm.refl _

/-- **Exactly when cleanup makes progress.**  For a buffered stream in timestamp order,
and requests that are answered `kFound` and cover it, with cleanups anywhere: every
frame is in a fragment and repeated cleanups leave a single frame if and only if the
buffer held something and every frame is in a window that is served when no older
frame of its timestamp is buffered any more. -/
theorem cleanup_progress_iff {h : RequestHandler} {stream : List Frame} {schedule : List Service}
    (r : AnsweredFound h stream schedule) {s : RequestHandler × List Fragment}
    (hrun : exec serve (h, []) schedule = some s) :
    Progress stream s ↔ stream ≠ [] ∧ ServedAsFirst h stream schedule := by
  have hstart := included_start r.buffered r.not_included
  have hinv : ∀ {l t}, exec serve (h, []) l = some t → ∃ k, Included stream t k := fun ht =>
    exec_invariant (fun _ _ _ hk hs => included_serve hk hs) ⟨0, hstart⟩ ht
  obtain ⟨k, hs⟩ := hinv hrun
  have hnone : ∀ j, ¬ IsOut stream (h, []) j := by
    rintro j (hlt | ⟨f, -, hts, -⟩)
    · rw [hstart.popped_eq] at hlt
      omega
    · simp [r.not_included] at hts
  constructor
  · rintro ⟨hperm, n, hdrain⟩
    constructor
    · rintro rfl
      -- an empty buffer does not get a frame
      obtain ⟨s', hs', hone⟩ := hdrain n (Nat.le_refl n)
      obtain ⟨k', hs''⟩ : ∃ k, Included [] s' k :=
        exec_invariant (fun _ _ _ hk hs => included_serve hk hs) ⟨k, hs⟩ hs'
      rw [LatencyBuffer.occupancy, hs''.frames, List.drop_nil] at hone
      cases hone
    · intro j f hf
      have hj := (List.getElem?_eq_some_iff.1 hf).1
      have hout : IsOut stream s j := by
        rw [IsOut, hs.popped_eq]
        exact hs.perm_iff.1 hperm j hj
      obtain ⟨pre, a, post, t, t', rfl, hpre, hstep, hbefore, hafter⟩ :=
        exists_step_of_change (P := fun s => IsOut stream s j) hrun (hnone j) hout
      obtain ⟨dr, f', rfl, hf', hwin⟩ := (isOut_serve (hinv hpre) hstep j).2 hafter hbefore
      obtain rfl := Option.some.inj (hf.symm.trans hf')
      exact ⟨pre, dr, post, t, rfl, hpre, hwin⟩
  · rintro ⟨hne, hfirst⟩
    refine hs.progress (fun j hj => ?_) ?_
    · obtain ⟨pre, dr, post, t, rfl, hpre, hbegin, hend, holder⟩ :=
        hfirst j _ (List.getElem?_eq_getElem hj)
      rw [exec_append, hpre, Option.bind_some] at hrun
      obtain ⟨t', hstep, hpost⟩ := exec_cons_eq_some.1 hrun
      have hout := isOut_of_request (hinv hpre) r.sorted hstep (r.found.mid hpre)
        (List.getElem?_eq_getElem hj) hbegin hend holder
      have hlater := exec_invariant (I := fun s => (∃ k, Included stream s k) ∧ IsOut stream s j)
        (fun u a v hu huv => ⟨included_serve hu.1 huv, (isOut_serve hu.1 huv j).1 hu.2⟩)
        ⟨included_serve (hinv hpre) hstep, hout⟩ hpost
      have hend := hlater.2
      rwa [IsOut, hs.popped_eq] at hend
    · obtain ⟨u, hu, hbuf⟩ := exec_isSome serve_of_ne_nil (s := (h, []))
        (r.buffered ▸ hne) schedule
      obtain rfl := Option.some.inj (hu.symm.trans hrun)
      exact hbuf

/-- A handler that buffers three frames, of which the first two share a timestamp. -/
def twinFrames : RequestHandler :=
  { RequestHandler.new 8 ⟨0, 0⟩ 0 0 with latencyBuffer := ⟨8, [⟨1, [1]⟩, ⟨1, [2]⟩, ⟨2, []⟩]⟩ }

/-- A cleanup between two requests for the shared timestamp lets both frames out. -/
theorem cleanup_progress_iff_twice :
    ∃ s, exec serve (twinFrames, [])
        [.request (requestFor 1 2), .cleanup, .request (requestFor 1 2)] = some s ∧
      Progress [⟨1, [1]⟩, ⟨1, [2]⟩, ⟨2, []⟩] s := by
  have hfound : AnsweredFound twinFrames [⟨1, [1]⟩, ⟨1, [2]⟩, ⟨2, []⟩]
      [.request (requestFor 1 2), .cleanup, .request (requestFor 1 2)] :=
    ⟨rfl, rfl, by decide, by decide, by simp [requestFor, DataRequest.window]⟩
  refine ⟨_, (Option.some_get (by decide)).symm,
    (cleanup_progress_iff hfound (Option.some_get (by decide)).symm).2 ⟨by decide, ?_⟩⟩
  intro j f hf
  rcases j with _ | _ | _ | j
  · obtain rfl := Option.some.inj hf
    exact ⟨[], _, _, _, rfl, rfl, by decide, by decide, fun i g hi => absurd hi (Nat.not_lt_zero i)⟩
  · obtain rfl := Option.some.inj hf
    refine ⟨[.request (requestFor 1 2), .cleanup], _, _, _, rfl,
      (Option.some_get (by decide)).symm, by decide, by decide, fun i g hi _ _ => ?_⟩
    obtain rfl : i = 0 := by omega
    decide
  · obtain rfl := Option.some.inj hf
    refine ⟨[], _, _, _, rfl, rfl, by decide, by decide, fun i g hi hg hts => ?_⟩
    rcases i with _ | _ | i
    · obtain rfl := Option.some.inj hg
      cases hts
    · obtain rfl := Option.some.inj hg
      cases hts
    · omega
  · simp at hf

/-- **A frame that shares its timestamp with an older one blocks the buffer:** the window
of all three frames is answered `kFound`, the second frame is in no fragment, and
cleanup stops in front of it. -/
theorem twin_blocks_cleanup :
    AnsweredFound twinFrames [⟨1, [1]⟩, ⟨1, [2]⟩, ⟨2, []⟩] [.request (requestFor 1 2)] ∧
      ∃ s, exec serve (twinFrames, []) [.request (requestFor 1 2)] = some s ∧
        delivered s = [⟨1, [1]⟩, ⟨2, []⟩] ∧
        (exec serve s [.cleanup, .cleanup, .cleanup]).map
          (fun t => (t.1.latencyBuffer.frames, t.1.popList)) = some ([⟨1, [2]⟩, ⟨2, []⟩], {2}) ∧
        ¬ Progress [⟨1, [1]⟩, ⟨1, [2]⟩, ⟨2, []⟩] s := by
  refine ⟨⟨rfl, rfl, by decide, by decide, by simp [requestFor, DataRequest.window]⟩, _,
    (Option.some_get (by decide)).symm, by decide, by decide, fun h => ?_⟩
  exact absurd h.delivered (by decide)

end Readout
end SNBModules
