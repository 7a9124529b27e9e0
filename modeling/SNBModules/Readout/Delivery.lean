import SNBModules.Lib.OnceStore
import SNBModules.Readout.RequestHandler

/-!
# Buffer, pop list and fragments as one store

`m_latency_buffer` belongs to the data handling model and `m_pop_list` to the
request handler; together with the pieces put into fragments they implement a
`Lib.OnceStore` of frames.  `Delivers` is the refinement relation: the buffer
holds what the store holds, the pieces are what was claimed, a buffered frame is
recorded in the pop list exactly when it was claimed, and the pop list has
nothing but timestamps of buffered frames.

The relation needs distinct timestamps, because the pop list knows a frame by
its timestamp alone; `Increasing` is the order in which a stream of frames
arrives.  Each operation of the request handler is one or more operations of
the store.
-/

namespace SNBModules
namespace Readout

open Lib

/-- The frames come in strictly increasing timestamp order. -/
def Increasing (frames : List Frame) : Prop := frames.Pairwise fun f g => f.timestamp < g.timestamp

instance (frames : List Frame) : Decidable (Increasing frames) :=
  inferInstanceAs (Decidable (frames.Pairwise _))

theorem Increasing.sublist {l m : List Frame} (h : Increasing m) (hs : l.Sublist m) :
    Increasing l := List.Pairwise.sublist hs h

/-- In an increasing stream a timestamp names one frame. -/
theorem Increasing.eq_of_timestamp {l : List Frame} (h : Increasing l) {f g : Frame} (hf : f ∈ l)
    (hg : g ∈ l) (hts : f.timestamp = g.timestamp) : f = g := by
  have hnd : (l.map Frame.timestamp).Nodup :=
    (List.pairwise_map.2 h).imp fun hlt => Nat.ne_of_lt hlt
  exact List.inj_on_of_nodup_map hnd hf hg hts

theorem Increasing.nodup {l : List Frame} (h : Increasing l) : l.Nodup :=
  h.imp fun hlt heq => Nat.ne_of_lt hlt (congrArg Frame.timestamp heq)

theorem Increasing.head_le {l : List Frame} (h : Increasing l) {f g : Frame}
    (hg : l.head? = some g) (hf : f ∈ l) : g.timestamp ≤ f.timestamp := by
  obtain ⟨rest, rfl⟩ := List.head?_eq_some_iff.1 hg
  rcases List.mem_cons.1 hf with rfl | hf
  · exact Nat.le_refl _
  · exact Nat.le_of_lt ((List.pairwise_cons.1 h).1 f hf)

theorem Increasing.lt_getLast {l : List Frame} (h : Increasing l) {f g : Frame}
    (hg : l.getLast? = some g) (hf : f ∈ l) (hne : f ≠ g) : f.timestamp < g.timestamp := by
  obtain ⟨older, rfl⟩ := List.getLast?_eq_some_iff.1 hg
  have hold := (List.mem_append.1 hf).resolve_right fun hmem => hne (List.mem_singleton.1 hmem)
  exact (List.pairwise_append.1 h).2.2 f hold g (List.mem_singleton_self g)

/-- The buffer's frames, the pop list and the pieces put into fragments
implement the store `d`. -/
structure Delivers (frames : List Frame) (popList : Finset ℕ) (claims : List Frame)
    (d : OnceStore Frame) : Prop where
  held : frames = d.held
  claims_perm : claims.Perm d.claimed
  increasing : Increasing d.stored
  marked : ∀ f ∈ frames, f.timestamp ∈ popList ↔ f ∈ claims
  recorded : ∀ ts ∈ popList, ∃ f ∈ frames, f.timestamp = ts

namespace Delivers

variable {frames claims : List Frame} {popList : Finset ℕ} {d : OnceStore Frame}

/-- A buffer of which nothing has been included, and an empty pop list. -/
theorem ofList (h : Increasing frames) :
    Delivers frames ∅ [] (OnceStore.ofList frames h.nodup) where
  held := rfl
  claims_perm := List.Perm.refl _
  increasing := h
  marked := by simp
  recorded := by simp

theorem perm {claims' : List Frame} (h : Delivers frames popList claims d)
    (hp : claims.Perm claims') : Delivers frames popList claims' d where
  held := h.held
  claims_perm := hp.symm.trans h.claims_perm
  increasing := h.increasing
  marked f hf := (h.marked f hf).trans hp.mem_iff
  recorded := h.recorded

/-- No frame is claimed twice. -/
theorem nodup (h : Delivers frames popList claims d) : claims.Nodup :=
  h.claims_perm.nodup_iff.2 d.claimed_nodup

theorem mem_stored_of_mem_claims (h : Delivers frames popList claims d) {f : Frame}
    (hf : f ∈ claims) : f ∈ d.stored :=
  d.claimed_subset (h.claims_perm.mem_iff.1 hf)

theorem mem_stored_of_mem_frames (h : Delivers frames popList claims d) {f : Frame}
    (hf : f ∈ frames) : f ∈ d.stored :=
  d.held_subset (h.held ▸ hf)

/-- A frame of the stream that is not buffered any more was claimed. -/
theorem mem_claims_of_not_mem_frames (h : Delivers frames popList claims d) {f : Frame}
    (hf : f ∈ d.stored) (hn : f ∉ frames) : f ∈ claims :=
  h.claims_perm.mem_iff.2 (d.claimed_of_not_held hf (h.held ▸ hn))

theorem increasing_frames (h : Delivers frames popList claims d) : Increasing frames := by
  rw [h.held]
  exact h.increasing.sublist (List.drop_sublist _ _)

/-- `process_item` stores the next frame of the stream. -/
theorem write (h : Delivers frames popList claims d) {f : Frame}
    (hf : ∀ g ∈ d.stored, g.timestamp < f.timestamp) :
    ∃ d', Delivers (frames ++ [f]) popList claims d' ∧ d'.stored = d.stored ++ [f] := by
  have hnew : f ∉ d.stored := fun hmem => Nat.lt_irrefl _ (hf f hmem)
  refine ⟨d.store f hnew, ⟨?_, h.claims_perm, ?_, fun g hg => ?_, fun ts hts => ?_⟩, rfl⟩
  · rw [h.held, d.held_store]
  · exact List.pairwise_append.2 ⟨h.increasing, List.pairwise_singleton _ _,
      fun g hg k hk => List.mem_singleton.1 hk ▸ hf g hg⟩
  · rcases List.mem_append.1 hg with hg | hg
    · exact h.marked g hg
    · obtain rfl := List.mem_singleton.1 hg
      refine ⟨fun hts => ?_, fun hg => absurd (h.mem_stored_of_mem_claims hg) hnew⟩
      -- the pop list only has timestamps of older frames
      obtain ⟨k, hk, heq⟩ := h.recorded _ hts
      exact absurd (hf k (h.mem_stored_of_mem_frames hk)) (by omega)
  · obtain ⟨k, hk, heq⟩ := h.recorded ts hts
    exact ⟨k, List.mem_append_left _ hk, heq⟩

/-- A frame of the buffer that is not in the pop list is claimed. -/
theorem claim (h : Delivers frames popList claims d) {e : Frame} (he : e ∈ frames)
    (hn : e.timestamp ∉ popList) :
    ∃ d', Delivers frames (insert e.timestamp popList) (e :: claims) d' ∧
      d'.stored = d.stored := by
  have hst := h.mem_stored_of_mem_frames he
  have hun : e ∉ claims := fun hc => hn ((h.marked e he).2 hc)
  refine ⟨d.claim e hst fun hc => hun (h.claims_perm.mem_iff.2 hc),
    ⟨h.held, h.claims_perm.cons e, h.increasing, fun f hf => ?_, fun ts hts => ?_⟩, rfl⟩
  · rw [Finset.mem_insert, List.mem_cons, h.marked f hf]
    refine or_congr_left ⟨fun heq => ?_, congrArg Frame.timestamp⟩
    exact h.increasing.eq_of_timestamp (h.mem_stored_of_mem_frames hf) hst heq
  · rcases Finset.mem_insert.1 hts with rfl | hts
    · exact ⟨e, he, rfl⟩
    · exact h.recorded ts hts

/-- One turn of the collecting loop, for a reader that holds `pieces` while the
others hold `others`. -/
theorem collectElement {pieces others : List Frame} (startWinTs : ℕ)
    (h : Delivers frames popList (others ++ pieces) d) {e : Frame} (he : e ∈ frames) :
    ∃ d', Delivers frames (collectElement startWinTs e (pieces, popList)).2
        (others ++ (collectElement startWinTs e (pieces, popList)).1) d' ∧
      d'.stored = d.stored := by
  rcases collectElement_cases startWinTs e (pieces, popList) with ⟨hn, -, heq⟩ | ⟨-, heq⟩
  · obtain ⟨d', h', hst⟩ := h.claim he hn
    rw [heq]
    refine ⟨d', h'.perm ?_, hst⟩
    rw [← List.append_assoc]
    exact (List.perm_append_singleton e _).symm
  · rw [heq]
    exact ⟨d, h, rfl⟩

/-- The whole collecting loop, from any frame of the buffer on. -/
theorem collectLoop {pieces others suffix : List Frame} (startWinTs endWinTs : ℕ)
    (h : Delivers frames popList (others ++ pieces) d) (hs : suffix ⊆ frames) :
    ∃ d', Delivers frames (collectLoop startWinTs endWinTs suffix (pieces, popList)).2
        (others ++ (collectLoop startWinTs endWinTs suffix (pieces, popList)).1) d' ∧
      d'.stored = d.stored := by
  induction suffix generalizing pieces popList d with
  | nil => exact ⟨d, h, rfl⟩
  | cons e rest ih =>
      obtain ⟨he, hrest⟩ := List.cons_subset.1 hs
      rw [Readout.collectLoop]
      split
      · obtain ⟨d₁, h₁, hst₁⟩ := h.collectElement startWinTs he
        obtain ⟨d₂, h₂, hst₂⟩ := ih h₁ hrest
        exact ⟨d₂, h₂, hst₂.trans hst₁⟩
      · exact ⟨d, h, rfl⟩

/-- The popping loop of `cleanup` releases claimed frames only. -/
theorem cleanupLoop (h : Delivers frames popList claims d) :
    ∃ d', Delivers (cleanupLoop frames popList).1 (cleanupLoop frames popList).2 claims d' ∧
      d'.stored = d.stored := by
  induction frames, popList using cleanupLoop.induct generalizing d with
  | case1 front next rest => exact ⟨d, by simpa [Readout.cleanupLoop] using h, rfl⟩
  | case2 front next rest popList hne hmem ih =>
      have hheld : d.held = front :: next :: rest := h.held.symm
      have hfront : front ∈ front :: next :: rest := List.mem_cons_self ..
      have hcl : front ∈ claims := (h.marked front hfront).1 hmem
      have hlt := List.pairwise_cons.1 h.increasing_frames
      obtain ⟨d', h', hst⟩ := ih (d := d.release hheld (h.claims_perm.mem_iff.1 hcl))
        ⟨(d.held_release hheld _).symm, h.claims_perm, h.increasing, fun f hf => by
            have hne : f.timestamp ≠ front.timestamp := Nat.ne_of_gt (hlt.1 f hf)
            rw [Finset.mem_erase, h.marked f (List.mem_cons_of_mem _ hf)]
            exact and_iff_right hne,
          fun ts hts => by
            obtain ⟨hts', hts⟩ := Finset.mem_erase.1 hts
            obtain ⟨f, hf, heq⟩ := h.recorded ts hts
            rcases List.mem_cons.1 hf with rfl | hf
            · exact absurd heq.symm hts'
            · exact ⟨f, hf, heq⟩⟩
      rw [Readout.cleanupLoop, if_neg hne, if_pos hmem]
      exact ⟨d', h', hst⟩
  | case3 front next rest popList hne hmem =>
      exact ⟨d, by simpa [Readout.cleanupLoop, hne, hmem] using h, rfl⟩
  | case4 frames popList hshort =>
      refine ⟨d, ?_, rfl⟩
      rcases frames with _ | ⟨f, _ | ⟨g, rest⟩⟩
      · exact h
      · exact h
      · exact absurd rfl (hshort f g rest)

/-- `data_request` claims the pieces of its fragment. -/
theorem dataRequest {h h' : RequestHandler} {dr : DataRequest} {result : RequestResult}
    (hd : Delivers h.latencyBuffer.frames h.popList claims d)
    (hr : dataRequest h dr = some (result, h')) :
    ∃ d', Delivers h'.latencyBuffer.frames h'.popList (claims ++ result.fragment.pieces) d' ∧
      d'.stored = d.stored := by
  rcases dataRequest_cases hr with ⟨-, hfrag, rfl⟩ | ⟨rc, acc, -, -, hacc, hfrag, rfl⟩
  · rw [hfrag]
    exact ⟨d, by simpa using hd, rfl⟩
  · rw [hfrag]
    rcases hacc with ⟨-, rfl⟩ | ⟨-, rfl⟩
    · exact ⟨d, by simpa [makeFragment] using hd, rfl⟩
    · have hd : Delivers h.latencyBuffer.frames h.popList (claims ++ []) d := by simpa using hd
      exact hd.collectLoop _ _ (List.Subset.refl _)

/-- `cleanup` releases claimed frames only. -/
theorem cleanup {h h' : RequestHandler} (hd : Delivers h.latencyBuffer.frames h.popList claims d)
    (hc : cleanup h = some h') :
    ∃ d', Delivers h'.latencyBuffer.frames h'.popList claims d' ∧ d'.stored = d.stored := by
  obtain ⟨hf, hp⟩ := cleanup_eq_some hc
  rw [hf, hp]
  exact hd.cleanupLoop

end Delivers

end Readout
end SNBModules
