import Mathlib.Data.Finset.Card
import Mathlib.Data.String.Basic
import SNBModules.Transfer.BitTorrentCalls

/-!
# When the BitTorrent worker of a downloader leaves

Source: `transfer_interface_bittorrent.cpp`, `do_work` and `download_file`.

A downloader is done when `finished_torrents` has reached `m_torrent_num`, and the
worker leaves at the next outcome of `save_resume_data`.  The first counts the
reports of an end, the second the torrents that were added, while a file stands in
`m_filename_to_metadata` before its torrent is added; and `m_done` stays set when
another file is registered.  So the worker leaves too early in two ways, and marks
the files that are left as interrupted.

Where neither happens and each torrent reports its end once, the counters are equal
only when all files have ended (`Counted`), and every exit is right
(`exits_right_of_orderly`); where one does, the next exit is wrong
(`exits_wrong_of_early_end`, `exits_wrong_of_late_download`).
-/

namespace SNBModules
namespace Transfer

open Lib TransferSession

namespace BitTorrent

open State

/-- The torrents that have reported their end. -/
def Torrents.ended (r : Torrents) : Finset String := r.finished ∪ r.errored

/-! ## Right exits -/

/-- Each file in the map is `FINISHED` or its torrent has reported an error, and only
records of such torrents are marked. -/
structure RightExit (s s' : State) : Prop where
  ended : ∀ e ∈ s.filenameToMetadata, ∃ i m, e.2 = some i ∧ s.files[i]? = some m ∧
    (m.status = .finished ∨ e.1 ∈ s.torrents.errored)
  marked : ∀ (i : ℕ) (m : TransferMetadata), s.files[i]? = some m → s'.files[i]? ≠ some m →
    fileName m.filePath ∈ s.torrents.errored

/-- The exit through `m_done`, if the action is one, is right. -/
def ExitsRight (s : State) : Action → Prop
  | .alert a now =>
      a.isResumeData → s.done → ∀ s', step s (.alert a now) = some s' → RightExit s s'
  | _ => True

/-! ## The order of calls and alerts -/

/-- A torrent reports its end once and after it was added, and the last of those that
were added does so when no file in the map has still to be added. -/
def EndsInOrder (s : State) (t : String) : Prop :=
  t ∈ s.torrents.added ∧ t ∉ s.torrents.ended ∧
    (s.finishedTorrents + 1 = s.torrentNum →
      ∀ e ∈ s.filenameToMetadata, e.1 ∈ s.torrents.added)

instance (s : State) (t : String) : Decidable (EndsInOrder s t) :=
  inferInstanceAs (Decidable (_ ∧ _ ∧ _))

/-- A file is not registered while the worker is done, nor by the name of a torrent
that has finished. -/
def RegistersInOrder (s : State) (a : Action) : Prop :=
  ∀ r ∈ a.registration s.files, r.2.isSome → s.done = false ∧ r.1 ∉ s.torrents.finished

instance (s : State) (a : Action) : Decidable (RegistersInOrder s a) :=
  inferInstanceAs (Decidable (∀ r ∈ a.registration s.files, _))

/-- What keeps the counters meaningful; a torrent that has finished is not shown as
anything else either. -/
def Orderly (s : State) : Action → Prop
  | .alert (.torrentFinished t) _ | .alert (.torrentError t) _ => EndsInOrder s t
  | .alert (.stateUpdate status) _ =>
      ∀ u ∈ status, u.name ∈ s.torrents.finished →
        ∀ shown ∈ shownAs s.isClient u.state, shown = .finished
  | a => RegistersInOrder s a

instance (s : State) : ∀ a, Decidable (Orderly s a)
  | .alert (.torrentFinished t) _ | .alert (.torrentError t) _ =>
      inferInstanceAs (Decidable (EndsInOrder s t))
  | .alert (.stateUpdate status) _ =>
      inferInstanceAs (Decidable (∀ u ∈ status, u.name ∈ s.torrents.finished →
        ∀ shown ∈ shownAs s.isClient u.state, shown = .finished))
  | .alert (.addTorrent t) now =>
      inferInstanceAs (Decidable (RegistersInOrder s (.alert (.addTorrent t) now)))
  | .alert (.torrentPaused t) now =>
      inferInstanceAs (Decidable (RegistersInOrder s (.alert (.torrentPaused t) now)))
  | .alert (.saveResumeData t) now =>
      inferInstanceAs (Decidable (RegistersInOrder s (.alert (.saveResumeData t) now)))
  | .alert (.saveResumeDataFailed t) now =>
      inferInstanceAs (Decidable (RegistersInOrder s (.alert (.saveResumeDataFailed t) now)))
  | .alert .peerConnect now =>
      inferInstanceAs (Decidable (RegistersInOrder s (.alert .peerConnect now)))
  | .alert .peerError now =>
      inferInstanceAs (Decidable (RegistersInOrder s (.alert .peerError now)))
  | .alert .peerDisconnected now =>
      inferInstanceAs (Decidable (RegistersInOrder s (.alert .peerDisconnected now)))
  | .upload i loaded now => inferInstanceAs (Decidable (RegistersInOrder s (.upload i loaded now)))
  | .download i now => inferInstanceAs (Decidable (RegistersInOrder s (.download i now)))
  | .resume i found loaded now =>
      inferInstanceAs (Decidable (RegistersInOrder s (.resume i found loaded now)))
  | .resumeThrows i now => inferInstanceAs (Decidable (RegistersInOrder s (.resumeThrows i now)))
  | .cancel i now => inferInstanceAs (Decidable (RegistersInOrder s (.cancel i now)))
  | .pause i found now => inferInstanceAs (Decidable (RegistersInOrder s (.pause i found now)))
  | .finish c ok now => inferInstanceAs (Decidable (RegistersInOrder s (.finish c ok now)))
  | .stop now => inferInstanceAs (Decidable (RegistersInOrder s (.stop now)))

/-! ## The counters -/

/-- What the counters of a downloader are about while its worker is in the loop. -/
structure Counted (s : State) : Prop where
  ordered : KeysOrdered s.filenameToMetadata
  named : ∀ e ∈ s.filenameToMetadata, ∃ i, e.2 = some i ∧ nameOf s.files i = some e.1
  addedFirst : s.torrents.ended ⊆ s.torrents.added
  added : (s.torrents.added.card : ℤ) ≤ s.torrentNum
  counted : s.finishedTorrents ≤ s.torrents.ended.card
  finished : ∀ e ∈ s.filenameToMetadata, e.1 ∈ s.torrents.finished →
    ∀ (i : ℕ) (m : TransferMetadata), e.2 = some i → s.files[i]? = some m → m.status = .finished
  done : s.done = true → ∀ e ∈ s.filenameToMetadata, e.1 ∈ s.torrents.ended

theorem getElem?_modify_eq_some {files : List TransferMetadata} {i j : ℕ}
    {f : TransferMetadata → TransferMetadata} {m' : TransferMetadata} :
    (files.modify i f)[j]? = some m' ↔ ∃ m, files[j]? = some m ∧ m' = if i = j then f m else m := by
  rw [List.getElem?_modify]
  cases files[j]? with
  | none => simp
  | some m => simp [eq_comm]

namespace Counted

variable {s : State}

/-- No pointer is null. -/
theorem found (hc : Counted s) : ∀ e ∈ s.filenameToMetadata, e.2.isSome := by
  intro e he
  obtain ⟨i, hi, -⟩ := hc.named e he
  rw [hi]
  rfl

/-- A lookup finds the entry. -/
theorem pointer_eq (hc : Counted s) {e : String × Option ℕ} (he : e ∈ s.filenameToMetadata) :
    getOrNew none e.1 s.filenameToMetadata = e.2 := by
  rw [getOrNew, hc.ordered.lookup_of_mem he, Option.getD_some]

/-- A file is found under its name only. -/
theorem nameOf_pointer (hc : Counted s) {name : String} {i : ℕ}
    (h : getOrNew none name s.filenameToMetadata = some i) : nameOf s.files i = some name := by
  have hlookup : s.filenameToMetadata.lookup name = some (some i) := by
    rw [getOrNew] at h
    cases hl : s.filenameToMetadata.lookup name with
    | none =>
        rw [hl] at h
        cases h
    | some p =>
        rw [hl] at h
        exact congrArg some h
  obtain ⟨j, hj, hname⟩ := hc.named (name, some i) (mem_of_lookup hlookup)
  cases hj
  exact hname

/-- A record changes, and stays `FINISHED` where its torrent has finished. -/
theorem modify (hc : Counted s) {i : ℕ} {f : TransferMetadata → TransferMetadata}
    (hf : KeepsPath f)
    (hkeep : ∀ e ∈ s.filenameToMetadata, e.2 = some i → e.1 ∈ s.torrents.finished →
      ∀ m, s.files[i]? = some m → m.status = .finished → (f m).status = .finished) :
    Counted (s.modify i f) where
  ordered := hc.ordered
  named := by
    intro e he
    obtain ⟨j, hj, hname⟩ := hc.named e he
    exact ⟨j, hj, (congrFun (nameOf_modify hf s.files i) j).trans hname⟩
  addedFirst := hc.addedFirst
  added := hc.added
  counted := hc.counted
  finished := by
    intro e he hfin j m' hj hm'
    obtain ⟨m, hm, rfl⟩ := getElem?_modify_eq_some.1 hm'
    have hstatus := hc.finished e he hfin j m hj hm
    split_ifs with hij
    · subst hij
      exact hkeep e he hj hfin m hm hstatus
    · exact hstatus
  done := hc.done

/-- A file is registered in order. -/
theorem register (hc : Counted s) {name : String} {i : ℕ} (hname : nameOf s.files i = some name)
    (hdone : s.done = false) (hfin : name ∉ s.torrents.finished) :
    Counted (s.register name i) where
  ordered := hc.ordered.assign name (some i)
  named := by
    intro e he
    rcases mem_assign he with rfl | he
    · exact ⟨i, rfl, hname⟩
    · exact hc.named e he
  addedFirst := hc.addedFirst
  added := hc.added
  counted := hc.counted
  finished := by
    intro e he hefin j m hj hm
    rcases mem_assign he with rfl | he
    · exact absurd hefin hfin
    · exact hc.finished e he hefin j m hj hm
  done := fun h => absurd (hdone.symm.trans h) Bool.false_ne_true

/-- A file is erased. -/
theorem unregister (hc : Counted s) (name : String) : Counted (s.unregister name) where
  ordered := hc.ordered.remove name
  named := fun e he => hc.named e (mem_remove.1 he).1
  addedFirst := hc.addedFirst
  added := hc.added
  counted := hc.counted
  finished := fun e he => hc.finished e (mem_remove.1 he).1
  done := fun h e he => hc.done h e (mem_remove.1 he).1

/-- What the library was asked for, the calls that are going on and the torrents that
are paused are not counted. -/
theorem alike (hc : Counted s) {t : State} (ht : Alike s t) : Counted t := by
  obtain ⟨pending, paused, posted, rfl⟩ := ht
  exact ⟨hc.ordered, hc.named, hc.addedFirst, hc.added, hc.counted, hc.finished, hc.done⟩

/-- **The counters at an end:** if they are equal then, all torrents that were added
have ended. -/
theorem countEnd (hc : Counted s) {t : String} (ht : EndsInOrder s t) {r : Torrents}
    (hadded : r.added = s.torrents.added) (hended : r.ended = insert t s.torrents.ended)
    (hfinished : ∀ e ∈ s.filenameToMetadata, e.1 ∈ r.finished →
      ∀ (i : ℕ) (m : TransferMetadata), e.2 = some i → s.files[i]? = some m →
        m.status = .finished) :
    Counted { s.countEnd with torrents := r } := by
  obtain ⟨htadded, htended, hlast⟩ := ht
  have hsubset : insert t s.torrents.ended ⊆ s.torrents.added :=
    Finset.insert_subset htadded hc.addedFirst
  have hcard : (insert t s.torrents.ended).card = s.torrents.ended.card + 1 :=
    Finset.card_insert_of_notMem htended
  refine ⟨hc.ordered, hc.named, ?_, ?_, ?_, hfinished, fun hdone e he => ?_⟩
  · rw [hended, hadded]
    exact hsubset
  · rw [hadded]
    exact hc.added
  · have hcounted := hc.counted
    rw [hended, hcard]
    change s.finishedTorrents + 1 ≤ _
    omega
  · rw [hended]
    change (s.done || (decide (s.finishedTorrents + 1 = s.torrentNum) && s.isClient)) = true
      at hdone
    rcases (Bool.or_eq_true _ _).mp hdone with hdone | hequal
    · exact Finset.mem_insert_of_mem (hc.done hdone e he)
    · have hequal : s.finishedTorrents + 1 = s.torrentNum :=
        of_decide_eq_true (Bool.and_eq_true_iff.1 hequal).1
      have hall : insert t s.torrents.ended = s.torrents.added := by
        refine Finset.eq_of_subset_of_card_le hsubset ?_
        have hadd := hc.added
        have hcounted := hc.counted
        omega
      rw [hall]
      exact hlast hequal e he

end Counted

/-! ## One action -/

/-- The first part of a call. -/
theorem counted_call {s s' : State} {m : TransferMetadata} {a : Action} {i : ℕ}
    (hi : a.file? = some i) (hm : s.files[i]? = some m) (h : call s m a = some s')
    (hc : Counted s) (ha : RegistersInOrder s a) : Counted s' := by
  obtain ⟨now, status, t, hne, hne', ⟨pending, paused, posted, rfl⟩, hcase⟩ := call_cases hi hm h
  have hstatus : Counted (s.modify i (·.setStatus now status)) := by
    refine hc.modify (setStatus_keepsPath now status) fun e _ _ _ m' hm' hfin => ?_
    obtain rfl : m = m' := Option.some.inj (hm.symm.trans hm')
    exact absurd hfin hne
  have halike := hstatus.alike ⟨pending, paused, posted, rfl⟩
  rcases hcase with ⟨-, rfl | ⟨errorCode, rfl⟩⟩ | ⟨hr, rfl⟩
  · exact halike
  · refine halike.modify (fail_keepsPath now errorCode) fun e _ _ _ m' hm' hfin => ?_
    obtain ⟨m₀, -, rfl⟩ := getElem?_modify_eq_some.1 hm'
    rw [if_pos rfl, TransferMetadata.setStatus_status] at hfin
    exact absurd hfin hne'
  · obtain ⟨hdone, hfin⟩ := ha (fileName m.filePath, some i) hr rfl
    refine halike.register ?_ hdone hfin
    refine (congrFun (nameOf_modify (setStatus_keepsPath now status) s.files i) i).trans ?_
    rw [nameOf, hm]
    rfl

/-- The second part of a call. -/
theorem counted_complete {s : State} {c : Pending} {name : String}
    (hname : nameOf s.files c.file = some name) {ok : Bool} {now : ℤ} (hc : Counted s)
    (ha : RegistersInOrder s (.finish c ok now)) : Counted (complete s name ok now c) := by
  cases c with
  | upload i =>
      have hr : (Action.finish (.upload i) ok now).registration s.files = some (name, some i) := by
        rw [Action.registration, show nameOf s.files i = some name from hname]
        rfl
      obtain ⟨hdone, hfin⟩ := ha (name, some i) hr rfl
      exact hc.register hname hdone hfin
  | download i =>
      cases ok with
      | true => exact hc.alike (alike_post name s)
      | false =>
          refine (hc.unregister name).modify (fail_keepsPath now _) fun e he hi _ m hm hfin => ?_
          -- the record that fails is not in the map any more
          obtain ⟨he, hne⟩ := mem_remove.1 he
          obtain ⟨j, hj, hnamed⟩ := hc.named e he
          obtain rfl : i = j := Option.some.inj (hi.symm.trans hj)
          exact absurd (Option.some.inj (hnamed.symm.trans hname)) hne
  | resume i => exact hc.alike (alike_post name s)
  | cancel i => exact hc.unregister name

/-- The worker that has left does not go on. -/
theorem leave_phase (now : ℤ) (s : State) : (s.leave now).phase ≠ .working := by
  have hfold : ∀ (entries : List (String × Option ℕ)) (t : State), t.phase ≠ .working →
      (entries.foldl (closeEntry now) t).phase ≠ .working := by
    intro entries
    induction entries with
    | nil => exact fun t ht => ht
    | cons e entries ih =>
        intro t ht
        refine ih _ ?_
        rw [closeEntry]
        cases e.2 with
        | none => exact fun h => Phase.noConfusion h
        | some i => exact ht
  exact hfold s.filenameToMetadata _ fun h => Phase.noConfusion h

/-- A state update keeps what has finished. -/
theorem counted_update {s : State} {status : List TorrentStatus} {now : ℤ} (hc : Counted s)
    (hworking : s.phase ≠ .fault)
    (hfound : ∀ u ∈ status, (getOrNew none u.name s.filenameToMetadata).isSome)
    (hshown : ∀ u ∈ status, u.name ∈ s.torrents.finished →
      ∀ shown ∈ shownAs s.isClient u.state, shown = .finished) :
    Counted (status.foldl (updateFile now) s) := by
  have hturn : ∀ (t : State) (i : ℕ), ∀ u ∈ status,
      (Counted t ∧ t.isClient = s.isClient ∧ t.torrents = s.torrents) →
        getOrNew none u.name t.filenameToMetadata = some i →
          Counted (t.modify i (readStatus t.isClient now u)) ∧ t.isClient = s.isClient ∧
            t.torrents = s.torrents := by
    intro t i u hu ⟨ht, hclient, htorrents⟩ hi
    refine ⟨ht.modify (readStatus_keepsPath t.isClient now u) ?_, hclient, htorrents⟩
    intro e he hei hfin m hm hstatus
    obtain ⟨j, hj, hname⟩ := ht.named e he
    obtain rfl : i = j := Option.some.inj (hei.symm.trans hj)
    have hu' : e.1 = u.name := Option.some.inj (hname.symm.trans (ht.nameOf_pointer hi))
    rw [hclient, readStatus, if_pos (by rw [hstatus]; decide)]
    cases hshow : shownAs s.isClient u.state with
    | none => exact hstatus
    | some shown =>
        obtain rfl := hshown u hu (htorrents ▸ hu' ▸ hfin) shown hshow
        exact TransferMetadata.setStatus_status now .finished m
  exact (foldl_updateFile hturn hfound ⟨hc, rfl, rfl⟩ hworking).1.1

/-- What the worker does with an alert, if it stays in its loop. -/
theorem counted_handle {s : State} {a : Alert} {now : ℤ} (hclient : s.isClient = true)
    (hc : Counted s) (hphase : s.phase = .working) (ho : Orderly s (.alert a now))
    (hs' : (s.handle now a).phase = .working) :
    Counted { s.handle now a with torrents := (s.handle now a).torrents.tell a } := by
  have hworking : s.phase ≠ .fault := by rw [hphase]; decide
  have hfault : (s.handle now a).phase ≠ .fault := by rw [hs']; decide
  cases a with
  | addTorrent t =>
      refine ⟨hc.ordered, hc.named, ?_, ?_, hc.counted, hc.finished, hc.done⟩
      · exact hc.addedFirst.trans (Finset.subset_insert t _)
      · have hcard := Finset.card_insert_le t s.torrents.added
        have hadded := hc.added
        change (((insert t s.torrents.added).card : ℕ) : ℤ) ≤ s.torrentNum + 1
        omega
  | torrentPaused t => exact hc
  | torrentFinished t =>
      obtain ⟨i, hi⟩ := Option.isSome_iff_exists.1
        (isSome_of_handle hfault t List.mem_cons_self)
      have hcount : Counted (s.modify i (finishFile now)) :=
        hc.modify (finishFile_keepsPath now) fun e _ _ _ m _ _ =>
          TransferMetadata.setStatus_status now .finished m
      have hhandle : s.handle now (.torrentFinished t) =
          (s.modify i (finishFile now)).countEnd := by rw [handle, withFile_of_some hi]
      rw [hhandle]
      refine hcount.countEnd (t := t) ho rfl (Finset.insert_union t _ _) ?_
      intro e he hfin j m hj hm
      rcases Finset.mem_insert.1 hfin with rfl | hfin
      · obtain rfl : i = j :=
          Option.some.inj (hi.symm.trans ((hc.pointer_eq he).trans hj))
        obtain ⟨m₀, -, rfl⟩ := getElem?_modify_eq_some.1 hm
        rw [if_pos rfl]
        exact TransferMetadata.setStatus_status now .finished m₀
      · exact hcount.finished e he hfin j m hj hm
  | torrentError t =>
      exact hc.countEnd (t := t) ho rfl (Finset.union_insert t _ _) hc.finished
  | saveResumeData t | saveResumeDataFailed t =>
      simp only [handle] at hs' ⊢
      split_ifs at hs' ⊢ with hdone
      · exact absurd hs' (leave_phase now s)
      · exact hc
  | peerConnect =>
      exact ⟨hc.ordered, hc.named, hc.addedFirst, hc.added, hc.counted, hc.finished,
        fun h => absurd h Bool.false_ne_true⟩
  | peerError | peerDisconnected =>
      refine ⟨hc.ordered, hc.named, hc.addedFirst, hc.added, hc.counted, hc.finished, fun h => ?_⟩
      refine hc.done ?_
      simpa [handle, hclient] using h
  | stateUpdate status =>
      exact counted_update hc hworking (fun u hu =>
        isSome_of_handle hfault u.name (List.mem_map_of_mem hu)) ho

/-- A call in order registers in order. -/
theorem Orderly.registers {s : State} {a : Action} (ha : Orderly s a) (hi : a.file?.isSome) :
    RegistersInOrder s a := by
  cases a with
  | upload i | download i | resume i | resumeThrows i | cancel i | pause i => exact ha
  | finish c => exact ha
  | alert a => cases hi
  | stop => cases hi

/-- A downloader whose counters are right while its worker is in the loop. -/
def InOrder (s : State) : Prop :=
  s.phase = .working → s.isClient = true ∧ Counted s

/-- **One action in order keeps the counters right.** -/
theorem inOrder_step {s s' : State} {a : Action} (hs : InOrder s) (ha : Orderly s a)
    (h : step s a = some s') : InOrder s' := by
  intro hs'
  rcases step_cases h with ⟨i, m, hi, hm, hcall⟩ | ⟨c, ok, now, name, rfl, hpending, hname, rfl⟩ |
      ⟨al, now, rfl, hphase, htell, rfl⟩ | ⟨now, rfl, hphase, rfl⟩
  · have hb := call_books hi hm hcall
    obtain ⟨hclient, hc⟩ := hs (hb.phase.symm.trans hs')
    exact ⟨hb.isClient.trans hclient,
      counted_call hi hm hcall hc (ha.registers (Option.isSome_of_eq_some hi))⟩
  · have hb := complete_books (s := { s with pending := s.pending.erase c }) hname ok now
    obtain ⟨hclient, hc⟩ := hs (hb.phase.symm.trans hs')
    exact ⟨hb.isClient.trans hclient,
      counted_complete (s := { s with pending := s.pending.erase c }) hname
        (hc.alike ⟨_, s.paused, s.torrents.posted, rfl⟩) (ha.registers rfl)⟩
  · obtain ⟨hclient, hc⟩ := hs hphase
    have hfault : (s.handle now al).phase ≠ .fault := fun hfault =>
      Phase.noConfusion (hfault.symm.trans hs')
    have hf := handle_frame now hphase hc.found (isSome_of_handle hfault)
    exact ⟨hf.isClient.trans hclient, counted_handle hclient hc hphase ha hs'⟩
  · exact absurd hs' (leave_phase now _)

/-! ## Exits -/

/-- The exit of a downloader leaves a record that is `FINISHED`. -/
theorem leave_finished {now : ℤ} {s : State} {i : ℕ} {m : TransferMetadata}
    (hclient : s.isClient = true) (hc : Counted s) (hm : s.files[i]? = some m)
    (hfin : ∀ e ∈ s.filenameToMetadata, e.2 = some i → m.status = .finished) :
    (s.leave now).files[i]? = some m := by
  have hturn : ∀ (t : State) (j : ℕ), (t.isClient = true ∧ t.files[i]? = some m) →
      (∃ name, (name, some j) ∈ s.filenameToMetadata) →
        t.isClient = true ∧ (t.files.modify j (closeFile t.isClient now))[i]? = some m := by
    rintro t j ⟨ht, htm⟩ ⟨name, hname⟩
    refine ⟨ht, getElem?_modify_eq_some.2 ⟨m, htm, ?_⟩⟩
    split_ifs with hij
    · subst hij
      rw [closeFile, ht, if_neg (by decide), if_neg (not_not.2 (hfin _ hname rfl))]
    · rfl
  have hstart : ({ s with phase := .left } : State).isClient = true ∧
      ({ s with phase := .left } : State).files[i]? = some m := ⟨hclient, hm⟩
  exact (foldl_closeEntry hturn hc.found hstart).1.2

/-- **An exit in order is right.** -/
theorem exitsRight_of_inOrder {s : State} (hs : InOrder s) (a : Action) : ExitsRight s a := by
  cases a with
  | alert al now =>
      intro hresume hdone s' h
      rcases step_cases h with ⟨i, m, hi, -, -⟩ | ⟨c, ok, now', name, hc, -⟩ |
          ⟨al', now', hal, hphase, -, rfl⟩ | ⟨now', hstop, -⟩
      · cases hi
      · cases hc
      · cases hal
        obtain ⟨hclient, hc⟩ := hs hphase
        have hended : ∀ e ∈ s.filenameToMetadata, ∃ i m, e.2 = some i ∧ s.files[i]? = some m ∧
            fileName m.filePath = e.1 ∧ (m.status = .finished ∨ e.1 ∈ s.torrents.errored) := by
          intro e he
          obtain ⟨i, hi, hname⟩ := hc.named e he
          obtain ⟨m, hm, hpath⟩ := Option.map_eq_some_iff.1 hname
          refine ⟨i, m, hi, hm, hpath, ?_⟩
          exact (Finset.mem_union.1 (hc.done hdone e he)).imp_left
            fun hfin => hc.finished e he hfin i m hi hm
        have hleave : s.handle now al = s.leave now := by
          cases al <;> first | exact if_pos hdone | cases hresume
        refine ⟨fun e he => ?_, fun i m hm hchanged => ?_⟩
        · obtain ⟨i, m, hi, hm, -, hend⟩ := hended e he
          exact ⟨i, m, hi, hm, hend⟩
        · by_contra hno
          refine hchanged ?_
          rw [hleave]
          refine leave_finished hclient hc hm fun e he hei => ?_
          obtain ⟨j, m', hj, hm', hpath, hend⟩ := hended e he
          obtain rfl : i = j := Option.some.inj (hei.symm.trans hj)
          obtain rfl : m = m' := Option.some.inj (hm.symm.trans hm')
          exact hend.resolve_right fun herr => hno (hpath ▸ herr)
      · cases hstop
  | upload | download | resume | resumeThrows | cancel | pause | finish | stop => trivial

/-- **A downloader that is used in order exits right.**  Over all interleavings of the
calls with the alerts, and over any number of files: if each torrent reports its end
once and after it was added, the last of those that were added when no registered
file has still to be added, if no file is registered while the worker is done or
after its torrent has finished, and no update takes a finished torrent back, then the
worker leaves through `m_done` only when each file in the map is `FINISHED` or its
torrent has reported an error, and it marks no other file. -/
theorem exits_right_of_orderly (files : List TransferMetadata) {actions : List Action}
    (h : Guarded step Orderly (start true files) actions) :
    Guarded step ExitsRight (start true files) actions := by
  refine h.imp_of_invariant (fun s a t hs ha hstep => inOrder_step hs ha hstep)
    (fun s a hs _ => exitsRight_of_inOrder hs a) fun _ => ⟨rfl, ?_⟩
  exact ⟨keysOrdered_nil, fun _ he => absurd he List.not_mem_nil, Finset.Subset.refl _, le_refl 0,
    le_refl 0, fun _ he => absurd he List.not_mem_nil, fun h => absurd h Bool.false_ne_true⟩

/-! ### Wrong exits -/

/-- While the worker is done, a file in the map that has not ended makes the next exit
wrong. -/
theorem not_exitsRight {s : State} (hphase : s.phase = .working) (hdone : s.done = true)
    {e : String × Option ℕ} (he : e ∈ s.filenameToMetadata) {i : ℕ} (hi : e.2 = some i)
    {m : TransferMetadata} (hm : s.files[i]? = some m) (hne : m.status ≠ .finished)
    (herror : e.1 ∉ s.torrents.errored) {t : String} (ht : t ∈ s.torrents.posted) (now : ℤ) :
    ¬ ExitsRight s (.alert (.saveResumeData t) now) := by
  intro h
  have htell : Tellable s.torrents (.saveResumeData t) := by
    intro t' ht'
    rwa [List.mem_singleton.1 ht']
  obtain ⟨j, m', hj, hm', hend⟩ := (h rfl hdone _ (if_pos ⟨hphase, htell⟩)).ended e he
  obtain rfl : i = j := Option.some.inj (hi.symm.trans hj)
  obtain rfl : m = m' := Option.some.inj (hm.symm.trans hm')
  exact hend.elim hne herror

/-- **A file that is downloaded while the worker is done** makes the next exit wrong. -/
theorem exits_wrong_of_late_download {s s' : State} (hphase : s.phase = .working)
    (hdone : s.done = true) {i : ℕ} {m : TransferMetadata} (hm : s.files[i]? = some m)
    (herror : fileName m.filePath ∉ s.torrents.errored) {now : ℤ}
    (h : step s (.download i now) = some s') {t : String} (ht : t ∈ s.torrents.posted)
    (now' : ℤ) : ¬ ExitsRight s' (.alert (.saveResumeData t) now') := by
  have hcall : (s.files[i]?.bind fun m => call s m (.download i now)) = some s' := h
  rw [hm, Option.bind_some] at hcall
  simp only [call, Option.ite_none_right_eq_some, Option.some.injEq] at hcall
  obtain ⟨-, rfl⟩ := hcall
  have hentry : (fileName m.filePath, some i) ∈
      assign (fileName m.filePath) (some i) s.filenameToMetadata :=
    mem_of_lookup (by rw [lookup_assign, if_pos rfl])
  have hrecord : (s.files.modify i (·.setStatus now .downloading))[i]? =
      some (m.setStatus now .downloading) :=
    getElem?_modify_eq_some.2 ⟨m, hm, (if_pos rfl).symm⟩
  have hne : (m.setStatus now .downloading).status ≠ .finished := by
    rw [TransferMetadata.setStatus_status]
    decide
  exact not_exitsRight (s := ((s.modify i (·.setStatus now .downloading)).register
    (fileName m.filePath) i).await (.download i)) hphase hdone hentry rfl hrecord hne herror ht now'

/-- **A last report that comes while another file in the map has not ended** makes the
next exit wrong. -/
theorem exits_wrong_of_early_end {s s' : State} (hclient : s.isClient = true)
    (hcount : s.finishedTorrents + 1 = s.torrentNum) {e : String × Option ℕ}
    (he : e ∈ s.filenameToMetadata) {i : ℕ} (hi : e.2 = some i) {m : TransferMetadata}
    (hm : s.files[i]? = some m) (hne : m.status ≠ .finished)
    (herror : e.1 ∉ s.torrents.errored) {t : String} {j : ℕ}
    (ht : getOrNew none t s.filenameToMetadata = some j) (hij : j ≠ i) {now : ℤ}
    (h : step s (.alert (.torrentFinished t) now) = some s') (now' : ℤ) :
    ¬ ExitsRight s' (.alert (.saveResumeData t) now') := by
  simp only [step, Option.ite_none_right_eq_some, Option.some.injEq] at h
  obtain ⟨⟨hphase, htell⟩, rfl⟩ := h
  rw [handle, withFile_of_some ht]
  have hrecord : (s.files.modify j (finishFile now))[i]? = some m :=
    getElem?_modify_eq_some.2 ⟨m, hm, (if_neg hij).symm⟩
  have hdone : (s.done || (decide (s.finishedTorrents + 1 = s.torrentNum) && s.isClient)) =
      true := by simp [hcount, hclient]
  exact not_exitsRight (s := { (s.modify j (finishFile now)).countEnd with
      torrents := s.torrents.tell (.torrentFinished t) }) hphase hdone he hi hrecord hne herror
    (htell t List.mem_cons_self) now'

/-! ### Two downloads -/

/-- Both are registered and added before the first one ends. -/
def addedFirst : List Action :=
  [.download 0 1000, .finish (.download 0) true 1000, .download 1 2000,
    .finish (.download 1) true 2000, .alert (.addTorrent "run1.raw") 2200,
    .alert (.addTorrent "run2.raw") 2200, .alert (.torrentFinished "run1.raw") 3000,
    .alert (.saveResumeData "run1.raw") 3000, .alert (.torrentError "run2.raw") 4000,
    .alert (.saveResumeDataFailed "run2.raw") 4000]

/-- The worker leaves when both have ended. -/
theorem exits_right_of_orderly_twoFiles :
    ((exec step (start true twoFiles) addedFirst).map State.phase = some .left) ∧
      Guarded step ExitsRight (start true twoFiles) addedFirst :=
  ⟨by decide +kernel, exits_right_of_orderly twoFiles (by decide +kernel)⟩

/-- The first one ends when the second one is registered and not yet added. -/
def endedFirst : List Action :=
  [.download 0 1000, .finish (.download 0) true 1000, .alert (.addTorrent "run1.raw") 1200,
    .download 1 2000, .finish (.download 1) true 2000,
    .alert (.torrentFinished "run1.raw") 2100]

/-- **The worker leaves too early:** the one torrent that was added has finished, and
the file whose torrent is just being added is marked as interrupted. -/
theorem leaves_too_early :
    ((exec step (start true twoFiles)
        (endedFirst ++ [.alert (.saveResumeData "run1.raw") 2200])).map
          fun s => s.files.map fun m => (m.status, m.errorCode)) =
      some [(.finished, ""), (.error, "Transfer interrupted")] ∧
    ¬ Guarded step ExitsRight (start true twoFiles)
        (endedFirst ++ [.alert (.saveResumeData "run1.raw") 2200]) := by
  refine ⟨by decide +kernel, fun h => ?_⟩
  have hbefore : exec step (start true twoFiles) endedFirst =
      some ((exec step (start true twoFiles) endedFirst).get (by decide +kernel)) :=
    (Option.some_get _).symm
  have hexit := h.mid hbefore rfl (by decide +kernel) _ (Option.some_get (by decide +kernel)).symm
  exact absurd (hexit.marked 1 _ (Option.some_get (by decide +kernel)).symm (by decide +kernel))
    (by decide +kernel)

end BitTorrent

end Transfer
end SNBModules
