import SNBModules.Transfer.TorrentSession

/-!
# The count of paused torrents

Source: `transfer_interface_bittorrent.cpp`, `pause_file`, `resume_file`,
`cancel_file` and `do_work`.

`m_paused` goes up when `pause_file` finds a torrent and down when `resume_file` finds
one, whether or not the torrent was paused before.  `cancel_file` removes a torrent as
it is, and leaves the count.  So the count is right as long as the torrents that are
paused are not paused again, those that are resumed are paused, and a torrent that goes
is not (`paused_count_iff`).
-/

namespace SNBModules
namespace Transfer

open Lib TransferSession

/-! ## What the session does to its count -/

namespace BitTorrent

open State

/-- What an action adds to `m_paused`. -/
def pausedChange : Action → ℤ
  | .pause _ true _ => 1
  | .resume _ true _ _ => -1
  | _ => 0

namespace State

theorem withFile_paused (name : String) (f : TransferMetadata → TransferMetadata) (s : State) :
    (s.withFile name f).paused = s.paused := by
  unfold withFile
  split <;> rfl

theorem foldl_updateFile_paused (now : ℤ) (status : List TorrentStatus) (s : State) :
    (status.foldl (updateFile now) s).paused = s.paused := by
  induction status generalizing s with
  | nil => rfl
  | cons u status ih =>
      rw [List.foldl_cons, ih, updateFile]
      split_ifs
      · rfl
      · exact withFile_paused _ _ s

theorem leave_paused (now : ℤ) (s : State) : (s.leave now).paused = s.paused := by
  have hfold : ∀ (entries : List (String × Option ℕ)) (t : State),
      (entries.foldl (closeEntry now) t).paused = t.paused := by
    intro entries
    induction entries with
    | nil => exact fun _ => rfl
    | cons e entries ih =>
        intro t
        rw [List.foldl_cons, ih, closeEntry]
        split <;> rfl
  exact hfold _ _

/-- The worker does not count. -/
theorem handle_paused (now : ℤ) (s : State) (a : Alert) : (s.handle now a).paused = s.paused := by
  cases a with
  | torrentFinished t => exact withFile_paused t _ s
  | saveResumeData t | saveResumeDataFailed t =>
      rw [handle]
      split_ifs
      · exact leave_paused now s
      · rfl
  | stateUpdate status => exact foldl_updateFile_paused now status s
  | addTorrent t | torrentPaused t | torrentError t => rfl
  | peerConnect | peerError | peerDisconnected => rfl

end State

theorem complete_paused (s : State) (name : String) (ok : Bool) (now : ℤ) (c : Pending) :
    (complete s name ok now c).paused = s.paused := by
  cases c with
  | upload i | resume i | cancel i => rfl
  | download i =>
      rw [complete]
      split_ifs <;> rfl

theorem call_paused {s s' : State} {m : TransferMetadata} {a : Action}
    (h : call s m a = some s') : s'.paused = s.paused + pausedChange a := by
  cases a with
  | upload i loaded now =>
      simp only [call, Option.ite_none_right_eq_some, Option.some.injEq] at h
      obtain ⟨-, rfl⟩ := h
      cases loaded <;> exact (add_zero _).symm
  | download i now | resumeThrows i now | cancel i now =>
      simp only [call, Option.ite_none_right_eq_some, Option.some.injEq] at h
      obtain ⟨-, rfl⟩ := h
      exact (add_zero _).symm
  | resume i found loaded now =>
      simp only [call, Option.ite_none_right_eq_some, Option.some.injEq] at h
      obtain ⟨-, rfl⟩ := h
      cases found with
      | true => rfl
      | false => cases loaded <;> exact (add_zero _).symm
  | pause i found now =>
      simp only [call, Option.ite_none_right_eq_some, Option.some.injEq] at h
      obtain ⟨-, rfl⟩ := h
      cases found with
      | true => rfl
      | false => exact (add_zero _).symm
  | finish c ok now | alert al now | stop now => cases h

/-- Only `pause_file` and `resume_file` count. -/
theorem step_paused {s s' : State} {a : Action} (h : step s a = some s') :
    s'.paused = s.paused + pausedChange a := by
  rcases step_cases h with ⟨i, m, -, -, hcall⟩ | ⟨c, ok, now, name, rfl, -, -, rfl⟩ |
      ⟨al, now, rfl, -, -, rfl⟩ | ⟨now, rfl, -, rfl⟩
  · exact call_paused hcall
  · exact (complete_paused _ name ok now c).trans (add_zero _).symm
  · exact (handle_paused now s al).trans (add_zero _).symm
  · exact (leave_paused now _).trans (add_zero _).symm

end BitTorrent

/-! ## The torrents that are paused -/

namespace TorrentSession

/-- The torrents of the library that are paused. -/
def pausedCount (handles : List Torrent) : ℕ := handles.countP (·.paused)

/-- What a torrent adds to them. -/
def Torrent.count (t : Torrent) : ℤ := if t.paused then 1 else 0

theorem pausedCount_cons (t : Torrent) (l : List Torrent) :
    (pausedCount (t :: l) : ℤ) = pausedCount l + Torrent.count t := by
  rw [pausedCount, List.countP_cons, Torrent.count]
  push_cast
  split_ifs <;> rfl

theorem pausedCount_append (l l' : List Torrent) :
    (pausedCount (l ++ l') : ℤ) = pausedCount l + pausedCount l' := by
  rw [pausedCount, List.countP_append]
  push_cast
  rfl

/-- What the loop over the torrents does to the count. -/
theorem pausedCount_withHandle (f : Torrent → List Torrent) (name : String) (l : List Torrent) :
    (pausedCount (withHandle f name l) : ℤ) = pausedCount l +
      ((l.find? (·.name = name)).elim 0 fun t => pausedCount (f t) - Torrent.count t) := by
  induction l with
  | nil => simp [withHandle, pausedCount]
  | cons t l ih =>
      rw [withHandle, List.find?_cons]
      by_cases ht : t.name = name
      · simp only [ht, if_true, decide_true, Option.elim_some]
        rw [pausedCount_append, pausedCount_cons]
        omega
      · simp only [ht, if_false, decide_false]
        rw [pausedCount_cons, pausedCount_cons, ih]
        omega

theorem pausedCount_eraseIdx {l : List Torrent} {j : ℕ} {t : Torrent} (h : l[j]? = some t) :
    (pausedCount (l.eraseIdx j) : ℤ) = pausedCount l - Torrent.count t := by
  induction l generalizing j with
  | nil => cases h
  | cons t' l ih =>
      cases j with
      | zero =>
          obtain rfl := Option.some.inj h
          rw [List.eraseIdx_cons_zero, pausedCount_cons]
          omega
      | succ j =>
          rw [List.eraseIdx_cons_succ, pausedCount_cons, pausedCount_cons, ih h]
          omega

theorem pausedCount_modify {l : List Torrent} {j : ℕ} {t : Torrent} (h : l[j]? = some t)
    (f : Torrent → Torrent) :
    (pausedCount (l.modify j f) : ℤ) = pausedCount l - Torrent.count t + Torrent.count (f t) := by
  induction l generalizing j with
  | nil => cases h
  | cons t' l ih =>
      cases j with
      | zero =>
          obtain rfl := Option.some.inj h
          rw [List.modify_zero_cons, pausedCount_cons, pausedCount_cons]
          omega
      | succ j =>
          rw [List.modify_succ_cons, pausedCount_cons, pausedCount_cons, ih h]
          omega

/-- The count is right, and with it the exit test. -/
def PausedRight (s : TorrentSession) : Prop :=
  s.session.paused = pausedCount s.handles ∧
    (s.session.paused = 0 ↔ ∀ t ∈ s.handles, t.paused = false)

instance (s : TorrentSession) : Decidable (PausedRight s) :=
  inferInstanceAs (Decidable (_ ∧ (_ ↔ _)))

/-- The exit test needs nothing but the count. -/
theorem pausedRight_iff {s : TorrentSession} :
    PausedRight s ↔ s.session.paused = pausedCount s.handles := by
  refine ⟨fun h => h.1, fun h => ⟨h, ?_⟩⟩
  rw [h, Int.natCast_eq_zero, pausedCount, List.countP_eq_zero]
  simp

/-- `pause_file` finds a torrent that is not paused, and `resume_file` one that is, if
they find one; a torrent that enters, is cancelled or is dropped is not paused; and the
library does not pause or resume by itself. -/
def CountKept (s : TorrentSession) : TorrentAction → Prop
  | .session (.pause i ..) => ∀ t ∈ s.handle? i, t.paused = false
  | .session (.resume i ..) => ∀ t ∈ s.handle? i, t.paused = true
  | .session (.cancel i _) => ∀ t ∈ s.handle? i, t.paused = false
  | .enter t => t.paused = false
  | .drop j => ∀ t ∈ s.handles[j]?, t.paused = false
  | .setPaused j paused => ∀ t ∈ s.handles[j]?, t.paused = paused
  | _ => True

instance (s : TorrentSession) : ∀ a, Decidable (CountKept s a)
  | .session (.pause i ..) => inferInstanceAs (Decidable (∀ t ∈ s.handle? i, t.paused = false))
  | .session (.resume i ..) => inferInstanceAs (Decidable (∀ t ∈ s.handle? i, t.paused = true))
  | .session (.cancel i _) => inferInstanceAs (Decidable (∀ t ∈ s.handle? i, t.paused = false))
  | .enter t => inferInstanceAs (Decidable (t.paused = false))
  | .drop j => inferInstanceAs (Decidable (∀ t ∈ s.handles[j]?, t.paused = false))
  | .setPaused j paused => inferInstanceAs (Decidable (∀ t ∈ s.handles[j]?, t.paused = paused))
  | .session (.upload ..) | .session (.download ..) | .session (.finish ..)
  | .session (.resumeThrows ..) | .session (.alert ..) | .session (.stop ..) | .write ..
  | .delete .. =>
      inferInstanceAs (Decidable True)

/-! ## The steps that keep it right -/

theorem pausedCount_paused (name : String) : pausedCount [⟨name, true⟩] = 1 := rfl

theorem pausedCount_resumed (name : String) : pausedCount [⟨name, false⟩] = 0 := rfl

theorem pausedCount_none : pausedCount [] = 0 := rfl

/-- What a loop over the torrents does to the number of those that are paused. -/
theorem pausedCount_onTorrent (s : TorrentSession) (f : Torrent → List Torrent) (i : ℕ) :
    (pausedCount (s.onTorrent f i) : ℤ) =
      pausedCount s.handles +
        (s.handle? i).elim 0 fun t => pausedCount (f t) - Torrent.count t := by
  rw [onTorrent, handle?]
  cases BitTorrent.nameOf s.session.files i with
  | none => exact (add_zero _).symm
  | some name => exact pausedCount_withHandle f name s.handles

theorem Torrent.count_eq_zero {t : Torrent} : Torrent.count t = 0 ↔ t.paused = false := by
  cases h : t.paused <;> simp [Torrent.count, h]

theorem Torrent.count_eq_one {t : Torrent} : Torrent.count t = 1 ↔ t.paused = true := by
  cases h : t.paused <;> simp [Torrent.count, h]

/-- An action of the session or its worker. -/
theorem countRight_session {s s' : TorrentSession} {a : BitTorrent.Action}
    (hs : s.session.paused = pausedCount s.handles) (h : step s (.session a) = some s') :
    s'.session.paused = pausedCount s'.handles ↔ CountKept s (.session a) := by
  obtain ⟨hfinds, hstep, hhandles, -, -⟩ := step_session h
  rw [BitTorrent.step_paused hstep, hhandles, hs]
  cases a with
  | pause i found now =>
      rw [handlesAfter, pausedCount_onTorrent]
      cases ht : s.handle? i with
      | none =>
          obtain rfl : found = false := by simpa [Finds, ht] using hfinds
          simp [BitTorrent.pausedChange, CountKept, ht]
      | some t =>
          obtain rfl : found = true := by simpa [Finds, ht] using hfinds
          have hiff : CountKept s (.session (.pause i true now)) ↔ Torrent.count t = 0 := by
            rw [Torrent.count_eq_zero]
            simp [CountKept, ht]
          rw [hiff, Option.elim_some, BitTorrent.pausedChange, pausedCount_paused]
          omega
  | resume i found loaded now =>
      rw [handlesAfter, pausedCount_onTorrent]
      cases ht : s.handle? i with
      | none =>
          obtain rfl : found = false := by simpa [ht] using hfinds.1
          simp [BitTorrent.pausedChange, CountKept, ht]
      | some t =>
          obtain rfl : found = true := by simpa [ht] using hfinds.1
          have hiff : CountKept s (.session (.resume i true loaded now)) ↔ Torrent.count t = 1 := by
            rw [Torrent.count_eq_one]
            simp [CountKept, ht]
          rw [hiff, Option.elim_some, BitTorrent.pausedChange, pausedCount_resumed]
          omega
  | cancel i now =>
      rw [handlesAfter, pausedCount_onTorrent]
      cases ht : s.handle? i with
      | none => simp [BitTorrent.pausedChange, CountKept, ht]
      | some t =>
          have hiff : CountKept s (.session (.cancel i now)) ↔ Torrent.count t = 0 := by
            rw [Torrent.count_eq_zero]
            simp [CountKept, ht]
          have hnone : BitTorrent.pausedChange (.cancel i now) = 0 := rfl
          rw [hiff, Option.elim_some, hnone, pausedCount_none]
          omega
  | upload i loaded now | download i now | resumeThrows i now =>
      exact iff_of_true (by simp [handlesAfter, BitTorrent.pausedChange]) trivial
  | finish c ok now | alert al now | stop now =>
      exact iff_of_true (by simp [handlesAfter, BitTorrent.pausedChange]) trivial

/-- **What one action does to a count that is right.** -/
theorem countRight_step {s s' : TorrentSession} {a : TorrentAction}
    (hs : s.session.paused = pausedCount s.handles) (h : step s a = some s') :
    s'.session.paused = pausedCount s'.handles ↔ CountKept s a := by
  cases a with
  | session a => exact countRight_session hs h
  | enter t =>
      obtain rfl := Option.some.inj h
      have hcount : (pausedCount (s.handles ++ [t]) : ℤ) =
          pausedCount s.handles + Torrent.count t := by
        rw [pausedCount_append, pausedCount_cons]
        simp [pausedCount]
      have hiff : CountKept s (.enter t) ↔ Torrent.count t = 0 := Torrent.count_eq_zero.symm
      rw [hcount, hs, hiff]
      omega
  | drop j =>
      simp only [step, Option.ite_none_right_eq_some, Option.some.injEq] at h
      obtain ⟨hj, rfl⟩ := h
      have ht := List.getElem?_eq_getElem hj
      have hiff : CountKept s (.drop j) ↔ Torrent.count s.handles[j] = 0 := by
        rw [Torrent.count_eq_zero]
        simp [CountKept, ht]
      rw [pausedCount_eraseIdx ht, hs, hiff]
      omega
  | setPaused j paused =>
      simp only [step, Option.ite_none_right_eq_some, Option.some.injEq] at h
      obtain ⟨hj, rfl⟩ := h
      have ht := List.getElem?_eq_getElem hj
      have hiff : CountKept s (.setPaused j paused) ↔
          Torrent.count s.handles[j] = Torrent.count ⟨s.handles[j].name, paused⟩ := by
        cases paused <;> cases hp : s.handles[j].paused <;>
          simp [CountKept, ht, Torrent.count, hp]
      rw [hs, hiff]
      dsimp only
      rw [pausedCount_modify ht]
      omega
  | write path isEmpty | delete path =>
      obtain rfl := Option.some.inj h
      exact iff_of_true hs trivial

/-- **Every run in which the calls and the library keep the count** has it right
throughout, and no other run does: `m_paused` is the number of the paused torrents, and 0
just when there is none. -/
theorem paused_count_iff (isClient : Bool) (files : List TransferMetadata) (workDir : String)
    (disk : List (String × FileData)) {actions : List TorrentAction} {u : TorrentSession}
    (h : exec step (start isClient files workDir disk) actions = some u) :
    Always step PausedRight (start isClient files workDir disk) actions ↔
      Guarded step CountKept (start isClient files workDir disk) actions := by
  refine always_iff_guarded (fun s hs => hs)
    (fun s a t hs hok hstep => ?_) (fun s a t hs hbad hstep => ?_) ?_ h
  · exact pausedRight_iff.2 ((countRight_step hs.1 hstep).2 hok)
  · exact fun ht => hbad ((countRight_step hs.1 hstep).1 ht.1)
  · exact pausedRight_iff.2 rfl

/-- The torrent is resumed. -/
theorem paused_count_iff_resumed :
    ∃ u, exec step uploader (pausedRun ++ [.session (.resume 0 true false 4000)]) = some u ∧
      (Always step PausedRight uploader (pausedRun ++ [.session (.resume 0 true false 4000)]) ↔
        Guarded step CountKept uploader (pausedRun ++ [.session (.resume 0 true false 4000)])) := by
  refine ⟨_, (Option.some_get (by decide +kernel)).symm, paused_count_iff false _ "/work" []
    (Option.some_get (by decide +kernel)).symm⟩

/-- The torrent is cancelled while it is paused: there is none left, but the count stays at
1, and the uploader does not leave when its last peer does. -/
theorem count_blocks_exit :
    ∃ u, exec step uploader (pausedRun ++ [.session (.cancel 0 4000),
        .session (.finish (.cancel 0) true 5000), .session (.alert .peerDisconnected 6000)]) =
          some u ∧
      u.handles = [] ∧ u.session.peerNum = 0 ∧ u.session.paused = 1 ∧ u.session.done = false ∧
      ¬ PausedRight u :=
  ⟨_, (Option.some_get (by decide +kernel)).symm, by decide +kernel⟩

end TorrentSession

end Transfer
end SNBModules
