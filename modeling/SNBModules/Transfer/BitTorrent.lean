import Mathlib.Data.Finset.Insert
import Mathlib.Data.Finset.Lattice.Basic
import SNBModules.Lib.Runs
import SNBModules.Transfer.SessionSetup

/-!
# The BitTorrent interface and its worker

Source: `transfer_interface_bittorrent.hpp` and
`transfer_interface_bittorrent.cpp`, with the calls of `transfer_session.cpp`
that go into it.

The worker pops alerts of the library and does with each what its kind asks for.
An alert names a torrent, and the worker looks the record of the file up by that
name in `m_filename_to_metadata`, which the calls of the session fill and erase.
`operator[]` makes a null pointer where there is no entry, and what the worker does
with it next is undefined.

Calls and alerts interleave.  A call that adds a torrent or waits for one to be
removed is taken in two parts, one on each side of that, and an alert comes between
them as it likes.  What the calls find out about the library (whether a torrent
file loads, whether a torrent is in the session) is chosen freely.  The torrent of
a file bears its name, and a record is known by its place among the files of the
session.  The clock shows one time in an action.  A call that the session refuses
changes nothing and is left out.

An alert is one step here, and `save_resume_data` does not throw.  `BitTorrentWorker`
takes the alerts apart, and has the torrents that the library lets go of.
-/

namespace SNBModules
namespace Transfer

open Lib TransferSession

namespace BitTorrent

/-! ## Alerts -/

/-- `torrent_status::state_t`; what the worker does not tell apart is `other`. -/
inductive TorrentState where
  | checkingFiles
  | downloadingMetadata
  | downloading
  | finished
  | seeding
  | checkingResumeData
  | other
  deriving DecidableEq, Repr

/-- What the worker reads of a `torrent_status`. -/
structure TorrentStatus where
  name : String
  state : TorrentState
  totalDone : ℕ
  deriving DecidableEq, Repr

/-- The alerts that the worker acts on. -/
inductive Alert where
  | addTorrent (torrent : String)
  | torrentPaused (torrent : String)
  | torrentFinished (torrent : String)
  | torrentError (torrent : String)
  | saveResumeData (torrent : String)
  | saveResumeDataFailed (torrent : String)
  | peerConnect
  | peerError
  | peerDisconnected
  | stateUpdate (status : List TorrentStatus)
  deriving DecidableEq, Repr

namespace Alert

/-- The torrents that an alert names. -/
def torrents : Alert → List String
  | addTorrent t | torrentPaused t | torrentFinished t | torrentError t | saveResumeData t
  | saveResumeDataFailed t => [t]
  | peerConnect | peerError | peerDisconnected => []
  | stateUpdate status => status.map TorrentStatus.name

/-- The names that the worker looks up for it. -/
def lookups : Alert → List String
  | torrentFinished t => [t]
  | stateUpdate status => status.map TorrentStatus.name
  | _ => []

/-- The outcome of `save_resume_data`, after which the worker leaves if it is done. -/
def isResumeData : Alert → Bool
  | saveResumeData _ | saveResumeDataFailed _ => true
  | _ => false

end Alert

/-! ## The state -/

/-- Whether the worker is in its loop, has left it, or has used a null pointer. -/
inductive Phase where
  | working
  | left
  | fault
  deriving DecidableEq, Repr

/-- The calls between their two parts: before the registration of the file, after
it, and before its removal. -/
inductive Pending where
  | upload (i : ℕ)
  | download (i : ℕ)
  | resume (i : ℕ)
  | cancel (i : ℕ)
  deriving DecidableEq, Repr

/-- What the library was asked for and has told: the torrents that were handed to
`async_add_torrent`, and those whose alerts the worker has had. -/
structure Torrents where
  posted : Finset String
  added : Finset String
  finished : Finset String
  errored : Finset String
  deriving DecidableEq

/-- The files of a session with its interface, the worker and the library. -/
structure State where
  isClient : Bool
  files : List TransferMetadata
  filenameToMetadata : List (String × Option ℕ)
  torrentNum : ℤ
  peerNum : ℤ
  paused : ℤ
  done : Bool
  finishedTorrents : ℤ
  phase : Phase
  pending : List Pending
  torrents : Torrents
  deriving DecidableEq

/-- A session before its first call. -/
def start (isClient : Bool) (files : List TransferMetadata) : State :=
  ⟨isClient, files, [], 0, 0, 0, false, 0, .working, [], ⟨∅, ∅, ∅, ∅⟩⟩

/-- `get_file_name` of a file of the session. -/
def nameOf (files : List TransferMetadata) (i : ℕ) : Option String :=
  files[i]?.map fun m => fileName m.filePath

/-! ## The worker -/

namespace State

/-- Work on the record that `m_filename_to_metadata[name]` points to. -/
def withFile (name : String) (f : TransferMetadata → TransferMetadata) (s : State) : State :=
  match getOrNew none name s.filenameToMetadata with
  | some i => { s with files := s.files.modify i f }
  | none =>
      { s with
        filenameToMetadata := assign name none s.filenameToMetadata
        phase := .fault }

/-- The status that a state of a torrent is shown as. -/
def shownAs (isClient : Bool) : TorrentState → Option Status
  | .checkingFiles => some .checking
  | .downloadingMetadata => some .preparing
  | .downloading => some .downloading
  | .finished => some .finished
  | .seeding => some (if isClient then .finished else .uploading)
  | .checkingResumeData => some .checking
  | .other => none

/-- The record after a `torrent_status`; a paused one keeps its status. -/
def readStatus (isClient : Bool) (now : ℤ) (u : TorrentStatus) (m : TransferMetadata) :
    TransferMetadata :=
  let m := if m.status ≠ .paused then
      ((shownAs isClient u.state).map fun status => m.setStatus now status).getD m
    else m
  m.setBytesTransferred u.totalDone

/-- One turn of the loop over a `state_update_alert`. -/
def updateFile (now : ℤ) (s : State) (u : TorrentStatus) : State :=
  if s.phase = .fault then s else s.withFile u.name (readStatus s.isClient now u)

/-- What the exit does with a record. -/
def closeFile (isClient : Bool) (now : ℤ) (m : TransferMetadata) : TransferMetadata :=
  if !isClient then m.setStatus now .finished
  else if m.status ≠ .finished then
    (m.setStatus now .error).setErrorCode "Transfer interrupted"
  else m

/-- One turn of the loop at the label `done`. -/
def closeEntry (now : ℤ) (s : State) (entry : String × Option ℕ) : State :=
  match entry.2 with
  | some i => { s with files := s.files.modify i (closeFile s.isClient now) }
  | none => { s with phase := .fault }

/-- From the label `done` on. -/
def leave (now : ℤ) (s : State) : State :=
  s.filenameToMetadata.foldl (closeEntry now) { s with phase := .left }

/-- The counter of the torrents that have ended, and `m_done` if these are all. -/
def countEnd (s : State) : State :=
  { s with
    finishedTorrents := s.finishedTorrents + 1
    done := s.done || (s.finishedTorrents + 1 = s.torrentNum && s.isClient) }

/-- The record of a torrent that has finished. -/
def finishFile (now : ℤ) (m : TransferMetadata) : TransferMetadata :=
  (m.setStatus now .finished).setBytesTransferred m.bytesSize

/-- What `do_work` does with an alert. -/
def handle (now : ℤ) (s : State) : Alert → State
  | .addTorrent _ => { s with torrentNum := s.torrentNum + 1 }
  | .torrentPaused _ => s
  | .torrentFinished t => (s.withFile t (finishFile now)).countEnd
  | .torrentError _ => s.countEnd
  | .saveResumeData _ => if s.done then s.leave now else s
  | .saveResumeDataFailed _ => if s.done then s.leave now else s
  | .peerConnect => { s with peerNum := s.peerNum + 1, done := false }
  | .peerError =>
      { s with
        peerNum := s.peerNum - 1
        done := s.done || (s.peerNum - 1 = 0 && s.paused = 0 && !s.isClient) }
  | .peerDisconnected =>
      { s with
        peerNum := s.peerNum - 1
        done := s.done || (s.peerNum - 1 ≤ 0 && s.paused = 0 && !s.isClient) }
  | .stateUpdate status => status.foldl (updateFile now) s

/-! ## The calls -/

/-- The type of the session. -/
def type (s : State) : SessionType := if s.isClient then .downloader else .uploader

/-- Work on a record of the session. -/
def modify (i : ℕ) (f : TransferMetadata → TransferMetadata) (s : State) : State :=
  { s with files := s.files.modify i f }

/-- `m_filename_to_metadata[f_meta.get_file_name()] = &f_meta`. -/
def register (name : String) (i : ℕ) (s : State) : State :=
  { s with filenameToMetadata := assign name (some i) s.filenameToMetadata }

/-- `m_filename_to_metadata.erase(f_meta.get_file_name())`. -/
def unregister (name : String) (s : State) : State :=
  { s with filenameToMetadata := remove name s.filenameToMetadata }

/-- `async_add_torrent`. -/
def post (name : String) (s : State) : State :=
  { s with torrents := { s.torrents with posted := insert name s.torrents.posted } }

/-- A call of the interface has begun. -/
def await (c : Pending) (s : State) : State := { s with pending := c :: s.pending }

/-- A call that fails: the interface tells why, and the session sets `ERROR`. -/
def fail (i : ℕ) (now : ℤ) (errorCode : String) (s : State) : State :=
  s.modify i fun m => (m.setErrorCode errorCode).setStatus now .error

end State

/-! ## Runs -/

/-- A part of a call, an alert that the worker pops, or the end of the session.  A
`resume_file` that `load_file` or `read_resume_data` throws out of is `resumeThrows`. -/
inductive Action where
  | upload (i : ℕ) (loaded : Bool) (now : ℤ)
  | download (i : ℕ) (now : ℤ)
  | resume (i : ℕ) (found loaded : Bool) (now : ℤ)
  | resumeThrows (i : ℕ) (now : ℤ)
  | cancel (i : ℕ) (now : ℤ)
  | pause (i : ℕ) (found : Bool) (now : ℤ)
  | finish (c : Pending) (ok : Bool) (now : ℤ)
  | alert (a : Alert) (now : ℤ)
  | stop (now : ℤ)
  deriving DecidableEq, Repr

/-- The first part of a call on the file `i`, whose record is `m`. -/
def call (s : State) (m : TransferMetadata) : Action → Option State
  | .upload i loaded now =>
      if m.status = .waiting then
        let s := s.modify i (·.setStatus now .uploading)
        some (if loaded then (s.post (fileName m.filePath)).await (.upload i)
          else s.fail i now "failed to add torrent to session")
      else none
  | .download i now =>
      if m.status = .waiting then
        let s := s.modify i (·.setStatus now .downloading)
        some ((s.register (fileName m.filePath) i).await (.download i))
      else none
  | .resume i found loaded now =>
      if m.status = .paused then
        let s := s.modify i (·.setStatus now (resumedStatus s.type))
        some (if found then { s with paused := s.paused - 1 }
          else if loaded then (s.register (fileName m.filePath) i).await (.resume i)
          else s.fail i now "failed to load resume data")
      else none
  -- the exception comes out of the session too, which has set the status before
  | .resumeThrows i now =>
      if m.status = .paused then some (s.modify i (·.setStatus now (resumedStatus s.type)))
      else none
  | .cancel i now =>
      if canCancel m.status then
        some ((s.modify i (·.setStatus now .cancelled)).await (.cancel i))
      else none
  | .pause i found now =>
      if canPause m.status then
        let s := s.modify i (·.setStatus now .paused)
        some (if found then { s with paused := s.paused + 1 } else s)
      else none
  | _ => none

/-- The second part of a call; only the magnet link of a download can be refused. -/
def complete (s : State) (name : String) (ok : Bool) (now : ℤ) : Pending → State
  | .upload i => s.register name i
  | .download i =>
      if ok then s.post name
      else (s.unregister name).fail i now "failed to add magnet link to session"
  | .resume _ => s.post name
  | .cancel _ => s.unregister name

/-- The file of a call. -/
def Pending.file : Pending → ℕ
  | upload i | download i | resume i | cancel i => i

/-- The file that an action is a call on. -/
def Action.file? : Action → Option ℕ
  | upload i _ _ | download i _ | resume i _ _ _ | resumeThrows i _ | cancel i _ | pause i _ _ =>
      some i
  | finish c _ _ => some c.file
  | alert _ _ | stop _ => none

/-- The library tells only of torrents that it was asked for. -/
def Tellable (r : Torrents) (a : Alert) : Prop := ∀ t ∈ a.torrents, t ∈ r.posted

instance (r : Torrents) (a : Alert) : Decidable (Tellable r a) :=
  inferInstanceAs (Decidable (∀ t ∈ a.torrents, t ∈ r.posted))

/-- What it has told then. -/
def Torrents.tell (r : Torrents) : Alert → Torrents
  | .addTorrent t => { r with added := insert t r.added }
  | .torrentFinished t => { r with finished := insert t r.finished }
  | .torrentError t => { r with errored := insert t r.errored }
  | _ => r

/-- One action. -/
def step (s : State) : Action → Option State
  | .alert a now =>
      if s.phase = .working ∧ Tellable s.torrents a then
        let s := s.handle now a
        some { s with torrents := s.torrents.tell a }
      else none
  | .stop now => if s.phase = .working then some ({ s with done := true }.leave now) else none
  | .finish c ok now =>
      if c ∈ s.pending then
        (nameOf s.files c.file).map fun name =>
          complete { s with pending := s.pending.erase c } name ok now c
      else none
  | a => a.file?.bind fun i => s.files[i]?.bind fun m => call s m a

/-- **What an action can be:** the first part of a call, its second part, an alert, or
the end. -/
theorem step_cases {s s' : State} {a : Action} (h : step s a = some s') :
    (∃ i m, a.file? = some i ∧ s.files[i]? = some m ∧ call s m a = some s') ∨
    (∃ c ok now name, a = .finish c ok now ∧ c ∈ s.pending ∧ nameOf s.files c.file = some name ∧
      s' = complete { s with pending := s.pending.erase c } name ok now c) ∨
    (∃ al now, a = .alert al now ∧ s.phase = .working ∧ Tellable s.torrents al ∧
      s' = { s.handle now al with torrents := (s.handle now al).torrents.tell al }) ∨
    (∃ now, a = .stop now ∧ s.phase = .working ∧ s' = { s with done := true }.leave now) := by
  cases a with
  | upload i | download i | resume i | resumeThrows i | cancel i | pause i =>
      obtain ⟨m, hm, hcall⟩ := Option.bind_eq_some_iff.1 h
      exact Or.inl ⟨i, m, rfl, hm, hcall⟩
  | finish c ok now =>
      simp only [step, Option.ite_none_right_eq_some, Option.map_eq_some_iff] at h
      obtain ⟨hc, name, hname, rfl⟩ := h
      exact Or.inr (Or.inl ⟨c, ok, now, name, rfl, hc, hname, rfl⟩)
  | alert al now =>
      simp only [step, Option.ite_none_right_eq_some, Option.some.injEq] at h
      obtain ⟨⟨hphase, htell⟩, rfl⟩ := h
      exact Or.inr (Or.inr (Or.inl ⟨al, now, rfl, hphase, htell, rfl⟩))
  | stop now =>
      simp only [step, Option.ite_none_right_eq_some, Option.some.injEq] at h
      obtain ⟨hphase, rfl⟩ := h
      exact Or.inr (Or.inr (Or.inr ⟨now, rfl, hphase, rfl⟩))

/-! ## What the worker leaves as it is -/

/-- A change of a record that keeps its path. -/
def KeepsPath (f : TransferMetadata → TransferMetadata) : Prop := ∀ m, (f m).filePath = m.filePath

theorem setStatus_keepsPath (now : ℤ) (status : Status) :
    KeepsPath (TransferMetadata.setStatus now status) := by
  intro m
  simp only [TransferMetadata.setStatus, TransferMetadata.flag]
  split_ifs <;> rfl

/-- The names of the files do not change with their records. -/
theorem nameOf_modify {f : TransferMetadata → TransferMetadata} (hf : KeepsPath f)
    (files : List TransferMetadata) (i : ℕ) : nameOf (files.modify i f) = nameOf files := by
  funext j
  rw [nameOf, nameOf, List.getElem?_modify]
  cases files[j]? with
  | none => rfl
  | some m =>
      by_cases hij : i = j
      · simp [hij, hf m]
      · simp [hij]

namespace State

theorem readStatus_keepsPath (isClient : Bool) (now : ℤ) (u : TorrentStatus) :
    KeepsPath (readStatus isClient now u) := by
  intro m
  simp only [readStatus]
  split_ifs with hpaused
  · cases shownAs isClient u.state with
    | none => rfl
    | some status => exact setStatus_keepsPath now status m
  · rfl

theorem finishFile_keepsPath (now : ℤ) : KeepsPath (finishFile now) :=
  fun m => setStatus_keepsPath now .finished m

theorem closeFile_keepsPath (isClient : Bool) (now : ℤ) : KeepsPath (closeFile isClient now) := by
  intro m
  rw [closeFile]
  split_ifs with hclient hstatus
  · exact setStatus_keepsPath now .finished m
  · exact setStatus_keepsPath now .error m
  · rfl

/-- What the worker does not touch: the entries of the map, the names of the files,
the calls that are going on and what it was told. -/
structure Frame (s s' : State) : Prop where
  entries : s'.filenameToMetadata = s.filenameToMetadata
  names : nameOf s'.files = nameOf s.files
  isClient : s'.isClient = s.isClient
  pending : s'.pending = s.pending
  torrents : s'.torrents = s.torrents
  phase : s.phase ≠ .fault → s'.phase ≠ .fault

theorem Frame.refl (s : State) : Frame s s := ⟨rfl, rfl, rfl, rfl, rfl, id⟩

theorem Frame.trans {s t u : State} (h : Frame s t) (h' : Frame t u) : Frame s u where
  entries := h'.entries.trans h.entries
  names := h'.names.trans h.names
  isClient := h'.isClient.trans h.isClient
  pending := h'.pending.trans h.pending
  torrents := h'.torrents.trans h.torrents
  phase := h'.phase ∘ h.phase

theorem modify_frame {f : TransferMetadata → TransferMetadata} (hf : KeepsPath f) (i : ℕ)
    (s : State) : Frame s (s.modify i f) :=
  ⟨rfl, nameOf_modify hf s.files i, rfl, rfl, rfl, id⟩

theorem countEnd_frame (s : State) : Frame s s.countEnd := ⟨rfl, rfl, rfl, rfl, rfl, id⟩

/-- A lookup that finds a pointer. -/
theorem withFile_of_some {name : String} {s : State} {i : ℕ}
    (h : getOrNew none name s.filenameToMetadata = some i)
    (f : TransferMetadata → TransferMetadata) : s.withFile name f = s.modify i f := by
  simp only [withFile, h]
  rfl

/-- A lookup that finds none. -/
theorem withFile_of_none {name : String} {s : State}
    (h : getOrNew none name s.filenameToMetadata = none) (f : TransferMetadata → TransferMetadata) :
    (s.withFile name f).phase = .fault := by
  simp only [withFile, h]

/-- The loop over a `state_update_alert` that finds every file, with what its turns
keep. -/
theorem foldl_updateFile {P : State → Prop} {now : ℤ} {status : List TorrentStatus}
    (hP : ∀ (s : State) (i : ℕ), ∀ u ∈ status, P s →
      getOrNew none u.name s.filenameToMetadata = some i →
        P (s.modify i (readStatus s.isClient now u))) {s : State}
    (hfound : ∀ u ∈ status, (getOrNew none u.name s.filenameToMetadata).isSome) (hs : P s)
    (hphase : s.phase ≠ .fault) :
    P (status.foldl (updateFile now) s) ∧ Frame s (status.foldl (updateFile now) s) := by
  induction status generalizing s with
  | nil => exact ⟨hs, Frame.refl s⟩
  | cons u status ih =>
      obtain ⟨i, hi⟩ := Option.isSome_iff_exists.1 (hfound u List.mem_cons_self)
      have hturn : updateFile now s u = s.modify i (readStatus s.isClient now u) := by
        rw [updateFile, if_neg hphase, withFile_of_some hi]
      have hframe := modify_frame (readStatus_keepsPath s.isClient now u) i s
      rw [List.foldl_cons, hturn]
      obtain ⟨hlast, hrest⟩ := ih (s := s.modify i (readStatus s.isClient now u))
        (fun t j v hv => hP t j v (List.mem_cons_of_mem u hv))
        (fun v hv => hfound v (List.mem_cons_of_mem u hv)) (hP s i u List.mem_cons_self hs hi)
        hphase
      exact ⟨hlast, hframe.trans hrest⟩

/-- The loop does not go on after a fault. -/
theorem foldl_updateFile_fault (now : ℤ) (status : List TorrentStatus) {s : State}
    (h : s.phase = .fault) : status.foldl (updateFile now) s = s := by
  induction status with
  | nil => rfl
  | cons u status ih => rw [List.foldl_cons, updateFile, if_pos h, ih]

/-- A file that is not found ends in one. -/
theorem foldl_updateFile_missing (now : ℤ) {status : List TorrentStatus} {s : State}
    (h : ∃ u ∈ status, getOrNew none u.name s.filenameToMetadata = none) :
    (status.foldl (updateFile now) s).phase = .fault := by
  induction status generalizing s with
  | nil =>
      obtain ⟨u, hu, -⟩ := h
      cases hu
  | cons u status ih =>
      rw [List.foldl_cons, updateFile]
      split_ifs with hphase
      · rw [foldl_updateFile_fault now status hphase, hphase]
      · cases hu : getOrNew none u.name s.filenameToMetadata with
        | none =>
            rw [foldl_updateFile_fault now status (withFile_of_none hu _), withFile_of_none hu]
        | some i =>
            rw [withFile_of_some hu]
            refine ih ?_
            obtain ⟨v, hv, hnone⟩ := h
            rcases List.mem_cons.1 hv with rfl | hv
            · rw [hu] at hnone
              cases hnone
            · exact ⟨v, hv, hnone⟩

/-- The loop at the label `done` over entries without null pointer. -/
theorem foldl_closeEntry {P : State → Prop} {now : ℤ} {entries : List (String × Option ℕ)}
    (hP : ∀ (s : State) (i : ℕ), P s → (∃ name, (name, some i) ∈ entries) →
      P (s.modify i (closeFile s.isClient now))) {s : State}
    (hfound : ∀ e ∈ entries, e.2.isSome) (hs : P s) :
    P (entries.foldl (closeEntry now) s) ∧ Frame s (entries.foldl (closeEntry now) s) := by
  induction entries generalizing s with
  | nil => exact ⟨hs, Frame.refl s⟩
  | cons e entries ih =>
      obtain ⟨i, hi⟩ := Option.isSome_iff_exists.1 (hfound e List.mem_cons_self)
      have hturn : closeEntry now s e = s.modify i (closeFile s.isClient now) := by
        simp only [closeEntry, hi]
        rfl
      have hframe := modify_frame (closeFile_keepsPath s.isClient now) i s
      rw [List.foldl_cons, hturn]
      have hentry : ∃ name, (name, some i) ∈ e :: entries := ⟨e.1, hi ▸ List.mem_cons_self⟩
      obtain ⟨hlast, hrest⟩ := ih (s := s.modify i (closeFile s.isClient now))
        (fun t j ht hj => hP t j ht (hj.imp fun _ hname => List.mem_cons_of_mem e hname))
        (fun v hv => hfound v (List.mem_cons_of_mem e hv)) (hP s i hs hentry)
      exact ⟨hlast, hframe.trans hrest⟩

/-- The exit, when no pointer is null. -/
theorem leave_frame (now : ℤ) {s : State} (hfound : ∀ e ∈ s.filenameToMetadata, e.2.isSome) :
    Frame { s with phase := .left } (s.leave now) :=
  (foldl_closeEntry (P := fun _ => True) (fun _ _ _ _ => trivial) hfound trivial).2

/-- **What the worker does with an alert** whose names it finds touches records and
its own counters only. -/
theorem handle_frame (now : ℤ) {a : Alert} {s : State} (hphase : s.phase = .working)
    (hfound : ∀ e ∈ s.filenameToMetadata, e.2.isSome)
    (hnames : ∀ name ∈ a.lookups, (getOrNew none name s.filenameToMetadata).isSome) :
    Frame s (s.handle now a) := by
  have hworking : s.phase ≠ .fault := by rw [hphase]; exact fun h => Phase.noConfusion h
  have hleave : Frame s (s.leave now) :=
    ⟨(leave_frame now hfound).entries, (leave_frame now hfound).names,
      (leave_frame now hfound).isClient, (leave_frame now hfound).pending,
      (leave_frame now hfound).torrents,
      fun _ => (leave_frame now hfound).phase fun h => Phase.noConfusion h⟩
  cases a with
  | torrentFinished t =>
      obtain ⟨i, hi⟩ := Option.isSome_iff_exists.1 (hnames t List.mem_cons_self)
      rw [handle, withFile_of_some hi]
      exact (modify_frame (finishFile_keepsPath now) i s).trans (countEnd_frame _)
  | saveResumeData t | saveResumeDataFailed t =>
      rw [handle]
      split_ifs
      · exact hleave
      · exact Frame.refl s
  | stateUpdate status =>
      refine (foldl_updateFile (P := fun _ => True) (fun _ _ _ _ _ _ => trivial) (fun u hu => ?_)
        trivial hworking).2
      exact hnames u.name (List.mem_map_of_mem hu)
  | addTorrent t => exact ⟨rfl, rfl, rfl, rfl, rfl, id⟩
  | torrentPaused t => exact Frame.refl s
  | torrentError t => exact countEnd_frame s
  | peerConnect | peerError | peerDisconnected => exact ⟨rfl, rfl, rfl, rfl, rfl, id⟩

/-- An alert with a name that is not found ends in a fault. -/
theorem handle_missing (now : ℤ) {a : Alert} {s : State}
    (h : ∃ name ∈ a.lookups, getOrNew none name s.filenameToMetadata = none) :
    (s.handle now a).phase = .fault := by
  obtain ⟨name, hname, hnone⟩ := h
  cases a with
  | torrentFinished t =>
      obtain rfl := List.mem_singleton.1 hname
      exact withFile_of_none hnone _
  | stateUpdate status =>
      obtain ⟨u, hu, rfl⟩ := List.mem_map.1 hname
      exact foldl_updateFile_missing now ⟨u, hu, hnone⟩
  | addTorrent t | torrentPaused t | torrentError t | saveResumeData t | saveResumeDataFailed t
  | peerConnect | peerError | peerDisconnected => cases hname

end State

end BitTorrent

end Transfer
end SNBModules
