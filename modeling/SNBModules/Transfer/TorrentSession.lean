import SNBModules.Transfer.BitTorrent

/-!
# The torrents of the library and the work directory

Source: `transfer_interface_bittorrent.cpp`, `do_work`, `load_file`, `pause_file`,
`resume_file` and `cancel_file`.

To the session and its worker come the torrents that the library has and the files of
the work directory.  What `pause_file`, `resume_file` and `cancel_file` do to a torrent
they do to the first one with the name of the file, and what they find out about the
library is no longer free.

The library does what it likes with its torrents between the calls: a torrent that it
was asked for enters the session, or one that was there is dropped, paused or resumed.
Other files of the work directory come and go.
-/

namespace SNBModules
namespace Transfer

open Lib TransferSession

/-- A torrent of the library's session. -/
structure Torrent where
  name : String
  paused : Bool
  deriving DecidableEq, Repr

/-- What a file of the work directory has. -/
inductive FileData where
  | resumeData (torrent : String)
  | empty
  | other
  deriving DecidableEq, Repr

/-- A BitTorrent session with the torrents of the library, in the order of
`get_torrents`, and the files of the work directory. -/
structure TorrentSession where
  session : BitTorrent.State
  handles : List Torrent
  workDir : String
  disk : List (String × FileData)
  deriving DecidableEq

/-- The actions of the session and its worker, what the library does to its torrents
and what else becomes of the work directory. -/
inductive TorrentAction where
  | session (a : BitTorrent.Action)
  | enter (t : Torrent)
  | drop (j : ℕ)
  | setPaused (j : ℕ) (paused : Bool)
  | write (path : String) (isEmpty : Bool)
  | delete (path : String)
  deriving DecidableEq, Repr

namespace TorrentSession

/-- A session before its first call. -/
def start (isClient : Bool) (files : List TransferMetadata) (workDir : String)
    (disk : List (String × FileData)) : TorrentSession :=
  ⟨BitTorrent.start isClient files, [], workDir, disk⟩

/-! ## Torrents -/

/-- The loop over `get_torrents`, which ends at the first torrent with the name. -/
def withHandle (f : Torrent → List Torrent) (name : String) : List Torrent → List Torrent
  | [] => []
  | t :: l => if t.name = name then f t ++ l else t :: withHandle f name l

/-- The torrent that the loop ends at. -/
def handle? (s : TorrentSession) (i : ℕ) : Option Torrent :=
  (BitTorrent.nameOf s.session.files i).bind fun name => s.handles.find? (·.name = name)

/-- The torrents after a loop that is for a file of the session. -/
def onTorrent (s : TorrentSession) (f : Torrent → List Torrent) (i : ℕ) : List Torrent :=
  match BitTorrent.nameOf s.session.files i with
  | none => s.handles
  | some name => withHandle f name s.handles

/-- What a call does to the torrents. -/
def handlesAfter (s : TorrentSession) : BitTorrent.Action → List Torrent
  | .pause i _ _ => s.onTorrent (fun t => [{ t with paused := true }]) i
  | .resume i _ _ _ => s.onTorrent (fun t => [{ t with paused := false }]) i
  | .cancel i _ => s.onTorrent (fun _ => []) i
  | _ => s.handles

/-! ## Files -/

/-- Where `do_work` writes resume data. -/
def savedPath (workDir name : String) : String := appendPath workDir (".resume_file_" ++ name)

/-- Where `resume_file` loads them from. -/
def loadedPath (workDir name : String) : String := appendPath workDir (".resume_file" ++ name)

/-- Where `cancel_file` removes them. -/
def removedPath (workDir name : String) : String := appendPath workDir (".resume_file" ++ name)

/-- `load_file` and `read_resume_data`: whether the file has data, unless one of them
throws. -/
def load (s : TorrentSession) (name : String) : Option Bool :=
  match s.disk.lookup (loadedPath s.workDir name) with
  | none | some .other => none
  | some .empty => some false
  | some (.resumeData _) => some true

/-- The torrent files that an uploader's exit removes. -/
def leaveDisk (s : TorrentSession) : List (String × FileData) :=
  if s.session.isClient then s.disk
  else s.session.filenameToMetadata.foldl
    (fun disk e => remove (appendPath s.workDir (e.1 ++ ".torrent")) disk) s.disk

/-- What the worker does to the work directory with an alert, and the second part of a
`cancel_file`. -/
def diskAfter (s : TorrentSession) : BitTorrent.Action → List (String × FileData)
  | .alert (.saveResumeData t) _ =>
      let s := { s with disk := assign (savedPath s.workDir t) (.resumeData t) s.disk }
      if s.session.done then s.leaveDisk else s.disk
  | .alert (.saveResumeDataFailed _) _ => if s.session.done then s.leaveDisk else s.disk
  | .stop _ => s.leaveDisk
  | .finish (.cancel i) _ _ =>
      match BitTorrent.nameOf s.session.files i with
      | none => s.disk
      | some name =>
          let disk := remove (removedPath s.workDir name) s.disk
          if s.session.isClient then remove (appendPath s.workDir name) disk
          else remove (appendPath s.workDir (name ++ ".torrent")) disk
  | _ => s.disk

/-! ## Steps -/

/-- What a call finds out about the library and the work directory. -/
def Finds (s : TorrentSession) : BitTorrent.Action → Prop
  | .pause i found _ => found = (s.handle? i).isSome
  | .resume i found loaded _ =>
      found = (s.handle? i).isSome ∧
        (found = false → (BitTorrent.nameOf s.session.files i).bind s.load = some loaded)
  | .resumeThrows i _ =>
      (s.handle? i).isNone ∧ (BitTorrent.nameOf s.session.files i).bind s.load = none
  | _ => True

instance (s : TorrentSession) : ∀ a, Decidable (Finds s a)
  | .pause i found _ => inferInstanceAs (Decidable (found = (s.handle? i).isSome))
  | .resume i found loaded _ => inferInstanceAs (Decidable (found = (s.handle? i).isSome ∧
        (found = false → (BitTorrent.nameOf s.session.files i).bind s.load = some loaded)))
  | .resumeThrows i _ => inferInstanceAs (Decidable ((s.handle? i).isNone ∧
        (BitTorrent.nameOf s.session.files i).bind s.load = none))
  | .upload .. | .download .. | .cancel .. | .finish .. | .alert .. | .stop .. =>
      inferInstanceAs (Decidable True)

/-- One action. -/
def step (s : TorrentSession) : TorrentAction → Option TorrentSession
  | .session a =>
      if Finds s a then
        (BitTorrent.step s.session a).map fun session =>
          { s with session := session, handles := s.handlesAfter a, disk := s.diskAfter a }
      else none
  | .enter t => some { s with handles := s.handles ++ [t] }
  | .drop j =>
      if j < s.handles.length then some { s with handles := s.handles.eraseIdx j } else none
  | .setPaused j paused =>
      if j < s.handles.length then
        some { s with handles := s.handles.modify j fun t => { t with paused := paused } }
      else none
  | .write path isEmpty =>
      some { s with disk := assign path (if isEmpty then .empty else .other) s.disk }
  | .delete path => some { s with disk := remove path s.disk }

/-- What the session does it does by itself, with what it finds. -/
theorem step_session {s s' : TorrentSession} {a : BitTorrent.Action}
    (h : step s (.session a) = some s') :
    Finds s a ∧ BitTorrent.step s.session a = some s'.session ∧ s'.handles = s.handlesAfter a ∧
      s'.workDir = s.workDir ∧ s'.disk = s.diskAfter a := by
  simp only [step, Option.ite_none_right_eq_some, Option.map_eq_some_iff] at h
  obtain ⟨hfinds, session, hstep, rfl⟩ := h
  exact ⟨hfinds, hstep, rfl, rfl, rfl⟩

/-! ### One torrent -/

/-- A session that uploads a file. -/
def uploader : TorrentSession :=
  start false [{ TransferMetadata.blank with filePath := "/data/run1.raw" }] "/work" []

/-- The torrent of the file enters, a peer comes, and the file is paused. -/
def pausedRun : List TorrentAction :=
  [.session (.upload 0 true 1000), .session (.finish (.upload 0) true 1000),
    .enter ⟨"run1.raw", false⟩, .session (.alert .peerConnect 2000),
    .session (.pause 0 true 3000)]

end TorrentSession

end Transfer
end SNBModules
