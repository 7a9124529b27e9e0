import SNBModules.Lib.AndLoop
import SNBModules.Transfer.Group
import SNBModules.Transfer.Notification

/-!
# Transfer sessions

Source: `transfer_session.hpp`, `transfer_session.cpp` and
`transfer_interface_abstract.hpp`.

A session holds the records of its group, one object for each file, and drives
them through a `TransferInterface`.  The file operations have one shape
(`fileOperation`): refuse a file by its status, set the target status, call the
interface, and fall back to `ERROR`.  The group commands and the updates of the
bookkeepers are loops that fold `result = result && …`.
-/

namespace SNBModules
namespace Transfer

open Lib

/-- `TransferInterfaceAbstract`: each operation may change the interface's own
state `σ` and the record that it is given, and returns whether it succeeded. -/
structure TransferInterface (σ : Type) where
  uploadFile : σ → TransferMetadata → σ × TransferMetadata × Bool
  downloadFile : String → σ → TransferMetadata → σ × TransferMetadata × Bool
  pauseFile : σ → TransferMetadata → σ × TransferMetadata × Bool
  resumeFile : σ → TransferMetadata → σ × TransferMetadata × Bool
  hashFile : σ → TransferMetadata → σ × TransferMetadata × Bool
  cancelFile : σ → TransferMetadata → σ × TransferMetadata × Bool

/-- `TransferInterfaceDummy`. -/
def TransferInterface.dummy : TransferInterface Unit where
  uploadFile := fun _ m => ((), m, true)
  downloadFile := fun _ _ m => ((), m, true)
  pauseFile := fun _ m => ((), m, true)
  resumeFile := fun _ m => ((), m, true)
  hashFile := fun _ m => ((), m, true)
  cancelFile := fun _ m => ((), m, true)

/-- `e_session_type`. -/
inductive SessionType where
  | downloader
  | uploader
  deriving DecidableEq, Repr

/-- `TransferSession`, without its transfer interface. -/
structure TransferSession where
  type : SessionType
  sessionId : String
  ip : IPFormat
  transferOptions : GroupMetadata TransferMetadata
  workDir : String
  targetClients : List String
  connections : NotificationInterface

/-- What a session works in: the world outside, and its transfer interface. -/
structure Host (σ : Type) where
  world : World
  interface : σ

namespace TransferSession

variable {σ : Type}

/-- `get_bookkeepers_conn`. -/
def bookkeepersConn (s : TransferSession) : List String := s.connections.bookkeepersConn

/-- The records behind `get_transfers_meta`. -/
def files (s : TransferSession) : List TransferMetadata := s.transferOptions.transfersMeta

/-- The session after its records have changed. -/
def withFiles (s : TransferSession) (files : List TransferMetadata) : TransferSession :=
  { s with transferOptions := s.transferOptions.setTransfersMeta files }

/-! ## Updates of the bookkeepers -/

/-- One turn of the loop of `update_metadata_to_bookkeeper`. -/
def sendMetadata (s : TransferSession) (env : Env) (dump : Json → String)
    (p : World × TransferMetadata) (bk : String) : (World × TransferMetadata) × Bool :=
  let e := p.2.exportToStringPartial dump false
  let q := s.connections.sendNotification env .transferMetadata s.sessionId bk bk e.1 (-1) p.1
  ((q.1, e.2), q.2)

/-- `update_metadata_to_bookkeeper`. -/
def updateMetadataToBookkeeper (s : TransferSession) (env : Env) (dump : Json → String)
    (w : World) (m : TransferMetadata) : World × TransferMetadata × Bool :=
  let p := andLoop (s.sendMetadata env dump) true (w, m) s.bookkeepersConn
  (p.1.1, p.1.2, p.2)

/-- One turn of the first loop of `update_metadatas_to_bookkeeper`. -/
def sendGroup (s : TransferSession) (env : Env) (dump : Json → String) (w : World) (bk : String) :
    World × Bool :=
  s.connections.sendNotification env .groupMetadata s.sessionId bk bk
    (s.transferOptions.exportToString dump TransferMetadata.filePath) (-1) w

/-- `update_metadatas_to_bookkeeper`. -/
def updateMetadatasToBookkeeper (s : TransferSession) (env : Env) (dump : Json → String)
    (w : World) : World × TransferSession × Bool :=
  let p := andLoop (s.sendGroup env dump) true w s.bookkeepersConn
  let q := andEach (s.updateMetadataToBookkeeper env dump) p.2 p.1 s.files
  (q.1, s.withFiles q.2.1, q.2.2)

/-- `send_notification_to_targets`: every target is sent to, whatever became of
the others. -/
def sendNotificationToTargets (s : TransferSession) (env : Env) (type : NotificationType)
    (data : String) (w : World) : World × Bool :=
  s.targetClients.foldl (fun p client =>
    let sessionName := client ++ "_ses" ++ s.transferOptions.groupId
    let q := s.connections.sendNotification env type s.sessionId sessionName client data (-1) p.1
    (q.1, p.2 && q.2)) (w, true)

/-- What a session sends to its targets. -/
theorem posts_sendNotificationToTargets (s : TransferSession) (env : Env)
    (type : NotificationType) (data : String) (w : World) :
    s.connections.Posts w
      (s.targetClients.map fun client => (client, ⟨s.sessionId,
        client ++ "_ses" ++ s.transferOptions.groupId, notificationToString type, data⟩))
      (s.sendNotificationToTargets env type data w).1 := by
  rw [sendNotificationToTargets]
  generalize true = result
  induction s.targetClients generalizing w result with
  | nil => exact .refl _ _
  | cons client clients ih =>
      rw [List.foldl_cons, List.map_cons]
      exact (s.connections.posts_sendNotification env type _ _ _ data (-1) w).trans (ih _ _)

/-! ## Operations on a file -/

/-- The operations on a file: `allowed` are the statuses that they accept, `op` is
the call of the interface, and `notice` what the targets are told. -/
def fileOperation (s : TransferSession) (env : Env) (dump : Json → String)
    (allowed : Status → Bool) (target : Status)
    (op : σ → TransferMetadata → σ × TransferMetadata × Bool) (notice : Option NotificationType)
    (isMultiple : Bool) (h : Host σ) (m : TransferMetadata) :
    Host σ × TransferMetadata × Bool :=
  if allowed m.status then
    let m := m.setStatus (h.world.now env) target
    let w := h.world.tick
    let p := op h.interface m
    let m := if p.2.2 then p.2.1 else p.2.1.setStatus (w.now env) .error
    let w := if p.2.2 then w else w.tick
    if isMultiple then
      (⟨w, p.1⟩, m, p.2.2)
    else
      let w := match notice with
        | some type => (s.sendNotificationToTargets env type m.filePath w).1
        | none => w
      let q := s.updateMetadataToBookkeeper env dump w m
      (⟨q.1, p.1⟩, q.2.1, p.2.2)
  else
    (h, m, false)

variable (s : TransferSession) (interface : TransferInterface σ) (env : Env) (dump : Json → String)

/-- The statuses that `pause_file` accepts. -/
def canPause (status : Status) : Bool := status = .downloading || status = .uploading

/-- The statuses that `cancel_file` accepts. -/
def canCancel (status : Status) : Bool := status ≠ .finished && status ≠ .cancelled

/-- The status that `resume_file` sets. -/
def resumedStatus : SessionType → Status
  | .downloader => .downloading
  | .uploader => .uploading

/-- `pause_file`. -/
def pauseFile (isMultiple : Bool) (h : Host σ) (m : TransferMetadata) :
    Host σ × TransferMetadata × Bool :=
  s.fileOperation env dump canPause .paused interface.pauseFile (some .pauseTransfer) isMultiple h m

/-- `resume_file`. -/
def resumeFile (isMultiple : Bool) (h : Host σ) (m : TransferMetadata) :
    Host σ × TransferMetadata × Bool :=
  s.fileOperation env dump (· = .paused) (resumedStatus s.type) interface.resumeFile
    (some .resumeTransfer) isMultiple h m

/-- `hash_file`. -/
def hashFile (isMultiple : Bool) (h : Host σ) (m : TransferMetadata) :
    Host σ × TransferMetadata × Bool :=
  s.fileOperation env dump (· = .finished) .hashing interface.hashFile none isMultiple h m

/-- `cancel_file`. -/
def cancelFile (isMultiple : Bool) (h : Host σ) (m : TransferMetadata) :
    Host σ × TransferMetadata × Bool :=
  s.fileOperation env dump canCancel .cancelled interface.cancelFile (some .cancelTransfer)
    isMultiple h m

/-- `upload_file`; a session of the other type is only warned about. -/
def uploadFile (isMultiple : Bool) (h : Host σ) (m : TransferMetadata) :
    Host σ × TransferMetadata × Bool :=
  s.fileOperation env dump (· = .waiting) .uploading interface.uploadFile (some .startTransfer)
    isMultiple h m

/-- `download_file`; a session of the other type is only warned about. -/
def downloadFile (dest : String) (isMultiple : Bool) (h : Host σ) (m : TransferMetadata) :
    Host σ × TransferMetadata × Bool :=
  s.fileOperation env dump (· = .waiting) .downloading (interface.downloadFile dest) none
    isMultiple h m

/-- `start_file`. -/
def startFile (h : Host σ) (m : TransferMetadata) : Host σ × TransferMetadata × Bool :=
  match s.type with
  | .downloader => s.downloadFile interface env dump s.workDir false h m
  | .uploader => s.uploadFile interface env dump false h m

/-! ## Group commands -/

/-- The messages to the targets, with their outcome dropped. -/
def tellTargets (type : NotificationType) (h : Host σ) : Host σ :=
  { h with world := (s.sendNotificationToTargets env type "" h.world).1 }

/-- The end of a group command: the records of `p`, sent to the bookkeepers, and
the result of its loop. -/
def reportAll (p : Host σ × List TransferMetadata × Bool) : Host σ × TransferSession × Bool :=
  let q := (s.withFiles p.2.1).updateMetadatasToBookkeeper env dump p.1.world
  ({ p.1 with world := q.1 }, q.2.1, p.2.2)

/-- `pause_all`. -/
def pauseAll (h : Host σ) : Host σ × TransferSession × Bool :=
  let h := s.tellTargets env .pauseTransfer h
  s.reportAll env dump (andEach (s.pauseFile interface env dump true) true h s.files)

/-- `resume_all`. -/
def resumeAll (h : Host σ) : Host σ × TransferSession × Bool :=
  let p := andEach (s.resumeFile interface env dump true) true h s.files
  s.reportAll env dump (s.tellTargets env .resumeTransfer p.1, p.2)

/-- `cancel_all`. -/
def cancelAll (h : Host σ) : Host σ × TransferSession × Bool :=
  let p := andEach (s.cancelFile interface env dump true) true h s.files
  s.reportAll env dump (s.tellTargets env .cancelTransfer p.1, p.2)

/-- `download_all`. -/
def downloadAll (dest : String) (h : Host σ) : Host σ × TransferSession × Bool :=
  s.reportAll env dump (andEach (s.downloadFile interface env dump dest true) true h s.files)

/-- `upload_all`. -/
def uploadAll (h : Host σ) : Host σ × TransferSession × Bool :=
  let p := andEach (s.uploadFile interface env dump true) true h s.files
  s.reportAll env dump (s.tellTargets env .startTransfer p.1, p.2)

/-- `start_all`. -/
def startAll (h : Host σ) : Host σ × TransferSession × Bool :=
  match s.type with
  | .downloader => s.downloadAll interface env dump s.workDir h
  | .uploader => s.uploadAll interface env dump h

end TransferSession

end Transfer
end SNBModules
