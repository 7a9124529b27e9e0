import SNBModules.Transfer.Client
import SNBModules.Transfer.Import
import SNBModules.Transfer.JsonText

/-!
# What a client receives

Source: `transfer_client.cpp`, `scan_available_files`, `share_available_files` and
`action_on_receive_notification`.

A scan goes through a folder twice, first for the group files and then for all
others, and into the folders inside with the second time.  `Entry.visits` lists
the files in that order, and the scan is the run of the loop bodies over the list.
-/

namespace SNBModules
namespace Transfer

open Lib

/-! ## Folders -/

/-- What a directory iterator gives: files with their content, folders, folders that
cannot be opened, and anything else. -/
inductive Entry where
  | file (path content : String)
  | folder (path : String) (entries : List Entry)
  | unreadable (path : String)
  | other (path : String)

/-- One turn of the loops of a scan that does something: a group file, another file,
or a folder that cannot be opened. -/
inductive Visit where
  | group (path content : String)
  | file (path content : String)
  | unreadable
  deriving DecidableEq, Repr

/-- The turns of the first loop. -/
def groupVisits : List Entry → List Visit
  | [] => []
  | .file path content :: l =>
      if extension path = ".gmetadata" then .group path content :: groupVisits l
      else groupVisits l
  | _ :: l => groupVisits l

mutual

/-- The turns of a scan of the folder. -/
def Entry.visits (nested : Bool) : Entry → List Visit
  | .folder _ entries => groupVisits entries ++ fileVisits nested entries
  | _ => [.unreadable]

/-- The turns of the second loop. -/
def fileVisits (nested : Bool) : List Entry → List Visit
  | [] => []
  | .file path content :: l =>
      if extension path = ".gmetadata" then fileVisits nested l
      else .file path content :: fileVisits nested l
  | .folder path entries :: l =>
      (if nested then Entry.visits nested (.folder path entries) else []) ++ fileVisits nested l
  | .unreadable _ :: l => (if nested then [.unreadable] else []) ++ fileVisits nested l
  | .other _ :: l => fileVisits nested l

end

/-! ## Sets of paths -/

/-- `path::compare`, below zero. -/
def pathLess (a b : String) : Bool :=
  let x := pathElements a
  let y := pathElements b
  (!x.1 && y.1) || (x.1 == y.1 && decide (x.2 < y.2))

/-- `insert` into a set of paths: the set, and whether the path is new. -/
def insertPath (path : String) : List String → List String × Bool
  | [] => ([path], true)
  | q :: l =>
      if pathElements path = pathElements q then (q :: l, false)
      else if pathLess path q then (path :: q :: l, true)
      else
        let r := insertPath path l
        (q :: r.1, r.2)

/-- `erase`. -/
def erasePath (path : String) (l : List String) : List String :=
  l.filter fun q => pathElements q ≠ pathElements path

/-- A record that has arrived, added to a session under the session's address. -/
def OpenSession.receiveFile {σ : Type} (p : Platform σ) (m : TransferMetadata) (t : OpenSession σ)
    (w : World) : Except Fault (OpenSession σ × World) := do
  let m ← thrown (m.setDest t.session.ip)
  t.addFile p m w

/-! ## Scanning -/

namespace Site

variable {σ : Type} (p : Platform σ) (o : Outside σ)

/-- After a reading of the clock. -/
def tick (s : Site σ) : Site σ := { s with world := s.world.tick }

/-- Whether there is a session of the group. -/
def isActive (s : Site σ) (groupId : String) : Bool :=
  s.client.sessions.any fun t => t.session.transferOptions.groupId = groupId

/-- The session for a group file. -/
def createFileSession (g : GroupMetadata TransferMetadata) (s : Site σ) :
    Except Fault (Site σ) :=
  s.createSession p o g .uploader (s.client.generateSessionId g.groupId "")
    (appendPath s.client.listeningDir ("ses" ++ toString s.client.sessions.length)) .default []

/-- The body of the first loop, for a new file. -/
def scanGroup (content : String) (s : Site σ) : Except Fault (Site σ) := do
  let g ← thrown (GroupMetadata.ofString p.cwd p.parse content)
  if s.isActive g.groupId then .ok s else s.createFileSession p o g

/-- The body of the second loop, for a new record file: whether it was wanted. -/
def scanRecord (content : String) (s : Site σ) : Except Fault (Site σ × Bool) := do
  let m ← thrown (TransferMetadata.ofString p.cwd p.parse (s.world.now p.env) content)
  let s := s.tick
  match s.client.sessions.findIdx? fun t =>
      fileName m.filePath ∈ t.session.transferOptions.expectedFiles with
  | some i => do
      let s ← s.atSession i (OpenSession.addFile p m)
      .ok (s, true)
  | none => .ok (s, false)

/-- One turn, with the set of the files scanned before. -/
def visit (v : Visit) (q : Site σ × List String) : Except Fault (Site σ × List String) :=
  match v with
  | .unreadable => .error (.thrown .filesystemError)
  | .group path content =>
      let r := insertPath path q.2
      if r.2 then do
        let s ← q.1.scanGroup p o content
        .ok (s, r.1)
      else .ok q
  | .file path content =>
      let r := insertPath path q.2
      if r.2 then
        if extension path = ".tmetadata" then do
          let t ← q.1.scanRecord p content
          -- a file that nobody wants yet is to be found again
          .ok (t.1, if t.2 then r.1 else erasePath path r.1)
        else .ok (q.1, r.1)
      else .ok q

/-- `scan_available_files`. -/
def scanAvailableFiles (nested : Bool) (folder : Entry) (previousScan : List String)
    (s : Site σ) : (Site σ × List String) × Option Fault :=
  runSteps ((folder.visits nested).map (visit p o)) (s, previousScan)

/-- One turn of `share_available_files`. -/
def shareFile (dest f : String) (s : Site σ) : Except Fault (Site σ) := do
  let m ← createMetadataFromFile p o s.client.listeningIp f
  let s := { s with
    client := { s.client with availableFiles := insert f s.client.availableFiles } }
  .ok (s.send p .transferMetadata s.client.clientId dest dest
    (m.exportToStringPartial p.dump true).1)

/-! ## Handling notifications -/

/-- `CONNECTION_REQUEST`; `folder` is the listening directory. -/
def onConnectionRequest (folder : Entry) (sourceId : String) (s : Site σ) :
    Site σ × Option Fault :=
  match s.scanAvailableFiles p o true folder [] with
  | (q, some f) => (q.1, some f)
  | (q, none) =>
      runSteps (q.2.map (shareFile p o sourceId) ++
        [fun s => .ok (s.send p .transferMetadata s.client.clientId sourceId sourceId "end")]) q.1

/-- The type of the session for a group that expects these files. -/
def typeFor (s : Site σ) (expectedFiles : Finset String) : SessionType :=
  if (expectedFiles ∩ s.client.availableFiles).Nonempty then .uploader else .downloader

/-- `NEW_TRANSFER`. -/
def onNewTransfer (targetId data : String) (s : Site σ) : Except Fault (Site σ) := do
  let g ← thrown (GroupMetadata.ofString p.cwd p.parse data)
  s.createSession p o g (s.typeFor g.expectedFiles) targetId
    (appendPath s.client.listeningDir g.groupId) .default []

/-- The session that a record for `targetId` is added to. -/
def sessionFor (s : Site σ) (targetId : String) : Option ℕ :=
  s.client.sessions.findIdx? fun t => containsText t.session.sessionId targetId

/-- `TRANSFER_METADATA`. -/
def onTransferMetadata (targetId data : String) (s : Site σ) : Except Fault (Site σ) := do
  let m ← thrown (TransferMetadata.ofString p.cwd p.parse (s.world.now p.env) data)
  let s := s.tick
  match s.sessionFor targetId with
  | some i => s.atSession i (OpenSession.receiveFile p m)
  | none => .ok s

/-- The notifications that name a session: it is looked up, and warned about if it
is not there. -/
def onSession (targetId : String)
    (f : OpenSession σ → World → Except Fault (OpenSession σ × World)) (s : Site σ) :
    Except Fault (Site σ) :=
  match s.client.getSession targetId with
  | some i => s.atSession i f
  | none => .ok s

/-- The `switch` over the type of a notification. -/
def handle (folder : Entry) (type : NotificationType) (n : NotificationData) (s : Site σ) :
    Site σ × Option Fault :=
  match type with
  | .connectionRequest => s.onConnectionRequest p o folder n.sourceId
  | .newTransfer => runSteps [onNewTransfer p o n.targetId n.data] s
  | .transferMetadata => runSteps [onTransferMetadata p n.targetId n.data] s
  | .startTransfer => runSteps [onSession n.targetId (OpenSession.command p .start n.data)] s
  | .pauseTransfer => runSteps [onSession n.targetId (OpenSession.command p .pause n.data)] s
  | .resumeTransfer => runSteps [onSession n.targetId (OpenSession.command p .resume n.data)] s
  | .cancelTransfer => runSteps [onSession n.targetId (OpenSession.command p .cancel n.data)] s
  | .updateRequest => runSteps [onSession n.targetId (OpenSession.update p n.data)] s
  | .groupMetadata | .transferError => (s, none)

/-- `action_on_receive_notification`: the state that it leaves, and what it returns
or throws. -/
def actionOnReceiveNotification (folder : Entry) (n : NotificationData) (s : Site σ) :
    Site σ × Except Fault Bool :=
  if TransferClient.accepts s.client.clientId n = false then (s, .ok false)
  else
    match stringToNotification n.notification with
    | none => (s, .error (.thrown .badOptionalAccess))
    | some type =>
        match s.handle p o folder type n with
        | (s, none) => (s, .ok true)
        | (s, some f) => (s, .error f)

/-! ## What a turn of a scan leaves -/

variable {p o}

/-- The session whose expected files have the name of the file. -/
def sessionWanting (s : Site σ) (file : String) : Option ℕ :=
  s.client.sessions.findIdx? fun t =>
    fileName file ∈ t.session.transferOptions.expectedFiles

/-- **A record that is found** is added to the session that is found for it. -/
theorem scanRecord_eq_ok {content : String} {s : Site σ} {r : Site σ × Bool}
    (h : s.scanRecord p content = .ok r) :
    ∃ m, TransferMetadata.ofString p.cwd p.parse (s.world.now p.env) content = .ok m ∧
      ((s.sessionWanting m.filePath = none ∧ r = (s.tick, false)) ∨
        ∃ i, s.sessionWanting m.filePath = some i ∧
          s.tick.atSession i (OpenSession.addFile p m) = .ok r.1 ∧ r.2 = true) := by
  simp only [scanRecord, bind_eq_ok] at h
  obtain ⟨m, hm, h⟩ := h
  refine ⟨m, thrown_eq_ok.1 hm, ?_⟩
  cases hi : s.sessionWanting m.filePath with
  | none =>
      have hfind : s.tick.client.sessions.findIdx? (fun t =>
          decide (fileName m.filePath ∈ t.session.transferOptions.expectedFiles)) = none := hi
      simp only [hfind] at h
      cases h
      exact Or.inl ⟨rfl, rfl⟩
  | some i =>
      have hfind : s.tick.client.sessions.findIdx? (fun t =>
          decide (fileName m.filePath ∈ t.session.transferOptions.expectedFiles)) = some i := hi
      simp only [hfind, bind_eq_ok] at h
      obtain ⟨t, ht, h⟩ := h
      cases h
      exact Or.inr ⟨i, rfl, ht, rfl⟩

/-- **One turn:** the client is as it was, or has a session more for a group file, or
one of its sessions has been given a record. -/
theorem site_visit {v : Visit} {q q' : Site σ × List String} (h : visit p o v q = .ok q') :
    q'.1.client = q.1.client ∨ (∃ g, q.1.createFileSession p o g = .ok q'.1) ∨
      ∃ m i, q.1.tick.atSession i (OpenSession.addFile p m) = .ok q'.1 := by
  cases v with
  | unreadable => cases h
  | group path content =>
      simp only [visit] at h
      split_ifs at h
      · obtain ⟨t, ht, h⟩ := bind_eq_ok.1 h
        cases h
        obtain ⟨g, -, ht⟩ := bind_eq_ok.1 ht
        split_ifs at ht
        · cases ht
          exact Or.inl rfl
        · exact Or.inr (Or.inl ⟨g, ht⟩)
      · cases h
        exact Or.inl rfl
  | file path content =>
      simp only [visit] at h
      split_ifs at h
      · obtain ⟨r, hr, h⟩ := bind_eq_ok.1 h
        cases h
        obtain ⟨m, -, ⟨-, rfl⟩ | ⟨i, -, hi, -⟩⟩ := scanRecord_eq_ok hr
        · exact Or.inl rfl
        · exact Or.inr (Or.inr ⟨m, i, hi⟩)
      · cases h
        exact Or.inl rfl
      · cases h
        exact Or.inl rfl

/-! ## What becomes of a record that arrives -/

section TransferMetadata

variable {targetId data : String} {s : Site σ} {m : TransferMetadata}

theorem onTransferMetadata_of_some
    (hread : TransferMetadata.ofString p.cwd p.parse (s.world.now p.env) data = .ok m) {i : ℕ}
    (hi : s.sessionFor targetId = some i) :
    onTransferMetadata p targetId data s =
      s.tick.atSession i (OpenSession.receiveFile p m) := by
  have hi' : s.tick.sessionFor targetId = some i := hi
  rw [onTransferMetadata, hread]
  simp only [thrown_ok, bind, Except.bind, hi']

theorem onTransferMetadata_of_none
    (hread : TransferMetadata.ofString p.cwd p.parse (s.world.now p.env) data = .ok m)
    (hnone : s.sessionFor targetId = none) : onTransferMetadata p targetId data s = .ok s.tick := by
  have hnone' : s.tick.sessionFor targetId = none := hnone
  rw [onTransferMetadata, hread]
  simp only [thrown_ok, bind, Except.bind, hnone']

end TransferMetadata

end Site

/-! ## A client with the dummy interface -/

/-- Every send goes through, and the clock counts its readings. -/
def Platform.plain : Platform Unit where
  cwd := "/"
  env := ⟨fun _ => true, fun n => n⟩
  dump := JsonText.dump
  parse := JsonText.parse
  interface := .dummy

/-- Every file exists, and nothing fails. -/
def Outside.plain : Outside Unit where
  fileExists := fun _ => .ok true
  fileSize := fun _ => .ok 100
  createDirectories := fun _ => .ok ()
  bittorrent := fun _ _ _ => .ok ()
  generateTorrentsFiles := fun _ _ => .ok ()
  magnetUri := fun _ => .ok "magnet:"
  scp := fun _ => ()
  rclone := fun _ _ => .ok ()
  dummy := ()

/-- A client that has no session yet, and knows one bookkeeper and itself. -/
def Site.plain (clientId : String) (listeningIp : IPFormat) : Site Unit where
  client := ⟨listeningIp, clientId, "/data", [], ∅, ⟨["bookkeeper"], [clientId]⟩⟩
  world := ⟨0, 0, []⟩

end Transfer
end SNBModules
