import SNBModules.Lib.OrderedMap
import SNBModules.Transfer.SessionSetup

/-!
# Transfer clients

Source: `transfer_client.hpp` and `transfer_client.cpp`; `add_file` and
`get_transfer_meta_from_file_path` of `group_metadata.cpp`.

A client holds the sessions that it takes part in.  Sessions come from three
places: `create_new_transfer` makes the one of the uploader, the notification
`NEW_TRANSFER` those of the destinations, and `scan_available_files` one for each
group file that it finds.  All else that a client receives goes to a session that
is there.

A `Platform` is what the code always runs with, and an `Outside` what a single
call finds.  A call ends with the state that it leaves and its fault, if any:
what was done before an exception stays done.  All records that are added to a
session here are new objects, so that records stand for their pointers.
-/

namespace SNBModules
namespace Transfer

open Lib

/-! ## Records of a group -/

namespace GroupMetadata

/-- The constructor from the identifying members. -/
def new (groupId sourceId : String) (sourceIp : IPFormat) (protocol : ProtocolType)
    (protocolOptions : Json) : GroupMetadata TransferMetadata :=
  ⟨groupId, some protocol, protocolOptions, [], ∅, sourceId, sourceIp⟩

/-- `add_file` of a record that no list has yet: the group, and the place of the
record that is returned.  One that is not taken is reported as fatal, and the
first of the list returned. -/
def addNewFile (g : GroupMetadata TransferMetadata) (m : TransferMetadata) :
    Except Fault (GroupMetadata TransferMetadata × ℕ) :=
  if m.filePath ∈ g.expectedFiles then
    .ok ({ g with
        expectedFiles := g.expectedFiles.erase m.filePath
        transfersMeta := g.transfersMeta ++ [m.setGroupId g.groupId] }, g.transfersMeta.length)
  else if m.groupId = g.groupId then
    .ok ({ g with transfersMeta := g.transfersMeta ++ [m] }, g.transfersMeta.length)
  else if g.transfersMeta = [] then .error .undefined
  else .ok (g, 0)

/-- `get_transfer_meta_from_file_path`: the place of the record that is returned. -/
def placeOfPath (g : GroupMetadata TransferMetadata) (filePath : String) : Except Fault ℕ :=
  match g.transfersMeta.findIdx? fun m => pathElements m.filePath = pathElements filePath with
  | some i => .ok i
  | none => if g.transfersMeta = [] then .error .undefined else .ok 0

end GroupMetadata

/-! ## Sessions of a client -/

/-- What the code runs with: the working directory, the network and the clock, the
JSON library, and the operations of the transfer interfaces. -/
structure Platform (σ : Type) where
  cwd : String
  env : Env
  dump : Json → String
  parse : String → Option Json
  interface : TransferInterface σ

/-- An interface behind a pointer, and what is left after a call through one that
is null. -/
inductive Handle (σ : Type) where
  | null
  | live (h : σ)
  | crashed

/-- The operation of an interface, called through a pointer. -/
def Handle.call {σ : Type} (op : σ → TransferMetadata → σ × TransferMetadata × Bool) :
    Handle σ → TransferMetadata → Handle σ × TransferMetadata × Bool
  | .live h, m => let p := op h m; (.live p.1, p.2)
  | _, m => (.crashed, m, false)

/-- The operations, called through a pointer. -/
def TransferInterface.throughHandle {σ : Type} (ti : TransferInterface σ) :
    TransferInterface (Handle σ) where
  uploadFile := Handle.call ti.uploadFile
  downloadFile := fun dest => Handle.call (ti.downloadFile dest)
  pauseFile := Handle.call ti.pauseFile
  resumeFile := Handle.call ti.resumeFile
  hashFile := Handle.call ti.hashFile
  cancelFile := Handle.call ti.cancelFile

/-- The commands that a notification passes on to a session. -/
inductive Command where
  | start
  | pause
  | resume
  | cancel
  deriving DecidableEq, Repr

namespace OpenSession

variable {σ : Type} (p : Platform σ)

/-- The pointer to the interface. -/
def handle (s : OpenSession σ) : Handle σ :=
  match s.interface with
  | some h => .live h
  | none => .null

/-- The session and the world after a command; `h` is what it left behind the pointer. -/
def after (s : TransferSession) (h : Host (Handle σ)) : Except Fault (OpenSession σ × World) :=
  match h.interface with
  | .live h' => .ok (⟨s, some h'⟩, h.world)
  | .null => .ok (⟨s, none⟩, h.world)
  | .crashed => .error .undefined

/-- A command to all files. -/
def commandAll (c : Command) (s : OpenSession σ) (w : World) :
    Except Fault (OpenSession σ × World) :=
  let h : Host (Handle σ) := ⟨w, s.handle⟩
  let ti := p.interface.throughHandle
  let q := match c with
    | .start => s.session.startAll ti p.env p.dump h
    | .pause => s.session.pauseAll ti p.env p.dump h
    | .resume => s.session.resumeAll ti p.env p.dump h
    | .cancel => s.session.cancelAll ti p.env p.dump h
  after q.2.1 q.1

/-- A command to the file at a place. -/
def commandAt (c : Command) (i : ℕ) (s : OpenSession σ) (w : World) :
    Except Fault (OpenSession σ × World) :=
  match s.session.files[i]? with
  | none => .error .undefined
  | some m =>
      let h : Host (Handle σ) := ⟨w, s.handle⟩
      let ti := p.interface.throughHandle
      let q := match c with
        | .start => s.session.startFile ti p.env p.dump h m
        | .pause => s.session.pauseFile ti p.env p.dump false h m
        | .resume => s.session.resumeFile ti p.env p.dump false h m
        | .cancel => s.session.cancelFile ti p.env p.dump false h m
      after (s.session.withFiles (s.session.files.set i q.2.1)) q.1

/-- What a notification of a command asks for: all files, or the one with the path
in its data. -/
def command (c : Command) (data : String) (s : OpenSession σ) (w : World) :
    Except Fault (OpenSession σ × World) :=
  if data = "" then s.commandAll p c w
  else do
    let i ← s.session.transferOptions.placeOfPath data
    s.commandAt p c i w

/-- `update_metadata_to_bookkeeper` of the record at a place. -/
def updateAt (i : ℕ) (s : OpenSession σ) (w : World) : Except Fault (OpenSession σ × World) :=
  match s.session.files[i]? with
  | none => .error .undefined
  | some m =>
      let q := s.session.updateMetadataToBookkeeper p.env p.dump w m
      .ok (⟨s.session.withFiles (s.session.files.set i q.2.1), s.interface⟩, q.1)

/-- What an `UPDATE_REQUEST` asks for. -/
def update (data : String) (s : OpenSession σ) (w : World) :
    Except Fault (OpenSession σ × World) :=
  if data = "" then
    let q := s.session.updateMetadatasToBookkeeper p.env p.dump w
    .ok (⟨q.2.1, s.interface⟩, q.1)
  else do
    let i ← s.session.transferOptions.placeOfPath data
    s.updateAt p i w

/-- `add_file`. -/
def addFile (m : TransferMetadata) (s : OpenSession σ) (w : World) :
    Except Fault (OpenSession σ × World) := do
  let q ← s.session.transferOptions.addNewFile m
  updateAt p q.2 ⟨{ s.session with transferOptions := q.1 }, s.interface⟩ w

end OpenSession

/-! ## The client -/

/-- `TransferClient`; of the available files the paths. -/
structure TransferClient (σ : Type) where
  listeningIp : IPFormat
  clientId : String
  listeningDir : String
  sessions : List (OpenSession σ)
  availableFiles : Finset String
  connections : NotificationInterface

namespace TransferClient

variable {σ : Type} (c : TransferClient σ)

/-- `generate_session_id`. -/
def generateSessionId (transferId destId : String) : String :=
  (if destId = "" then c.clientId else destId) ++ "_ses" ++ transferId

/-- The ids of the sessions. -/
def sessionIds : List String := c.sessions.map fun s => s.session.sessionId

/-- `get_session`: the place of the session. -/
def getSession (transferId : String) : Option ℕ :=
  let id := if containsText transferId "ses" then transferId else c.generateSessionId transferId ""
  c.sessions.findIdx? fun s => s.session.sessionId = id

/-- Whether a notification is for the client with this id. -/
def accepts (clientId : String) (notif : NotificationData) : Bool :=
  containsText notif.targetId clientId || notif.targetId = "all"

end TransferClient

/-- A client and the world that it works in. -/
structure Site (σ : Type) where
  client : TransferClient σ
  world : World

/-- The arguments of `create_new_transfer`; the sets in their order. -/
structure NewTransfer where
  transferId : String
  protocol : String
  destClients : List String
  files : List String
  protocolOptions : Json

namespace Site

variable {σ : Type} (p : Platform σ) (o : Outside σ)

/-- `send_notification` of the client. -/
def send (type : NotificationType) (src dst idConn data : String) (s : Site σ) : Site σ :=
  { s with
    world := (s.client.connections.sendNotification p.env type src dst idConn data (-1) s.world).1 }

/-- A call of a member function of the session at a place. -/
def atSession (i : ℕ) (f : OpenSession σ → World → Except Fault (OpenSession σ × World))
    (s : Site σ) : Except Fault (Site σ) :=
  match s.client.sessions[i]? with
  | none => .ok s
  | some session => do
      let q ← f session s.world
      .ok ⟨{ s.client with sessions := s.client.sessions.set i q.1 }, q.2⟩

/-- The members of a new session. -/
def newSession (options : GroupMetadata TransferMetadata) (type : SessionType)
    (id workDir : String) (ip : IPFormat) (s : Site σ) : TransferSession :=
  ⟨type, id, if ip = .default then s.client.listeningIp else ip, options, workDir, [],
    s.client.connections⟩

/-- `create_session`. -/
def createSession (options : GroupMetadata TransferMetadata) (type : SessionType)
    (id workDir : String) (ip : IPFormat) (destClients : List String) (s : Site σ) :
    Except Fault (Site σ) := do
  let q ← (s.newSession options type id workDir ip).construct p.cwd o p.env p.dump s.world
  let new := { q.1 with session := { q.1.session with targetClients := destClients } }
  .ok ⟨{ s.client with sessions := s.client.sessions ++ [new] }, q.2⟩

/-! ## Creating a transfer -/

/-- `create_metadata_from_file`. -/
def createMetadataFromFile (ip : IPFormat) (src : String) : Except Fault TransferMetadata := do
  let size ← thrown (o.fileSize src)
  thrown (TransferMetadata.new p.cwd src size ip "" .default "" 0 .waiting)

/-- One turn of the loop over the files; one that does not exist is warned about. -/
def addTransferFile (ip : IPFormat) (g : GroupMetadata TransferMetadata) (file : String) :
    Except Fault (GroupMetadata TransferMetadata) := do
  if ← thrown (o.fileExists file) then
    let g ← thrown (g.addExpectedFile p.cwd file)
    let m ← createMetadataFromFile p o ip file
    let q ← g.addNewFile m
    .ok q.1
  else .ok g

/-- The bookkeepers are told of a group that is being prepared. -/
def tellBookkeepers (sessionName : String) (g : GroupMetadata TransferMetadata) (s : Site σ) :
    Site σ :=
  s.client.connections.bookkeepersConn.foldl
    (fun s bk => s.send p .groupMetadata sessionName bk bk
      (g.exportToString p.dump TransferMetadata.filePath)) s

/-- The metadata of the files of the uploader's session, for one of the clients. -/
def tellFiles (clientId newSessionName client : String) (ni : NotificationInterface)
    (w : World) (files : List TransferMetadata) : World × List TransferMetadata :=
  files.foldl (fun q m =>
    let e := m.exportToStringPartial p.dump true
    ((ni.sendNotification p.env .transferMetadata clientId newSessionName client e.1 (-1) q.1).1,
      q.2 ++ [e.2])) (w, [])

/-- One turn of the loop over the destinations, with the session of the uploader. -/
def tellClient (c : TransferClient σ) (transferId : String) (q : World × TransferSession)
    (client : String) : World × TransferSession :=
  let newSessionName := c.generateSessionId transferId client
  let w := (c.connections.sendNotification p.env .newTransfer c.clientId newSessionName client
    (q.2.transferOptions.exportToString p.dump TransferMetadata.filePath) (-1) q.1).1
  let r := tellFiles p c.clientId newSessionName client c.connections w q.2.files
  (r.1, q.2.withFiles r.2)

/-- The destinations are told of the transfer, whose session is the last one. -/
def tellClients (a : NewTransfer) (s : Site σ) : Site σ :=
  match s.client.sessions.getLast? with
  | none => s
  | some last =>
      let q := a.destClients.foldl (tellClient p s.client a.transferId) (s.world, last.session)
      ⟨{ s.client with sessions := s.client.sessions.dropLast ++ [⟨q.2, last.interface⟩] }, q.1⟩

/-- The group of a new transfer, with the files that exist. -/
def transferGroup (a : NewTransfer) (sessionName : String) (protocol : ProtocolType)
    (s : Site σ) : Except Fault (GroupMetadata TransferMetadata) :=
  a.files.foldlM (addTransferFile p o s.client.listeningIp)
    (.new a.transferId sessionName s.client.listeningIp protocol a.protocolOptions)

/-- `create_new_transfer` from the first message on. -/
def launch (a : NewTransfer) (sessionName : String) (g : GroupMetadata TransferMetadata)
    (s : Site σ) : Site σ × Option Fault :=
  let s := s.tellBookkeepers p sessionName g
  match s.createSession p o g .uploader sessionName
    (appendPath s.client.listeningDir a.transferId) s.client.listeningIp a.destClients with
  | .ok s => (s.tellClients p a, none)
  | .error f => (s, some f)

/-- `create_new_transfer`. -/
def createNewTransfer (a : NewTransfer) (s : Site σ) : Site σ × Option Fault :=
  let sessionName := s.client.generateSessionId a.transferId ""
  if (s.client.getSession sessionName).isSome then (s, none)
  else
    match stringToProtocols a.protocol with
    | none => (s, none)
    | some protocol =>
        match s.transferGroup p o a sessionName protocol with
        | .error f => (s, some f)
        | .ok g => if g.transfersMeta = [] then (s, none) else s.launch p o a sessionName g

/-! ## What the parts of a call leave -/

variable {p o}

theorem client_tellBookkeepers (sessionName : String) (g : GroupMetadata TransferMetadata)
    (s : Site σ) : (s.tellBookkeepers p sessionName g).client = s.client := by
  rw [tellBookkeepers]
  induction s.client.connections.bookkeepersConn generalizing s with
  | nil => rfl
  | cons bk l ih => exact ih (s.send p .groupMetadata sessionName bk bk _)

/-- **A session that is made** is the last one, made for what was asked. -/
theorem createSession_eq_ok {options : GroupMetadata TransferMetadata} {type : SessionType}
    {id workDir : String} {ip : IPFormat} {destClients : List String} {s t : Site σ}
    (h : s.createSession p o options type id workDir ip destClients = .ok t) :
    ∃ files interface, t.client = { s.client with sessions := s.client.sessions ++
      [⟨{ (s.newSession options type id workDir ip).withFiles files with
          targetClients := destClients }, interface⟩] } := by
  rw [createSession, bind_eq_ok] at h
  obtain ⟨⟨new, w⟩, hnew, h⟩ := h
  obtain ⟨files, hfiles⟩ := TransferSession.construct_eq_ok hnew
  cases h
  exact ⟨files, new.interface, by rw [← hfiles]⟩

theorem createSession_isOk (p : Platform σ) (o : Outside σ)
    (options : GroupMetadata TransferMetadata) (type : SessionType) (id workDir : String)
    (ip : IPFormat) (destClients : List String) (s : Site σ) :
    (s.createSession p o options type id workDir ip destClients).isOk =
      (s.newSession options type id workDir ip).constructible p.cwd o := by
  rw [← TransferSession.construct_isOk p.cwd o p.env p.dump _ s.world, createSession]
  cases (s.newSession options type id workDir ip).construct p.cwd o p.env p.dump s.world <;> rfl

/-- What a call of a member function leaves of the client. -/
theorem atSession_eq_ok {i : ℕ} {f : OpenSession σ → World → Except Fault (OpenSession σ × World)}
    {s t : Site σ} (h : s.atSession i f = .ok t) :
    t = s ∨ ∃ session session' w, s.client.sessions[i]? = some session ∧
      f session s.world = .ok (session', w) ∧
      t = ⟨{ s.client with sessions := s.client.sessions.set i session' }, w⟩ := by
  rw [atSession] at h
  cases hi : s.client.sessions[i]? with
  | none =>
      simp only [hi] at h
      cases h
      exact Or.inl rfl
  | some session =>
      simp only [hi, bind_eq_ok] at h
      obtain ⟨⟨session', w⟩, hf, h⟩ := h
      cases h
      exact Or.inr ⟨session, session', w, rfl, hf, rfl⟩

end Site

end Transfer
end SNBModules
