import SNBModules.Transfer.SessionCalls
import SNBModules.Transfer.SessionIds

/-!
# Which notifications a client survives

Source: `transfer_client.cpp`, `action_on_receive_notification`,
`scan_available_files` and `share_available_files`.

What the handler throws is caught by nobody.  It throws for a type of notification that
it has just warned about, and for data that cannot be read; and it takes what can be
read, even where members are missing (`total_iff`).  What it asks of a message is
`CanHandle`, one condition for each type.
-/

namespace SNBModules
namespace Transfer

open Lib

variable {σ : Type} {p : Platform σ} {o : Outside σ}

/-! ## Messages -/

/-- The members that a message about a group is sent with. -/
def groupMembers : List String :=
  ["transfer_id", "source_id", "source_ip", "protocol", "protocol_options", "files"]

/-- The members that a message about a file is sent with, whatever has changed. -/
def recordMembers : List String := ["file_path", "source", "destination", "group_id"]

/-- Whether a text has all the members. -/
def complete (parse : String → Option Json) (members : List String) (data : String) : Bool :=
  match parse data with
  | some j => members.all fun k => (j.member? k).isSome
  | none => false

namespace Site

/-- A turn of a scan can be taken: what it opens can be read, a session that it makes can
be constructed, and a record has a session that it can be added to. -/
def CanVisit (p : Platform σ) (o : Outside σ) (q : Site σ × List String) : Visit → Prop
  | .unreadable => False
  | .group path content => (insertPath path q.2).2 = true →
      ∃ g, GroupMetadata.ofString p.cwd p.parse content = .ok g ∧ (q.1.isActive g.groupId = false →
        (q.1.newSession g .uploader (q.1.client.generateSessionId g.groupId "")
          (appendPath q.1.client.listeningDir ("ses" ++ toString q.1.client.sessions.length))
          .default).constructible p.cwd o = true)
  | .file path content => (insertPath path q.2).2 = true → extension path = ".tmetadata" →
      ∃ m, TransferMetadata.ofString p.cwd p.parse (q.1.world.now p.env) content = .ok m ∧
        ∀ t, q.1.client.sessions.find? (fun t =>
            fileName m.filePath ∈ t.session.transferOptions.expectedFiles) = some t →
          t.CanAdd m

/-- A file can be shared: it has a path and a size. -/
def CanShare (p : Platform σ) (o : Outside σ) (f : String) : Prop :=
  (o.fileSize f).isOk = true ∧ (normalised p.cwd f).isOk = true

/-- A client can answer a connection request: it can scan its folder, and share what it
finds. -/
def CanConnect (p : Platform σ) (o : Outside σ) (folder : Entry) (s : Site σ) : Prop :=
  Guarded (visitStep p o) (CanVisit p o) (s, []) (folder.visits true) ∧
    ∀ q, exec (visitStep p o) (s, []) (folder.visits true) = some q → ∀ f ∈ q.2, CanShare p o f

/-- A scan that throws nothing is a run of its turns. -/
theorem scanAvailableFiles_eq_none_iff {nested : Bool} {folder : Entry}
    {previousScan : List String} {s : Site σ} {q : Site σ × List String} :
    s.scanAvailableFiles p o nested folder previousScan = (q, none) ↔
      exec (visitStep p o) (s, previousScan) (folder.visits nested) = some q :=
  runSteps_map_eq_none

/-- A `NEW_TRANSFER` can be taken: it is complete, it can be read, and a session for its
group can be constructed. -/
def CanCreate (p : Platform σ) (o : Outside σ) (targetId data : String) (s : Site σ) : Prop :=
  complete p.parse groupMembers data = true ∧
    ∃ g, GroupMetadata.ofString p.cwd p.parse data = .ok g ∧
      (s.newSession g (s.typeFor g.expectedFiles) targetId
        (appendPath s.client.listeningDir g.groupId) .default).constructible p.cwd o = true

/-- A `TRANSFER_METADATA` can be taken: it can be read, and if a session is to take it,
then the session can add the record, and the message is complete, or changes nothing. -/
def CanReceive (p : Platform σ) (targetId data : String) (s : Site σ) : Prop :=
  ∃ m, TransferMetadata.ofString p.cwd p.parse (s.world.now p.env) data = .ok m ∧
    ∀ t, s.client.sessions.find? (fun t => containsText t.session.sessionId targetId) = some t →
      t.session.ip ≠ m.src ∧ t.CanAdd m ∧ (complete p.parse recordMembers data = true ∨
        OpenSession.takes t.session.transferOptions m = false ∧ t.NothingToReport)

/-- What holds of the session that a notification names, if there is one. -/
def ForSession (targetId : String) (P : OpenSession σ → Prop) (s : Site σ) : Prop :=
  ∀ i t, s.client.getSession targetId = some i → s.client.sessions[i]? = some t → P t

/-- **What a notification of a type needs to be handled.** -/
def CanHandle (p : Platform σ) (o : Outside σ) (folder : Entry) (type : NotificationType)
    (n : NotificationData) (s : Site σ) : Prop :=
  match type with
  | .connectionRequest => s.CanConnect p o folder
  | .newTransfer => s.CanCreate p o n.targetId n.data
  | .transferMetadata => s.CanReceive p n.targetId n.data
  | .startTransfer => s.ForSession n.targetId (OpenSession.CanCommand .start n.data)
  | .pauseTransfer => s.ForSession n.targetId (OpenSession.CanCommand .pause n.data)
  | .resumeTransfer => s.ForSession n.targetId (OpenSession.CanCommand .resume n.data)
  | .cancelTransfer => s.ForSession n.targetId (OpenSession.CanCommand .cancel n.data)
  | .updateRequest => s.ForSession n.targetId fun t => n.data ≠ "" → t.session.files ≠ []
  | .groupMetadata | .transferError => True

/-- What a notification needs to be handled: to be for another client, or to have a type
that is known, and what the type needs. -/
def Handles (p : Platform σ) (o : Outside σ) (folder : Entry) (n : NotificationData)
    (s : Site σ) : Prop :=
  TransferClient.accepts s.client.clientId n = true →
    ∃ type, stringToNotification n.notification = some type ∧ s.CanHandle p o folder type n

end Site

end Transfer
end SNBModules
