import SNBModules.Lib.Accounting
import SNBModules.Transfer.ClientHandler
import SNBModules.Transfer.ConstructorReports
import SNBModules.Transfer.GroupCommands

/-!
# Creating a transfer

Source: `transfer_client.cpp`, `create_new_transfer`.

The group of a transfer is made of the files that exist (`transferGroup_cases`).
Then the bookkeepers are told of it, the session is set up, and the destinations
are told of the session (`launch_of_setup_ok`).  What goes wrong before the first
message leaves nothing behind.  After it, a setup that throws does, and so does one
that goes on without an option that it calls mandatory; and a bookkeeper misses records
when a send of the constructor fails, or when it is not the first
(`all_or_nothing_iff`).
-/

namespace SNBModules
namespace Transfer

open Lib

variable {σ : Type} {p : Platform σ} {o : Outside σ}

/-! ## The group -/

/-- The record of an existing file. -/
def newRecord (path : String) (size : ℕ) (ip : IPFormat) (groupId : String) : TransferMetadata :=
  { TransferMetadata.blank with
    filePath := path
    bytesSize := size
    src := ip
    groupId
    modifiedFields := Finset.univ }

namespace Site

/-- **One turn of the loop over the files:** the file is not there, or something
throws, or its record is added and nothing stays expected for it. -/
theorem addTransferFile_cases (p : Platform σ) (o : Outside σ) (ip : IPFormat)
    (g : GroupMetadata TransferMetadata) (file : String) :
    (o.fileExists file = .ok false ∧ addTransferFile p o ip g file = .ok g) ∨
    (o.fileExists file ≠ .ok false ∧ ∃ e, addTransferFile p o ip g file = .error (.thrown e)) ∨
    (o.fileExists file = .ok true ∧ ∃ path size, normalised p.cwd file = .ok path ∧
      o.fileSize file = .ok size ∧
      addTransferFile p o ip g file = .ok { g with
        expectedFiles := g.expectedFiles.erase path
        transfersMeta := g.transfersMeta ++ [newRecord path size ip g.groupId] }) := by
  cases hexists : o.fileExists file with
  | error e =>
      refine Or.inr (Or.inl ⟨by simp, e, ?_⟩)
      simp [addTransferFile, hexists, bind, Except.bind]
  | ok there =>
      cases there with
      | false =>
          refine Or.inl ⟨rfl, ?_⟩
          simp [addTransferFile, hexists, bind, Except.bind]
      | true =>
          right
          cases hpath : normalised p.cwd file with
          | error e =>
              refine Or.inl ⟨by simp, e, ?_⟩
              simp [addTransferFile, GroupMetadata.addExpectedFile, hexists, hpath, bind,
                Except.bind]
          | ok path =>
              cases hsize : o.fileSize file with
              | error e =>
                  refine Or.inl ⟨by simp, e, ?_⟩
                  simp [addTransferFile, createMetadataFromFile, GroupMetadata.addExpectedFile,
                    hexists, hpath, hsize, bind, Except.bind]
              | ok size =>
                  refine Or.inr ⟨rfl, path, size, rfl, rfl, ?_⟩
                  simp [addTransferFile, createMetadataFromFile, GroupMetadata.addExpectedFile,
                    GroupMetadata.addNewFile, TransferMetadata.new, TransferMetadata.setGroupId,
                    newRecord, TransferMetadata.blank, hexists, hpath, hsize, bind, Except.bind]

/-- A record for each of the files that are there, in their order. -/
def Recorded (p : Platform σ) (o : Outside σ) (ip : IPFormat) (groupId : String)
    (files : List String) (records : List TransferMetadata) : Prop :=
  List.Forall₂ (fun file m => ∃ path size, normalised p.cwd file = .ok path ∧
      o.fileSize file = .ok size ∧ m = newRecord path size ip groupId)
    (files.filter fun file => o.fileExists file = .ok true) records

/-- **The loop over the files:** it throws, or adds a record for each file that is
there. -/
theorem foldlM_addTransferFile (p : Platform σ) (o : Outside σ) (ip : IPFormat)
    (files : List String) {g : GroupMetadata TransferMetadata} (hg : g.expectedFiles = ∅) :
    ((∃ e, files.foldlM (addTransferFile p o ip) g = .error (.thrown e)) ∧
      ¬ ∀ file ∈ files, o.fileExists file = .ok false) ∨
    ∃ records, files.foldlM (addTransferFile p o ip) g =
        .ok { g with transfersMeta := g.transfersMeta ++ records } ∧
      (records = [] ↔ ∀ file ∈ files, o.fileExists file = .ok false) ∧
      Recorded p o ip g.groupId files records := by
  induction files generalizing g with
  | nil => exact Or.inr ⟨[], by simp [pure, Except.pure], by simp, .nil⟩
  | cons file files ih =>
      rw [List.foldlM_cons]
      rcases addTransferFile_cases p o ip g file with
        ⟨hthere, hadd⟩ | ⟨hthere, e, hadd⟩ | ⟨hthere, path, size, hpath, hsize, hadd⟩
      · simp only [hadd, bind, Except.bind]
        rcases ih hg with ⟨he, hnot⟩ | ⟨records, hok, hnil, hall⟩
        · exact Or.inl ⟨he, fun h => hnot fun f hf => h f (List.mem_cons_of_mem _ hf)⟩
        · refine Or.inr ⟨records, hok, by simp [hnil, hthere], ?_⟩
          rw [Recorded, List.filter_cons_of_neg (by simp [hthere])]
          exact hall
      · exact Or.inl ⟨⟨e, by rw [hadd]; rfl⟩, fun h => hthere (h file List.mem_cons_self)⟩
      · simp only [hadd, bind, Except.bind]
        have hnot : ¬ ∀ f ∈ file :: files, o.fileExists f = .ok false := fun h => by
          have hfile := h file List.mem_cons_self
          simp [hthere] at hfile
        have hg' : ({ g with
            expectedFiles := g.expectedFiles.erase path
            transfersMeta := g.transfersMeta ++ [newRecord path size ip g.groupId] } :
              GroupMetadata TransferMetadata).expectedFiles = ∅ := by simp [hg]
        rcases ih hg' with ⟨he, -⟩ | ⟨records, hok, -, hall⟩
        · exact Or.inl ⟨he, hnot⟩
        · refine Or.inr ⟨newRecord path size ip g.groupId :: records, ?_, by simpa using hnot, ?_⟩
          · rw [hok]
            simp [hg]
          · rw [Recorded, List.filter_cons_of_pos (by simp [hthere])]
            exact .cons ⟨path, size, hpath, hsize, rfl⟩ hall

/-- The session that a transfer is given. -/
def createdSession (a : NewTransfer) (g : GroupMetadata TransferMetadata) (s : Site σ) :
    TransferSession :=
  s.newSession g .uploader (s.client.generateSessionId a.transferId "")
    (appendPath s.client.listeningDir a.transferId) s.client.listeningIp

/-- **The group of a transfer,** with the records of the files that are there. -/
theorem transferGroup_cases (p : Platform σ) (o : Outside σ) (a : NewTransfer)
    (sessionName : String) (protocol : ProtocolType) (s : Site σ) :
    ((∃ e, s.transferGroup p o a sessionName protocol = .error (.thrown e)) ∧
      ¬ ∀ file ∈ a.files, o.fileExists file = .ok false) ∨
    ∃ records, s.transferGroup p o a sessionName protocol =
        .ok ((GroupMetadata.new a.transferId sessionName s.client.listeningIp protocol
          a.protocolOptions).setTransfersMeta records) ∧
      (records = [] ↔ ∀ file ∈ a.files, o.fileExists file = .ok false) ∧
      Recorded p o s.client.listeningIp a.transferId a.files records :=
  foldlM_addTransferFile p o s.client.listeningIp a.files rfl

/-! ## What is sent -/

/-- The message that tells a bookkeeper of a group. -/
def groupMessage (p : Platform σ) (sessionName : String) (g : GroupMetadata TransferMetadata)
    (bk : String) : String × NotificationData :=
  (bk, ⟨sessionName, bk, notificationToString .groupMetadata,
    g.exportToString p.dump TransferMetadata.filePath⟩)

/-- The message that tells a destination of a file. -/
def fileMessage (p : Platform σ) (c : TransferClient σ) (transferId client : String)
    (m : TransferMetadata) : String × NotificationData :=
  (client, ⟨c.clientId, c.generateSessionId transferId client,
    notificationToString .transferMetadata, (m.exportToStringPartial p.dump true).1⟩)

/-- The messages that tell a destination of a transfer. -/
def transferMessages (p : Platform σ) (c : TransferClient σ) (transferId : String)
    (g : GroupMetadata TransferMetadata) (client : String) : List (String × NotificationData) :=
  (client, ⟨c.clientId, c.generateSessionId transferId client, notificationToString .newTransfer,
      g.exportToString p.dump TransferMetadata.filePath⟩) ::
    g.transfersMeta.map (fileMessage p c transferId client)

/-- The flags do not show in what a destination is told. -/
theorem transferMessages_withoutFlags (p : Platform σ) (c : TransferClient σ)
    (transferId : String) (g : GroupMetadata TransferMetadata) (client : String) :
    transferMessages p c transferId
        (g.setTransfersMeta (g.transfersMeta.map TransferMetadata.withoutFlags)) client =
      transferMessages p c transferId g client := by
  have hfile : fileMessage p c transferId client ∘ TransferMetadata.withoutFlags =
      fileMessage p c transferId client := by
    funext m
    simp [fileMessage, TransferMetadata.exportToStringPartial, TransferMetadata.exportJson,
      TransferMetadata.header, TransferMetadata.value, TransferMetadata.withoutFlags]
  simp only [transferMessages, GroupMetadata.exportToString, GroupMetadata.exportJson,
    GroupMetadata.setTransfersMeta, List.map_map, hfile]
  rfl

theorem transferMessages_congr (p : Platform σ) (c : TransferClient σ) (transferId : String)
    (g : GroupMetadata TransferMetadata) {files files' : List TransferMetadata}
    (h : files.map TransferMetadata.withoutFlags = files'.map TransferMetadata.withoutFlags) :
    transferMessages p c transferId (g.setTransfersMeta files) =
      transferMessages p c transferId (g.setTransfersMeta files') := by
  funext client
  have hleft := transferMessages_withoutFlags p c transferId (g.setTransfersMeta files) client
  have hright := transferMessages_withoutFlags p c transferId (g.setTransfersMeta files') client
  simp only [GroupMetadata.setTransfersMeta] at hleft hright ⊢
  rw [← hleft, ← hright, h]

theorem posts_tellBookkeepers (p : Platform σ) (sessionName : String)
    (g : GroupMetadata TransferMetadata) (s : Site σ) :
    s.client.connections.Posts s.world
      (s.client.connections.bookkeepersConn.map (groupMessage p sessionName g))
      (s.tellBookkeepers p sessionName g).world := by
  rw [tellBookkeepers]
  generalize s.client.connections.bookkeepersConn = bks
  induction bks generalizing s with
  | nil => exact .refl _ _
  | cons bk bks ih =>
      rw [List.foldl_cons, List.map_cons]
      exact (s.client.connections.posts_sendNotification p.env _ _ _ _ _ _ _).trans
        (ih (s.send p .groupMetadata sessionName bk bk _))

theorem posts_tellFiles (p : Platform σ) (c : TransferClient σ) (transferId client : String)
    (w : World) (files : List TransferMetadata) :
    c.connections.Posts w (files.map (fileMessage p c transferId client))
        (tellFiles p c.clientId (c.generateSessionId transferId client) client c.connections w
          files).1 ∧
      (tellFiles p c.clientId (c.generateSessionId transferId client) client c.connections w
        files).2 = files.map TransferMetadata.withoutFlags := by
  rw [tellFiles]
  suffices h : ∀ (files : List TransferMetadata) (q : World × List TransferMetadata),
      let r := files.foldl (fun q m =>
        let e := m.exportToStringPartial p.dump true
        ((c.connections.sendNotification p.env .transferMetadata c.clientId
          (c.generateSessionId transferId client) client e.1 (-1) q.1).1, q.2 ++ [e.2])) q
      c.connections.Posts q.1 (files.map (fileMessage p c transferId client)) r.1 ∧
        r.2 = q.2 ++ files.map TransferMetadata.withoutFlags from h files (w, [])
  intro files
  induction files with
  | nil => exact fun q => ⟨.refl _ _, by simp⟩
  | cons m files ih =>
      intro q
      obtain ⟨hposts, hfiles⟩ := ih ((c.connections.sendNotification p.env .transferMetadata
        c.clientId (c.generateSessionId transferId client) client
        (m.exportToStringPartial p.dump true).1 (-1) q.1).1, q.2 ++ [m.withoutFlags])
      refine ⟨(c.connections.posts_sendNotification p.env _ _ _ _ _ _ _).trans hposts, ?_⟩
      rw [List.foldl_cons]
      refine hfiles.trans ?_
      simp

/-- A session whose records have lost their flags. -/
theorem posts_tellClient (p : Platform σ) (c : TransferClient σ) (transferId client : String)
    (q : World × TransferSession) :
    c.connections.Posts q.1 (transferMessages p c transferId q.2.transferOptions client)
        (tellClient p c transferId q client).1 ∧
      (tellClient p c transferId q client).2 =
        q.2.withFiles (q.2.files.map TransferMetadata.withoutFlags) := by
  obtain ⟨hposts, hfiles⟩ := posts_tellFiles p c transferId client
    (c.connections.sendNotification p.env .newTransfer c.clientId
      (c.generateSessionId transferId client) client
      (q.2.transferOptions.exportToString p.dump TransferMetadata.filePath) (-1) q.1).1 q.2.files
  refine ⟨(c.connections.posts_sendNotification p.env _ _ _ _ _ _ _).trans hposts, ?_⟩
  rw [tellClient, hfiles]

/-- **The loop over the destinations** sends each of them the same. -/
theorem posts_foldl_tellClient (p : Platform σ) (c : TransferClient σ) (transferId : String)
    (clients : List String) (q : World × TransferSession) :
    c.connections.Posts q.1
        (clients.flatMap (transferMessages p c transferId q.2.transferOptions))
        (clients.foldl (tellClient p c transferId) q).1 ∧
      ∃ files, (clients.foldl (tellClient p c transferId) q).2 = q.2.withFiles files ∧
        files.map TransferMetadata.withoutFlags = q.2.files.map TransferMetadata.withoutFlags := by
  induction clients generalizing q with
  | nil => exact ⟨.refl _ _, q.2.files, rfl, rfl⟩
  | cons client clients ih =>
      obtain ⟨hposts, hsession⟩ := posts_tellClient p c transferId client q
      obtain ⟨hrest, files, hfiles, hflags⟩ := ih (tellClient p c transferId q client)
      rw [hsession] at hrest hfiles hflags
      rw [List.foldl_cons, List.flatMap_cons]
      refine ⟨hposts.trans ?_, files, hfiles, hflags.trans ?_⟩
      · have hsame : transferMessages p c transferId
            (q.2.withFiles (q.2.files.map TransferMetadata.withoutFlags)).transferOptions =
              transferMessages p c transferId q.2.transferOptions :=
          funext fun client => transferMessages_withoutFlags p c transferId _ client
        rw [hsame] at hrest
        exact hrest
      · simp [TransferSession.withFiles, TransferSession.files, GroupMetadata.setTransfersMeta,
          TransferMetadata.withoutFlags]

/-- A call that sent messages to bookkeepers and nothing else. -/
def TellsBookkeepers (ni : NotificationInterface) (w w' : World) : Prop :=
  ∃ l, ni.Posts w l w' ∧ ∀ m ∈ l, m.1 ∈ ni.bookkeepersConn

theorem TellsBookkeepers.refl (ni : NotificationInterface) (w : World) :
    TellsBookkeepers ni w w :=
  ⟨[], .refl _ _, by simp⟩

theorem TellsBookkeepers.trans {ni : NotificationInterface} {w w₁ w₂ : World}
    (h₁ : TellsBookkeepers ni w w₁) (h₂ : TellsBookkeepers ni w₁ w₂) :
    TellsBookkeepers ni w w₂ := by
  obtain ⟨l₁, hposts₁, hall₁⟩ := h₁
  obtain ⟨l₂, hposts₂, hall₂⟩ := h₂
  refine ⟨l₁ ++ l₂, hposts₁.trans hposts₂, fun m hm => ?_⟩
  rcases List.mem_append.1 hm with hm | hm
  · exact hall₁ m hm
  · exact hall₂ m hm

theorem tellsBookkeepers_sendNotification {ni : NotificationInterface} (env : Env)
    (type : NotificationType) {src data bk : String} (hbk : bk ∈ ni.bookkeepersConn) (w : World) :
    TellsBookkeepers ni w (ni.sendNotification env type src bk bk data (-1) w).1 :=
  ⟨_, ni.posts_sendNotification env type src bk bk data (-1) w,
    fun m hm => by rw [List.mem_singleton.1 hm]; exact hbk⟩

theorem tellsBookkeepers_updateMetadata (s : TransferSession) (env : Env)
    (dump : Json → String) (w : World) (m : TransferMetadata) :
    TellsBookkeepers s.connections w (s.updateMetadataToBookkeeper env dump w m).1 :=
  andLoop_rel (f := s.sendMetadata env dump)
    (R := fun q _ q' => TellsBookkeepers s.connections q.1 q'.1) (fun _ => .refl _ _)
    (fun _ _ _ _ => .trans) (fun q _ hbk => tellsBookkeepers_sendNotification env _ hbk q.1) (w, m)

theorem tellsBookkeepers_updateMetadatas (s : TransferSession) (env : Env)
    (dump : Json → String) (w : World) :
    TellsBookkeepers s.connections w (s.updateMetadatasToBookkeeper env dump w).1 := by
  have hgroup : TellsBookkeepers s.connections w
      (andLoop (s.sendGroup env dump) true w s.bookkeepersConn).1 :=
    andLoop_rel (R := fun w _ w' => TellsBookkeepers s.connections w w') (fun _ => .refl _ _)
      (fun _ _ _ _ => .trans) (fun w _ hbk => tellsBookkeepers_sendNotification env _ hbk w) w
  rw [TransferSession.updateMetadatasToBookkeeper]
  refine hgroup.trans ?_
  generalize (andLoop (s.sendGroup env dump) true w s.bookkeepersConn).1 = w'
  cases (andLoop (s.sendGroup env dump) true w s.bookkeepersConn).2 with
  | false =>
      rw [andEach_false]
      exact .refl _ _
  | true =>
      exact andEach_rel (R := fun w _ w' => TellsBookkeepers s.connections w w')
        (fun _ => .refl _ _) (fun _ _ _ _ => .trans)
        (fun w m => tellsBookkeepers_updateMetadata s env dump w m) w' s.files

/-! ## The session -/

theorem tellsBookkeepers_reported (env : Env) (dump : Json → String) (q : OpenSession σ × Bool)
    (w : World) :
    TellsBookkeepers q.1.session.connections w (TransferSession.reported env dump q w) := by
  rw [TransferSession.reported]
  split_ifs
  · exact tellsBookkeepers_updateMetadatas q.1.session env dump w
  · exact .refl _ _

/-- **What a constructor that gets through leaves:** what the setup left, up to the
flags of the records. -/
theorem construct_of_setup_ok {cwd : String} {s : TransferSession} {q : OpenSession σ}
    {more : Bool} (h : s.setup cwd o = .ok (q, more)) (env : Env) (dump : Json → String)
    (w : World) :
    ∃ files, s.construct cwd o env dump w = .ok (⟨q.session.withFiles files, q.interface⟩,
        TransferSession.reported env dump (q, more) w) ∧
      files.map TransferMetadata.withoutFlags =
        q.session.files.map TransferMetadata.withoutFlags := by
  rw [TransferSession.construct_eq_setup, h]
  cases more with
  | false => exact ⟨q.session.files, rfl, rfl⟩
  | true =>
      exact ⟨(q.session.updateMetadatasToBookkeeper env dump w).2.1.files, rfl,
        updateMetadatasToBookkeeper_files q.session env dump w⟩

theorem construct_of_setup_error {cwd : String} {s : TransferSession} {f : Fault}
    (h : s.setup cwd o = .error f) (env : Env) (dump : Json → String) (w : World) :
    s.construct cwd o env dump w = .error f := by
  rw [TransferSession.construct_eq_setup, h]
  rfl

/-- What a setup that gets through leaves. -/
theorem setup_eq_ok {cwd : String} {s : TransferSession} {q : OpenSession σ} {more : Bool}
    (h : s.setup cwd o = .ok (q, more)) :
    ∃ files, q.session = s.withFiles files ∧
      List.Forall₂ TransferMetadata.Linked s.files files ∧
      (q.interface = none ↔ s.transferOptions.protocol = none ∨
        s.transferOptions.protocol = some .bittorrent ∧
          s.transferOptions.protocolOptions.member? "port" = none) ∧
      (more = false → s.transferOptions.protocol = some .bittorrent ∧
        s.transferOptions.protocolOptions.member? "port" = none) := by
  rw [TransferSession.setup, bind_eq_ok] at h
  obtain ⟨-, -, h⟩ := h
  exact TransferSession.makeInterface_eq_ok h

/-- **A session whose setup gets through** is there, with what the setup left up to the
flags of the records, and with the records of its group up to their magnet links. -/
theorem createSession_of_setup_ok {g : GroupMetadata TransferMetadata} {type : SessionType}
    {id workDir : String} {ip : IPFormat} {s : Site σ} {q : OpenSession σ} {more : Bool}
    (h : (s.newSession g type id workDir ip).setup p.cwd o = .ok (q, more))
    (destClients : List String) :
    ∃ t files, s.createSession p o g type id workDir ip destClients = .ok t ∧
      t.client = { s.client with sessions := s.client.sessions ++
        [⟨{ (s.newSession g type id workDir ip).withFiles files with
            targetClients := destClients }, q.interface⟩] } ∧
      files.map TransferMetadata.withoutLink =
        g.transfersMeta.map TransferMetadata.withoutLink ∧
      TellsBookkeepers s.client.connections s.world t.world ∧
      files.map TransferMetadata.withoutFlags =
        q.session.files.map TransferMetadata.withoutFlags ∧
      t.world = TransferSession.reported p.env p.dump (q, more) s.world := by
  obtain ⟨files, hconstruct, hflags⟩ := construct_of_setup_ok h p.env p.dump s.world
  have htells := tellsBookkeepers_reported p.env p.dump (q, more) s.world
  obtain ⟨files', hsession, hlinks, -⟩ := setup_eq_ok h
  have hconnections : q.session.connections = s.client.connections := by
    rw [hsession]
    rfl
  have hleft : (⟨q.session.withFiles files, q.interface⟩ : OpenSession σ) =
      ⟨(s.newSession g type id workDir ip).withFiles files, q.interface⟩ := by
    rw [hsession]
    rfl
  have hfiles : q.session.files = files' := by
    rw [hsession]
    rfl
  rw [hconnections] at htells
  rw [hleft] at hconstruct
  have hcreate : s.createSession p o g type id workDir ip destClients =
      .ok ⟨{ s.client with
        sessions := s.client.sessions ++
          [⟨{ (s.newSession g type id workDir ip).withFiles files with
              targetClients := destClients }, q.interface⟩] },
        TransferSession.reported p.env p.dump (q, more) s.world⟩ := by
    rw [createSession, hconstruct]
    rfl
  have hdrop := congrArg (List.map TransferMetadata.withoutLink) hflags
  rw [List.map_map, List.map_map, hfiles] at hdrop
  exact ⟨_, files, hcreate, rfl,
    hdrop.trans (TransferSession.map_withoutLink_of_linked hlinks), htells, hflags, rfl⟩

/-- The destinations are told of the last session. -/
theorem tellClients_of_last (p : Platform σ) (a : NewTransfer) {s : Site σ}
    {sessions : List (OpenSession σ)} {last : OpenSession σ}
    (h : s.client.sessions = sessions ++ [last]) :
    ∃ files, (s.tellClients p a).client = { s.client with sessions := sessions ++
        [⟨last.session.withFiles files, last.interface⟩] } ∧
      files.map TransferMetadata.withoutFlags =
        last.session.files.map TransferMetadata.withoutFlags ∧
      s.client.connections.Posts s.world
        (a.destClients.flatMap (transferMessages p s.client a.transferId
          last.session.transferOptions)) (s.tellClients p a).world := by
  obtain ⟨hposts, files, hfiles, hflags⟩ :=
    posts_foldl_tellClient p s.client a.transferId a.destClients (s.world, last.session)
  have hlast : s.client.sessions.getLast? = some last := by simp [h]
  refine ⟨files, ?_, hflags, ?_⟩
  · simp only [tellClients, hlast]
    rw [hfiles, h, List.dropLast_concat]
  · simp only [tellClients, hlast]
    exact hposts

/-- **From the first message on, when the setup gets through:** one session more, and
after the messages of its constructor those to the destinations. -/
theorem launch_eq (a : NewTransfer) {g : GroupMetadata TransferMetadata} {s : Site σ}
    {q : OpenSession σ × Bool} (h : (s.createdSession a g).setup p.cwd o = .ok q) :
    ∃ t files, s.launch p o a (s.client.generateSessionId a.transferId "") g = (t, none) ∧
      t.client = { s.client with sessions := s.client.sessions ++
        [⟨{ (s.createdSession a g).withFiles files with
            targetClients := a.destClients }, q.1.interface⟩] } ∧
      files.map TransferMetadata.withoutLink =
        g.transfersMeta.map TransferMetadata.withoutLink ∧
      files.map TransferMetadata.withoutFlags =
        q.1.session.files.map TransferMetadata.withoutFlags ∧
      ∀ l, s.client.connections.Posts
          (s.tellBookkeepers p (s.client.generateSessionId a.transferId "") g).world l
          (TransferSession.reported p.env p.dump q
            (s.tellBookkeepers p (s.client.generateSessionId a.transferId "") g).world) →
        s.client.connections.Posts s.world
          (s.client.connections.bookkeepersConn.map
              (groupMessage p (s.client.generateSessionId a.transferId "") g) ++ l ++
            a.destClients.flatMap (transferMessages p s.client a.transferId
              (g.setTransfersMeta files))) t.world := by
  have htold := posts_tellBookkeepers p (s.client.generateSessionId a.transferId "") g s
  have hclient := client_tellBookkeepers (p := p) (s.client.generateSessionId a.transferId "") g s
  rw [launch]
  generalize s.tellBookkeepers p (s.client.generateSessionId a.transferId "") g = s' at *
  obtain ⟨client, world⟩ := s'
  obtain rfl : client = s.client := hclient
  obtain ⟨q, more⟩ := q
  obtain ⟨t, files, hcreate, ht, hlinks, -, hleft, hworld⟩ :=
    createSession_of_setup_ok (s := ⟨s.client, world⟩) h a.destClients
  obtain ⟨files', hclient', hflags, hposts⟩ := tellClients_of_last p a (s := t) (by rw [ht])
  have hdrop := congrArg (List.map TransferMetadata.withoutLink) hflags
  rw [List.map_map, List.map_map] at hdrop
  refine ⟨t.tellClients p a, files', ?_, ?_, hdrop.trans hlinks, hflags.trans hleft, ?_⟩
  · simp only [hcreate]
  · rw [hclient', ht]
    rfl
  · intro l hl
    rw [ht, hworld] at hposts
    rw [transferMessages_congr p s.client a.transferId g hflags]
    exact (htold.trans hl).trans hposts

/-- The same, with some messages to the bookkeepers in between. -/
theorem launch_of_setup_ok (a : NewTransfer) {g : GroupMetadata TransferMetadata} {s : Site σ}
    {q : OpenSession σ} {more : Bool}
    (h : (s.createdSession a g).setup p.cwd o = .ok (q, more)) :
    ∃ t files l, s.launch p o a (s.client.generateSessionId a.transferId "") g = (t, none) ∧
      t.client = { s.client with sessions := s.client.sessions ++
        [⟨{ (s.createdSession a g).withFiles files with
            targetClients := a.destClients }, q.interface⟩] } ∧
      files.map TransferMetadata.withoutLink =
        g.transfersMeta.map TransferMetadata.withoutLink ∧
      (∀ m ∈ l, m.1 ∈ s.client.connections.bookkeepersConn) ∧
      s.client.connections.Posts s.world
        (s.client.connections.bookkeepersConn.map
            (groupMessage p (s.client.generateSessionId a.transferId "") g) ++ l ++
          a.destClients.flatMap (transferMessages p s.client a.transferId
            (g.setTransfersMeta files))) t.world := by
  obtain ⟨t, files, hlaunch, hclient, hlinks, -, hposts⟩ := launch_eq a h
  obtain ⟨files', hsession, -⟩ := setup_eq_ok h
  obtain ⟨l, hl, hall⟩ := tellsBookkeepers_reported p.env p.dump (q, more)
    (s.tellBookkeepers p (s.client.generateSessionId a.transferId "") g).world
  have hconnections : q.session.connections = s.client.connections := by
    rw [hsession]
    rfl
  rw [hconnections] at hl hall
  exact ⟨t, files, l, hlaunch, hclient, hlinks, hall, hposts l hl⟩

/-- **From the first message on, when the setup fails:** the bookkeepers have been told. -/
theorem launch_of_setup_error (a : NewTransfer) {g : GroupMetadata TransferMetadata} {s : Site σ}
    {f : Fault} (h : (s.createdSession a g).setup p.cwd o = .error f) :
    s.launch p o a (s.client.generateSessionId a.transferId "") g =
      (s.tellBookkeepers p (s.client.generateSessionId a.transferId "") g, some f) := by
  rw [launch, createSession, client_tellBookkeepers]
  have hsame : (s.tellBookkeepers p (s.client.generateSessionId a.transferId "") g).newSession g
      .uploader (s.client.generateSessionId a.transferId "")
      (appendPath s.client.listeningDir a.transferId) s.client.listeningIp =
      s.createdSession a g := by
    simp only [newSession, createdSession, client_tellBookkeepers]
  rw [hsame, construct_of_setup_error h]
  rfl

/-! ## All or nothing -/

/-- A transfer gets as far as its first message. -/
structure Launches (p : Platform σ) (o : Outside σ) (a : NewTransfer) (s : Site σ)
    (protocol : ProtocolType) (g : GroupMetadata TransferMetadata) : Prop where
  unknown : s.client.getSession (s.client.generateSessionId a.transferId "") = none
  protocol_eq : stringToProtocols a.protocol = some protocol
  group_eq : s.transferGroup p o a (s.client.generateSessionId a.transferId "") protocol = .ok g
  someFile : g.transfersMeta ≠ []

/-- The constructors call an option of the protocol mandatory, and it is missing. -/
def MissesOption (protocol : ProtocolType) (options : Json) : Prop :=
  protocol = .bittorrent ∧ options.member? "port" = none ∨
    protocol = .scp ∧ options.member? "user" = none

/-- The reasons for which no transfer is created. -/
inductive Refused (p : Platform σ) (o : Outside σ) (a : NewTransfer) (s : Site σ) : Prop where
  | known (h : (s.client.getSession (s.client.generateSessionId a.transferId "")).isSome)
  | invalidProtocol (h : stringToProtocols a.protocol = none)
  | noFile (h : ∀ file ∈ a.files, o.fileExists file = .ok false)
  | file {protocol : ProtocolType} {e : Exn}
      (hprotocol : stringToProtocols a.protocol = some protocol)
      (h : s.transferGroup p o a (s.client.generateSessionId a.transferId "") protocol =
        .error (.thrown e))
  | option {protocol : ProtocolType} (hprotocol : stringToProtocols a.protocol = some protocol)
      (h : MissesOption protocol a.protocolOptions)
  | setup {protocol : ProtocolType} {g : GroupMetadata TransferMetadata} {e : Exn}
      (hlaunches : s.Launches p o a protocol g)
      (h : (s.createdSession a g).setup p.cwd o = .error (.thrown e))

/-- One session more, with its interface, and everyone has been sent its metadata: the
bookkeepers the group and all of each record, and so the destinations. -/
def Created (p : Platform σ) (a : NewTransfer) (s : Site σ) (r : Site σ × Option Fault) : Prop :=
  r.2 = none ∧ ∃ session l, r.1.client.sessions = s.client.sessions ++ [session] ∧
    session.session.sessionId = s.client.generateSessionId a.transferId "" ∧
    session.interface ≠ none ∧ s.client.connections.Posts s.world l r.1.world ∧
    (∀ bk ∈ s.client.connections.bookkeepersConn,
      groupMessage p session.session.sessionId session.session.transferOptions bk ∈ l) ∧
    (∀ bk ∈ s.client.connections.bookkeepersConn, (session.session.files.map
      (recordMessage p.dump session.session.sessionId bk)).Sublist l) ∧
    ∀ client ∈ a.destClients,
      transferMessages p s.client a.transferId session.session.transferOptions client ⊆ l

/-- The sessions are as before, and nothing was sent to anyone. -/
def NothingDone (s : Site σ) (r : Site σ × Option Fault) : Prop :=
  r.1.client.sessions = s.client.sessions ∧ r.1.world.sends = s.world.sends

/-- A call that comes back, and does nothing where there is a reason to, and else all. -/
def AllOrNothing (p : Platform σ) (o : Outside σ) (a : NewTransfer) (s : Site σ) : Prop :=
  (s.createNewTransfer p o a).2 ≠ some .undefined ∧
    (s.Refused p o a → s.NothingDone (s.createNewTransfer p o a)) ∧
    (¬ s.Refused p o a → s.Created p a (s.createNewTransfer p o a))

/-- A group that is sent with other records of the same paths. -/
theorem groupMessage_congr (p : Platform σ) (sessionName : String)
    (g : GroupMetadata TransferMetadata) {files : List TransferMetadata}
    (h : files.map TransferMetadata.withoutLink =
      g.transfersMeta.map TransferMetadata.withoutLink) :
    groupMessage p sessionName (g.setTransfersMeta files) = groupMessage p sessionName g := by
  have hpaths := congrArg (List.map TransferMetadata.filePath) h
  simp only [List.map_map] at hpaths
  have hjson : (files.map fun m => Json.string m.filePath) =
      g.transfersMeta.map fun m => Json.string m.filePath := by
    have hstring := congrArg (List.map Json.string) hpaths
    simp only [List.map_map] at hstring
    exact hstring
  funext bk
  simp only [groupMessage, GroupMetadata.exportToString, GroupMetadata.exportJson,
    GroupMetadata.setTransfersMeta, hjson]

/-- **Before the first message nothing is left behind:** what does not get that far
changes nothing and throws at most what a file makes it throw. -/
theorem createNewTransfer_cases (p : Platform σ) (o : Outside σ) (a : NewTransfer)
    (s : Site σ) :
    (∃ protocol g, s.Launches p o a protocol g ∧ s.createNewTransfer p o a =
      s.launch p o a (s.client.generateSessionId a.transferId "") g) ∨
    ((∀ protocol g, ¬ s.Launches p o a protocol g) ∧ s.Refused p o a ∧
      (s.createNewTransfer p o a).1 = s ∧ (s.createNewTransfer p o a).2 ≠ some .undefined) := by
  rw [createNewTransfer]
  cases hknown : s.client.getSession (s.client.generateSessionId a.transferId "") with
  | some i =>
      refine Or.inr ⟨fun protocol g h => ?_, .known (by simp [hknown]), by simp⟩
      rw [h.unknown] at hknown
      cases hknown
  | none =>
      cases hprotocol : stringToProtocols a.protocol with
      | none =>
          refine Or.inr ⟨fun protocol g h => ?_, .invalidProtocol hprotocol, by simp⟩
          rw [h.protocol_eq] at hprotocol
          cases hprotocol
      | some protocol =>
          have hgroup {protocol' g} (h : s.Launches p o a protocol' g) : s.transferGroup p o a
              (s.client.generateSessionId a.transferId "") protocol = .ok g := by
            obtain rfl : protocol' = protocol :=
              Option.some.inj (h.protocol_eq.symm.trans hprotocol)
            exact h.group_eq
          rcases transferGroup_cases p o a (s.client.generateSessionId a.transferId "") protocol s
            with ⟨⟨e, he⟩, -⟩ | ⟨records, hok, hnil, -⟩
          · refine Or.inr ⟨fun protocol' g h => ?_, .file hprotocol he, by simp [he]⟩
            rw [hgroup h] at he
            cases he
          · by_cases hrecords : records = []
            · refine Or.inr ⟨fun protocol' g h => h.someFile ?_, .noFile (hnil.1 hrecords), ?_⟩
              · obtain rfl := Except.ok.inj ((hgroup h).symm.trans hok)
                exact hrecords
              · simp [hok, hrecords, GroupMetadata.setTransfersMeta]
            · refine Or.inl ⟨protocol, _, ⟨hknown, hprotocol, hok, hrecords⟩, ?_⟩
              simp [hok, hrecords, GroupMetadata.setTransfersMeta]

/-- A transfer that is launched has no reason not to be created but one in its setup
or its options. -/
theorem not_refused_of_launches {a : NewTransfer} {s : Site σ} {protocol : ProtocolType}
    {g : GroupMetadata TransferMetadata} {q : OpenSession σ × Bool}
    (hlaunches : s.Launches p o a protocol g) (hoption : ¬ MissesOption protocol a.protocolOptions)
    (hsetup : (s.createdSession a g).setup p.cwd o = .ok q) : ¬ s.Refused p o a := by
  intro h
  cases h with
  | known h => simp [hlaunches.unknown] at h
  | invalidProtocol h => simp [hlaunches.protocol_eq] at h
  | noFile h =>
      rcases transferGroup_cases p o a (s.client.generateSessionId a.transferId "") protocol s
        with ⟨-, hnot⟩ | ⟨records, hok, hnil, -⟩
      · exact hnot h
      · refine hlaunches.someFile ?_
        obtain rfl := Except.ok.inj (hlaunches.group_eq.symm.trans hok)
        exact hnil.2 h
  | file hprotocol h =>
      obtain rfl := Option.some.inj (hprotocol.symm.trans hlaunches.protocol_eq)
      rw [hlaunches.group_eq] at h
      cases h
  | option hprotocol h =>
      obtain rfl := Option.some.inj (hprotocol.symm.trans hlaunches.protocol_eq)
      exact hoption h
  | setup hlaunches' h =>
      obtain rfl := Option.some.inj (hlaunches'.protocol_eq.symm.trans hlaunches.protocol_eq)
      obtain rfl := Except.ok.inj (hlaunches'.group_eq.symm.trans hlaunches.group_eq)
      rw [hsetup] at h
      cases h

/-- The records of a launched transfer are those of the files that are there. -/
theorem Launches.recorded {a : NewTransfer} {s : Site σ} {protocol : ProtocolType}
    {g : GroupMetadata TransferMetadata} (h : s.Launches p o a protocol g) :
    Recorded p o s.client.listeningIp a.transferId a.files g.transfersMeta := by
  rcases transferGroup_cases p o a (s.client.generateSessionId a.transferId "") protocol s
    with ⟨⟨e, he⟩, -⟩ | ⟨records, hok, -, hrecords⟩
  · rw [h.group_eq] at he
    cases he
  · obtain rfl := Except.ok.inj (h.group_eq.symm.trans hok)
    exact hrecords

/-- The group of a launched transfer has the protocol and the options that were asked for. -/
theorem Launches.options_eq {a : NewTransfer} {s : Site σ} {protocol : ProtocolType}
    {g : GroupMetadata TransferMetadata} (h : s.Launches p o a protocol g) :
    g.protocol = some protocol ∧ g.protocolOptions = a.protocolOptions := by
  rcases transferGroup_cases p o a (s.client.generateSessionId a.transferId "") protocol s
    with ⟨⟨e, he⟩, -⟩ | ⟨records, hok, -⟩
  · rw [h.group_eq] at he
    cases he
  · obtain rfl := Except.ok.inj (h.group_eq.symm.trans hok)
    exact ⟨rfl, rfl⟩

/-- What the bookkeepers of a session need to be sent its records whole: there is one
name among them at most, and after the messages about the group that is being prepared,
those of the constructor come through up to the last record's. -/
def ReportsThrough (p : Platform σ) (g : GroupMetadata TransferMetadata) (s : Site σ) : Prop :=
  (∀ bk ∈ s.client.connections.bookkeepersConn, ∀ bk' ∈ s.client.connections.bookkeepersConn,
    bk = bk') ∧
  p.env.SendsThrough (s.client.connections.bookkeepersConn.length * g.transfersMeta.length)
    (p.env.afterSends s.client.connections.bookkeepersConn.length s.world.tried)

/-- The messages about the group take the sends that they are. -/
theorem tried_tellBookkeepers (p : Platform σ) (sessionName : String)
    (g : GroupMetadata TransferMetadata) (s : Site σ) :
    (s.tellBookkeepers p sessionName g).world.tried =
      p.env.afterSends s.client.connections.bookkeepersConn.length s.world.tried := by
  rw [tellBookkeepers]
  generalize s.client.connections.bookkeepersConn = bks
  induction bks generalizing s with
  | nil => rfl
  | cons bk bks ih =>
      rw [List.foldl_cons, ih, List.length_cons, Env.afterSends, send,
        NotificationInterface.sendNotification_tried]

/-- The flags do not show in a whole record. -/
theorem recordMessage_congr (dump : Json → String) (sessionName bk : String)
    {files files' : List TransferMetadata}
    (h : files.map TransferMetadata.withoutFlags = files'.map TransferMetadata.withoutFlags) :
    files.map (recordMessage dump sessionName bk) =
      files'.map (recordMessage dump sessionName bk) := by
  have hflags : recordMessage dump sessionName bk ∘ TransferMetadata.withoutFlags =
      recordMessage dump sessionName bk := by
    funext m
    simp [recordMessage, TransferMetadata.exportJson, TransferMetadata.header,
      TransferMetadata.value, TransferMetadata.withoutFlags]
  have hmap := congrArg (List.map (recordMessage dump sessionName bk)) h
  rw [List.map_map, List.map_map, hflags] at hmap
  exact hmap

/-- A session is not named like its client. -/
theorem generateSessionId_ne (c : TransferClient σ) (transferId : String) :
    c.clientId ≠ c.generateSessionId transferId "" := by
  intro h
  have hlength := congrArg String.length h
  have hses : "_ses".length = 4 := by decide
  rw [TransferClient.generateSessionId, if_pos rfl, String.length_append, String.length_append,
    hses] at hlength
  omega

/-- The other messages of a creation are no whole records from the session. -/
theorem filter_isWhole (p : Platform σ) (a : NewTransfer) (s : Site σ)
    (g g' : GroupMetadata TransferMetadata) (all : List TransferMetadata) (bks : List String)
    (l : List (String × NotificationData)) :
    (bks.map (groupMessage p (s.client.generateSessionId a.transferId "") g) ++ l ++
      a.destClients.flatMap (transferMessages p s.client a.transferId g')).filter
        (TransferSession.isWhole p.dump (s.client.generateSessionId a.transferId "") all) =
    l.filter
      (TransferSession.isWhole p.dump (s.client.generateSessionId a.transferId "") all) := by
  have hgroups : (bks.map (groupMessage p (s.client.generateSessionId a.transferId "") g)).filter
      (TransferSession.isWhole p.dump (s.client.generateSessionId a.transferId "") all) = [] := by
    refine List.filter_eq_nil_iff.2 fun x hx hwhole => ?_
    obtain ⟨bk, -, rfl⟩ := List.mem_map.1 hx
    have hkind : notificationToString .groupMetadata = notificationToString .transferMetadata :=
      (of_decide_eq_true hwhole).2.1
    exact absurd hkind (by decide)
  have hclients : (a.destClients.flatMap (transferMessages p s.client a.transferId g')).filter
      (TransferSession.isWhole p.dump (s.client.generateSessionId a.transferId "") all) = [] := by
    refine List.filter_eq_nil_iff.2 fun x hx hwhole => ?_
    obtain ⟨client, -, hx⟩ := List.mem_flatMap.1 hx
    refine generateSessionId_ne s.client a.transferId (Eq.trans ?_ (of_decide_eq_true hwhole).1)
    rcases List.mem_cons.1 hx with rfl | hx
    · rfl
    · obtain ⟨m, -, rfl⟩ := List.mem_map.1 hx
      rfl
  rw [List.filter_append, List.filter_append, hgroups, hclients, List.nil_append, List.append_nil]

/-- A filter that looks at the messages alone. -/
theorem map_filter_isWhole (dump : Json → String) (sessionName : String)
    (all : List TransferMetadata) (l : List (String × NotificationData)) :
    (l.filter (TransferSession.isWhole dump sessionName all)).map Prod.snd =
      (l.map Prod.snd).filter fun n => TransferSession.isWhole dump sessionName all ("", n) := by
  rw [List.filter_map]
  rfl

/-- **The records reach the bookkeepers** when the sends come through to the one that
there is. -/
theorem records_sent_iff {dump : Json → String} {sessionName b : String} {bks : List String}
    {files reached : List TransferMetadata} {l : List (String × NotificationData)}
    {ni : NotificationInterface} {w w' : World} (hposts : ni.Posts w l w')
    (hl : l.filter (TransferSession.isWhole dump sessionName files) =
      reached.map (recordMessage dump sessionName b)) (hinitial : reached <+: files)
    (hfiles : files ≠ []) (hb : b ∈ bks) {l' : List (String × NotificationData)}
    (hposts' : ni.Posts w l' w')
    (hsent : ∀ bk ∈ bks, (files.map (recordMessage dump sessionName bk)).Sublist l') :
    (∀ bk ∈ bks, bk = b) ∧ reached = files := by
  have hwhole (bk : String) : (files.map (recordMessage dump sessionName bk)).filter
      (TransferSession.isWhole dump sessionName files) =
        files.map (recordMessage dump sessionName bk) := by
    refine List.filter_eq_self.2 fun x hx => ?_
    obtain ⟨m, hm, rfl⟩ := List.mem_map.1 hx
    exact decide_eq_true ⟨rfl, rfl, List.mem_map_of_mem hm⟩
  have hsub (bk : String) (hbk : bk ∈ bks) :
      ((files.map (recordMessage dump sessionName bk)).map Prod.snd).Sublist
        ((reached.map (recordMessage dump sessionName b)).map Prod.snd) := by
    have hkept := ((hsent bk hbk).filter (TransferSession.isWhole dump sessionName files)).map
      Prod.snd
    rw [hwhole, map_filter_isWhole, hposts'.notifs_eq hposts, ← map_filter_isWhole, hl] at hkept
    exact hkept
  have hlength : reached.length = files.length := by
    refine le_antisymm hinitial.length_le ?_
    simpa using (hsub b hb).length_le
  obtain rfl := hinitial.eq_of_length hlength
  refine ⟨fun bk hbk => ?_, rfl⟩
  have heq := (hsub bk hbk).eq_of_length (by simp)
  obtain ⟨m, files, rfl⟩ := List.exists_cons_of_ne_nil hfiles
  exact congrArg NotificationData.targetId (List.cons.inj heq).1

/-- What the setup of a launched transfer has made, with all its options: a session with an
interface and with records that are new, so that all their fields are flagged. -/
structure SetUp (a : NewTransfer) (g : GroupMetadata TransferMetadata) (s : Site σ)
    (q : OpenSession σ) : Prop where
  live : q.interface ≠ none
  sessionId : q.session.sessionId = s.client.generateSessionId a.transferId ""
  connections : q.session.connections = s.client.connections
  flagged : ∀ m ∈ q.session.files, m.modifiedFields = Finset.univ
  length : q.session.files.length = g.transfersMeta.length

theorem Launches.setUp {a : NewTransfer} {s : Site σ} {protocol : ProtocolType}
    {g : GroupMetadata TransferMetadata} {q : OpenSession σ} {more : Bool}
    (hlaunches : s.Launches p o a protocol g) (hoption : ¬ MissesOption protocol a.protocolOptions)
    (hsetup : (s.createdSession a g).setup p.cwd o = .ok (q, more)) :
    more = true ∧ s.SetUp a g q := by
  obtain ⟨hprotocol, hoptions⟩ := hlaunches.options_eq
  obtain ⟨files₀, hsession, hlinked, hinterface, hmore⟩ := setup_eq_ok hsetup
  have hgroup : (s.createdSession a g).transferOptions = g := rfl
  have hnotMissing : ¬ ((s.createdSession a g).transferOptions.protocol = some .bittorrent ∧
      (s.createdSession a g).transferOptions.protocolOptions.member? "port" = none) := by
    rw [hgroup, hprotocol, hoptions]
    exact fun h => hoption (Or.inl ⟨Option.some.inj h.1, h.2⟩)
  have hfiles : q.session.files = files₀ := by
    rw [hsession]
    rfl
  refine ⟨?_, ?_, ?_, ?_, ?_, ?_⟩
  · cases more with
    | true => rfl
    | false => exact absurd (hmore rfl) hnotMissing
  · intro hnone
    rcases hinterface.1 hnone with h | h
    · rw [hgroup, hprotocol] at h
      cases h
    · exact hnotMissing h
  · rw [hsession]
    rfl
  · rw [hsession]
    rfl
  · rw [hfiles]
    refine TransferSession.flagged_of_linked hlinked fun m hm => ?_
    obtain ⟨file, -, path, size, -, -, rfl⟩ := forall₂_exists_left hlaunches.recorded hm
    rfl
  · rw [hfiles]
    exact hlinked.length_eq.symm

/-- **A setup that gets through with all its options** creates the transfer, exactly when
the records get through to the bookkeepers. -/
theorem created_launch_iff {a : NewTransfer} {s : Site σ} {protocol : ProtocolType}
    {g : GroupMetadata TransferMetadata} {q : OpenSession σ} {more : Bool}
    (hdump : Distinguishes p.dump) (hlaunches : s.Launches p o a protocol g)
    (hoption : ¬ MissesOption protocol a.protocolOptions)
    (hsetup : (s.createdSession a g).setup p.cwd o = .ok (q, more)) :
    s.Created p a (s.launch p o a (s.client.generateSessionId a.transferId "") g) ↔
      s.ReportsThrough p g := by
  obtain ⟨rfl, hlive, hsessionId, hconnections, hflagged, hlength⟩ :=
    hlaunches.setUp hoption hsetup
  obtain ⟨t, files, hlaunch, hclient, hlinks, hflags, hposts⟩ := launch_eq a hsetup
  have hne : q.session.files ≠ [] := fun hnil => by
    rw [hnil] at hlength
    exact hlaunches.someFile (List.length_eq_zero_iff.1 hlength.symm)
  have hrecords (bk : String) : files.map (recordMessage p.dump
      (s.client.generateSessionId a.transferId "") bk) = q.session.files.map
        (recordMessage p.dump (s.client.generateSessionId a.transferId "") bk) :=
    recordMessage_congr p.dump _ bk hflags
  have hgroupMessage (bk : String) : groupMessage p (s.client.generateSessionId a.transferId "")
      (g.setTransfersMeta files) bk =
        groupMessage p (s.client.generateSessionId a.transferId "") g bk :=
    congrFun (groupMessage_congr p _ g hlinks) bk
  rw [hlaunch]
  cases hbks : s.client.connections.bookkeepersConn with
  | nil =>
      obtain ⟨l, hl, -⟩ := tellsBookkeepers_reported p.env p.dump (q, true)
        (s.tellBookkeepers p (s.client.generateSessionId a.transferId "") g).world
      rw [hconnections] at hl
      refine iff_of_true ⟨rfl, _, _, congrArg TransferClient.sessions hclient, rfl, hlive,
        hposts l hl, ?_, ?_, ?_⟩ ?_
      · simp [hbks]
      · simp [hbks]
      · exact fun client hclient m hm =>
          List.mem_append_right _ (List.mem_flatMap.2 ⟨client, hclient, hm⟩)
      · simp [ReportsThrough, hbks, Env.SendsThrough]
  | cons b bks =>
      have hbks' : q.session.bookkeepersConn = b :: bks := by
        rw [TransferSession.bookkeepersConn, hconnections, hbks]
      obtain ⟨l, reached, hl, hwhole, hinitial, hreached⟩ := TransferSession.posts_updateMetadatas
        hdump hbks' p.env hflagged hne
        (s.tellBookkeepers p (s.client.generateSessionId a.transferId "") g).world
      rw [hconnections] at hl
      rw [tried_tellBookkeepers, hbks', hlength, ← hbks] at hreached
      rw [hsessionId] at hwhole
      have hall := hposts l hl
      have hfiltered := filter_isWhole p a s g (g.setTransfersMeta files) q.session.files
        s.client.connections.bookkeepersConn l
      rw [hwhole] at hfiltered
      have hb : b ∈ s.client.connections.bookkeepersConn := hbks ▸ List.mem_cons_self
      constructor
      · rintro ⟨-, session, l', hsessions, -, -, hposts', -, hsent, -⟩
        rw [hclient] at hsessions
        obtain rfl := List.singleton_inj.1 (List.append_cancel_left hsessions)
        obtain ⟨hsame, hend⟩ := records_sent_iff hall hfiltered hinitial hne hb hposts'
          fun bk hbk => hrecords bk ▸ hsent bk hbk
        exact ⟨fun bk hbk bk' hbk' => (hsame bk hbk).trans (hsame bk' hbk').symm, hreached.1 hend⟩
      · rintro ⟨hsame, hthrough⟩
        obtain rfl := hreached.2 hthrough
        refine ⟨rfl, _, _, congrArg TransferClient.sessions hclient, rfl, hlive, hall, ?_, ?_, ?_⟩
        · intro bk hbk
          refine List.mem_append_left _ (List.mem_append_left _ (List.mem_map.2 ⟨bk, hbk, ?_⟩))
          exact (hgroupMessage bk).symm
        · intro bk hbk
          obtain rfl := hsame bk hbk b hb
          refine (hrecords bk).symm ▸ ?_
          exact hfiltered ▸ List.filter_sublist
        · exact fun client hclient m hm =>
            List.mem_append_right _ (List.mem_flatMap.2 ⟨client, hclient, hm⟩)

/-- The bookkeepers are told before the session is set up. -/
theorem nothingDone_tellBookkeepers_iff (g : GroupMetadata TransferMetadata) (sessionName : String)
    (s : Site σ) (f : Option Fault) :
    s.NothingDone (s.tellBookkeepers p sessionName g, f) ↔
      s.client.connections.bookkeepersConn = [] := by
  obtain ⟨calls, hsends, hcalls⟩ := posts_tellBookkeepers p sessionName g s
  rw [NothingDone, client_tellBookkeepers, hsends]
  simp only [true_and, List.append_right_eq_self]
  constructor
  · rintro rfl
    simpa using hcalls
  · intro hbks
    rw [hbks] at hcalls
    simpa using hcalls

/-- **When the creation of a transfer is all or nothing:** if it gets as far as its
first message, the setup of the session gets through with the options that are
mandatory and the records get through to the bookkeepers, or the setup throws and there
is no bookkeeper. -/
theorem all_or_nothing_iff (p : Platform σ) (o : Outside σ) (hdump : Distinguishes p.dump)
    (a : NewTransfer) (s : Site σ) :
    s.AllOrNothing p o a ↔ ∀ protocol g, s.Launches p o a protocol g →
      (((s.createdSession a g).setup p.cwd o).isOk = true ∧
        ¬ MissesOption protocol a.protocolOptions ∧ s.ReportsThrough p g) ∨
      (∃ e, (s.createdSession a g).setup p.cwd o = .error (.thrown e)) ∧
        s.client.connections.bookkeepersConn = [] := by
  rcases createNewTransfer_cases p o a s with
    ⟨protocol, g, hlaunches, hcreate⟩ | ⟨hnot, hrefused, hsame, hdefined⟩
  · have hunique : ∀ {C : ProtocolType → GroupMetadata TransferMetadata → Prop},
        (∀ protocol g, s.Launches p o a protocol g → C protocol g) ↔ C protocol g := by
      refine ⟨fun h => h protocol g hlaunches, fun h protocol' g' hlaunches' => ?_⟩
      obtain rfl := Option.some.inj (hlaunches'.protocol_eq.symm.trans hlaunches.protocol_eq)
      obtain rfl := Except.ok.inj (hlaunches'.group_eq.symm.trans hlaunches.group_eq)
      exact h
    rw [hunique, AllOrNothing, hcreate]
    cases hsetup : (s.createdSession a g).setup p.cwd o with
    | ok q =>
        obtain ⟨q, more⟩ := q
        obtain ⟨t, files, l, hlaunch, hclient, -⟩ := launch_of_setup_ok a hsetup
        by_cases hoption : MissesOption protocol a.protocolOptions
        · rw [hlaunch]
          refine iff_of_false (fun h => ?_) (by simp [hoption])
          obtain ⟨hsessions, -⟩ := h.2.1 (.option hlaunches.protocol_eq hoption)
          rw [hclient] at hsessions
          simp at hsessions
        · have hrefused := not_refused_of_launches hlaunches hoption hsetup
          have hcreated := created_launch_iff hdump hlaunches hoption hsetup
          constructor
          · exact fun h => Or.inl ⟨rfl, hoption, hcreated.1 (h.2.2 hrefused)⟩
          · rintro (⟨-, -, hreports⟩ | ⟨⟨e, he⟩, -⟩)
            · refine ⟨?_, fun h => absurd h hrefused, fun _ => hcreated.2 hreports⟩
              rw [hlaunch]
              simp
            · cases he
    | error f =>
        rw [launch_of_setup_error a hsetup]
        cases f with
        | undefined => exact iff_of_false (fun h => h.1 rfl) (by simp [Except.isOk, Except.toBool])
        | thrown e =>
            have hrefused : s.Refused p o a := .setup hlaunches hsetup
            have hnothing := nothingDone_tellBookkeepers_iff (p := p) g
              (s.client.generateSessionId a.transferId "") s (some (.thrown e))
            constructor
            · exact fun h => Or.inr ⟨⟨e, rfl⟩, hnothing.1 (h.2.1 hrefused)⟩
            · rintro (⟨hok, -⟩ | ⟨-, hbks⟩)
              · cases hok
              · exact ⟨by simp, fun _ => hnothing.2 hbks, fun h => absurd hrefused h⟩
  · refine iff_of_true ⟨hdefined, fun _ => ?_, fun h => absurd hrefused h⟩
      fun protocol g h => absurd h (hnot protocol g)
    rw [NothingDone, hsame]
    exact ⟨rfl, rfl⟩

/-- A transfer of one file to one destination. -/
def oneFile (protocol : String) (protocolOptions : Json) : NewTransfer :=
  ⟨"run1", protocol, ["client2"], ["/data/run1.hdf5"], protocolOptions⟩

/-- All or nothing, with one bookkeeper and a network where every send comes through. -/
theorem all_or_nothing_iff_dummy :
    (Site.plain "client1" ⟨"10.0.0.2", 5001⟩).AllOrNothing .plain .plain
      (oneFile "dummy" .null) := by
  have hdump : Distinguishes Platform.plain.dump := fun m m' whole whole' h =>
    Option.some.inj ((JsonText.parse_dump _).symm.trans
      ((congrArg JsonText.parse h).trans (JsonText.parse_dump _)))
  refine (all_or_nothing_iff .plain .plain hdump (oneFile "dummy" .null)
    (Site.plain "client1" ⟨"10.0.0.2", 5001⟩)).2 fun protocol g h => Or.inl ?_
  obtain rfl : ProtocolType.dummy = protocol := Option.some.inj h.protocol_eq
  obtain rfl := Except.ok.inj h.group_eq
  exact ⟨rfl, by simp [MissesOption], by decide +kernel, by decide +kernel⟩

/-- **Something is left behind:** without a port a session that has no interface, and
after a user of the wrong type a bookkeeper that was told of the group. -/
theorem missing_port_leaves_session :
    ((Site.plain "client1" ⟨"10.0.0.2", 5001⟩).createNewTransfer .plain .plain
      (oneFile "BITTORRENT" .null)).1.client.sessions.map (fun t => t.interface.isNone) = [true] ∧
    ¬ (Site.plain "client1" ⟨"10.0.0.2", 5001⟩).AllOrNothing .plain .plain
      (oneFile "BITTORRENT" .null) ∧
    ((Site.plain "client1" ⟨"10.0.0.2", 5001⟩).createNewTransfer .plain .plain
      (oneFile "SCP" (.object [("user", .integer 5)]))).1.world.sends.length = 1 ∧
    ¬ (Site.plain "client1" ⟨"10.0.0.2", 5001⟩).AllOrNothing .plain .plain
      (oneFile "SCP" (.object [("user", .integer 5)])) := by
  refine ⟨by decide +kernel, fun h => ?_, by decide +kernel, fun h => ?_⟩
  · have hmissing : MissesOption .bittorrent (oneFile "BITTORRENT" .null).protocolOptions :=
      Or.inl ⟨rfl, rfl⟩
    have hsessions := congrArg List.length (h.2.1 (.option rfl hmissing)).1
    exact absurd hsessions (by decide +kernel)
  · have hthrown : ((Site.plain "client1" ⟨"10.0.0.2", 5001⟩).createNewTransfer .plain .plain
        (oneFile "SCP" (.object [("user", .integer 5)]))).2 ≠ none := by decide +kernel
    by_cases hrefused : (Site.plain "client1" ⟨"10.0.0.2", 5001⟩).Refused .plain .plain
        (oneFile "SCP" (.object [("user", .integer 5)]))
    · have hsends := congrArg List.length (h.2.1 hrefused).2
      exact absurd hsends (by decide +kernel)
    · exact hthrown (h.2.2 hrefused).1

end Site

end Transfer
end SNBModules
