import SNBModules.Transfer.CreateTransfer
import SNBModules.Transfer.RoundTrip
import SNBModules.Transfer.SessionCalls
import SNBModules.Transfer.SessionIds

/-!
# The handshake of a transfer

Source: `transfer_client.cpp`, `create_new_transfer` at the uploader with
`NEW_TRANSFER` and `TRANSFER_METADATA` at a destination; `group_metadata.cpp`,
`add_file`; `transfer_session.cpp`, `send_notification_to_targets`.

The first message brings the group, which expects the files of all records.  Each
record that follows is added to the session, and its file is expected no more
(`Receiving.step`).  In the end the destination has the group and the records of
the uploader (`handshake`).
-/

namespace SNBModules
namespace Transfer

open Lib

variable {σ σ' : Type}

namespace Site

/-! ## What the uploader has -/

section Uploader

variable {p : Platform σ} {o : Outside σ}

/-- A transfer that has been created: its session, and the messages for it. -/
structure CreatedTransfer (p : Platform σ) (o : Outside σ) (a : NewTransfer) (s t : Site σ)
    (u : TransferSession) : Prop where
  sessionId_eq : u.sessionId = s.client.generateSessionId a.transferId ""
  targetClients_eq : u.targetClients = a.destClients
  connections_eq : u.connections = s.client.connections
  options_eq : ∃ protocol, stringToProtocols a.protocol = some protocol ∧
    u.transferOptions = (GroupMetadata.new a.transferId
      (s.client.generateSessionId a.transferId "") s.client.listeningIp protocol
      a.protocolOptions).setTransfersMeta u.files
  files_eq : ∀ m ∈ u.files, ∃ file path size, normalised p.cwd file = .ok path ∧
    o.fileSize file = .ok size ∧
    m.withoutLink = (newRecord path size s.client.listeningIp a.transferId).withoutLink
  posts : ∃ l, (∀ m ∈ l, m.1 ∈ s.client.connections.bookkeepersConn) ∧
    s.client.connections.Posts s.world
      (l ++ a.destClients.flatMap (transferMessages p s.client a.transferId u.transferOptions))
      t.world

/-- **A creation that leaves one session more** has made it as it should. -/
theorem createdTransfer_of_sessions {a : NewTransfer} {s t : Site σ} {u : OpenSession σ}
    (hcreate : s.createNewTransfer p o a = (t, none))
    (hsession : t.client.sessions = s.client.sessions ++ [u]) :
    CreatedTransfer p o a s t u.session := by
  rcases createNewTransfer_cases p o a s with ⟨protocol, g, hlaunches, hlaunch⟩ | ⟨-, -, hsame, -⟩
  · rw [hcreate] at hlaunch
    cases hsetup : (s.createdSession a g).setup p.cwd o with
    | error f =>
        rw [launch_of_setup_error a hsetup] at hlaunch
        cases hlaunch
    | ok q =>
        obtain ⟨t', files, l, hlaunch', hclient, hlinks, hl, hposts⟩ := launch_of_setup_ok a hsetup
        obtain ⟨rfl, -⟩ := Prod.mk.inj (hlaunch.trans hlaunch')
        rw [hclient] at hsession
        obtain rfl := List.cons.inj (List.append_cancel_left hsession) |>.1
        rcases transferGroup_cases p o a (s.client.generateSessionId a.transferId "") protocol s
          with ⟨⟨e, he⟩, -⟩ | ⟨records, hok, -, hrecords⟩
        · rw [hlaunches.group_eq] at he
          cases he
        · obtain rfl := Except.ok.inj (hlaunches.group_eq.symm.trans hok)
          refine ⟨rfl, rfl, rfl, ⟨protocol, hlaunches.protocol_eq, rfl⟩, fun m hm => ?_, _, ?_,
            hposts⟩
          · have hmem : m.withoutLink ∈ records.map TransferMetadata.withoutLink :=
              hlinks ▸ List.mem_map_of_mem hm
            obtain ⟨r, hr, hlink⟩ := List.mem_map.1 hmem
            obtain ⟨file, -, path, size, hpath, hsize, rfl⟩ := forall₂_exists_left hrecords hr
            exact ⟨file, path, size, hpath, hsize, hlink.symm⟩
          · intro m hm
            rcases List.mem_append.1 hm with hm | hm
            · obtain ⟨bk, hbk, rfl⟩ := List.mem_map.1 hm
              exact hbk
            · exact hl m hm
  · rw [hcreate] at hsame
    obtain rfl : t = s := hsame
    simp at hsession

/-- What the uploader's records are like. -/
structure Sendable (ip : IPFormat) (groupId : String) (m : TransferMetadata) : Prop where
  representable : m.Representable
  recorded : RecordedPath m.filePath
  src_wellFormed : m.src.WellFormed
  dest_wellFormed : m.dest.WellFormed
  src_ne_default : m.src ≠ .default
  dest_ne_src : m.dest ≠ m.src
  src_ne : m.src ≠ ip
  groupId_eq : m.groupId = groupId

theorem CreatedTransfer.sendable {a : NewTransfer} {s t : Site σ} {u : TransferSession}
    (h : CreatedTransfer p o a s t u) (hcwd : p.cwd.toList.head? = some '/')
    (hsize : ∀ file size, o.fileSize file = .ok size → size < 2 ^ 64)
    (hip : s.client.listeningIp.WellFormed) (hdefault : s.client.listeningIp ≠ .default)
    {ip : IPFormat} (hother : s.client.listeningIp ≠ ip)
    (hpaths : ∀ m ∈ u.files, ¬ ['.', '/'] <:+: m.filePath.toList) :
    ∀ m ∈ u.files, Sendable ip a.transferId m := by
  intro m hm
  obtain ⟨file, path, size, hpath, hfile, hlink⟩ := h.files_eq m hm
  have hsame {α : Type} (f : TransferMetadata → α) : f m.withoutLink =
      f (newRecord path size s.client.listeningIp a.transferId).withoutLink := congrArg f hlink
  have hfilePath : m.filePath = path := hsame TransferMetadata.filePath
  have hbytes : m.bytesSize = size := hsame TransferMetadata.bytesSize
  have htransferred : m.bytesTransferred = 0 := hsame TransferMetadata.bytesTransferred
  have hspeed : m.transmissionSpeed = 0 := hsame TransferMetadata.transmissionSpeed
  have hstart : m.startTime = 0 := hsame TransferMetadata.startTime
  have hend : m.endTime = 0 := hsame TransferMetadata.endTime
  have hduration : m.duration = 0 := hsame TransferMetadata.duration
  have hsrc : m.src = s.client.listeningIp := hsame TransferMetadata.src
  have hdest : m.dest = .default := hsame TransferMetadata.dest
  have hgroupId : m.groupId = a.transferId := hsame TransferMetadata.groupId
  refine ⟨?_, ⟨?_, hpaths m hm⟩, ?_, ?_, ?_, ?_, ?_, hgroupId⟩
  · have hsmall := hsize file size hfile
    refine ⟨?_, ?_, ⟨?_, ?_⟩, ⟨?_, ?_⟩, ⟨?_, ?_⟩, ?_, ?_⟩ <;> omega
  · rw [hfilePath]
    exact head?_normalised hcwd hpath
  · rwa [hsrc]
  · rw [hdest]
    exact IPFormat.default_wellFormed
  · rwa [hsrc]
  · rw [hdest, hsrc]
    exact hdefault.symm
  · rwa [hsrc]

end Uploader

/-! ## What a destination does -/

section Destination

variable {p : Platform σ} {o : Outside σ}

/-- A notification, received by a handler that comes back. -/
def receive (p : Platform σ) (o : Outside σ) (folder : Entry) (n : NotificationData)
    (c : Site σ) : Except Fault (Site σ) :=
  let r := c.actionOnReceiveNotification p o folder n
  r.2.map fun _ => r.1

theorem receive_of_handle {folder : Entry} {n : NotificationData} {type : NotificationType}
    {c t : Site σ} (haccepts : TransferClient.accepts c.client.clientId n = true)
    (htype : stringToNotification n.notification = some type)
    (h : c.handle p o folder type n = (t, none)) : receive p o folder n c = .ok t := by
  simp [receive, actionOnReceiveNotification, haccepts, htype, h, Except.map]

/-- The client has one session more than `c₀`, which expects some files and has
received some records. -/
def Receiving (c₀ : TransferClient σ) (id : String) (g : GroupMetadata TransferMetadata)
    (expected : Finset String) (received : List TransferMetadata) (c : Site σ) : Prop :=
  ∃ session files, c.client = { c₀ with sessions := c₀.sessions ++ [session] } ∧
    session.session.sessionId = id ∧ session.session.ip = c₀.listeningIp ∧
    session.session.transferOptions =
      { g with expectedFiles := expected, transfersMeta := files } ∧
    files.map TransferMetadata.withoutFlags = received

/-- Whether a session for a group that arrives can be constructed, and its interface. -/
def canOpen (p : Platform σ) (o : Outside σ) (g : GroupMetadata TransferMetadata) (id : String)
    (c : Site σ) : Bool :=
  ((c.newSession g (c.typeFor g.expectedFiles) id (appendPath c.client.listeningDir g.groupId)
    .default).setup p.cwd o).isOk

/-- **`NEW_TRANSFER`** makes the session, which has no records yet. -/
theorem receiving_newTransfer {id data : String} {g : GroupMetadata TransferMetadata} {c : Site σ}
    (hdata : GroupMetadata.ofString p.cwd p.parse data = .ok g) (hnil : g.transfersMeta = [])
    (hsetup : c.canOpen p o g id = true) :
    ∃ t, onNewTransfer p o id data c = .ok t ∧
      Receiving c.client id g g.expectedFiles [] t := by
  cases h : (c.newSession g (c.typeFor g.expectedFiles) id
      (appendPath c.client.listeningDir g.groupId) .default).setup p.cwd o with
  | error f =>
      rw [canOpen, h] at hsetup
      cases hsetup
  | ok q =>
      obtain ⟨t, files, hcreate, hclient, hlinks, -⟩ := createSession_of_setup_ok h []
      rw [hnil, List.map_nil, List.map_eq_nil_iff] at hlinks
      subst hlinks
      refine ⟨t, ?_, _, [], hclient, rfl, rfl, rfl, rfl⟩
      rw [onNewTransfer, hdata]
      exact hcreate

/-- **A record of the group** is added to the session, whether its file is still
expected or not. -/
theorem receiveFile_of_group {s : OpenSession σ} {g : GroupMetadata TransferMetadata}
    {expected : Finset String} {files : List TransferMetadata} {m : TransferMetadata}
    (hs : s.session.transferOptions =
      { g with expectedFiles := expected, transfersMeta := files })
    (hsrc : m.src ≠ s.session.ip) (hid : m.groupId = g.groupId) (w : World) :
    ∃ m' w', OpenSession.receiveFile p m s w = .ok (⟨{ s.session with
        transferOptions := { g with
          expectedFiles := expected.erase m.filePath
          transfersMeta := files ++ [m'] } }, s.interface⟩, w') ∧
      m'.withoutFlags = { m.withoutFlags with dest := s.session.ip } := by
  have htakes : OpenSession.takes s.session.transferOptions m = true := by
    simp [OpenSession.takes, hs, hid]
  obtain ⟨t, w', hreceive, m', hflags, rfl⟩ :=
    OpenSession.receiveFile_of_takes (p := p) hsrc.symm htakes w
  refine ⟨m', w', ?_, ?_⟩
  · rw [hreceive, TransferSession.files, hs]
  · rw [hflags, hs, ← hid]
    rfl

/-- The session of the handshake is the first to have the id in its own. -/
theorem sessionFor_last {c : Site σ} {sessions : List (OpenSession σ)} {session : OpenSession σ}
    {id : String} (hc : c.client.sessions = sessions ++ [session])
    (hid : session.session.sessionId = id)
    (hfree : ∀ s ∈ sessions, containsText s.session.sessionId id = false) :
    c.sessionFor id = some sessions.length := by
  have hnone : sessions.findIdx? (fun t => containsText t.session.sessionId id) = none :=
    List.findIdx?_eq_none_iff.2 hfree
  rw [sessionFor, hc, List.findIdx?_append, hnone]
  simp [hid, containsText_refl]

/-- **`TRANSFER_METADATA`** adds its record, under the address of the session. -/
theorem Receiving.step {c₀ : TransferClient σ} {id : String} {g : GroupMetadata TransferMetadata}
    {expected : Finset String} {received : List TransferMetadata} {c : Site σ}
    (h : Receiving c₀ id g expected received c)
    (hfree : ∀ s ∈ c₀.sessions, containsText s.session.sessionId id = false)
    {dump : Json → String} {m : TransferMetadata} (hm : Sendable c₀.listeningIp g.groupId m)
    (hparse : p.parse (dump (m.exportJson true)) = some (m.exportJson true)) :
    ∃ t, onTransferMetadata p id (dump (m.exportJson true)) c = .ok t ∧
      Receiving c₀ id g (expected.erase m.filePath)
        (received ++ [{ m.withoutFlags with dest := c₀.listeningIp }]) t := by
  obtain ⟨session, files, hclient, hid, hip, hoptions, hfiles⟩ := h
  obtain ⟨m', hread, hflags⟩ := TransferMetadata.ofString_exportJson hparse hm.representable
    hm.recorded hm.src_wellFormed hm.dest_wellFormed hm.src_ne_default hm.dest_ne_src p.cwd
    (c.world.now p.env)
  have hsame {α : Type} (f : TransferMetadata → α) : f m'.withoutFlags = f m.withoutFlags :=
    congrArg f hflags
  have hsrc : m'.src = m.src := hsame TransferMetadata.src
  have hgroup : m'.groupId = m.groupId := hsame TransferMetadata.groupId
  have hpath : m'.filePath = m.filePath := hsame TransferMetadata.filePath
  obtain ⟨r, w', hreceive, hr⟩ := receiveFile_of_group (p := p) hoptions
    (show m'.src ≠ session.session.ip by rw [hsrc, hip]; exact hm.src_ne)
    (hgroup.trans hm.groupId_eq) c.tick.world
  have hsessions : c.tick.client.sessions = c₀.sessions ++ [session] := by
    show c.client.sessions = _
    rw [hclient]
  have hfor := sessionFor_last hsessions hid hfree
  have hat : c.tick.client.sessions[c₀.sessions.length]? = some session := by simp [hsessions]
  obtain ⟨new, hnew⟩ : ∃ new : OpenSession σ, new = ⟨{ session.session with
      transferOptions := { g with
        expectedFiles := expected.erase m.filePath
        transfersMeta := files ++ [r] } }, session.interface⟩ := ⟨_, rfl⟩
  rw [hpath, ← hnew] at hreceive
  refine ⟨⟨{ c.client with sessions := c₀.sessions ++ [new] }, w'⟩, ?_, new, files ++ [r], ?_,
    ?_, ?_, ?_, ?_⟩
  · have hset : c.tick.client.sessions.set c₀.sessions.length new = c₀.sessions ++ [new] := by
      simp [hsessions]
    have hatSession : c.tick.atSession c₀.sessions.length (OpenSession.receiveFile p m') =
        .ok ⟨{ c.client with sessions := c₀.sessions ++ [new] }, w'⟩ := by
      simp only [atSession, hat, hreceive, bind, Except.bind, hset]
      rfl
    rw [onTransferMetadata_of_some hread hfor]
    exact hatSession
  · rw [hclient]
  · rw [hnew]
    exact hid
  · rw [hnew]
    exact hip
  · rw [hnew]
  · rw [List.map_append, hfiles, List.map_singleton, hr, hflags, hip]

/-- **The records, one after the other:** all arrive in their order, and nothing stays
expected. -/
theorem Receiving.run {c₀ : TransferClient σ} {id : String} {g : GroupMetadata TransferMetadata}
    {expected : Finset String} {received : List TransferMetadata} {c : Site σ}
    (h : Receiving c₀ id g expected received c) (haccepts : containsText id c₀.clientId = true)
    (hfree : ∀ s ∈ c₀.sessions, containsText s.session.sessionId id = false)
    {dump : Json → String} (hparse : ∀ j, p.parse (dump j) = some j)
    {ms : List TransferMetadata} (hms : ∀ m ∈ ms, Sendable c₀.listeningIp g.groupId m)
    (hexpected : expected ⊆ (ms.map TransferMetadata.filePath).toFinset)
    (o : Outside σ) (folder : Entry) (source : String) :
    ∃ t, runSteps (ms.map fun m => receive p o folder ⟨source, id,
        notificationToString .transferMetadata, (m.exportToStringPartial dump true).1⟩) c =
        (t, none) ∧
      Receiving c₀ id g ∅
        (received ++ ms.map fun m => { m.withoutFlags with dest := c₀.listeningIp }) t := by
  induction ms generalizing expected received c with
  | nil =>
      obtain rfl : expected = ∅ := Finset.subset_empty.1 hexpected
      exact ⟨c, rfl, by simpa using h⟩
  | cons m ms ih =>
      obtain ⟨hm, hms⟩ := List.forall_mem_cons.1 hms
      obtain ⟨t, hstep, ht⟩ := h.step hfree hm (hparse _)
      have hrest : expected.erase m.filePath ⊆ (ms.map TransferMetadata.filePath).toFinset := by
        intro path hpath
        obtain ⟨hne, hmem⟩ := Finset.mem_erase.1 hpath
        simpa [hne] using hexpected hmem
      obtain ⟨u, hrun, hu⟩ := ih ht hms hrest
      have hclient : c.client.clientId = c₀.clientId := by
        obtain ⟨session, files, hc, -⟩ := h
        rw [hc]
      refine ⟨u, ?_, by simpa using hu⟩
      rw [List.map_cons, runSteps_cons_ok (t := t)]
      · exact hrun
      · refine receive_of_handle ?_ (stringToNotification_notificationToString .transferMetadata) ?_
        · simp [TransferClient.accepts, hclient, haccepts]
        · exact runSteps_cons_ok hstep

end Destination

/-- The id of a session starts with the client id that it is made for. -/
theorem containsText_generateSessionId (c : TransferClient σ) (transferId client : String) :
    containsText (c.generateSessionId transferId client) client = true := by
  refine decide_eq_true ?_
  by_cases hclient : client = ""
  · rw [hclient]
    exact List.nil_infix
  · rw [TransferClient.generateSessionId, if_neg hclient, String.toList_append,
      String.toList_append, List.append_assoc]
    exact (List.prefix_append _ _).isInfix

/-! ## The handshake -/

theorem fst_of_mem_transferMessages {p : Platform σ} {c : TransferClient σ} {transferId : String}
    {g : GroupMetadata TransferMetadata} {client : String} {m : String × NotificationData}
    (h : m ∈ transferMessages p c transferId g client) : m.1 = client := by
  rcases List.mem_cons.1 h with rfl | h
  · rfl
  · obtain ⟨r, -, rfl⟩ := List.mem_map.1 h
    rfl

/-- Of all that is sent to the destinations, each is sent its own messages once. -/
theorem filter_transferMessages (p : Platform σ) (c : TransferClient σ) (transferId : String)
    (g : GroupMetadata TransferMetadata) {client : String} {clients : List String}
    (hnodup : clients.Nodup) (hmem : client ∈ clients) :
    (clients.flatMap (transferMessages p c transferId g)).filter (fun m => m.1 = client) =
      transferMessages p c transferId g client := by
  have hother (l : List String) (h : client ∉ l) :
      (l.flatMap (transferMessages p c transferId g)).filter (fun m => m.1 = client) = [] := by
    rw [List.filter_eq_nil_iff]
    intro m hm
    obtain ⟨client', hclient', hm⟩ := List.mem_flatMap.1 hm
    rw [fst_of_mem_transferMessages hm, decide_eq_true_iff]
    exact ne_of_mem_of_not_mem hclient' h
  have hown : (transferMessages p c transferId g client).filter (fun m => m.1 = client) =
      transferMessages p c transferId g client :=
    List.filter_eq_self.2 fun m hm => decide_eq_true (fst_of_mem_transferMessages hm)
  obtain ⟨before, after, rfl⟩ := List.append_of_mem hmem
  obtain ⟨-, hafter, hdisjoint⟩ := List.nodup_append.1 hnodup
  have hbefore : client ∉ before := fun h => hdisjoint _ h _ List.mem_cons_self rfl
  rw [List.flatMap_append, List.flatMap_cons, List.filter_append, List.filter_append,
    hother before hbefore, hown, hother after (List.nodup_cons.1 hafter).1, List.nil_append,
    List.append_nil]

/-- What a destination has in the end: one session more, with the group and the records
of the uploader's session `u`. -/
structure HandshakeDone (s : Site σ) (a : NewTransfer) (u : TransferSession) (c c' : Site σ')
    (session : OpenSession σ') : Prop where
  sessions_eq : c'.client.sessions = c.client.sessions ++ [session]
  sessionId_eq : session.session.sessionId =
    s.client.generateSessionId a.transferId c.client.clientId
  groupId_eq : session.session.transferOptions.groupId = u.transferOptions.groupId
  sourceId_eq : session.session.transferOptions.sourceId = u.transferOptions.sourceId
  sourceIp_eq : session.session.transferOptions.sourceIp = u.transferOptions.sourceIp
  protocol_eq : session.session.transferOptions.protocol = u.transferOptions.protocol
  protocolOptions_eq :
    session.session.transferOptions.protocolOptions = u.transferOptions.protocolOptions
  expectedFiles_eq : session.session.transferOptions.expectedFiles = ∅
  files_eq : session.session.files.map TransferMetadata.withoutFlags =
    u.files.map fun m => { m.withoutFlags with dest := c.client.listeningIp }

/-- What the uploader's session sends to a destination from then on names the session
there, whatever is called in between. -/
structure CommandsResolve (p' : Platform σ') (a : NewTransfer) (u : TransferSession)
    (c c' : Site σ') (session : OpenSession σ') : Prop where
  posts : ∀ files env type data w, u.connections.Posts w
    (a.destClients.map fun client => (client, ⟨u.sessionId,
      client ++ "_ses" ++ u.transferOptions.groupId, notificationToString type, data⟩))
    ((u.withFiles files).sendNotificationToTargets env type data w).1
  resolves : ∀ calls c'', exec (step p') c' calls = some c'' →
    c''.client.getSession (c.client.clientId ++ "_ses" ++ u.transferOptions.groupId) =
      some c.client.sessions.length ∧
    c''.ids[c.client.sessions.length]? = some session.session.sessionId

theorem Receiving.handshakeDone {s : Site σ} {a : NewTransfer} {u : TransferSession}
    {c c' : Site σ'} {id : String}
    (h : Receiving c.client id (u.transferOptions.arriving TransferMetadata.filePath) ∅
      ([] ++ u.files.map fun m => { m.withoutFlags with dest := c.client.listeningIp }) c')
    (hid : id = s.client.generateSessionId a.transferId c.client.clientId) :
    ∃ session, HandshakeDone s a u c c' session := by
  obtain ⟨session, files, hclient, hsessionId, -, hoptions, hfiles⟩ := h
  have hfiles' : session.session.files = files := by rw [TransferSession.files, hoptions]
  have hsame {α : Type} (f : GroupMetadata TransferMetadata → α) :
      f session.session.transferOptions =
        f { u.transferOptions.arriving TransferMetadata.filePath with
          expectedFiles := ∅, transfersMeta := files } := congrArg f hoptions
  exact ⟨session,
    { sessions_eq := by rw [hclient]
      sessionId_eq := hsessionId.trans hid
      groupId_eq := hsame GroupMetadata.groupId
      sourceId_eq := hsame GroupMetadata.sourceId
      sourceIp_eq := hsame GroupMetadata.sourceIp
      protocol_eq := hsame GroupMetadata.protocol
      protocolOptions_eq := hsame GroupMetadata.protocolOptions
      expectedFiles_eq := hsame GroupMetadata.expectedFiles
      files_eq := by rw [hfiles', hfiles, List.nil_append] }⟩

/-- **The commands that follow** find the session, unless the id that the session was
made for is not the one that they name: `generate_session_id` reads an empty client id as
none. -/
theorem CreatedTransfer.commandsResolve {p : Platform σ} {p' : Platform σ'} {o : Outside σ}
    {a : NewTransfer} {s t : Site σ} {u : TransferSession} {c c' : Site σ'}
    {session : OpenSession σ'} (hu : CreatedTransfer p o a s t u)
    (hdone : HandshakeDone s a u c c' session)
    (hfree : ∀ x ∈ c.client.sessions, containsText x.session.sessionId
      (s.client.generateSessionId a.transferId c.client.clientId) = false)
    (hempty : c.client.clientId ≠ "" ∨ s.client.clientId = "") :
    CommandsResolve p' a u c c' session := by
  have hgroupId : u.transferOptions.groupId = a.transferId := by
    obtain ⟨protocol, -, hoptions⟩ := hu.options_eq
    rw [hoptions]
    rfl
  have htarget : c.client.clientId ++ "_ses" ++ u.transferOptions.groupId =
      s.client.generateSessionId a.transferId c.client.clientId := by
    rw [hgroupId, TransferClient.generateSessionId]
    split_ifs with hclient
    · rw [hclient, hempty.resolve_left (not_not.2 hclient)]
    · rfl
  refine ⟨fun files env type data w => ?_, fun calls c'' hcalls => ?_⟩
  · have hposts := (u.withFiles files).posts_sendNotificationToTargets env type data w
    rw [← hu.targetClients_eq]
    exact hposts
  · have hids : c'.ids = c.ids ++ [session.session.sessionId] := by
      simp [ids, TransferClient.sessionIds, hdone.sessions_eq]
    have hkept : c'.ids <+: c''.ids :=
      exec_invariant (I := fun x => c'.ids <+: x.ids)
        (fun _ _ _ hx hstep => hx.trans (ids_prefix_step hstep)) (List.prefix_refl _) hcalls
    rw [hids, hdone.sessionId_eq] at hkept
    have hnew : s.client.generateSessionId a.transferId c.client.clientId ∉ c.ids := by
      intro hmem
      obtain ⟨x, hx, hxid⟩ := List.mem_map.1 hmem
      have hnot := hfree x hx
      rw [hxid, containsText_refl] at hnot
      cases hnot
    have hses := containsText_ses s.client a.transferId c.client.clientId
    have hget := getSession_of_prefix hses hnew hkept
    rw [htarget, hdone.sessionId_eq]
    refine ⟨by simpa [ids, TransferClient.sessionIds] using hget, ?_⟩
    obtain ⟨rest, hrest⟩ := hkept
    rw [← hrest]
    simp [ids, TransferClient.sessionIds]

/-- **The messages of a created transfer** leave their receiver with one session more,
which has the group and the records of the uploader. -/
theorem CreatedTransfer.arrives {p : Platform σ} {p' : Platform σ'} {o : Outside σ}
    {a : NewTransfer} {s t : Site σ} {u : TransferSession} {c : Site σ'}
    (hu : CreatedTransfer p o a s t u) (hparse : ∀ j, p'.parse (p.dump j) = some j)
    (hip : s.client.listeningIp.WellFormed)
    (hsendable : ∀ m ∈ u.files, Sendable c.client.listeningIp a.transferId m)
    (hfree : ∀ x ∈ c.client.sessions, containsText x.session.sessionId
      (s.client.generateSessionId a.transferId c.client.clientId) = false)
    (o' : Outside σ') (folder : Entry)
    (hsetup : c.canOpen p' o' (u.transferOptions.arriving TransferMetadata.filePath)
      (s.client.generateSessionId a.transferId c.client.clientId) = true) :
    ∃ c' session, runSteps ((transferMessages p s.client a.transferId u.transferOptions
        c.client.clientId).map fun m => receive p' o' folder m.2) c = (c', none) ∧
      HandshakeDone s a u c c' session := by
  obtain ⟨protocol, -, hoptions⟩ := hu.options_eq
  generalize hid : s.client.generateSessionId a.transferId c.client.clientId = id at *
  have haccepts : containsText id c.client.clientId = true :=
    hid ▸ containsText_generateSessionId s.client a.transferId c.client.clientId
  have hdata := GroupMetadata.ofString_exportJson hparse (g := u.transferOptions)
    (by rw [hoptions]; rfl) (by rw [hoptions]; exact hip)
    (fun m hm => (hsendable m hm).recorded) p'.cwd
  obtain ⟨c₁, hnew, hc₁⟩ := receiving_newTransfer hdata rfl hsetup
  have hgroupId : (u.transferOptions.arriving TransferMetadata.filePath).groupId =
      a.transferId := by
    rw [hoptions]
    rfl
  obtain ⟨c₂, hrun, hc₂⟩ := hc₁.run haccepts hfree hparse (hgroupId ▸ hsendable) (fun _ h => h) o'
    folder s.client.clientId
  obtain ⟨session, hdone⟩ := hc₂.handshakeDone hid.symm
  have hmessages : ((transferMessages p s.client a.transferId u.transferOptions
      c.client.clientId).map fun m => receive p' o' folder m.2) =
      receive p' o' folder ⟨s.client.clientId, id, notificationToString .newTransfer,
        u.transferOptions.exportToString p.dump TransferMetadata.filePath⟩ ::
      u.files.map fun m => receive p' o' folder ⟨s.client.clientId, id,
        notificationToString .transferMetadata, (m.exportToStringPartial p.dump true).1⟩ := by
    rw [transferMessages, List.map_cons, List.map_map, hid, ← hid]
    rfl
  refine ⟨c₂, session, ?_, hdone⟩
  rw [hmessages, runSteps_cons_ok (t := c₁)]
  · exact hrun
  · refine receive_of_handle ?_ (stringToNotification_notificationToString .newTransfer) ?_
    · simp [TransferClient.accepts, haccepts]
    · exact runSteps_cons_ok hnew

/-- **The handshake:** a destination that receives what `create_new_transfer` sends to it
ends with one session more, which has the group and the records of the uploader.  If
its client id is not empty, or the uploader's is, the commands that follow find it. -/
theorem handshake {p : Platform σ} {p' : Platform σ'} {o : Outside σ} {a : NewTransfer}
    {s t : Site σ} {u : OpenSession σ} {c : Site σ'} {ip : String} {port : ℤ}
    (hparse : ∀ j, p'.parse (p.dump j) = some j) (hcwd : p.cwd.toList.head? = some '/')
    (hsize : ∀ file size, o.fileSize file = .ok size → size < 2 ^ 64)
    (hcreate : s.createNewTransfer p o a = (t, none))
    (hsession : t.client.sessions = s.client.sessions ++ [u])
    (hip : IPFormat.new ip port = .ok s.client.listeningIp)
    (hdefault : s.client.listeningIp ≠ .default)
    (hother : s.client.listeningIp ≠ c.client.listeningIp)
    (hpaths : ∀ m ∈ u.session.files, ¬ ['.', '/'] <:+: m.filePath.toList)
    (hnodup : a.destClients.Nodup) (hclient : c.client.clientId ∈ a.destClients)
    (hfree : ∀ x ∈ c.client.sessions, containsText x.session.sessionId
      (s.client.generateSessionId a.transferId c.client.clientId) = false)
    (o' : Outside σ') (folder : Entry)
    (hsetup : c.canOpen p' o' (u.session.transferOptions.arriving TransferMetadata.filePath)
      (s.client.generateSessionId a.transferId c.client.clientId) = true) :
    ∃ told sent c' session, s.client.connections.Posts s.world (told ++ sent) t.world ∧
      (∀ m ∈ told, m.1 ∈ s.client.connections.bookkeepersConn) ∧
      runSteps ((sent.filter fun m => m.1 = c.client.clientId).map fun m =>
        receive p' o' folder m.2) c = (c', none) ∧
      HandshakeDone s a u.session c c' session ∧
      (c.client.clientId ≠ "" ∨ s.client.clientId = "" →
        CommandsResolve p' a u.session c c' session) := by
  have hu := createdTransfer_of_sessions hcreate hsession
  have hwellFormed := IPFormat.new_wellFormed hip
  have hsendable := hu.sendable hcwd hsize hwellFormed hdefault hother hpaths
  obtain ⟨c', session, hrun, hdone⟩ :=
    hu.arrives hparse hwellFormed hsendable hfree o' folder hsetup
  obtain ⟨told, htold, hposts⟩ := hu.posts
  refine ⟨told, _, c', session, hposts, htold, ?_, hdone, hu.commandsResolve hdone hfree⟩
  rw [filter_transferMessages p s.client a.transferId _ hnodup hclient]
  exact hrun

/-- A client that creates a transfer. -/
def creator : Site Unit := .plain "client1" ⟨"10.0.0.2", 5001⟩

/-- A client that a transfer is sent to. -/
def receiver (clientId : String) : Site Unit := .plain clientId ⟨"10.0.0.3", 5002⟩

/-- A transfer of one file to one client. -/
def transferTo (clientId : String) : NewTransfer :=
  ⟨"run1", "dummy", [clientId], ["/data/run1.hdf5"], .null⟩

/-- The files of the session that it leaves at its creator, and whether its receiver can
make one. -/
def transferred (clientId : String) : List (List String × Bool) :=
  (creator.createNewTransfer .plain .plain (transferTo clientId)).1.client.sessions.map fun u =>
    (u.session.files.map TransferMetadata.filePath, (receiver clientId).canOpen .plain .plain
      (u.session.transferOptions.arriving TransferMetadata.filePath)
      (creator.client.generateSessionId (transferTo clientId).transferId
        (receiver clientId).client.clientId))

theorem exists_transferred (clientId : String)
    (hok : (creator.createNewTransfer .plain .plain (transferTo clientId)).2 = none)
    (hfacts : transferred clientId = [(["/data/run1.hdf5"], true)]) :
    ∃ t u, creator.createNewTransfer .plain .plain (transferTo clientId) = (t, none) ∧
      t.client.sessions = creator.client.sessions ++ [u] ∧
      (∀ m ∈ u.session.files, ¬ ['.', '/'] <:+: m.filePath.toList) ∧
      (receiver clientId).canOpen .plain .plain
        (u.session.transferOptions.arriving TransferMetadata.filePath)
        (creator.client.generateSessionId (transferTo clientId).transferId
          (receiver clientId).client.clientId) = true := by
  have hone := congrArg List.length hfacts
  rw [transferred, List.length_map] at hone
  obtain ⟨u, hu⟩ := List.length_eq_one_iff.1 hone
  rw [transferred, hu] at hfacts
  obtain ⟨hfiles, hsetup⟩ := Prod.mk.inj (List.cons.inj hfacts).1
  refine ⟨_, u, Prod.ext rfl hok, hu, fun m hm => ?_, hsetup⟩
  have hpath : m.filePath ∈ u.session.files.map TransferMetadata.filePath :=
    List.mem_map_of_mem hm
  rw [hfiles, List.mem_singleton] at hpath
  rw [hpath]
  decide

theorem handshake_client2 :
    ∃ t u told sent c' session,
      creator.createNewTransfer .plain .plain (transferTo "client2") = (t, none) ∧
      t.client.sessions = [u] ∧
      creator.client.connections.Posts creator.world (told ++ sent) t.world ∧
      runSteps ((sent.filter fun m => m.1 = "client2").map fun m =>
        receive .plain .plain (.other "/data") m.2) (receiver "client2") = (c', none) ∧
      HandshakeDone creator (transferTo "client2") u.session (receiver "client2") c' session ∧
      CommandsResolve .plain (transferTo "client2") u.session (receiver "client2") c' session := by
  obtain ⟨t, u, ht, hu, hpaths, hsetup⟩ :=
    exists_transferred "client2" (by decide +kernel) (by decide +kernel)
  have hip : IPFormat.new "10.0.0.2" 5001 = .ok creator.client.listeningIp := by decide +kernel
  obtain ⟨told, sent, c', session, hposts, -, hrun, hdone, hcommands⟩ :=
    handshake (c := receiver "client2") JsonText.parse_dump rfl
      (fun _ _ h => by cases h; decide) ht hu hip (by decide) (by decide) hpaths (by decide)
      (by decide) (by simp [receiver, Site.plain]) .plain (.other "/data") hsetup
  exact ⟨t, u, told, sent, c', session, ht, hu, hposts, hrun, hdone,
    hcommands (Or.inl (by decide))⟩

/-- **A client without an id:** its session is named after the uploader, and a command
that the uploader sends names another. -/
theorem empty_client_id_not_found :
    ∃ t u told sent c' session,
      creator.createNewTransfer .plain .plain (transferTo "") = (t, none) ∧
      t.client.sessions = [u] ∧
      creator.client.connections.Posts creator.world (told ++ sent) t.world ∧
      runSteps ((sent.filter fun m => m.1 = "").map fun m =>
        receive .plain .plain (.other "/data") m.2) (receiver "") = (c', none) ∧
      HandshakeDone creator (transferTo "") u.session (receiver "") c' session ∧
      creator.client.connections.Posts t.world
        [("", ⟨"client1_sesrun1", "_sesrun1", "START_TRANSFER", ""⟩)]
        (u.session.sendNotificationToTargets Platform.plain.env .startTransfer "" t.world).1 ∧
      c'.client.getSession "_sesrun1" = none := by
  obtain ⟨t, u, ht, hu, hpaths, hsetup⟩ :=
    exists_transferred "" (by decide +kernel) (by decide +kernel)
  have hip : IPFormat.new "10.0.0.2" 5001 = .ok creator.client.listeningIp := by decide +kernel
  have hcreated := createdTransfer_of_sessions ht hu
  have hother : creator.client.listeningIp ≠ (receiver "").client.listeningIp := by decide
  have hsendable := hcreated.sendable rfl (fun _ _ h => by cases h; decide)
    (IPFormat.new_wellFormed hip) (by decide) hother hpaths
  obtain ⟨c', session, hrun, hdone⟩ := hcreated.arrives (c := receiver "") JsonText.parse_dump
    (IPFormat.new_wellFormed hip) hsendable (by simp [receiver, Site.plain]) .plain
    (.other "/data") hsetup
  obtain ⟨told, -, hposts⟩ := hcreated.posts
  have hfilter := filter_transferMessages Platform.plain creator.client "run1"
    u.session.transferOptions (List.nodup_singleton "") (List.mem_singleton.2 rfl)
  have hsends := u.session.posts_sendNotificationToTargets Platform.plain.env .startTransfer ""
    t.world
  obtain ⟨protocol, -, hoptions⟩ := hcreated.options_eq
  refine ⟨t, u, told, _, c', session, ht, hu, hposts, ?_, hdone, ?_, ?_⟩
  · exact hfilter ▸ hrun
  · rw [hcreated.connections_eq, hcreated.targetClients_eq, hcreated.sessionId_eq, hoptions]
      at hsends
    exact hsends
  · have hid : session.session.sessionId = "client1_sesrun1" := hdone.sessionId_eq
    have hses : containsText "_sesrun1" "ses" = true := by decide
    rw [TransferClient.getSession, if_pos hses, hdone.sessions_eq]
    simp [receiver, Site.plain, hid]

end Site

end Transfer
end SNBModules
