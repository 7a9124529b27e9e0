import SNBModules.Transfer.CommandAgreement

/-!
# A transfer and its commands, across the network

Source: `transfer_client.cpp`, `create_new_transfer`, the commands and
`action_on_receive_notification`; `notification_interface.cpp`, `send_notification`.

A transfer is created, and commands are given to it while its first messages may still be
on their way.  Each destination reads in its own time.  The messages of the creation bring
a destination to where the uploader was (`Handshake`), and those of the commands keep it
there (`CommandAgreement`), so that in every interleaving a destination that has read all
agrees with the uploader, and reading comes to an end (`network_agreement`).
-/

namespace SNBModules
namespace Transfer

open Lib

variable {σ ι : Type}

namespace Site

variable {p : Platform σ} {o : Outside σ} {setup : ι → Setup σ}

/-! ## Interfaces -/

/-- A session for such a group has an interface. -/
def HasInterface (g : GroupMetadata TransferMetadata) : Prop :=
  g.protocol ≠ none ∧
    (g.protocol = some .bittorrent → g.protocolOptions.member? "port" ≠ none)

theorem isSome_of_hasInterface {cwd : String} {s : TransferSession} {q : OpenSession σ}
    {more : Bool} (h : s.setup cwd o = .ok (q, more)) (hs : HasInterface s.transferOptions) :
    q.interface.isSome = true := by
  obtain ⟨-, -, -, hnone, -⟩ := setup_eq_ok h
  rw [Option.isSome_iff_ne_none, ne_eq, hnone]
  rintro (hprotocol | ⟨hprotocol, hport⟩)
  · exact hs.1 hprotocol
  · exact hs.2 hprotocol hport

/-- The session of a transfer that has been created has an interface. -/
theorem isSome_of_created {a : NewTransfer} {s t : Site σ} {u : OpenSession σ}
    (hcreate : s.createNewTransfer p o a = (t, none))
    (hsession : t.client.sessions = s.client.sessions ++ [u])
    (hinterface : HasInterface u.session.transferOptions) :
    u.interface.isSome = true ∧ u.session.type = .uploader ∧ u.session.files ≠ [] := by
  rcases createNewTransfer_cases p o a s with ⟨protocol, g, hlaunches, hlaunch⟩ | ⟨-, -, hsame, -⟩
  · rw [hcreate] at hlaunch
    cases hsetup : (s.createdSession a g).setup p.cwd o with
    | error f =>
        rw [launch_of_setup_error a hsetup] at hlaunch
        cases hlaunch
    | ok q =>
        obtain ⟨q, more⟩ := q
        obtain ⟨t', files, l, hlaunch', hclient, hlinks, -, -⟩ := launch_of_setup_ok a hsetup
        obtain ⟨rfl, -⟩ := Prod.mk.inj (hlaunch.trans hlaunch')
        rw [hclient] at hsession
        obtain rfl := List.cons.inj (List.append_cancel_left hsession) |>.1
        have hg : HasInterface (s.createdSession a g).transferOptions :=
          ⟨hinterface.1, hinterface.2⟩
        have hsome := isSome_of_hasInterface hsetup hg
        refine ⟨hsome, rfl, fun hnil => ?_⟩
        obtain rfl : files = [] := hnil
        rw [List.map_nil, eq_comm, List.map_eq_nil_iff] at hlinks
        exact hlaunches.someFile hlinks
  · rw [hcreate] at hsame
    obtain rfl : t = s := hsame
    simp at hsession

/-! ## Reading the messages of a creation -/

/-- The sessions are there as before, but for their records, and with their interfaces. -/
def Keeps (s t : Site σ) : Prop :=
  ∀ (k : ℕ) x, s.client.sessions[k]? = some x →
    ∃ y, t.client.sessions[k]? = some y ∧ x.Like y ∧ y.interface = x.interface

theorem Keeps.refl (s : Site σ) : s.Keeps s := fun _ x hx => ⟨x, hx, .refl x, rfl⟩

theorem Keeps.trans {s t u : Site σ} (h₁ : s.Keeps t) (h₂ : t.Keeps u) : s.Keeps u := by
  intro k x hx
  obtain ⟨y, hy, hlike, hinterface⟩ := h₁ k x hx
  obtain ⟨z, hz, hlike', hinterface'⟩ := h₂ k y hy
  exact ⟨z, hz, hlike.trans hlike', hinterface'.trans hinterface⟩

theorem interface_receiveFile {m : TransferMetadata} {x y : OpenSession σ} {w w' : World}
    (h : OpenSession.receiveFile p m x w = .ok (y, w')) : y.interface = x.interface := by
  obtain ⟨m', -, h⟩ := bind_eq_ok.1 h
  obtain ⟨q, -, h⟩ := bind_eq_ok.1 h
  rw [OpenSession.updateAt] at h
  split at h
  · cases h
  · cases h
    rfl

/-- **A record that arrives** leaves the sessions and their interfaces. -/
theorem keeps_onTransferMetadata {targetId data : String} {s t : Site σ}
    (h : onTransferMetadata p targetId data s = .ok t) : s.Keeps t := by
  obtain ⟨m, -, h⟩ := bind_eq_ok.1 h
  dsimp only at h
  cases hi : s.tick.sessionFor targetId with
  | none =>
      simp only [hi] at h
      cases h
      exact .refl s
  | some i =>
      simp only [hi] at h
      rcases atSession_eq_ok h with rfl | ⟨x, x', w, hx, hf, rfl⟩
      · exact .refl s
      · have hx : s.client.sessions[i]? = some x := hx
        intro k y hk
        by_cases hki : i = k
        · subst hki
          obtain rfl := Option.some.inj (hx.symm.trans hk)
          exact ⟨x', List.getElem?_set_self (List.getElem?_eq_some_iff.1 hx).1,
            (OpenSession.reports_receiveFile m x _ _ _ hf).1, interface_receiveFile hf⟩
        · exact ⟨y, (List.getElem?_set_ne hki).trans hk, .refl y, rfl⟩

/-- What a message that was handled to the end has done. -/
theorem receive_eq_ok {folder : Entry} {n : NotificationData} {s t : Site σ}
    (h : receive p o folder n s = .ok t) :
    step p s (.receive o folder n) = some t ∧ (t = s ∨ ∃ type,
      stringToNotification n.notification = some type ∧ s.handle p o folder type n = (t, none)) := by
  rw [receive, actionOnReceiveNotification] at h
  rw [step, call, actionOnReceiveNotification]
  by_cases haccepts : TransferClient.accepts s.client.clientId n = false
  · rw [if_pos haccepts] at h ⊢
    cases h
    exact ⟨rfl, Or.inl rfl⟩
  · rw [if_neg haccepts] at h ⊢
    cases htype : stringToNotification n.notification with
    | none =>
        simp only [htype] at h
        cases h
    | some type =>
        simp only [htype] at h ⊢
        rcases hhandle : s.handle p o folder type n with ⟨u, _ | f⟩
        · rw [hhandle] at h
          cases h
          exact ⟨rfl, Or.inr ⟨type, rfl, hhandle⟩⟩
        · rw [hhandle] at h
          cases h

/-- **Reading `TRANSFER_METADATA`** sends nothing to a client. -/
theorem read_transferMetadata {i : ι} {src target data : String} {s t : Site σ}
    (hs : s.Apart setup)
    (h : receive (setup i).platform (setup i).outside (setup i).folder
      ⟨src, target, notificationToString .transferMetadata, data⟩ s = .ok t) :
    ∃ out, (clientNetwork setup).read i ⟨src, target, notificationToString .transferMetadata, data⟩
        s = some (t, out) ∧ (clientNetwork setup).Silent out ∧ t.Apart setup ∧ s.Keeps t ∧
      t.client.clientId = s.client.clientId := by
  obtain ⟨hstep, hcases⟩ := receive_eq_ok h
  have hdone : s.Quiet setup t ∧ s.Keeps t := by
    rcases hcases with rfl | ⟨type, htype, hhandle⟩
    · exact ⟨quiet_of_client rfl rfl, .refl t⟩
    · rw [stringToNotification_notificationToString] at htype
      obtain rfl := Option.some.inj htype
      obtain ⟨u, hu, hnil⟩ := runSteps_cons_eq_none.1 hhandle
      cases hnil
      exact ⟨quiet_onTransferMetadata hu, keeps_onTransferMetadata hu⟩
  refine ⟨s.world.sentSince t.world, ?_, hdone.1.2 hs, hdone.1.1.apart hs, hdone.2, ?_⟩
  · simp only [clientNetwork, readMessage, hstep, Option.map_some]
  · rw [hdone.1.1.client_eq]

/-- The records of a transfer, read one after the other. -/
theorem reads_transferMetadata {i : ι} {l : List NotificationData} {s t : Site σ}
    (hl : ∀ n ∈ l, n.notification = notificationToString .transferMetadata)
    (hs : s.Apart setup)
    (hrun : runSteps (l.map fun n => receive (setup i).platform (setup i).outside (setup i).folder
      n) s = (t, none)) :
    (clientNetwork setup).Reads i s l t ∧ t.Apart setup ∧ s.Keeps t ∧
      t.client.clientId = s.client.clientId := by
  induction l generalizing s with
  | nil =>
      obtain ⟨rfl, -⟩ := Prod.mk.inj hrun
      exact ⟨.nil _, hs, .refl _, rfl⟩
  | cons n l ih =>
      obtain ⟨u, hu, hrest⟩ := runSteps_cons_eq_none.1 hrun
      obtain ⟨src, target, notification, data⟩ := n
      obtain rfl : notification = notificationToString .transferMetadata := hl _ List.mem_cons_self
      obtain ⟨out, hread, hout, hapart, hkeeps, hid⟩ := read_transferMetadata hs hu
      obtain ⟨hreads, hapart', hkeeps', hid'⟩ :=
        ih (fun n hn => hl n (List.mem_cons_of_mem _ hn)) hapart hrest
      exact ⟨.cons hread hout hreads, hapart', hkeeps.trans hkeeps', hid'.trans hid⟩

/-- **Reading `NEW_TRANSFER`** makes a session that tells nobody, and sends nothing to a
client. -/
theorem read_newTransfer {i : ι} {src id data : String} {g : GroupMetadata TransferMetadata}
    {s t : Site σ} (hs : s.Apart setup) (haccepts : containsText id s.client.clientId = true)
    (hdata : GroupMetadata.ofString (setup i).platform.cwd (setup i).platform.parse data = .ok g)
    (hg : HasInterface g)
    (h : receive (setup i).platform (setup i).outside (setup i).folder
      ⟨src, id, notificationToString .newTransfer, data⟩ s = .ok t) :
    ∃ out x, (clientNetwork setup).read i ⟨src, id, notificationToString .newTransfer, data⟩ s =
        some (t, out) ∧ (clientNetwork setup).Silent out ∧ t.Apart setup ∧
      t.client = { s.client with sessions := s.client.sessions ++ [x] } ∧
      x.session.targetClients = [] ∧ x.interface.isSome = true := by
  obtain ⟨hstep, -⟩ := receive_eq_ok h
  cases hsetup : (s.newSession g (s.typeFor g.expectedFiles) id
      (appendPath s.client.listeningDir g.groupId) .default).setup (setup i).platform.cwd
      (setup i).outside with
  | error f =>
      -- the constructor throws, and the handler with it
      have hnew : onNewTransfer (setup i).platform (setup i).outside id data s = .error f := by
        rw [onNewTransfer, hdata]
        show createSession _ _ _ _ _ _ _ _ s = _
        rw [createSession, construct_of_setup_error hsetup]
        rfl
      have herror : receive (setup i).platform (setup i).outside (setup i).folder
          ⟨src, id, notificationToString .newTransfer, data⟩ s = .error f := by
        simp [receive, actionOnReceiveNotification, TransferClient.accepts, haccepts, handle,
          runSteps_cons_error hnew, Except.map]
      rw [herror] at h
      cases h
  | ok q =>
      obtain ⟨q, more⟩ := q
      obtain ⟨t', files, hcreate, hclient, -, -⟩ := createSession_of_setup_ok hsetup []
      have hnew : onNewTransfer (setup i).platform (setup i).outside id data s = .ok t' := by
        rw [onNewTransfer, hdata]
        exact hcreate
      have hok : receive (setup i).platform (setup i).outside (setup i).folder
          ⟨src, id, notificationToString .newTransfer, data⟩ s = .ok t' := by
        refine receive_of_handle ?_ (stringToNotification_notificationToString .newTransfer)
          (runSteps_cons_ok hnew)
        simp [TransferClient.accepts, haccepts]
      obtain rfl := Except.ok.inj (hok.symm.trans h)
      have hquiet : s.Quiet setup t' := quiet_onNewTransfer hnew
      have hsome := isSome_of_hasInterface hsetup (s := s.newSession g (s.typeFor g.expectedFiles)
        id (appendPath s.client.listeningDir g.groupId) .default) hg
      refine ⟨s.world.sentSince t'.world, _, ?_, hquiet.2 hs, hquiet.1.apart hs, hclient, rfl,
        hsome⟩
      simp only [clientNetwork, readMessage, hstep, Option.map_some]

/-! ## Joining a transfer -/

/-- What a destination needs to join a transfer that `s` has created as `u`. -/
structure CanJoin (setup : ι → Setup σ) (p : Platform σ) (s : Site σ) (a : NewTransfer)
    (u : TransferSession) (i : ι) (c : Site σ) : Prop where
  parse : ∀ j, (setup i).platform.parse (p.dump j) = some j
  other : s.client.listeningIp ≠ c.client.listeningIp
  free : ∀ x ∈ c.client.sessions, containsText x.session.sessionId
    (s.client.generateSessionId a.transferId c.client.clientId) = false
  opens : c.canOpen (setup i).platform (setup i).outside
    (u.transferOptions.arriving TransferMetadata.filePath)
    (s.client.generateSessionId a.transferId c.client.clientId) = true
  named : c.client.clientId ≠ ""
  apart : c.Apart setup

/-- The files of a transfer that has been created all wait, and no path is empty. -/
theorem CreatedTransfer.fileStates {a : NewTransfer} {s t : Site σ} {u : TransferSession}
    (h : CreatedTransfer p o a s t u) (hcwd : p.cwd.toList.head? = some '/') :
    ∀ f ∈ u.fileStates, f.1 ≠ "" ∧ f.2 = .waiting := by
  intro f hf
  obtain ⟨m, hm, rfl⟩ := List.mem_map.1 hf
  obtain ⟨file, path, size, hpath, -, hlink⟩ := h.files_eq m hm
  have hfilePath : m.filePath = path := congrArg TransferMetadata.filePath hlink
  have hstatus : m.status = .waiting := congrArg TransferMetadata.status hlink
  refine ⟨fun hempty => ?_, hstatus⟩
  have hhead := head?_normalised hcwd hpath
  rw [← hfilePath, show m.filePath = "" from hempty] at hhead
  cases hhead

theorem mirrorFile_of_waiting (type : SessionType) {l : List FileState}
    (hl : ∀ f ∈ l, f.2 = .waiting) : l.map (mirrorFile type) = l := by
  refine (List.map_congr_left fun f hf => ?_).trans (List.map_id l)
  obtain ⟨path, status⟩ := f
  obtain rfl : status = .waiting := hl _ hf
  rfl

/-- **A destination joins:** it reads the messages of the creation, sends nothing to a
client, and is where the uploader is. -/
theorem CreatedTransfer.joins {a : NewTransfer} {s t : Site σ} {u : TransferSession} {i : ι}
    {c : Site σ} (hu : CreatedTransfer p o a s t u) (hcwd : p.cwd.toList.head? = some '/')
    (hip : s.client.listeningIp.WellFormed)
    (hsendable : ∀ m ∈ u.files, Sendable c.client.listeningIp a.transferId m)
    (hinterface : HasInterface u.transferOptions) (hc : CanJoin setup p s a u i c) :
    ∃ c' type, (clientNetwork setup).Reads i c
        ((transferMessages p s.client a.transferId u.transferOptions c.client.clientId).map
          Prod.snd) c' ∧
      Holds setup c.client.clientId a.transferId type (u.fileStates.map (mirrorFile type)) c' := by
  obtain ⟨c', session, hrun, hdone⟩ := hu.arrives hc.parse hip hsendable hc.free (setup i).outside
    (setup i).folder hc.opens
  obtain ⟨protocol, -, hoptions⟩ := hu.options_eq
  have hgroupId : u.transferOptions.groupId = a.transferId := by
    rw [hoptions]
    rfl
  have hdata := GroupMetadata.ofString_exportJson hc.parse (g := u.transferOptions)
    (by rw [hoptions]; rfl) (by rw [hoptions]; exact hip)
    (fun m hm => (hsendable m hm).recorded) (setup i).platform.cwd
  -- the first message, and then the others
  rw [transferMessages, List.map_cons, runSteps_cons_eq_none] at hrun
  obtain ⟨c₁, hfirst, hrest⟩ := hrun
  obtain ⟨out, x, hread, hout, hapart₁, hclient₁, htargets, hsome⟩ := read_newTransfer hc.apart
    (containsText_generateSessionId s.client a.transferId c.client.clientId) hdata
    ⟨hinterface.1, hinterface.2⟩ hfirst
  have hmessages : ∀ n ∈ ((u.transferOptions.transfersMeta.map
      (fileMessage p s.client a.transferId c.client.clientId)).map Prod.snd),
      n.notification = notificationToString .transferMetadata := by
    intro n hn
    obtain ⟨m, hm, rfl⟩ := List.mem_map.1 hn
    obtain ⟨r, -, rfl⟩ := List.mem_map.1 hm
    rfl
  obtain ⟨hreads, hapart, hkeeps, hid⟩ := reads_transferMetadata hmessages hapart₁
    (t := c') (by rw [List.map_map]; exact hrest)
  have hlast : c₁.client.sessions[c.client.sessions.length]? = some x := by
    rw [hclient₁]
    exact List.getElem?_concat_length
  obtain ⟨y, hy, ⟨g, hg, -⟩, hsame⟩ := hkeeps _ x hlast
  have hsession : c'.client.sessions[c.client.sessions.length]? = some session := by
    rw [hdone.sessions_eq]
    exact List.getElem?_concat_length
  obtain rfl := Option.some.inj (hy.symm.trans hsession)
  have hcommands : CommandsResolve (setup i).platform a u c c' y :=
    hu.commandsResolve hdone hc.free (Or.inl hc.named)
  obtain ⟨hget, -⟩ := hcommands.resolves [] c' rfl
  have hstates : y.session.fileStates = u.fileStates := by
    have hfiles := congrArg (List.map TransferMetadata.fileState) hdone.files_eq
    rw [List.map_map, List.map_map] at hfiles
    exact hfiles
  refine ⟨c', y.session.type, .cons hread hout hreads, ?_, hapart, _, y, ?_, hsession, rfl, ?_, ?_,
    ?_⟩
  · rw [hid, hclient₁]
  · rw [← hgroupId]
    exact hget
  · rw [hsame]
    exact hsome
  · rw [hg]
    exact htargets
  · rw [hstates, mirrorFile_of_waiting _ fun f hf => (hu.fileStates hcwd f hf).2]

/-! ## The network after the creation -/

/-- A transfer is created at `up`, in a network where nothing is on its way: all its messages
to clients come through, and the destinations can join. -/
structure Launch (setup : ι → Setup σ) (up : ι) (N : ι → Inbox (Site σ) NotificationData)
    (a : NewTransfer) (t : Site σ) (u : OpenSession σ) : Prop where
  empty : ∀ i, (N i).waiting = []
  obedient : ∀ i, (setup i).platform.interface.Obedient
  created : (N up).state.createNewTransfer (setup up).platform (setup up).outside a = (t, none)
  session : t.client.sessions = (N up).state.client.sessions ++ [u]
  through : AllThrough setup (N up).state.world t.world
  wired : Wired setup up (fun i => (N i).state.client.clientId) (N up).state.client.connections
    a.destClients
  cwd : (setup up).platform.cwd.toList.head? = some '/'
  size : ∀ file size, (setup up).outside.fileSize file = .ok size → size < 2 ^ 64
  ip : ∃ ip port, IPFormat.new ip port = .ok (N up).state.client.listeningIp
  ip_ne : (N up).state.client.listeningIp ≠ .default
  paths : ∀ m ∈ u.session.files, ¬ ['.', '/'] <:+: m.filePath.toList
  interface : HasInterface u.session.transferOptions
  joins : ∀ i, i ≠ up →
    CanJoin setup (setup up).platform (N up).state a u.session i (N i).state

section Launch

variable [DecidableEq ι] {up : ι} {N N₁ : ι → Inbox (Site σ) NotificationData} {a : NewTransfer}
  {t : Site σ} {u : OpenSession σ}

/-- What comes to the others of a creation: each its own messages. -/
theorem Launch.arrivals (h : Launch setup up N a t u) (i : ι) :
    (clientNetwork setup).arrivals i ((N up).state.world.sentSince t.world) =
      if i = up then [] else (transferMessages (setup up).platform (N up).state.client a.transferId
        u.session.transferOptions (N i).state.client.clientId).map Prod.snd := by
  obtain ⟨l, hl, hposts⟩ := (createdTransfer_of_sessions h.created h.session).posts
  have hbookkeepers : l.filter (fun m =>
      (N up).state.client.connections.realConnId m.1 = (setup i).conn) = [] := by
    rw [List.filter_eq_nil_iff]
    intro m hm
    rw [decide_eq_true_iff]
    exact h.wired.apart m.1 (hl m hm) i
  have hown : (a.destClients.flatMap (transferMessages (setup up).platform (N up).state.client
        a.transferId u.session.transferOptions)).filter
        (fun m => (N up).state.client.connections.realConnId m.1 = (setup i).conn) =
      (a.destClients.flatMap (transferMessages (setup up).platform (N up).state.client
        a.transferId u.session.transferOptions)).filter
        (fun m => i ≠ up ∧ m.1 = (N i).state.client.clientId) := by
    refine List.filter_congr fun m hm => ?_
    obtain ⟨d, hd, hm⟩ := List.mem_flatMap.1 hm
    rw [fst_of_mem_transferMessages hm, decide_eq_decide, h.wired.conn_iff d hd i, eq_comm (a := d)]
  rw [arrivals_of_posts hposts h.through, List.filter_append, hbookkeepers, List.nil_append, hown]
  split_ifs with hi
  · simp [hi]
  · simp only [ne_eq, hi, not_false_eq_true, true_and]
    rw [filter_transferMessages _ _ _ _ h.wired.nodup (h.wired.mem i hi)]

/-- **After the creation** every destination is in step, once it has read what waits. -/
theorem Launch.inStep (h : Launch setup up N a t u) {id : String}
    (hid : t.client.getSession id = some (N up).state.client.sessions.length)
    (hstep : (clientNetwork setup).step N (.order up (.create a)) = some N₁) :
    (clientNetwork setup).InStep up
      (Uploads (N up).state.client.connections a.destClients id u.session.sessionId a.transferId)
      (Mirrors setup (fun i => (N i).state.client.clientId) id a.transferId) N₁ := by
  have hcreated := createdTransfer_of_sessions h.created h.session
  obtain ⟨hsome, htype, hfiles⟩ := isSome_of_created h.created h.session h.interface
  have hact : (clientNetwork setup).act up (.create a) (N up).state =
      some (t, (N up).state.world.sentSince t.world) := by
    simp [clientNetwork, order, step, call, h.created]
  have hput : N₁ = (clientNetwork setup).put N up t [] ((N up).state.world.sentSince t.world) := by
    rw [Protocol.step, hact, Option.map_some, h.empty] at hstep
    exact (Option.some.inj hstep).symm
  have hup : N₁ up = ⟨t, []⟩ := by
    rw [hput, Protocol.put, if_pos rfl, h.arrivals, if_pos rfl]
    rfl
  have hlast : t.client.sessions[(N up).state.client.sessions.length]? = some u := by
    rw [h.session]
    exact List.getElem?_concat_length
  have hpaths := hcreated.fileStates h.cwd
  obtain ⟨protocol, -, hoptions⟩ := hcreated.options_eq
  obtain ⟨ip, port, hip⟩ := h.ip
  refine ⟨?_, ?_, fun i hi => ?_⟩
  · rw [hup]
  · rw [hup]
    refine ⟨_, u, hid, hlast, hsome, ?_, fun f hf => (hpaths f hf).1, htype,
      hcreated.connections_eq, hcreated.targetClients_eq, rfl, ?_⟩
    · exact fun hnil => hfiles (List.map_eq_nil_iff.1 hnil)
    · rw [hoptions]
      rfl
  · have hsendable := hcreated.sendable h.cwd h.size (IPFormat.new_wellFormed hip) h.ip_ne
      (h.joins i hi).other h.paths
    obtain ⟨c', type, hreads, hholds⟩ := hcreated.joins h.cwd (IPFormat.new_wellFormed hip)
      hsendable h.interface (h.joins i hi)
    refine ⟨c', ?_, type, u.session.fileStates, ?_, hholds⟩
    · rw [hput, Protocol.put, if_neg hi, h.empty, h.arrivals, if_neg hi, List.nil_append]
      exact hreads
    · rw [hup, statesOf, found_of_getSession hid hlast, Option.map_some]

end Launch

/-! ## Result -/

/-- The destination has the files of the uploader, in mirrored statuses. -/
def Agrees (transferId groupId : String) (s c : Site σ) : Prop :=
  ∃ x y, s.found transferId = some x ∧
    c.found (c.client.clientId ++ "_ses" ++ groupId) = some y ∧
    y.fileStates = x.fileStates.map (mirrorFile y.type)

theorem agrees_of_mirrors {clientId : ι → String} {transferId groupId : String} {i : ι}
    {s c : Site σ} (h : Mirrors setup clientId transferId groupId i s c) :
    Agrees transferId groupId s c := by
  obtain ⟨type, files, hfiles, hclient, -, k, x, hget, hk, rfl, -, -, hstates⟩ := h
  obtain ⟨y, hy, rfl⟩ := Option.map_eq_some_iff.1 hfiles
  exact ⟨y, x.session, hy, by rw [hclient, found_of_getSession hget hk], hstates⟩

/-- **The network agrees.**  After a transfer has been created and any run of commands to it
and deliveries, whose messages to clients all come through: a destination that has read all
that came agrees with the uploader; a message that waits can be read; and reading alone comes
to an end, with all in agreement. -/
theorem network_agreement [DecidableEq ι] {up : ι} {N N₁ M : ι → Inbox (Site σ) NotificationData}
    {a : NewTransfer} {t : Site σ} {u : OpenSession σ} (h : Launch setup up N a t u) {id : String}
    (hid : t.client.getSession id = some (N up).state.client.sessions.length)
    (hstep : (clientNetwork setup).step N (.order up (.create a)) = some N₁)
    {l : List (NetEvent ι Order)}
    (hl : Guarded (clientNetwork setup).step (Protocol.Led up (Commands setup up id)) N₁ l)
    (hM : exec (clientNetwork setup).step N₁ l = some M) :
    (∀ i, i ≠ up → (M i).waiting = [] → Agrees id a.transferId (M up).state (M i).state) ∧
    (∀ i, (M i).waiting ≠ [] → ((clientNetwork setup).step M (.deliver i)).isSome = true) ∧
    ∀ (ds : List ι) (M' : ι → Inbox (Site σ) NotificationData),
      exec (clientNetwork setup).step M (ds.map .deliver) = some M' →
      (∀ i, ds.count i ≤ (M i).waiting.length) ∧
      ((∀ i, (clientNetwork setup).step M' (.deliver i) = none) →
        ∀ i, i ≠ up → Agrees id a.transferId (M' up).state (M' i).state) := by
  have hlaunched := h.inStep hid hstep
  have hin := ((leads_commands h.obedient h.wired).always_inStep hlaunched hl).last hM
  refine ⟨fun i hi hwaiting => agrees_of_mirrors (hin.related hi hwaiting), fun i hi => ?_,
    fun ds M' hrun => ?_⟩
  · cases hwaiting : (M i).waiting with
    | nil => exact absurd hwaiting hi
    | cons m rest =>
        obtain ⟨v, hv, -⟩ := hin.deliver hwaiting
        rw [hv]
        rfl
  · obtain ⟨hcount, hdone⟩ := hin.drained hrun
    obtain ⟨-, hleader, -⟩ := hin.deliveries hrun
    refine ⟨hcount, fun hstuck i hi => ?_⟩
    rw [hleader]
    exact agrees_of_mirrors (hdone hstuck i hi)

/-! ## Two clients -/

/-- The creator of a transfer, and its destination. -/
def pairSetup (i : Bool) : Setup Unit :=
  ⟨.plain, .plain, .other "/data", if i then "client2" else "client1"⟩

def pairNetwork (i : Bool) : Inbox (Site Unit) NotificationData :=
  ⟨if i then receiver "client2" else creator, []⟩

/-- The transfer is started before the destination reads that it was created. -/
def pairRun : List (NetEvent Bool Order) := [.order false (.command .start "run1" ""), .deliver true]

/-- The creator after the creation. -/
def launched : Site Unit := (creator.createNewTransfer .plain .plain (transferTo "client2")).1

theorem apart_pair : ∀ i, Transfer.Apart pairSetup (pairNetwork i).state.client.connections := by
  have h : ∀ i, ∀ bk ∈ (pairNetwork i).state.client.connections.bookkeepersConn, ∀ j,
      (pairNetwork i).state.client.connections.realConnId bk ≠ (pairSetup j).conn := by decide
  exact h

theorem launch_pair :
    ∃ u, Launch pairSetup false pairNetwork (transferTo "client2") launched u := by
  obtain ⟨t, u, ht, hu, hpaths, hopens⟩ :=
    exists_transferred "client2" (by decide +kernel) (by decide +kernel)
  obtain rfl : t = launched := by rw [launched, ht]
  have htold : (launched.world.sends.all fun attempts => attempts.any Attempt.ok) = true := by
    decide +kernel
  obtain ⟨protocol, hp, hoptions⟩ := (createdTransfer_of_sessions ht hu).options_eq
  cases hp
  have hinterface : HasInterface u.session.transferOptions := by
    rw [hoptions]
    exact ⟨Option.some_ne_none _, fun h => by cases h⟩
  refine ⟨u, fun _ => rfl, fun _ => TransferInterface.dummy_obedient, ht, hu, ?_,
    ⟨by decide, by decide, by decide, apart_pair false⟩, rfl, fun _ _ h => by cases h; decide,
    ⟨"10.0.0.2", 5001, by decide +kernel⟩, by decide, hpaths, hinterface, fun i hi => ?_⟩
  · intro attempts hmem _
    exact List.all_eq_true.1 htold attempts (List.mem_of_mem_drop hmem)
  · obtain rfl : i = true := by simpa using hi
    exact ⟨JsonText.parse_dump, by decide, by simp [pairNetwork, receiver, Site.plain], hopens,
      by decide, apart_pair true, by simp [pairNetwork, receiver, Site.plain]⟩

/-- The network after the creation. -/
def pairLaunched : Bool → Inbox (Site Unit) NotificationData :=
  (clientNetwork pairSetup).put pairNetwork false launched []
    (creator.world.sentSince launched.world)

theorem step_pair : (clientNetwork pairSetup).step pairNetwork
    (.order false (.create (transferTo "client2"))) = some pairLaunched := by
  have hok : (creator.createNewTransfer .plain .plain (transferTo "client2")).2 = none := by
    decide +kernel
  have hstep : (step .plain creator (.createNewTransfer .plain (transferTo "client2"))) =
      some launched := by
    rw [step, call, hok]
    rfl
  have hact : (clientNetwork pairSetup).act false (.create (transferTo "client2")) creator =
      some (launched, creator.world.sentSince launched.world) := by
    simp only [clientNetwork, order]
    exact congrArg (Option.map fun t => (t, creator.world.sentSince t.world)) hstep
  exact congrArg (Option.map fun q => (clientNetwork pairSetup).put pairNetwork false q.1 [] q.2)
    hact

theorem network_agreement_pair :
    ∃ M, exec (clientNetwork pairSetup).step pairLaunched pairRun = some M ∧
      ∀ (ds : List Bool) (M' : Bool → Inbox (Site Unit) NotificationData),
        exec (clientNetwork pairSetup).step M (ds.map .deliver) = some M' →
        (∀ i, (clientNetwork pairSetup).step M' (.deliver i) = none) →
        Agrees "run1" "run1" (M' false).state (M' true).state := by
  obtain ⟨u, hu⟩ := launch_pair
  have hsome : (exec (clientNetwork pairSetup).step pairLaunched pairRun).isSome = true := by
    decide +kernel
  obtain ⟨M, hM⟩ := Option.isSome_iff_exists.1 hsome
  have hstart : ((launched.order (pairSetup false) (.command .start "run1" "")).all fun t =>
      t.world.sends.all fun attempts => attempts.any Attempt.ok) = true := by
    decide +kernel
  have hl : Guarded (clientNetwork pairSetup).step
      (Protocol.Led false (Commands pairSetup false "run1")) pairLaunched pairRun := by
    refine ⟨⟨rfl, .start, "", rfl, fun t ht attempts hmem _ => ?_⟩, fun _ _ =>
      ⟨trivial, fun _ _ => trivial⟩⟩
    have ht : launched.order (pairSetup false) (.command .start "run1" "") = some t := ht
    rw [ht] at hstart
    exact List.all_eq_true.1 hstart attempts (List.mem_of_mem_drop hmem)
  obtain ⟨-, -, hend⟩ := network_agreement hu (by decide +kernel) step_pair hl hM
  exact ⟨M, hM, fun ds M' hrun hstuck => (hend ds M' hrun).2 hstuck true (by decide)⟩

end Site

end Transfer
end SNBModules
