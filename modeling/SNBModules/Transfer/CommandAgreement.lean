import SNBModules.Transfer.ClientNetwork

/-!
# Commands, across the network

Source: `transfer_client.cpp`, `start_transfer`, `pause_transfer`, `resume_transfer`,
`cancel_transfer` and `action_on_receive_notification`; `transfer_session.cpp`, the group
commands and the operations on a file.

The uploader carries a command out and passes it on to the destinations, which carry it out
on sessions of their own.  No answer comes back.  A file is `UPLOADING` at the one where it
is `DOWNLOADING` at the other (`mirror`), and the commands respect that
(`effect_mirror`): they take the same files and set mirrored statuses.  So the destinations
are in step with the uploader as soon as they have read what waits for them
(`commands_agree`).
-/

namespace SNBModules
namespace Transfer

open Lib

variable {σ ι : Type}

/-! ## Mirrored statuses -/

/-- The status at a destination, with a session of the type, of a file that has the given
one at the uploader. -/
def mirror (type : SessionType) : Status → Status
  | .uploading => TransferSession.resumedStatus type
  | status => status

def mirrorFile (type : SessionType) (f : FileState) : FileState := (f.1, mirror type f.2)

namespace Command

/-- The group command that a command is for a session of the type, in no directory. -/
def group : Command → SessionType → GroupCommand
  | start, .downloader => .download ""
  | start, .uploader => .upload
  | pause, _ => .pause
  | resume, _ => .resume
  | cancel, _ => .cancel

/-- The notification that passes a command on. -/
def notification : Command → NotificationType
  | start => .startTransfer
  | pause => .pauseTransfer
  | resume => .resumeTransfer
  | cancel => .cancelTransfer

/-- The directory plays no part in what becomes of the files. -/
theorem effect_groupCommand (c : Command) (s : TransferSession) :
    (OpenSession.groupCommand c s).effect s.type = (c.group s.type).effect s.type := by
  cases c with
  | start =>
      simp only [OpenSession.groupCommand]
      cases s.type <;> rfl
  | pause | resume | cancel => rfl

theorem groupCommand_of_uploader (c : Command) {s : TransferSession} (hs : s.type = .uploader) :
    OpenSession.groupCommand c s = c.group .uploader := by
  cases c with
  | start =>
      simp only [OpenSession.groupCommand, hs]
      rfl
  | pause | resume | cancel => rfl

theorem notice_group (c : Command) : (c.group .uploader).notice = some c.notification := by
  cases c <;> rfl

/-- A destination takes the files that the uploader takes. -/
theorem accepts_mirror (c : Command) (type : SessionType) (f : FileState) :
    (c.group type).accepts (mirrorFile type f) = (c.group .uploader).accepts f := by
  obtain ⟨path, status⟩ := f
  cases c <;> cases type <;> cases status <;> rfl

/-- It leaves them in the mirrored status. -/
theorem mark_mirror (c : Command) (type : SessionType) (f : FileState) :
    (c.group type).mark type (mirrorFile type f) =
      mirrorFile type ((c.group .uploader).mark .uploader f) := by
  cases c <;> cases type <;> rfl

theorem placeOf_mirror (path : String) (type : SessionType) (l : List FileState) :
    placeOf path (l.map (mirrorFile type)) = placeOf path l := by
  rw [placeOf, placeOf, List.findIdx?_map]
  rfl

/-- **A command respects the mirror.** -/
theorem effect_mirror (c : Command) (type : SessionType) (data : String) (l : List FileState) :
    (c.group type).effect type data (l.map (mirrorFile type)) =
      ((c.group .uploader).effect .uploader data l).map (mirrorFile type) := by
  rw [GroupCommand.effect, GroupCommand.effect]
  split_ifs
  · exact sweep_map (c.accepts_mirror type) (fun f _ => c.mark_mirror type f) l
  · rw [placeOf_mirror, List.modify_eq_set_getElem?, List.modify_eq_set_getElem?,
      List.getElem?_map]
    cases l[placeOf data l]? with
    | none => rfl
    | some f =>
        simp only [Option.map_some, Option.map_eq_map, Option.getD_some, List.map_set,
          accepts_mirror, mark_mirror]
        split_ifs <;> rfl

/-- The file that stands for a path stands for its own path. -/
theorem placeOf_fst {l : List FileState} {data : String} {f : FileState}
    (hf : l[placeOf data l]? = some f) : placeOf f.1 l = placeOf data l := by
  have hlookup : l.findIdx? (fun x => decide (pathElements x.1 = pathElements f.1)) =
        l.findIdx? (fun x => decide (pathElements x.1 = pathElements data)) ∨
      l.findIdx? (fun x => decide (pathElements x.1 = pathElements f.1)) = some 0 ∧
        l.findIdx? (fun x => decide (pathElements x.1 = pathElements data)) = none := by
    cases h : l.findIdx? (fun x => decide (pathElements x.1 = pathElements data)) with
    | some i =>
        left
        rw [placeOf, h, Option.getD_some] at hf
        obtain ⟨hlt, hi, -⟩ := List.findIdx?_eq_some_iff_getElem.1 h
        obtain rfl := Option.some.inj ((List.getElem?_eq_getElem hlt).symm.trans hf)
        rw [← h, of_decide_eq_true hi]
    | none =>
        right
        rw [placeOf, h, Option.getD_none] at hf
        cases l with
        | nil => cases hf
        | cons x l =>
            obtain rfl := Option.some.inj hf
            simp [List.findIdx?_cons]
  rw [placeOf, placeOf]
  rcases hlookup with h | ⟨h, h'⟩
  · rw [h]
  · rw [h, h']
    rfl

/-- A file that is refused stays as it is. -/
theorem effect_of_refused {g : GroupCommand} {type : SessionType} {data : String}
    (hdata : data ≠ "") {l : List FileState} {f : FileState} (hf : l[placeOf data l]? = some f)
    (hrefused : g.accepts f = false) : g.effect type data l = l := by
  obtain ⟨hlt, rfl⟩ := List.getElem?_eq_some_iff.1 hf
  rw [GroupCommand.effect, if_neg hdata, List.modify_eq_set_getElem?, hf]
  simp only [Option.map_eq_map, Option.map_some, Option.getD_some, hrefused, Bool.false_eq_true,
    if_false, List.set_getElem_self]

/-- **What the targets are told is enough:** it does to their files what the command does to
those of the uploader. -/
theorem foldl_told (c : Command) (type : SessionType) (data : String) {l : List FileState}
    (hpaths : ∀ f ∈ l, f.1 ≠ "") :
    ((c.group .uploader).told data l).foldl (fun l path => (c.group type).effect type path l)
        (l.map (mirrorFile type)) =
      ((c.group .uploader).effect .uploader data l).map (mirrorFile type) := by
  by_cases hdata : data = ""
  · rw [GroupCommand.told, if_pos hdata, hdata]
    exact c.effect_mirror type "" l
  · rw [GroupCommand.told, if_neg hdata]
    cases hf : l[placeOf data l]? with
    | none =>
        rw [GroupCommand.effect, if_neg hdata, List.modify_eq_set_getElem?, hf]
        rfl
    | some f =>
        have hne : f.1 ≠ "" := hpaths f (List.mem_of_getElem? hf)
        have hsame : (c.group .uploader).effect .uploader f.1 l =
            (c.group .uploader).effect .uploader data l := by
          rw [GroupCommand.effect, GroupCommand.effect, if_neg hne, if_neg hdata, placeOf_fst hf]
        cases haccept : (c.group .uploader).accepts f with
        | true =>
            simp only [Option.filter, haccept, if_true, Option.toList_some, List.map_cons,
              List.map_nil, List.foldl_cons, List.foldl_nil]
            rw [effect_mirror, hsame]
        | false =>
            rw [effect_of_refused hdata hf haccept]
            simp only [Option.filter, haccept, Bool.false_eq_true, if_false, Option.toList_none,
              List.map_nil, List.foldl_nil]

end Command

/-! ## A command that is read -/

theorem getSession_congr {c c' : TransferClient σ} (hid : c'.clientId = c.clientId)
    (hsessions : c'.sessionIds = c.sessionIds) (id : String) :
    c'.getSession id = c.getSession id := by
  have hgen : c'.generateSessionId id "" = c.generateSessionId id "" := by
    simp [TransferClient.generateSessionId, hid]
  have hfind : ∀ (d : TransferClient σ) (x : String),
      d.sessions.findIdx? (fun s => decide (s.session.sessionId = x)) =
        d.sessionIds.findIdx? fun y => decide (y = x) := by
    intro d x
    rw [TransferClient.sessionIds, List.findIdx?_map]
    rfl
  rw [TransferClient.getSession, TransferClient.getSession, hgen, hfind, hfind, hsessions]

namespace Site

variable {p : Platform σ} {o : Outside σ} {setup : ι → Setup σ}

/-- The session that is found by the id. -/
def found (id : String) (s : Site σ) : Option TransferSession :=
  (s.client.getSession id).bind fun k => s.client.sessions[k]?.map OpenSession.session

/-- The files of the session that is found by the id. -/
def statesOf (id : String) (s : Site σ) : Option (List FileState) :=
  (s.found id).map TransferSession.fileStates

theorem found_of_getSession {id : String} {s : Site σ} {k : ℕ} {x : OpenSession σ}
    (hget : s.client.getSession id = some k) (hk : s.client.sessions[k]? = some x) :
    s.found id = some x.session := by
  rw [found, hget, Option.bind_some, hk, Option.map_some]

/-- A message that is handled to the end. -/
theorem step_of_handle {folder : Entry} {n : NotificationData} {type : NotificationType}
    {s t : Site σ} (haccepts : TransferClient.accepts s.client.clientId n = true)
    (htype : stringToNotification n.notification = some type)
    (h : s.handle p o folder type n = (t, none)) :
    step p s (.receive o folder n) = some t := by
  simp [step, call, actionOnReceiveNotification, haccepts, htype, h]

/-- A command to the session at a place. -/
theorem atSession_command (hI : p.interface.Obedient) (c : Command) (data : String) {s : Site σ}
    {k : ℕ} {x : OpenSession σ} (hk : s.client.sessions[k]? = some x)
    (hx : x.interface.isSome = true) (hfiles : x.session.fileStates ≠ []) :
    ∃ y w, s.atSession k (OpenSession.command p c data) =
        .ok ⟨{ s.client with sessions := s.client.sessions.set k y }, w⟩ ∧
      x.Like y ∧ y.interface.isSome = true ∧
      y.session.fileStates =
        (c.group x.session.type).effect x.session.type data x.session.fileStates ∧
      x.session.Tells (OpenSession.groupCommand c x.session).notice
        ((OpenSession.groupCommand c x.session).told data x.session.fileStates) s.world w := by
  obtain ⟨i, hi⟩ := Option.isSome_iff_exists.1 hx
  obtain ⟨y, w, hcommand, hlike, hy, hstates, htells⟩ := OpenSession.command_spec hI c data hi
    (fun _ h => hfiles (by rw [TransferSession.fileStates, h]; rfl)) s.world
  refine ⟨y, w, ?_, hlike, hy, ?_, htells⟩
  · simp only [atSession, hk, hcommand, bind, Except.bind]
  · rw [hstates, c.effect_groupCommand]

/-- The client has a session of the type for the group, with these files, and tells nobody
in it. -/
structure Holds (setup : ι → Setup σ) (id groupId : String) (type : SessionType)
    (files : List FileState) (c : Site σ) : Prop where
  clientId_eq : c.client.clientId = id
  apart : c.Apart setup
  session : ∃ k x, c.client.getSession (id ++ "_ses" ++ groupId) = some k ∧
    c.client.sessions[k]? = some x ∧ x.session.type = type ∧ x.interface.isSome = true ∧
    x.session.targetClients = [] ∧ x.session.fileStates = files

/-- The message that passes a command on. -/
def commandMessage (src id groupId : String) (c : Command) (data : String) : NotificationData :=
  ⟨src, id ++ "_ses" ++ groupId, notificationToString c.notification, data⟩

/-- A command that finds its session is read to the end. -/
theorem readMessage_command {x : Setup σ} {src id groupId data : String} {cmd : Command}
    {c t : Site σ} (hid : c.client.clientId = id)
    (h : onSession (id ++ "_ses" ++ groupId) (OpenSession.command x.platform cmd data) c = .ok t) :
    c.readMessage x (commandMessage src id groupId cmd data) = some t := by
  have hhandle : c.handle x.platform x.outside x.folder cmd.notification
      (commandMessage src id groupId cmd data) = (t, none) := by
    cases cmd <;> exact runSteps_cons_ok h
  have haccepts : TransferClient.accepts c.client.clientId
      (commandMessage src id groupId cmd data) = true := by
    have hcontains : containsText (id ++ "_ses" ++ groupId) id = true := by
      refine decide_eq_true ?_
      rw [String.toList_append, String.toList_append, List.append_assoc]
      exact (List.prefix_append _ _).isInfix
    simp [TransferClient.accepts, commandMessage, hid, hcontains]
  exact step_of_handle haccepts (stringToNotification_notificationToString _) hhandle

/-- **A destination that reads a command** carries it out, and sends nothing to a client. -/
theorem Holds.read {i : ι} (hI : (setup i).platform.interface.Obedient) {id groupId : String}
    {type : SessionType} {files : List FileState} {c : Site σ}
    (h : Holds setup id groupId type files c) (hfiles : files ≠ []) (src : String) (cmd : Command)
    (data : String) :
    ∃ t out, (clientNetwork setup).read i (commandMessage src id groupId cmd data) c =
        some (t, out) ∧ (clientNetwork setup).Silent out ∧
      Holds setup id groupId type ((cmd.group type).effect type data files) t := by
  obtain ⟨hclient, hapart, k, x, hget, hk, rfl, hx, htargets, rfl⟩ := h
  obtain ⟨y, w, hat, hlike, hy, hstates, -⟩ := atSession_command hI cmd data hk hx hfiles
  obtain ⟨t, ht⟩ : ∃ t : Site σ, t = ⟨{ c.client with sessions := c.client.sessions.set k y }, w⟩ :=
    ⟨_, rfl⟩
  rw [← ht] at hat
  have hsession : onSession (id ++ "_ses" ++ groupId)
      (OpenSession.command (setup i).platform cmd data) c = .ok t := by
    rw [onSession, hget]
    exact hat
  have hread : c.readMessage (setup i) (commandMessage src id groupId cmd data) = some t :=
    readMessage_command hclient hsession
  have hquiet : Quiet setup c t := by
    refine quiet_onSession (fun k' x' hk' hx' => ?_) hsession
    obtain rfl := Option.some.inj (hget.symm.trans hk')
    obtain rfl := Option.some.inj (hk.symm.trans hx')
    exact OpenSession.reports_command htargets cmd data
  obtain ⟨g, hg, -⟩ := hlike
  refine ⟨t, c.world.sentSince t.world, ?_, hquiet.2 hapart, ?_, hquiet.1.apart hapart, k, y, ?_,
    ?_, ?_, hy, ?_, hstates⟩
  · simp only [clientNetwork, hread, Option.map_some]
  · rw [ht]
    exact hclient
  · have hids : t.ids = c.ids := ids_onSession (OpenSession.keepsId_command cmd data) hsession
    rw [getSession_congr (by rw [ht]) hids, hget]
  · rw [ht]
    obtain ⟨hlt, -⟩ := List.getElem?_eq_some_iff.1 hk
    exact List.getElem?_set_self hlt
  · rw [hg]
  · rw [hg]
    exact htargets

/-- **A destination that reads commands,** one after the other. -/
theorem Holds.reads {i : ι} (hI : (setup i).platform.interface.Obedient) {id groupId : String}
    {type : SessionType} {files : List FileState} {c : Site σ}
    (h : Holds setup id groupId type files c) (hfiles : files ≠ []) (src : String) (cmd : Command)
    (l : List String) :
    ∃ t, (clientNetwork setup).Reads i c (l.map (commandMessage src id groupId cmd)) t ∧
      Holds setup id groupId type
        (l.foldl (fun files data => (cmd.group type).effect type data files) files) t := by
  induction l generalizing files c with
  | nil => exact ⟨c, .nil c, h⟩
  | cons data l ih =>
      obtain ⟨t, out, hread, hout, ht⟩ := h.read hI hfiles src cmd data
      obtain ⟨u, hreads, hu⟩ := ih ht (GroupCommand.effect_ne_nil hfiles)
      exact ⟨u, .cons hread hout hreads, hu⟩

end Site

/-! ## A command that is passed on -/

/-- How the uploader reaches the others: it has each of them among its targets once, on
whose connection its messages come to nobody else, and no bookkeeper there. -/
structure Wired (setup : ι → Setup σ) (up : ι) (clientId : ι → String)
    (ni : NotificationInterface) (targets : List String) : Prop where
  nodup : targets.Nodup
  mem : ∀ i, i ≠ up → clientId i ∈ targets
  conn_iff : ∀ d ∈ targets, ∀ i, ni.realConnId d = (setup i).conn ↔ i ≠ up ∧ clientId i = d
  apart : Apart setup ni

/-- Of messages to each of the targets, those on a connection that at most one of them is
reached on. -/
theorem filter_targets {targets : List String} (hnodup : targets.Nodup)
    {f : String → String × NotificationData} (hf : ∀ d, (f d).1 = d) {P : String → Prop}
    [DecidablePred P] {q : Prop} [Decidable q] {c : String}
    (hP : ∀ d ∈ targets, P d ↔ q ∧ d = c) (hmem : q → c ∈ targets) :
    (targets.map f).filter (fun m => P m.1) = if q then [f c] else [] := by
  rw [List.filter_map]
  have hown : targets.filter ((fun m => decide (P m.1)) ∘ f) =
      targets.filter fun d => decide (q ∧ d = c) := by
    refine List.filter_congr fun d hd => ?_
    rw [Function.comp_apply, hf, decide_eq_decide]
    exact hP d hd
  rw [hown]
  split_ifs with hq
  · simp only [hq, true_and]
    rw [List.filter_eq, List.count_eq_one_of_mem hnodup (hmem hq)]
    rfl
  · simp [hq]

/-- **What comes to a client** that is reached on its connection as `c`, if it is (`q`): what
the targets are told, in that order. -/
theorem arrivals_of_tells_of_iff {setup : ι → Setup σ} {s : TransferSession} {i : ι} {q : Prop}
    [Decidable q] {c : String} (hnodup : s.targetClients.Nodup)
    (hconn : ∀ d ∈ s.targetClients, s.connections.realConnId d = (setup i).conn ↔ q ∧ d = c)
    (hmem : q → c ∈ s.targetClients) (hapart : Apart setup s.connections)
    {type : NotificationType} {told : List String} {w w' : World}
    (htells : s.Tells (some type) told w w') (hthrough : AllThrough setup w w') :
    (clientNetwork setup).arrivals i (w.sentSince w') =
      if q then told.map fun data => (s.notice type data c).2 else [] := by
  obtain ⟨w₁, hposts, l, hrest, hl⟩ := htells
  have hbookkeepers : l.filter (fun m => s.connections.realConnId m.1 = (setup i).conn) = [] := by
    rw [List.filter_eq_nil_iff]
    intro m hm
    rw [decide_eq_true_iff]
    exact hapart m.1 (hl m hm) i
  rw [arrivals_of_posts (hposts.trans hrest) hthrough, List.filter_append, hbookkeepers,
    List.append_nil, TransferSession.notices, Option.toList_some, List.flatMap_singleton,
    List.filter_flatMap]
  have hone : (fun data => (s.targetClients.map (s.notice type data)).filter fun m =>
      decide (s.connections.realConnId m.1 = (setup i).conn)) = fun data =>
        if q then [s.notice type data c] else [] :=
    funext fun data => filter_targets hnodup (fun _ => rfl)
      (P := fun d => s.connections.realConnId d = (setup i).conn) hconn hmem
  rw [hone]
  split_ifs
  · rw [← List.map_eq_flatMap, List.map_map]
    rfl
  · simp

section Wired

variable {setup : ι → Setup σ} {up : ι} {clientId : ι → String} {ni : NotificationInterface}
  {targets : List String}

/-- **What comes to the others of a command:** what the targets are told, in that order. -/
theorem arrivals_of_tells [DecidableEq ι] {s : TransferSession}
    (h : Wired setup up clientId s.connections s.targetClients) {type : NotificationType}
    {told : List String} {w w' : World} (htells : s.Tells (some type) told w w')
    (hthrough : AllThrough setup w w') (i : ι) :
    (clientNetwork setup).arrivals i (w.sentSince w') =
      if i ≠ up then told.map fun data => (s.notice type data (clientId i)).2 else [] := by
  refine arrivals_of_tells_of_iff h.nodup (fun d hd => ?_) (h.mem i) h.apart htells hthrough
  rw [h.conn_iff d hd i, eq_comm (a := d)]

end Wired

namespace Site

/-- The client has the session of the uploader, which is found by the id of the transfer. -/
def Uploads (ni : NotificationInterface) (targets : List String)
    (transferId sessionId groupId : String) (s : Site σ) : Prop :=
  ∃ k x, s.client.getSession transferId = some k ∧ s.client.sessions[k]? = some x ∧
    x.interface.isSome = true ∧ x.session.fileStates ≠ [] ∧
    (∀ f ∈ x.session.fileStates, f.1 ≠ "") ∧ x.session.type = .uploader ∧
    x.session.connections = ni ∧ x.session.targetClients = targets ∧
    x.session.sessionId = sessionId ∧ x.session.transferOptions.groupId = groupId

variable {setup : ι → Setup σ} {up : ι} {clientId : ι → String} {ni : NotificationInterface}
  {targets : List String} {transferId sessionId groupId : String}

/-- The orders that the network is about: commands to the transfer, whose messages to
clients come through. -/
def Commands (setup : ι → Setup σ) (up : ι) (transferId : String) (s : Site σ) (a : Order) :
    Prop :=
  ∃ c data, a = .command c transferId data ∧
    ∀ t, s.order (setup up) a = some t → AllThrough setup s.world t.world

/-- A destination is in step with the uploader. -/
def Mirrors (setup : ι → Setup σ) (clientId : ι → String) (transferId groupId : String) (i : ι)
    (s c : Site σ) : Prop :=
  ∃ type files, s.statesOf transferId = some files ∧
    Holds setup (clientId i) groupId type (files.map (mirrorFile type)) c

/-- **The uploader carries a command out,** and each of the others is told what the targets
are told. -/
theorem Uploads.command [DecidableEq ι] (hI : (setup up).platform.interface.Obedient)
    (hw : Wired setup up clientId ni targets) {s t : Site σ}
    (h : Uploads ni targets transferId sessionId groupId s) {c : Command} {data : String}
    (hthrough : AllThrough setup s.world t.world)
    (horder : s.order (setup up) (.command c transferId data) = some t) :
    ∃ files, s.statesOf transferId = some files ∧ files ≠ [] ∧ (∀ f ∈ files, f.1 ≠ "") ∧
      t.statesOf transferId = some ((c.group .uploader).effect .uploader data files) ∧
      Uploads ni targets transferId sessionId groupId t ∧
      ∀ i, (clientNetwork setup).arrivals i (s.world.sentSince t.world) =
        if i ≠ up then ((c.group .uploader).told data files).map
          (commandMessage sessionId (clientId i) groupId c) else [] := by
  obtain ⟨k, x, hget, hk, hx, hne, hpaths, htype, rfl, rfl, rfl, rfl⟩ := h
  obtain ⟨y, w, hat, hlike, hy, hstates, htells⟩ := atSession_command hI c data hk hx hne
  have hsession : s.onSession transferId (OpenSession.command (setup up).platform c data) =
      .ok ⟨{ s.client with sessions := s.client.sessions.set k y }, w⟩ := by
    rw [onSession, hget]
    exact hat
  have hordered : s.onSession transferId (OpenSession.command (setup up).platform c data) =
      .ok t := toOption_eq_some.1 horder
  obtain rfl := Except.ok.inj (hordered.symm.trans hsession)
  obtain ⟨g, hg, hgroup⟩ := hlike
  have hids := ids_onSession (OpenSession.keepsId_command c data) hsession
  have hget' : TransferClient.getSession { s.client with sessions := s.client.sessions.set k y }
      transferId = some k := (getSession_congr (by rfl) hids _).trans hget
  have hk' : (s.client.sessions.set k y)[k]? = some y :=
    List.getElem?_set_self (List.getElem?_eq_some_iff.1 hk).1
  rw [htype] at hstates
  refine ⟨x.session.fileStates, ?_, hne, hpaths, ?_, ?_, fun i => ?_⟩
  · rw [statesOf, found_of_getSession hget hk, Option.map_some]
  · rw [statesOf, found_of_getSession hget' hk', Option.map_some, hstates]
  · refine ⟨k, y, hget', hk', hy, ?_, ?_, ?_, ?_, ?_, ?_, ?_⟩
    · rw [hstates]
      exact GroupCommand.effect_ne_nil hne
    · intro f hf
      have hmem : f.1 ∈ x.session.fileStates.map Prod.fst := by
        rw [← (c.group .uploader).map_fst_effect .uploader data, ← hstates]
        exact List.mem_map_of_mem hf
      obtain ⟨f', hf', hsame⟩ := List.mem_map.1 hmem
      exact hsame ▸ hpaths f' hf'
    all_goals rw [hg]
    · exact htype
    · exact hgroup
  · rw [c.groupCommand_of_uploader htype, c.notice_group] at htells
    exact arrivals_of_tells hw htells hthrough i

/-- **The uploader leads:** what a command sends to a destination that is in step brings it
into step again. -/
theorem leads_commands [DecidableEq ι] (hI : ∀ i, (setup i).platform.interface.Obedient)
    (hw : Wired setup up clientId ni targets) :
    (clientNetwork setup).Leads up (Uploads ni targets transferId sessionId groupId)
      (Mirrors setup clientId transferId groupId) (Commands setup up transferId) := by
  have hstep : ∀ {s t : Site σ} {a : Order} {out : List (String × NotificationData)},
      Commands setup up transferId s a → (clientNetwork setup).act up a s = some (t, out) →
      ∃ c data, s.order (setup up) (.command c transferId data) = some t ∧
        AllThrough setup s.world t.world ∧ out = s.world.sentSince t.world := by
    rintro s t a out ⟨c, data, rfl, hthrough⟩ hact
    obtain ⟨t', hordered, hout⟩ := Option.map_eq_some_iff.1 hact
    cases hout
    exact ⟨c, data, hordered, hthrough t hordered, rfl⟩
  constructor
  · intro s t a out hs hok hact
    obtain ⟨c, data, hordered, hthrough, -⟩ := hstep hok hact
    obtain ⟨_, _, _, _, _, ht, _⟩ := hs.command (hI up) hw hthrough hordered
    exact ht
  · intro s t a out hs hok hact
    obtain ⟨c, data, hordered, hthrough, rfl⟩ := hstep hok hact
    obtain ⟨_, _, _, _, _, _, harrivals⟩ := hs.command (hI up) hw hthrough hordered
    rw [harrivals, if_neg (not_not.2 rfl)]
  · rintro s t a out i u hs hok hact hi ⟨type, files, hfiles, hu⟩
    obtain ⟨c, data, hordered, hthrough, rfl⟩ := hstep hok hact
    obtain ⟨files', hfiles', hne, hpaths, hstates, -, harrivals⟩ :=
      hs.command (hI up) hw hthrough hordered
    obtain rfl := Option.some.inj (hfiles.symm.trans hfiles')
    have hne' : files.map (mirrorFile type) ≠ [] := fun h => hne (List.map_eq_nil_iff.1 h)
    obtain ⟨v, hreads, hv⟩ := hu.reads (hI i) hne' sessionId c ((c.group .uploader).told data files)
    rw [harrivals, if_pos hi]
    rw [c.foldl_told type data hpaths] at hv
    exact ⟨v, hreads, type, _, hstates, hv⟩

end Site

end Transfer
end SNBModules
