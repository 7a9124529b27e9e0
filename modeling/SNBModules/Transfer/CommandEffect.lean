import SNBModules.Transfer.CreateTransfer
import SNBModules.Transfer.SessionCalls

/-!
# What a command does to a session

Source: `transfer_session.cpp`, the operations on a file, the group commands and
`send_notification_to_targets`; `transfer_client.cpp`, the commands in
`action_on_receive_notification`.

Of a session this looks at the paths and statuses of its files, and at what it tells its
targets.  On the first, a command is a function (`GroupCommand.effect`).  The second is at
most one message to each target, which names either all files or the one that the
command was for (`GroupCommand.told`).  `command_spec` says that a command does both, for
an interface that does what it is asked for.
-/

namespace SNBModules
namespace Transfer

open Lib

variable {σ : Type}

/-! ## Paths and statuses -/

/-- A file of a session: its path and its status. -/
abbrev FileState := String × Status

def TransferMetadata.fileState (m : TransferMetadata) : FileState := (m.filePath, m.status)

/-- The files of a session. -/
def TransferSession.fileStates (s : TransferSession) : List FileState :=
  s.files.map TransferMetadata.fileState

/-- The place of a path: that of the first file with it, and else the first. -/
def placeOf (path : String) (l : List FileState) : ℕ :=
  (l.findIdx? fun f => pathElements f.1 = pathElements path).getD 0

namespace GroupCommand

/-- Whether the command takes the file. -/
def accepts (c : GroupCommand) (f : FileState) : Bool := c.allowed f.2

/-- The file after the command has taken it. -/
def mark (c : GroupCommand) (type : SessionType) (f : FileState) : FileState :=
  (f.1, c.target type)

/-- What a command makes of the files: of all of them up to the first that it refuses, or
of the one at the place of a path. -/
def effect (c : GroupCommand) (type : SessionType) (data : String) (l : List FileState) :
    List FileState :=
  if data = "" then sweep c.accepts (c.mark type) l
  else l.modify (placeOf data l) fun f => if c.accepts f then c.mark type f else f

/-- The paths stay as they are. -/
theorem map_fst_effect (c : GroupCommand) (type : SessionType) (data : String)
    (l : List FileState) : (c.effect type data l).map Prod.fst = l.map Prod.fst := by
  rw [effect]
  split_ifs
  · exact sweep_view (k := c.mark type) (g := Prod.fst) _ (fun _ => rfl) l
  · refine List.ext_getElem? fun i => ?_
    rw [List.getElem?_map, List.getElem?_map, List.getElem?_modify]
    cases l[i]? with
    | none => rfl
    | some f =>
        simp only [Option.map_eq_map, Option.map_some]
        split_ifs <;> rfl

theorem effect_ne_nil {c : GroupCommand} {type : SessionType} {data : String}
    {l : List FileState} (hl : l ≠ []) : c.effect type data l ≠ [] := by
  intro hnil
  have hpaths := c.map_fst_effect type data l
  rw [hnil, List.map_nil, eq_comm, List.map_eq_nil_iff] at hpaths
  exact hl hpaths

/-- What the targets are told: nothing, that all files are meant, or the path of one. -/
def told (c : GroupCommand) (data : String) (l : List FileState) : List String :=
  if data = "" then [""]
  else ((l[placeOf data l]?).filter c.accepts).toList.map Prod.fst

end GroupCommand

/-! ## What is sent -/

/-- What a session tells a target. -/
def TransferSession.notice (s : TransferSession) (type : NotificationType) (data client : String) :
    String × NotificationData :=
  (client, ⟨s.sessionId, client ++ "_ses" ++ s.transferOptions.groupId,
    notificationToString type, data⟩)

/-- All that a session tells its targets. -/
def TransferSession.notices (s : TransferSession) (type : Option NotificationType)
    (told : List String) : List (String × NotificationData) :=
  type.toList.flatMap fun type => told.flatMap fun data => s.targetClients.map (s.notice type data)

/-- The session told its targets, and after that bookkeepers alone. -/
def TransferSession.Tells (s : TransferSession) (type : Option NotificationType)
    (told : List String) (w w' : World) : Prop :=
  ∃ w₁, s.connections.Posts w (s.notices type told) w₁ ∧
    Site.TellsBookkeepers s.connections w₁ w'

theorem TransferSession.notices_some (s : TransferSession) (type : NotificationType)
    (data : String) : s.notices (some type) [data] = s.targetClients.map (s.notice type data) := by
  simp [notices]

/-- The targets are told one thing. -/
theorem TransferSession.posts_notices (s : TransferSession) (env : Env) (type : NotificationType)
    (data : String) (w : World) : s.connections.Posts w (s.notices (some type) [data])
      (s.sendNotificationToTargets env type data w).1 := by
  rw [notices_some]
  exact s.posts_sendNotificationToTargets env type data w

/-- What is sent depends on the record of the sends alone. -/
theorem NotificationInterface.Posts.congr {ni : NotificationInterface} {w w' v v' : World}
    {l : List (String × NotificationData)} (h : ni.Posts w l w') (hw : v.sends = w.sends)
    (hw' : v'.sends = w'.sends) : ni.Posts v l v' := by
  obtain ⟨calls, hsends, hcalls⟩ := h
  exact ⟨calls, by rw [hw', hsends, hw], hcalls⟩

theorem Site.TellsBookkeepers.congr {ni : NotificationInterface} {w w' v v' : World}
    (h : Site.TellsBookkeepers ni w w') (hw : v.sends = w.sends) (hw' : v'.sends = w'.sends) :
    Site.TellsBookkeepers ni v v' := by
  obtain ⟨l, hposts, hall⟩ := h
  exact ⟨l, hposts.congr hw hw', hall⟩

/-! ## Interfaces that do what they are asked for -/

/-- An operation that succeeds where `I` holds, keeps it, and leaves path and status of the
file alone. -/
def Obeys (I : σ → Prop) (op : σ → TransferMetadata → σ × TransferMetadata × Bool) : Prop :=
  ∀ x m, I x → I (op x m).1 ∧ (op x m).2.1.fileState = m.fileState ∧ (op x m).2.2 = true

/-- An interface whose operations always do what they are asked for. -/
def TransferInterface.Obedient (interface : TransferInterface σ) : Prop :=
  ∀ c : GroupCommand, Obeys (fun _ => True) (c.operation interface)

theorem TransferInterface.dummy_obedient : TransferInterface.dummy.Obedient := by
  intro c x m _
  cases c <;> exact ⟨trivial, rfl, rfl⟩

/-- Through a pointer that is not null, an operation does the same. -/
theorem Obeys.call {op : σ → TransferMetadata → σ × TransferMetadata × Bool}
    (h : Obeys (fun _ => True) op) : Obeys (fun h => ∃ x, h = .live x) (Handle.call op) := by
  rintro _ m ⟨x, rfl⟩
  obtain ⟨-, hfile, hr⟩ := h x m trivial
  exact ⟨⟨_, rfl⟩, hfile, hr⟩

section Operation

theorem fileState_setStatus (m : TransferMetadata) (now : ℤ) (target : Status) :
    (m.setStatus now target).fileState = (m.filePath, target) := by
  have hpath : (m.setStatus now target).filePath = m.filePath := by
    rw [TransferMetadata.setStatus]
    split_ifs <;> rfl
  rw [TransferMetadata.fileState, hpath, TransferMetadata.setStatus_status]

variable (s : TransferSession) (env : Env) (dump : Json → String) (allowed : Status → Bool)
  (target : Status) {I : σ → Prop} {op : σ → TransferMetadata → σ × TransferMetadata × Bool}
  (notice : Option NotificationType)

/-- A file that an operation takes: the status is set, and in a group command nothing is
sent. -/
theorem fileOperation_taken (hop : Obeys I op) {m : TransferMetadata}
    (hm : allowed m.status = true) {h : Host σ} (hI : I h.interface) :
    let r := s.fileOperation env dump allowed target op notice true h m
    (I r.1.interface ∧ r.1.world.sends = h.world.sends) ∧
      r.2.1.fileState = (m.filePath, target) ∧ r.2.2 = true := by
  intro r
  obtain ⟨hI', hfile, hr⟩ := hop h.interface (m.setStatus (h.world.now env) target) hI
  have heq : r = s.fileOperation env dump allowed target op notice true h m := rfl
  rw [TransferSession.fileOperation, if_pos hm] at heq
  simp only [hr, if_true] at heq
  rw [heq]
  exact ⟨⟨hI', rfl⟩, hfile.trans (fileState_setStatus m _ target), rfl⟩

/-- The loop of a group command. -/
theorem fileStates_andEach (hop : Obeys I op) {h : Host σ} (hI : I h.interface)
    (l : List TransferMetadata) :
    let r := andEach (s.fileOperation env dump allowed target op notice true) true h l
    r.2.1.map TransferMetadata.fileState =
        sweep (fun f => allowed f.2) (fun f => (f.1, target)) (l.map TransferMetadata.fileState) ∧
      I r.1.interface ∧ r.1.world.sends = h.world.sends := by
  refine andEach_sweep (I := fun h' : Host σ => I h'.interface ∧ h'.world.sends = h.world.sends)
    ?_ ?_ ⟨hI, rfl⟩ l
  · rintro h' m ⟨hI', hsends⟩ hm
    obtain ⟨⟨hI₁, hsends₁⟩, hfile, hr⟩ :=
      fileOperation_taken s env dump allowed target notice hop hm hI'
    exact ⟨⟨hI₁, hsends₁.trans hsends⟩, hfile, hr⟩
  · intro h' m hm
    exact fileOperation_of_refused s env dump (by rw [Bool.not_eq_true]; exact hm) true h'

theorem fileState_updateMetadataToBookkeeper (w : World) (m : TransferMetadata) :
    (s.updateMetadataToBookkeeper env dump w m).2.1.fileState = m.fileState := by
  have hsame := congrArg TransferMetadata.fileState
    (updateMetadataToBookkeeper_withoutFlags s env dump w m)
  exact hsame

/-- An operation on one file, with its messages. -/
theorem fileOperation_spec (hop : Obeys I op) {h : Host σ} (hI : I h.interface)
    (m : TransferMetadata) :
    let r := s.fileOperation env dump allowed target op notice false h m
    I r.1.interface ∧
      r.2.1.fileState = (if allowed m.status then (m.filePath, target) else m.fileState) ∧
      (if allowed m.status then s.Tells notice [m.filePath] h.world r.1.world
        else r.1.world = h.world) := by
  intro r
  by_cases hm : allowed m.status = true
  · obtain ⟨hI', hfile, hr⟩ := hop h.interface (m.setStatus (h.world.now env) target) hI
    have heq : r = s.fileOperation env dump allowed target op notice false h m := rfl
    rw [TransferSession.fileOperation, if_pos hm] at heq
    simp only [hr, if_true, Bool.false_eq_true, if_false] at heq
    rw [if_pos hm, if_pos hm, heq]
    refine ⟨hI', ?_, ?_⟩
    · exact (fileState_updateMetadataToBookkeeper s env dump _ _).trans
        (hfile.trans (fileState_setStatus m _ target))
    · have hpath : (op h.interface (m.setStatus (h.world.now env) target)).2.1.filePath =
          m.filePath := congrArg Prod.fst (hfile.trans (fileState_setStatus m _ target))
      rw [hpath]
      cases notice with
      | none => exact ⟨h.world.tick, .refl _ _, Site.tellsBookkeepers_updateMetadata s env dump _ _⟩
      | some type =>
          exact ⟨(s.sendNotificationToTargets env type m.filePath h.world.tick).1,
            (s.posts_notices env type m.filePath h.world.tick).congr rfl rfl,
            Site.tellsBookkeepers_updateMetadata s env dump _ _⟩
  · have hr : r = (h, m, false) := fileOperation_of_refused s env dump hm false h
    rw [if_neg hm, if_neg hm, hr]
    exact ⟨hI, rfl, rfl⟩

/-- The end of a group command. -/
theorem reportAll_spec (p : Host σ × List TransferMetadata × Bool) :
    (s.reportAll env dump p).2.1.fileStates = p.2.1.map TransferMetadata.fileState ∧
      (s.reportAll env dump p).1.interface = p.1.interface ∧
      Site.TellsBookkeepers s.connections p.1.world (s.reportAll env dump p).1.world ∧
      ∃ files, (s.reportAll env dump p).2.1 = s.withFiles files := by
  refine ⟨?_, rfl, Site.tellsBookkeepers_updateMetadatas (s.withFiles p.2.1) env dump p.1.world, ?_⟩
  · have hfiles := congrArg (List.map TransferMetadata.fileState) (reportAll_files s env dump p)
    rw [List.map_map, List.map_map] at hfiles
    exact hfiles
  · obtain ⟨files, hfiles⟩ :=
      (s.withFiles p.2.1).updateMetadatasToBookkeeper_session env dump p.1.world
    exact ⟨files, hfiles⟩

end Operation

/-! ## Commands to all files -/

section Run

variable (s : TransferSession) (env : Env) (dump : Json → String) {I : σ → Prop}
  {interface : TransferInterface σ}

/-- The end of a group command that has told its targets. -/
theorem reportAll_told (type : NotificationType) {w : World}
    {p : Host σ × List TransferMetadata × Bool} {l : List FileState}
    (hp : p.2.1.map TransferMetadata.fileState = l ∧ I p.1.interface ∧ p.1.world.sends = w.sends) :
    let q := s.reportAll env dump (s.tellTargets env type p.1, p.2)
    q.2.1.fileStates = l ∧ I q.1.interface ∧ s.Tells (some type) [""] w q.1.world ∧
      ∃ files, q.2.1 = s.withFiles files := by
  obtain ⟨hfiles, hI, hsends⟩ := hp
  obtain ⟨hstates, hinterface, htells, hsession⟩ :=
    reportAll_spec s env dump (s.tellTargets env type p.1, p.2)
  exact ⟨hstates.trans hfiles, hinterface ▸ hI,
    ⟨_, (s.posts_notices env type "" p.1.world).congr hsends.symm rfl, htells⟩, hsession⟩

/-- **A group command:** a sweep over the files, and at most one message to each target. -/
theorem GroupCommand.run_spec (g : GroupCommand) (hop : Obeys I (g.operation interface))
    {h : Host σ} (hI : I h.interface) :
    let q := g.run s interface env dump h
    q.2.1.fileStates = sweep g.accepts (g.mark s.type) s.fileStates ∧ I q.1.interface ∧
      s.Tells g.notice [""] h.world q.1.world ∧ ∃ files, q.2.1 = s.withFiles files := by
  have hloop (h₀ : Host σ) (hI₀ : I h₀.interface) :=
    fileStates_andEach s env dump g.allowed (g.target s.type) g.notice hop hI₀ s.files
  cases g with
  | pause =>
      -- the targets are told before the loop
      obtain ⟨hfiles, hI', hsends⟩ := hloop (s.tellTargets env .pauseTransfer h) hI
      obtain ⟨hstates, hinterface, htells, hsession⟩ := reportAll_spec s env dump
        (andEach (s.pauseFile interface env dump true) true (s.tellTargets env .pauseTransfer h)
          s.files)
      exact ⟨hstates.trans hfiles, hinterface ▸ hI',
        ⟨_, s.posts_notices env .pauseTransfer "" h.world, htells.congr hsends.symm rfl⟩, hsession⟩
  | resume => exact reportAll_told s env dump .resumeTransfer (hloop h hI)
  | cancel => exact reportAll_told s env dump .cancelTransfer (hloop h hI)
  | upload => exact reportAll_told s env dump .startTransfer (hloop h hI)
  | download dest =>
      -- nobody is told
      obtain ⟨hfiles, hI', hsends⟩ := hloop h hI
      obtain ⟨hstates, hinterface, htells, hsession⟩ := reportAll_spec s env dump
        (andEach (s.downloadFile interface env dump dest true) true h s.files)
      exact ⟨hstates.trans hfiles, hinterface ▸ hI',
        ⟨h.world, .refl _ _, htells.congr hsends.symm rfl⟩, hsession⟩

end Run

/-! ## Commands -/

namespace OpenSession

variable {p : Platform σ}

/-- Of the session, nothing but the records and the expected files has changed. -/
def Like (s t : OpenSession σ) : Prop :=
  ∃ g, t.session = { s.session with transferOptions := g } ∧
    g.groupId = s.session.transferOptions.groupId

theorem Like.refl (s : OpenSession σ) : s.Like s := ⟨_, rfl, rfl⟩

theorem Like.trans {s t u : OpenSession σ} (h₁ : s.Like t) (h₂ : t.Like u) : s.Like u := by
  obtain ⟨g₁, hg₁, hid₁⟩ := h₁
  obtain ⟨g₂, hg₂, hid₂⟩ := h₂
  refine ⟨g₂, ?_, ?_⟩
  · rw [hg₂, hg₁]
  · rw [hid₂, hg₁, hid₁]

/-- A command that a live interface has carried out. -/
theorem after_of_live {s : TransferSession} {h : Host (Handle σ)} {x : σ}
    (hx : h.interface = .live x) : after s h = .ok (⟨s, some x⟩, h.world) := by
  rw [after, hx]

theorem handle_of_some {s : OpenSession σ} {x : σ} (hx : s.interface = some x) :
    s.handle = .live x := by
  rw [handle, hx]

/-- The place that a path is looked up at. -/
theorem placeOfPath_eq {s : TransferSession} (hfiles : s.files ≠ []) (path : String) :
    s.transferOptions.placeOfPath path = .ok (placeOf path s.fileStates) := by
  have hne : s.transferOptions.transfersMeta ≠ [] := hfiles
  have hplace : placeOf path s.fileStates = (s.transferOptions.transfersMeta.findIdx? fun m =>
      decide (pathElements m.filePath = pathElements path)).getD 0 := by
    rw [placeOf, TransferSession.fileStates, List.findIdx?_map]
    rfl
  rw [hplace, GroupMetadata.placeOfPath]
  cases s.transferOptions.transfersMeta.findIdx? fun m =>
      decide (pathElements m.filePath = pathElements path) with
  | none => rw [if_neg hne]; rfl
  | some i => rfl

theorem placeOf_lt {l : List FileState} (hl : l ≠ []) (path : String) :
    placeOf path l < l.length := by
  rw [placeOf]
  cases h : l.findIdx? fun f => decide (pathElements f.1 = pathElements path) with
  | none => exact List.length_pos_iff.2 hl
  | some i => exact (List.findIdx?_eq_some_iff_getElem.1 h).1

/-- What a command owes: the session is like it was, its files are as the command makes
them, and the targets are told. -/
def Carries (g : GroupCommand) (data : String) (s : OpenSession σ) (w : World)
    (r : Except Fault (OpenSession σ × World)) : Prop :=
  ∃ t w', r = .ok (t, w') ∧ s.Like t ∧ t.interface.isSome = true ∧
    t.session.fileStates = g.effect s.session.type data s.session.fileStates ∧
    s.session.Tells g.notice (g.told data s.session.fileStates) w w'

theorem obeys_operation (hI : p.interface.Obedient) (g : GroupCommand) :
    Obeys (fun h => ∃ x, h = Handle.live x) (g.operation p.interface.throughHandle) := by
  rw [GroupCommand.operation_throughHandle]
  exact (hI g).call

theorem like_withFiles (s : OpenSession σ) (files : List TransferMetadata) (x : Option σ) :
    s.Like ⟨s.session.withFiles files, x⟩ :=
  ⟨_, rfl, rfl⟩

/-- A command to all files. -/
theorem commandAll_spec (hI : p.interface.Obedient) (c : Command) {s : OpenSession σ} {x : σ}
    (hx : s.interface = some x) (w : World) :
    Carries (groupCommand c s.session) "" s w (s.commandAll p c w) := by
  obtain ⟨hstates, ⟨y, hy⟩, htells, files, hsession⟩ :=
    (groupCommand c s.session).run_spec s.session p.env p.dump (obeys_operation hI _)
      (h := ⟨w, s.handle⟩) ⟨x, handle_of_some hx⟩
  rw [commandAll_eq]
  generalize (groupCommand c s.session).run s.session p.interface.throughHandle p.env p.dump
    ⟨w, s.handle⟩ = q at hstates hy htells hsession
  refine ⟨⟨q.2.1, some y⟩, q.1.world, after_of_live hy, ?_, rfl, ?_, ?_⟩
  · rw [hsession]
    exact s.like_withFiles files (some y)
  · rw [hstates, GroupCommand.effect, if_pos rfl]
  · rw [GroupCommand.told, if_pos rfl]
    exact htells

/-- A command to the file at the place of a path. -/
theorem commandAt_spec (hI : p.interface.Obedient) (c : Command) {data : String}
    (hdata : data ≠ "") {s : OpenSession σ} {x : σ} (hx : s.interface = some x)
    (hfiles : s.session.files ≠ []) (w : World) :
    Carries (groupCommand c s.session) data s w
      (s.commandAt p c (placeOf data s.session.fileStates) w) := by
  have hne : s.session.fileStates ≠ [] := fun h => hfiles (List.map_eq_nil_iff.1 h)
  have hlt := placeOf_lt hne data
  rw [Carries, GroupCommand.effect, if_neg hdata, GroupCommand.told, if_neg hdata]
  generalize placeOf data s.session.fileStates = i at hlt ⊢
  rw [TransferSession.fileStates, List.length_map] at hlt
  obtain ⟨m, hm⟩ : ∃ m, s.session.files[i]? = some m := ⟨_, List.getElem?_eq_getElem hlt⟩
  have hat : s.session.fileStates[i]? = some m.fileState := by
    rw [TransferSession.fileStates, List.getElem?_map, hm]
    rfl
  rw [commandAt_eq c hm, hat]
  dsimp only
  generalize groupCommand c s.session = g
  obtain ⟨⟨y, hy⟩, hfile, htells⟩ := fileOperation_spec s.session p.env p.dump g.allowed
    (g.target s.session.type) g.notice (obeys_operation hI g) (h := ⟨w, s.handle⟩)
    ⟨x, handle_of_some hx⟩ m
  generalize s.session.fileOperation p.env p.dump g.allowed (g.target s.session.type)
    (g.operation p.interface.throughHandle) g.notice false ⟨w, s.handle⟩ m = q at hy hfile htells
  refine ⟨⟨s.session.withFiles (s.session.files.set i q.2.1), some y⟩, q.1.world, after_of_live hy,
    s.like_withFiles _ (some y), rfl, ?_, ?_⟩
  · show (s.session.files.set i q.2.1).map TransferMetadata.fileState = _
    rw [List.map_set, hfile, List.modify_eq_set_getElem?, hat]
    rfl
  · cases hm' : g.allowed m.status with
    | true =>
        have hmf : g.accepts m.fileState = true := hm'
        rw [if_pos hm'] at htells
        have htold : ((some m.fileState).filter g.accepts).toList.map Prod.fst = [m.filePath] := by
          simp only [Option.filter, hmf, if_true]
          rfl
        rw [htold]
        exact htells
    | false =>
        have hmf : g.accepts m.fileState = false := hm'
        rw [if_neg (by rw [hm']; exact Bool.false_ne_true)] at htells
        refine ⟨w, ?_, ?_⟩
        · have hnone : s.session.notices g.notice [] = [] := by
            simp [TransferSession.notices]
          simpa [Option.filter, hmf, hnone] using
            NotificationInterface.Posts.refl s.session.connections w
        · rw [htells]
          exact .refl _ _

/-- **What a command does:** to the files and to the targets. -/
theorem command_spec (hI : p.interface.Obedient) (c : Command) (data : String)
    {s : OpenSession σ} {x : σ} (hx : s.interface = some x)
    (hfiles : data ≠ "" → s.session.files ≠ []) (w : World) :
    Carries (groupCommand c s.session) data s w (s.command p c data w) := by
  by_cases hdata : data = ""
  · subst hdata
    rw [command, if_pos rfl]
    exact commandAll_spec hI c hx w
  · rw [command, if_neg hdata, placeOfPath_eq (hfiles hdata)]
    exact commandAt_spec hI c hdata hx (hfiles hdata) w

end OpenSession

end Transfer
end SNBModules
