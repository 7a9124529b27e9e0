import SNBModules.Transfer.ShownRecords
import SNBModules.Transfer.ClientNetwork

/-!
# What a session reports

Source: `transfer_session.cpp`, the constructor, the operations on files, the group commands and
the updates of the bookkeepers.

A session with one bookkeeper sends it, as long as the sends come through, every record that a
command may have changed: all of them at the end of a group command, and the one that an
operation on a file was for.  Its targets are told on other connections.
-/

namespace SNBModules
namespace Transfer

open Lib

variable {σ : Type}

/-! ## One connection -/

/-- From one world to the other these messages were sent on the connection, and others
elsewhere. -/
def NotificationInterface.Brings (ni : NotificationInterface) (conn : String) (w : World)
    (msgs : List NotificationData) (w' : World) : Prop :=
  ∃ l, ni.Posts w l w' ∧ (l.filter fun m => ni.realConnId m.1 = conn).map Prod.snd = msgs

namespace NotificationInterface

variable {ni : NotificationInterface} {conn : String} {w w₁ w' : World}
  {msgs msgs' : List NotificationData}

theorem Brings.refl (ni : NotificationInterface) (conn : String) (w : World) :
    ni.Brings conn w [] w :=
  ⟨[], .refl _ _, rfl⟩

theorem Brings.trans (h₁ : ni.Brings conn w msgs w₁) (h₂ : ni.Brings conn w₁ msgs' w') :
    ni.Brings conn w (msgs ++ msgs') w' := by
  obtain ⟨l₁, hposts₁, rfl⟩ := h₁
  obtain ⟨l₂, hposts₂, rfl⟩ := h₂
  exact ⟨l₁ ++ l₂, hposts₁.trans hposts₂, by rw [List.filter_append, List.map_append]⟩

theorem Brings.congr {v v' : World} (h : ni.Brings conn w msgs w') (hw : v.sends = w.sends)
    (hw' : v'.sends = w'.sends) : ni.Brings conn v msgs v' := by
  obtain ⟨l, hposts, hmsgs⟩ := h
  exact ⟨l, hposts.congr hw hw', hmsgs⟩

theorem Brings.sends_mono (h : ni.Brings conn w msgs w') : w.sends <+: w'.sends := by
  obtain ⟨l, ⟨calls, hsends, -⟩, -⟩ := h
  exact hsends ▸ List.prefix_append _ _

/-- What has come through. -/
theorem Brings.cameOn (h : ni.Brings conn w msgs w') (hthrough : Through conn w w') :
    w.cameOn conn w' = msgs := by
  obtain ⟨l, hposts, hmsgs⟩ := h
  exact (cameOn_of_posts hposts hthrough).trans hmsgs

/-- A message on the connection. -/
theorem brings_sendNotification (ni : NotificationInterface) (env : Env) (type : NotificationType)
    (src dst idConn data : String) (tries : ℤ) (w : World) :
    ni.Brings (ni.realConnId idConn) w [⟨src, dst, notificationToString type, data⟩]
      (ni.sendNotification env type src dst idConn data tries w).1 :=
  ⟨_, ni.posts_sendNotification env type src dst idConn data tries w, by simp⟩

end NotificationInterface

/-- Of a run in two parts that came through, both parts did. -/
theorem Through.split {conn : String} {w w₁ w' : World} (h : Through conn w w')
    (h₁ : w.sends <+: w₁.sends) (h₂ : w₁.sends <+: w'.sends) :
    Through conn w w₁ ∧ Through conn w₁ w' := by
  obtain ⟨calls₁, h₁⟩ := h₁
  obtain ⟨calls₂, h₂⟩ := h₂
  rw [Through, ← h₂, ← h₁, List.append_assoc, List.drop_left] at h
  rw [Through, Through, ← h₂, List.drop_left, ← h₁, List.drop_left]
  exact ⟨fun attempts hmem => h attempts (List.mem_append_left _ hmem),
    fun attempts hmem => h attempts (List.mem_append_right _ hmem)⟩

/-- A send that came through has succeeded. -/
theorem Through.sent {ni : NotificationInterface} {env : Env} {type : NotificationType}
    {src dst idConn data : String} {tries : ℤ} {w : World}
    (h : Through (ni.realConnId idConn) w
      (ni.sendNotification env type src dst idConn data tries w).1) :
    (ni.sendNotification env type src dst idConn data tries w).2 = true := by
  obtain ⟨attempts, hsends, hne, hall, hany⟩ :=
    ni.sendNotification_sends env type src dst idConn data tries w
  rw [Through, hsends, List.drop_left] at h
  obtain ⟨a, ha⟩ := List.exists_mem_of_ne_nil attempts hne
  rw [← hany]
  exact h attempts List.mem_cons_self ⟨a, ha, (hall a ha).1⟩

/-! ## Updates -/

namespace TransferSession

variable {s : TransferSession} {bk : String} {env : Env} {dump : Json → String}

/-- With one bookkeeper, an update of a record is one message. -/
theorem updateMetadata_single (hbks : s.bookkeepersConn = [bk]) (w : World)
    (m : TransferMetadata) :
    s.updateMetadataToBookkeeper env dump w m =
      ((s.connections.sendNotification env .transferMetadata s.sessionId bk bk
          (dump (m.exportJson false)) (-1) w).1, m.withoutFlags,
        (s.connections.sendNotification env .transferMetadata s.sessionId bk bk
          (dump (m.exportJson false)) (-1) w).2) := by
  rw [updateMetadataToBookkeeper, hbks, andLoop_cons, andLoop_nil]
  rfl

theorem brings_updateMetadata (hbks : s.bookkeepersConn = [bk]) (env : Env)
    (dump : Json → String) (w : World) (m : TransferMetadata) :
    s.connections.Brings (s.connections.realConnId bk) w [s.recordMessage dump bk m]
      (s.updateMetadataToBookkeeper env dump w m).1 := by
  rw [updateMetadata_single hbks]
  exact NotificationInterface.brings_sendNotification ..

/-- The loop over the records sends something or nothing. -/
theorem prefix_updateEach (hbks : s.bookkeepersConn = [bk]) (r : Bool) (w : World)
    (files : List TransferMetadata) :
    w.sends <+: (andEach (s.updateMetadataToBookkeeper env dump) r w files).1.sends := by
  cases r with
  | false => rw [andEach_false]
  | true =>
      refine andEach_rel (R := fun (w : World) _ (w' : World) => w.sends <+: w'.sends)
        (fun _ => List.prefix_rfl) (fun _ _ _ _ h₁ h₂ => h₁.trans h₂) (fun w m => ?_) _ _
      exact (brings_updateMetadata hbks env dump w m).sends_mono

/-- The loop over the records, as long as its sends come through. -/
theorem brings_updateEach (hbks : s.bookkeepersConn = [bk]) {w : World}
    {files : List TransferMetadata}
    (hthrough : Through (s.connections.realConnId bk) w
      (andEach (s.updateMetadataToBookkeeper env dump) true w files).1) :
    s.connections.Brings (s.connections.realConnId bk) w (files.map (s.recordMessage dump bk))
        (andEach (s.updateMetadataToBookkeeper env dump) true w files).1 ∧
      (andEach (s.updateMetadataToBookkeeper env dump) true w files).2.1 =
        files.map TransferMetadata.withoutFlags := by
  induction files generalizing w with
  | nil => exact ⟨.refl _ _ _, rfl⟩
  | cons m files ih =>
      have hone := brings_updateMetadata hbks env dump w m
      rw [andEach_cons] at hthrough ⊢
      have hrest : (s.updateMetadataToBookkeeper env dump w m).1.sends <+:
          (andEach (s.updateMetadataToBookkeeper env dump)
            (s.updateMetadataToBookkeeper env dump w m).2.2
            (s.updateMetadataToBookkeeper env dump w m).1 files).1.sends :=
        prefix_updateEach hbks _ _ _
      obtain ⟨hfirst, hlater⟩ := hthrough.split hone.sends_mono hrest
      have hsent : (s.updateMetadataToBookkeeper env dump w m).2.2 = true := by
        rw [updateMetadata_single hbks] at hfirst ⊢
        exact hfirst.sent
      have hrecord : (s.updateMetadataToBookkeeper env dump w m).2.1 = m.withoutFlags := by
        rw [updateMetadata_single hbks]
      rw [hsent] at hlater ⊢
      obtain ⟨hbrings, hfiles⟩ := ih hlater
      exact ⟨hone.trans hbrings, by rw [hfiles, hrecord, List.map_cons]⟩

theorem sends_mono_updateMetadatas (s : TransferSession) (env : Env) (dump : Json → String)
    (w : World) : w.sends <+: (s.updateMetadatasToBookkeeper env dump w).1.sends := by
  obtain ⟨l, ⟨calls, hsends, -⟩, -⟩ := Site.tellsBookkeepers_updateMetadatas s env dump w
  exact hsends ▸ List.prefix_append _ _

/-- **An update of all:** the group, and every record. -/
theorem brings_updateMetadatas (hbks : s.bookkeepersConn = [bk]) {w : World}
    (hthrough : Through (s.connections.realConnId bk) w
      (s.updateMetadatasToBookkeeper env dump w).1) :
    s.connections.Brings (s.connections.realConnId bk) w
        (s.groupMessage dump bk :: s.files.map (s.recordMessage dump bk))
        (s.updateMetadatasToBookkeeper env dump w).1 ∧
      (s.updateMetadatasToBookkeeper env dump w).2.1 =
        s.withFiles (s.files.map TransferMetadata.withoutFlags) := by
  have hgroup : andLoop (s.sendGroup env dump) true w s.bookkeepersConn =
      s.connections.sendNotification env .groupMetadata s.sessionId bk bk
        (s.transferOptions.exportToString dump TransferMetadata.filePath) (-1) w := by
    rw [hbks, andLoop_cons, andLoop_nil]
    rfl
  rw [updateMetadatasToBookkeeper, hgroup] at hthrough ⊢
  have hone : s.connections.Brings (s.connections.realConnId bk) w [s.groupMessage dump bk]
      (s.connections.sendNotification env .groupMetadata s.sessionId bk bk
        (s.transferOptions.exportToString dump TransferMetadata.filePath) (-1) w).1 :=
    NotificationInterface.brings_sendNotification ..
  generalize hq : s.connections.sendNotification env .groupMetadata s.sessionId bk bk
    (s.transferOptions.exportToString dump TransferMetadata.filePath) (-1) w = q at *
  have hrest : q.1.sends <+:
      (andEach (s.updateMetadataToBookkeeper env dump) q.2 q.1 s.files).1.sends :=
    prefix_updateEach hbks _ _ _
  obtain ⟨hfirst, hlater⟩ := hthrough.split hone.sends_mono hrest
  have hsent : q.2 = true := by
    rw [← hq] at hfirst ⊢
    exact hfirst.sent
  rw [hsent] at hlater ⊢
  obtain ⟨hbrings, hfiles⟩ := brings_updateEach hbks hlater
  exact ⟨hone.trans hbrings, by rw [hfiles]⟩

end TransferSession

/-! ## Operations -/

/-- An interface that changes the records through their setters, which flag what they change. -/
def TransferInterface.UsesSetters (interface : TransferInterface σ) : Prop :=
  ∀ (c : GroupCommand) (x : σ) (m : TransferMetadata), m.Evolves (c.operation interface x m).2.1

theorem Handle.evolves_call {op : σ → TransferMetadata → σ × TransferMetadata × Bool}
    (hop : ∀ (x : σ) (m : TransferMetadata), m.Evolves (op x m).2.1) (h : Handle σ)
    (m : TransferMetadata) :
    m.Evolves (Handle.call op h m).2.1 := by
  cases h with
  | live x => exact hop x m
  | null | crashed => exact .refl m

namespace TransferSession

/-- A session that is watched over one connection: it has one bookkeeper, and its targets are
reached elsewhere. -/
structure Watched (s : TransferSession) (bk : String) : Prop where
  bookkeepers : s.bookkeepersConn = [bk]
  targets : ∀ client ∈ s.targetClients,
    s.connections.realConnId client ≠ s.connections.realConnId bk

section Operation

variable {s : TransferSession} {bk : String} {env : Env} {dump : Json → String}
  {allowed : Status → Bool} {target : Status}
  {op : σ → TransferMetadata → σ × TransferMetadata × Bool} {notice : Option NotificationType}

/-- What the targets are told does not come to the bookkeeper. -/
theorem Watched.brings_targets (hs : s.Watched bk) (env : Env) (type : NotificationType)
    (data : String) (w : World) :
    s.connections.Brings (s.connections.realConnId bk) w []
      (s.sendNotificationToTargets env type data w).1 := by
  refine ⟨_, s.posts_sendNotificationToTargets env type data w, ?_⟩
  rw [List.map_eq_nil_iff, List.filter_eq_nil_iff]
  intro m hm
  obtain ⟨client, hclient, rfl⟩ := List.mem_map.1 hm
  exact fun heq => hs.targets client hclient (of_decide_eq_true heq)

/-- The record after the status is set and the interface has worked on it. -/
theorem evolves_worked (hop : ∀ (x : σ) (m : TransferMetadata), m.Evolves (op x m).2.1)
    (target : Status) (now later : ℤ) (x : σ) (m : TransferMetadata) :
    m.Evolves (if (op x (m.setStatus now target)).2.2 then (op x (m.setStatus now target)).2.1
      else (op x (m.setStatus now target)).2.1.setStatus later .error) := by
  have hworked := (TransferMetadata.evolves_apply now (.status target) m).trans
    (hop x (m.setStatus now target))
  split_ifs
  · exact hworked
  · exact hworked.trans (TransferMetadata.evolves_apply later (.status .error) _)

/-- The record in a group command. -/
theorem evolves_fileOperation (hop : ∀ (x : σ) (m : TransferMetadata), m.Evolves (op x m).2.1)
    (h : Host σ) (m : TransferMetadata) :
    m.Evolves (s.fileOperation env dump allowed target op notice true h m).2.1 := by
  by_cases hm : allowed m.status = true
  · rw [fileOperation, if_pos hm]
    exact evolves_worked hop target _ _ h.interface m
  · rw [fileOperation_of_refused s env dump hm]
    exact .refl m

/-- **An operation on one file** reports its record, unless it is refused. -/
theorem Watched.reports_fileOperation (hs : s.Watched bk)
    (hop : ∀ (x : σ) (m : TransferMetadata), m.Evolves (op x m).2.1) (env : Env)
    (dump : Json → String) (h : Host σ) (m : TransferMetadata) :
    s.fileOperation env dump allowed target op notice false h m = (h, m, false) ∨
    ∃ m', m.Evolves m' ∧
      (s.fileOperation env dump allowed target op notice false h m).2.1 = m'.withoutFlags ∧
      s.connections.Brings (s.connections.realConnId bk) h.world [s.recordMessage dump bk m']
        (s.fileOperation env dump allowed target op notice false h m).1.world := by
  by_cases hm : allowed m.status = true
  · right
    have hworked := evolves_worked hop target (h.world.now env)
      (h.world.tick.now env) h.interface m
    rw [fileOperation, if_pos hm]
    dsimp only
    rw [if_neg Bool.false_ne_true]
    generalize hm' : (if (op h.interface (m.setStatus (h.world.now env) target)).2.2 then _
      else _) = m' at hworked
    refine ⟨m', hworked, ?_, ?_⟩
    · rw [updateMetadata_single hs.bookkeepers]
    · have htick : (if (op h.interface (m.setStatus (h.world.now env) target)).2.2 then
          h.world.tick else h.world.tick.tick).sends = h.world.sends := by
        split_ifs <;> rfl
      cases notice with
      | none => exact (brings_updateMetadata hs.bookkeepers env dump _ m').congr htick.symm rfl
      | some type =>
          exact ((hs.brings_targets env type _ _).congr htick.symm rfl).trans
            (brings_updateMetadata hs.bookkeepers env dump _ m')
  · exact Or.inl (fileOperation_of_refused s env dump hm false h)

variable (s env dump allowed target op notice)

/-- A group command sends nothing in its loop. -/
theorem sends_fileOperation (h : Host σ) (m : TransferMetadata) :
    (s.fileOperation env dump allowed target op notice true h m).1.world.sends =
      h.world.sends := by
  by_cases hm : allowed m.status = true
  · rw [fileOperation, if_pos hm]
    dsimp only
    rw [if_pos rfl]
    show (if _ then _ else _ : World).sends = _
    split_ifs <;> rfl
  · rw [fileOperation_of_refused s env dump hm]

/-- The loop of a group command. -/
theorem sends_andEach (h : Host σ) (files : List TransferMetadata) :
    (andEach (s.fileOperation env dump allowed target op notice true) true h files).1.world.sends =
      h.world.sends :=
  andEach_rel (R := fun (h : Host σ) _ (h' : Host σ) => h'.world.sends = h.world.sends)
    (fun _ => rfl) (fun _ _ _ _ h₁ h₂ => h₂.trans h₁)
    (sends_fileOperation s env dump allowed target op notice) h files

end Operation

/-! ## Group commands -/

section Run

variable {s : TransferSession} {bk : String}

/-- The bookkeeper is told nothing before the end of a group command, and all at its end. -/
theorem Watched.run_eq_reportAll (hs : s.Watched bk) (g : GroupCommand)
    (interface : TransferInterface σ) (env : Env) (dump : Json → String) (h : Host σ) :
    ∃ p : Host σ × List TransferMetadata × Bool,
      g.run s interface env dump h = s.reportAll env dump p ∧
      s.connections.Brings (s.connections.realConnId bk) h.world [] p.1.world ∧
      ((∀ (x : σ) (m : TransferMetadata), m.Evolves (g.operation interface x m).2.1) →
        List.Forall₂ TransferMetadata.Evolves s.files p.2.1) := by
  have hfiles (h₀ : Host σ)
      (hop : ∀ (x : σ) (m : TransferMetadata), m.Evolves (g.operation interface x m).2.1) :
      List.Forall₂ TransferMetadata.Evolves s.files
        (andEach (s.fileOperation env dump g.allowed (g.target s.type) (g.operation interface)
          g.notice true) true h₀ s.files).2.1 :=
    forall₂_andEach .refl (evolves_fileOperation hop) true h₀ s.files
  have hsends (h₀ : Host σ) := sends_andEach s env dump g.allowed (g.target s.type)
    (g.operation interface) g.notice h₀ s.files
  cases g with
  | pause =>
      -- the targets are told before the loop
      refine ⟨_, rfl, ?_, hfiles (s.tellTargets env .pauseTransfer h)⟩
      exact (hs.brings_targets env .pauseTransfer "" h.world).congr rfl (hsends _)
  | resume =>
      refine ⟨_, rfl, ?_, hfiles h⟩
      exact (hs.brings_targets env .resumeTransfer "" _).congr (hsends h).symm rfl
  | cancel =>
      refine ⟨_, rfl, ?_, hfiles h⟩
      exact (hs.brings_targets env .cancelTransfer "" _).congr (hsends h).symm rfl
  | upload =>
      refine ⟨_, rfl, ?_, hfiles h⟩
      exact (hs.brings_targets env .startTransfer "" _).congr (hsends h).symm rfl
  | download dest =>
      exact ⟨_, rfl, (NotificationInterface.Brings.refl _ _ h.world).congr rfl (hsends h), hfiles h⟩

end Run

end TransferSession

end Transfer
end SNBModules
