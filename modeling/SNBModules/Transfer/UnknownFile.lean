import SNBModules.Lib.Accounting
import SNBModules.Transfer.ClientTotality

/-!
# Commands on a file that a group does not have

Source: `group_metadata.cpp`, `get_transfer_meta_from_file_path`;
`transfer_client.cpp`, `action_on_receive_notification`, the cases that take the path
of a file; `transfer_session.cpp`, `start_file`, `pause_file`, `resume_file` and
`cancel_file`.

A path that no record has is reported as fatal, and the first record of the group is
returned.  The operation then acts on that one, unless it refuses it; in a group
without records there is none to return.

`counted` counts the operations of an interface, to see whether one was called.
-/

namespace SNBModules
namespace Transfer

open Lib

variable {σ : Type}

/-! ## Counting the operations of an interface -/

/-- An operation that counts its calls. -/
def counting (op : σ → TransferMetadata → σ × TransferMetadata × Bool) :
    σ × ℕ → TransferMetadata → (σ × ℕ) × TransferMetadata × Bool :=
  fun x m => ((((op x.1 m).1), x.2 + 1), (op x.1 m).2)

/-- The interface with a count of its calls. -/
def TransferInterface.counted (ti : TransferInterface σ) : TransferInterface (σ × ℕ) where
  uploadFile := counting ti.uploadFile
  downloadFile := fun dest => counting (ti.downloadFile dest)
  pauseFile := counting ti.pauseFile
  resumeFile := counting ti.resumeFile
  hashFile := counting ti.hashFile
  cancelFile := counting ti.cancelFile

/-- The platform with such an interface. -/
def Platform.counted (p : Platform σ) : Platform (σ × ℕ) where
  cwd := p.cwd
  env := p.env
  dump := p.dump
  parse := p.parse
  interface := p.interface.counted

/-- What is outside, with interfaces that were not called yet. -/
def Outside.counted (o : Outside σ) : Outside (σ × ℕ) where
  fileExists := o.fileExists
  fileSize := o.fileSize
  createDirectories := o.createDirectories
  bittorrent := fun ip port rate => (o.bittorrent ip port rate).map fun x => (x, 0)
  generateTorrentsFiles := o.generateTorrentsFiles
  magnetUri := o.magnetUri
  scp := fun user => (o.scp user, 0)
  rclone := fun parameters dir => (o.rclone parameters dir).map fun x => (x, 0)
  dummy := (o.dummy, 0)

theorem GroupCommand.operation_counted (c : GroupCommand) (ti : TransferInterface σ) :
    c.operation ti.counted.throughHandle = Handle.call (counting (c.operation ti)) := by
  cases c <;> rfl

/-- A pointer that stays in place, behind which the count has not gone down. -/
def Handle.NotLess (h h' : Handle (σ × ℕ)) : Prop :=
  ∀ x, h = .live x → ∃ y, h' = .live y ∧ x.2 ≤ y.2

section Operation

variable {s : TransferSession} {env : Env} {dump : Json → String} {allowed : Status → Bool}
  {target : Status} {op : σ → TransferMetadata → σ × TransferMetadata × Bool}
  {notice : Option NotificationType}

/-- An operation on a file that is accepted is one call. -/
theorem count_fileOperation (isMultiple : Bool) {h : Host (Handle (σ × ℕ))} {x : σ × ℕ}
    (hx : h.interface = .live x) {m : TransferMetadata} (hm : allowed m.status = true) :
    ∃ y, (s.fileOperation env dump allowed target (Handle.call (counting op)) notice isMultiple h
      m).1.interface = .live y ∧ y.2 = x.2 + 1 := by
  rw [interface_fileOperation, if_pos hm, hx]
  exact ⟨_, rfl, rfl⟩

/-- No call takes the count down. -/
theorem notLess_andEach (h : Host (Handle (σ × ℕ))) (l : List TransferMetadata) :
    h.interface.NotLess (andEach (s.fileOperation env dump allowed target
      (Handle.call (counting op)) notice true) true h l).1.interface := by
  refine andEach_rel (R := fun h _ h' => h.interface.NotLess h'.interface) ?_ ?_ ?_ h l
  · exact fun h x hx => ⟨x, hx, le_rfl⟩
  · intro h₁ h₂ h₃ r h₁₂ h₂₃ x hx
    obtain ⟨y, hy, hle⟩ := h₁₂ x hx
    obtain ⟨z, hz, hle'⟩ := h₂₃ y hy
    exact ⟨z, hz, hle.trans hle'⟩
  · intro h m x hx
    by_cases hm : allowed m.status = true
    · obtain ⟨y, hy, hcount⟩ : ∃ y, (s.fileOperation env dump allowed target
        (Handle.call (counting op)) notice true h m).1.interface = .live y ∧ y.2 = x.2 + 1 :=
        count_fileOperation true hx hm
      exact ⟨y, hy, by omega⟩
    · rw [interface_fileOperation, if_neg hm]
      exact ⟨x, hx, le_rfl⟩

/-- A loop whose first record is accepted makes a call. -/
theorem count_andEach {h : Host (Handle (σ × ℕ))} {x : σ × ℕ} (hx : h.interface = .live x)
    {m : TransferMetadata} (hm : allowed m.status = true) (l : List TransferMetadata) :
    ∃ y, (andEach (s.fileOperation env dump allowed target (Handle.call (counting op)) notice true)
      true h (m :: l)).1.interface = .live y ∧ x.2 < y.2 := by
  obtain ⟨y, hy, hcount⟩ : ∃ y, (s.fileOperation env dump allowed target
      (Handle.call (counting op)) notice true h m).1.interface = .live y ∧ y.2 = x.2 + 1 :=
    count_fileOperation true hx hm
  rw [andEach_cons]
  generalize s.fileOperation env dump allowed target (Handle.call (counting op)) notice true h m =
    q at hy
  cases hr : q.2.2 with
  | false =>
      rw [andEach_false]
      exact ⟨y, hy, by omega⟩
  | true =>
      obtain ⟨z, hz, hle⟩ : ∃ z, (andEach (s.fileOperation env dump allowed target
          (Handle.call (counting op)) notice true) true q.1 l).1.interface = .live z ∧ y.2 ≤ z.2 :=
        notLess_andEach q.1 l y hy
      exact ⟨z, hz, by omega⟩

end Operation

namespace OpenSession

variable {p : Platform σ}

/-! ## A session -/

/-- Every file has the status that it had, and no operation was called. -/
def Untouched (s t : OpenSession (σ × ℕ)) : Prop :=
  t.session.files.map TransferMetadata.status = s.session.files.map TransferMetadata.status ∧
    t.interface.map Prod.snd = s.interface.map Prod.snd

theorem Untouched.refl (s : OpenSession (σ × ℕ)) : Untouched s s := ⟨rfl, rfl⟩

theorem forall₂_untouched (l : List (OpenSession (σ × ℕ))) : List.Forall₂ Untouched l l :=
  List.forall₂_same.2 fun s _ => .refl s

/-- What changes flags only leaves every status. -/
theorem map_status_of_withoutFlags {l l' : List TransferMetadata}
    (h : l.map TransferMetadata.withoutFlags = l'.map TransferMetadata.withoutFlags) :
    l.map TransferMetadata.status = l'.map TransferMetadata.status := by
  have hstatus := congrArg (List.map TransferMetadata.status) h
  rwa [List.map_map, List.map_map] at hstatus

/-- What is left where no call was made. -/
theorem after_handle (s : OpenSession σ) (t : TransferSession) {h : Host (Handle σ)}
    (hh : h.interface = s.handle) : after t h = .ok (⟨t, s.interface⟩, h.world) := by
  rw [after, hh, handle]
  cases s.interface <;> rfl

theorem handle_eq_live {s : OpenSession σ} {x : σ} : s.handle = .live x ↔ s.interface = some x := by
  rw [handle]
  cases s.interface <;> simp

/-- What is left behind a pointer that stayed in place. -/
theorem after_live (t : TransferSession) {h : Host (Handle σ)} {x : σ}
    (hh : h.interface = .live x) : after t h = .ok (⟨t, some x⟩, h.world) := by
  rw [after, hh]

/-- A record that is refused: nothing happens. -/
theorem commandAt_of_refused {c : Command} {i : ℕ} {s : OpenSession σ} {m : TransferMetadata}
    (hi : s.session.files[i]? = some m) (hm : (groupCommand c s.session).allowed m.status = false)
    (w : World) : s.commandAt p c i w = .ok (s, w) := by
  rw [commandAt_eq c hi]
  simp only
  rw [fileOperation_of_refused _ _ _ (by simp [hm])]
  have hset : s.session.files.set i m = s.session.files := by
    obtain ⟨hlt, rfl⟩ := List.getElem?_eq_some_iff.1 hi
    exact List.set_getElem_self hlt
  rw [hset]
  exact after_handle s _ rfl

/-- A group whose first record is refused: no record changes. -/
theorem commandAll_of_refused {c : Command} {s : OpenSession σ}
    (hm : ∀ m, s.session.files.head? = some m →
      (groupCommand c s.session).allowed m.status = false) (w : World) :
    ∃ t w', s.commandAll p c w = .ok (t, w') ∧ t.interface = s.interface ∧
      t.session.files.map TransferMetadata.status =
        s.session.files.map TransferMetadata.status := by
  obtain ⟨h₀, hsame, hrun⟩ := (groupCommand c s.session).interface_run s.session
    p.interface.throughHandle p.env p.dump ⟨w, s.handle⟩
  obtain ⟨h₁, hfiles⟩ := (groupCommand c s.session).run_files s.session
    p.interface.throughHandle p.env p.dump ⟨w, s.handle⟩
  have hloop : ∀ h : Host (Handle σ), ∃ r, andEach (s.session.fileOperation p.env p.dump
      (groupCommand c s.session).allowed ((groupCommand c s.session).target s.session.type)
      ((groupCommand c s.session).operation p.interface.throughHandle)
      (groupCommand c s.session).notice true) true h s.session.files =
        (h, s.session.files, r) := by
    intro h
    cases hl : s.session.files with
    | nil => exact ⟨true, andEach_nil _ _⟩
    | cons m l =>
        refine ⟨false, ?_⟩
        rw [andEach_cons, fileOperation_of_refused _ _ _ (by simp [hm m (by rw [hl]; rfl)]),
          andEach_false]
  obtain ⟨r₀, hloop₀⟩ := hloop h₀
  obtain ⟨r₁, hloop₁⟩ := hloop h₁
  rw [hloop₀] at hrun
  rw [hloop₁] at hfiles
  rw [commandAll_eq]
  exact ⟨_, _, after_handle s _ (hrun.trans hsame), rfl, map_status_of_withoutFlags hfiles⟩

/-- A group whose first record is accepted: an operation is called. -/
theorem count_run {c : GroupCommand} {s : OpenSession (σ × ℕ)} {x : σ × ℕ}
    (hx : s.handle = .live x) {m : TransferMetadata} (hhead : s.session.files.head? = some m)
    (hm : c.allowed m.status = true) (w : World) :
    ∃ y, (c.run s.session p.counted.interface.throughHandle p.counted.env p.counted.dump
      ⟨w, s.handle⟩).1.interface = .live y ∧ x.2 < y.2 := by
  obtain ⟨h₀, hsame, hrun⟩ := c.interface_run s.session p.counted.interface.throughHandle
    p.counted.env p.counted.dump ⟨w, s.handle⟩
  have hop : c.operation p.counted.interface.throughHandle =
      Handle.call (counting (c.operation p.interface)) := c.operation_counted p.interface
  cases hl : s.session.files with
  | nil => simp [hl] at hhead
  | cons m' l =>
      rw [hl] at hhead
      obtain rfl := Option.some.inj hhead
      rw [hrun, hop, hl]
      exact count_andEach (hsame.trans hx) hm l

/-- A record that is accepted: an operation is called. -/
theorem count_fileOperation_counted {c : GroupCommand} {s : OpenSession (σ × ℕ)} {x : σ × ℕ}
    (hx : s.handle = .live x) {m : TransferMetadata} (hm : c.allowed m.status = true) (w : World) :
    ∃ y, (s.session.fileOperation p.counted.env p.counted.dump c.allowed (c.target s.session.type)
      (c.operation p.counted.interface.throughHandle) c.notice false
      ⟨w, s.handle⟩ m).1.interface = .live y ∧ x.2 < y.2 := by
  have hop : c.operation p.counted.interface.throughHandle =
      Handle.call (counting (c.operation p.interface)) := c.operation_counted p.interface
  obtain ⟨y, hy, hcount⟩ : ∃ y, (s.session.fileOperation p.counted.env p.counted.dump c.allowed
      (c.target s.session.type) (Handle.call (counting (c.operation p.interface))) c.notice false
      ⟨w, s.handle⟩ m).1.interface = .live y ∧ y.2 = x.2 + 1 := count_fileOperation false hx hm
  rw [hop]
  exact ⟨y, hy, by omega⟩

/-- **A record that is accepted:** the count goes up. -/
theorem command_of_accepted {c : Command} {data : String} {s t : OpenSession (σ × ℕ)}
    {m : TransferMetadata} {w w' : World} (haddressee : addressee data s.session = some m)
    (hm : (groupCommand c s.session).allowed m.status = true)
    (h : s.command p.counted c data w = .ok (t, w')) :
    t.interface.map Prod.snd ≠ s.interface.map Prod.snd := by
  have hcan := (isOk_command_iff c data s w).1 (isOk_iff.2 ⟨_, h⟩)
  obtain ⟨x, hx⟩ : ∃ x, s.interface = some x := by
    by_contra hnone
    have hrefused := hcan.2 (Option.eq_none_iff_forall_ne_some.2 fun x hx => hnone ⟨x, hx⟩) m
      haddressee
    rw [hm] at hrefused
    cases hrefused
  have hlive := handle_eq_live.2 hx
  suffices hcount : ∃ y, t.interface = some y ∧ x.2 < y.2 by
    obtain ⟨y, hy, hlt⟩ := hcount
    rw [hx, hy, Option.map_some, Option.map_some, ne_eq, Option.some.injEq]
    exact hlt.ne'
  rw [command] at h
  by_cases hdata : data = ""
  · rw [addressee, if_pos hdata] at haddressee
    rw [if_pos hdata, commandAll_eq] at h
    obtain ⟨y, hy, hlt⟩ := count_run (p := p) hlive haddressee hm w
    have hafter := (after_live _ hy).symm.trans h
    cases hafter
    exact ⟨y, rfl, hlt⟩
  · rw [if_neg hdata] at h
    obtain ⟨i, hplace, hat⟩ := bind_eq_ok.1 h
    rcases placeOfPath_cases hdata s.session with ⟨-, hplace'⟩ | ⟨-, j, m', hplace', hj, hm'⟩
    · rw [hplace] at hplace'
      cases hplace'
    · obtain rfl := Option.some.inj (haddressee.symm.trans hm')
      obtain rfl := Except.ok.inj (hplace.symm.trans hplace')
      rw [commandAt_eq c hj] at hat
      obtain ⟨y, hy, hlt⟩ := count_fileOperation_counted (p := p) hlive hm w
      have hafter := (after_live _ hy).symm.trans hat
      cases hafter
      exact ⟨y, rfl, hlt⟩

/-- **A command touches nothing** exactly when the record that it is for refuses it, and a
path stands for a record. -/
theorem command_untouched_iff (c : Command) (data : String) (s : OpenSession (σ × ℕ)) (w : World) :
    (∃ t w', s.command p.counted c data w = .ok (t, w') ∧ Untouched s t) ↔
      (data ≠ "" → s.session.files ≠ []) ∧ ∀ m, addressee data s.session = some m →
        (groupCommand c s.session).allowed m.status = false := by
  constructor
  · rintro ⟨t, w', h, -, hcount⟩
    refine ⟨((isOk_command_iff c data s w).1 (isOk_iff.2 ⟨_, h⟩)).1, fun m hm => ?_⟩
    by_contra haccepted
    exact command_of_accepted hm (by simpa using haccepted) h hcount
  · rintro ⟨hfiles, hrefused⟩
    rw [command]
    split_ifs with hdata
    · rw [addressee, if_pos hdata] at hrefused
      obtain ⟨t, w', h, hinterface, hstatus⟩ := commandAll_of_refused hrefused w
      exact ⟨t, w', h, hstatus, by rw [hinterface]⟩
    · rcases placeOfPath_cases hdata s.session with ⟨hnil, -⟩ | ⟨-, i, m, hplace, hi, hm⟩
      · exact absurd hnil (hfiles hdata)
      · rw [hplace]
        exact ⟨s, w, commandAt_of_refused hi (hrefused m hm) w, Untouched.refl s⟩

/-- **An update request touches nothing** when it comes back. -/
theorem update_untouched_iff (data : String) (s : OpenSession (σ × ℕ)) (w : World) :
    (∃ t w', s.update p.counted data w = .ok (t, w') ∧ Untouched s t) ↔
      (data ≠ "" → s.session.files ≠ []) := by
  rw [← isOk_update_iff (p := p.counted) data s w, isOk_iff]
  constructor
  · rintro ⟨t, w', h, -⟩
    exact ⟨_, h⟩
  · rintro ⟨q, h⟩
    refine ⟨q.1, q.2, h, ?_⟩
    rw [update] at h
    split_ifs at h with hdata
    · cases h
      exact ⟨map_status_of_withoutFlags (updateMetadatasToBookkeeper_files s.session _ _ w), rfl⟩
    · obtain ⟨i, -, hupdate⟩ := bind_eq_ok.1 h
      rw [updateAt] at hupdate
      cases hi : s.session.files[i]? with
      | none => simp [hi] at hupdate
      | some m =>
          rw [hi] at hupdate
          cases hupdate
          refine ⟨map_status_of_withoutFlags ?_, rfl⟩
          have hrecord := updateMetadataToBookkeeper_withoutFlags s.session p.counted.env
            p.counted.dump w m
          obtain ⟨hlt, rfl⟩ := List.getElem?_eq_some_iff.1 hi
          show (s.session.files.set i _).map TransferMetadata.withoutFlags = _
          rw [List.map_set, hrecord, ← List.map_set, List.set_getElem_self hlt]

end OpenSession

/-! ## The handler -/

/-- The notifications that may carry the path of a file. -/
inductive FileNotice where
  | command (c : Command)
  | updateRequest
  deriving DecidableEq, Repr

namespace FileNotice

/-- Its type. -/
def type : FileNotice → NotificationType
  | command .start => .startTransfer
  | command .pause => .pauseTransfer
  | command .resume => .resumeTransfer
  | command .cancel => .cancelTransfer
  | updateRequest => .updateRequest

/-- What it asks the session for. -/
def run (p : Platform σ) (a : FileNotice) (data : String) :
    OpenSession σ → World → Except Fault (OpenSession σ × World) :=
  match a with
  | command c => OpenSession.command p c data
  | updateRequest => OpenSession.update p data

/-- The session has a record to stand for a path, and a command refuses it. -/
def Refused (a : FileNotice) (data : String) (x : OpenSession σ) : Prop :=
  (data ≠ "" → x.session.files ≠ []) ∧
    match a with
    | command c => ∀ m, x.session.files.head? = some m →
        (OpenSession.groupCommand c x.session).allowed m.status = false
    | updateRequest => True

/-- A path that no record has stands for the first one. -/
theorem addressee_of_unknown {data : String} {s : TransferSession}
    (h : ∀ m ∈ s.files, pathElements m.filePath ≠ pathElements data) :
    OpenSession.addressee data s = s.files.head? := by
  rw [OpenSession.addressee]
  split_ifs
  · rfl
  · rw [List.find?_eq_none.2 fun m hm => by simpa using h m hm, Option.none_or]

theorem run_untouched_iff {p : Platform σ} (a : FileNotice) {data : String}
    {x : OpenSession (σ × ℕ)}
    (h : ∀ m ∈ x.session.files, pathElements m.filePath ≠ pathElements data) (w : World) :
    (∃ t w', a.run p.counted data x w = .ok (t, w') ∧ OpenSession.Untouched x t) ↔
      a.Refused data x := by
  cases a with
  | command c =>
      rw [Refused, ← addressee_of_unknown h]
      exact OpenSession.command_untouched_iff c data x w
  | updateRequest =>
      rw [Refused, and_true]
      exact OpenSession.update_untouched_iff data x w

end FileNotice

namespace Site

variable {p : Platform σ}

theorem handle_fileNotice (o : Outside σ) (folder : Entry) (a : FileNotice)
    (n : NotificationData) (s : Site σ) :
    s.handle p o folder a.type n = runSteps [onSession n.targetId (a.run p n.data)] s := by
  cases a with
  | command c => cases c <;> rfl
  | updateRequest => rfl

/-- What the session that a notification names is to the others. -/
theorem onSession_untouched_iff {targetId : String} {s : Site (σ × ℕ)}
    {f : OpenSession (σ × ℕ) → World → Except Fault (OpenSession (σ × ℕ) × World)}
    {P : OpenSession (σ × ℕ) → Prop}
    (hf : s.ForSession targetId fun x =>
      (∃ t w', f x s.world = .ok (t, w') ∧ OpenSession.Untouched x t) ↔ P x) :
    (∃ s', onSession targetId f s = .ok s' ∧
      List.Forall₂ OpenSession.Untouched s.client.sessions s'.client.sessions) ↔
      s.ForSession targetId P := by
  have hrefl := OpenSession.forall₂_untouched s.client.sessions
  rw [onSession]
  cases hget : s.client.getSession targetId with
  | none =>
      refine iff_of_true ⟨s, rfl, hrefl⟩ fun i x hi => ?_
      rw [hget] at hi
      cases hi
  | some i =>
      simp only [atSession]
      cases hx : s.client.sessions[i]? with
      | none =>
          refine iff_of_true ⟨s, rfl, hrefl⟩ fun j x hj hjx => ?_
          obtain rfl := Option.some.inj (hget.symm.trans hj)
          rw [hx] at hjx
          cases hjx
      | some x =>
          have hone : s.ForSession targetId P ↔ P x := by
            constructor
            · exact fun h => h i x hget hx
            · intro h j y hj hy
              obtain rfl := Option.some.inj (hget.symm.trans hj)
              exact Option.some.inj (hx.symm.trans hy) ▸ h
          have hsession : (∃ t w', f x s.world = .ok (t, w') ∧ OpenSession.Untouched x t) ↔ P x :=
            hf i x hget hx
          rw [hone, ← hsession]
          constructor
          · rintro ⟨s', hs', hall⟩
            obtain ⟨q, hq, hs''⟩ := bind_eq_ok.1 hs'
            cases hs''
            refine ⟨q.1, q.2, hq, forall₂_getElem? hall hx ?_⟩
            exact List.getElem?_set_self (List.getElem?_eq_some_iff.1 hx).1
          · rintro ⟨t, w', ht, huntouched⟩
            refine ⟨⟨{ s.client with sessions := s.client.sessions.set i t }, w'⟩, ?_, ?_⟩
            · simp only [ht, bind, Except.bind]
            · refine forall₂_set_right hrefl fun y hy => ?_
              exact Option.some.inj (hx.symm.trans hy) ▸ huntouched

/-- **A notification about a file that the group does not have changes nothing exactly when
the first record of the group refuses it:** for all five types, and with an arbitrary
interface, which counts its calls. -/
theorem unknown_file_iff (p : Platform σ) (o : Outside σ) (folder : Entry) (a : FileNotice)
    (n : NotificationData) (s : Site (σ × ℕ)) (htype : n.notification = notificationToString a.type)
    (hunknown : s.ForSession n.targetId fun x =>
      ∀ m ∈ x.session.files, pathElements m.filePath ≠ pathElements n.data) :
    ((∃ r, (s.actionOnReceiveNotification p.counted o.counted folder n).2 = .ok r) ∧
      List.Forall₂ OpenSession.Untouched s.client.sessions
        (s.actionOnReceiveNotification p.counted o.counted folder n).1.client.sessions) ↔
    (TransferClient.accepts s.client.clientId n = true →
      s.ForSession n.targetId (a.Refused n.data)) := by
  rw [actionOnReceiveNotification]
  cases haccepts : TransferClient.accepts s.client.clientId n with
  | false => simpa using OpenSession.forall₂_untouched s.client.sessions
  | true =>
      rw [htype]
      simp only [Bool.true_eq_false, if_false, stringToNotification_notificationToString,
        handle_fileNotice, forall_const]
      rw [← onSession_untouched_iff (f := a.run p.counted n.data) fun i x hi hx =>
        a.run_untouched_iff (hunknown i x hi hx) s.world]
      cases hrun : onSession n.targetId (a.run p.counted n.data) s with
      | error e => simp [runSteps_cons_error hrun]
      | ok t => simp [runSteps_cons_ok hrun]

/-! ### A path that no record has -/

/-- A client with an uploading session over some records. -/
def uploading (files : List TransferMetadata) : Site (Unit × ℕ) where
  client := ⟨⟨"127.0.0.1", 42100⟩, "client1", "/listen", [⟨uploadSession files, some ((), 0)⟩], ∅,
    ⟨[], []⟩⟩
  world := ⟨0, 0, []⟩

/-- A command to start a file. -/
def startOther : NotificationData :=
  ⟨"client2", "client1_sesgroup1", notificationToString .startTransfer, "/other.txt"⟩

/-- A first record that does not wait refuses to be started. -/
theorem unknown_file_iff_finished :
    List.Forall₂ OpenSession.Untouched
      (uploading [recordOn "/test.txt" .finished]).client.sessions
      ((uploading [recordOn "/test.txt" .finished]).actionOnReceiveNotification
        Platform.plain.counted Outside.plain.counted (.other "/listen")
        startOther).1.client.sessions := by
  have hsession : ∀ P : OpenSession (Unit × ℕ) → Prop,
      P ⟨uploadSession [recordOn "/test.txt" .finished], some ((), 0)⟩ →
      (uploading [recordOn "/test.txt" .finished]).ForSession "client1_sesgroup1" P := by
    intro P hP i x hi hx
    have hplace : (uploading [recordOn "/test.txt" .finished]).client.getSession
        "client1_sesgroup1" = some 0 := by decide +kernel
    obtain rfl := Option.some.inj (hplace.symm.trans hi)
    exact Option.some.inj hx ▸ hP
  exact ((unknown_file_iff .plain .plain (.other "/listen") (.command .start) startOther
    (uploading [recordOn "/test.txt" .finished]) rfl
    (hsession _ (by decide +kernel))).2 fun _ =>
      hsession _ ⟨by decide +kernel, by decide +kernel⟩).2

/-- One that waits is started; and where there is none, there is none to return. -/
theorem another_file_started :
    ((uploading [recordOn "/test.txt" .waiting]).actionOnReceiveNotification
        Platform.plain.counted Outside.plain.counted (.other "/listen")
        startOther).1.client.sessions.map
      (fun x => (x.session.files.map TransferMetadata.status, x.interface.map Prod.snd)) =
      [([.uploading], some 1)] ∧
    ((uploading []).actionOnReceiveNotification Platform.plain.counted Outside.plain.counted
      (.other "/listen") startOther).2.isOk = false := by
  decide +kernel

end Site

end Transfer
end SNBModules
