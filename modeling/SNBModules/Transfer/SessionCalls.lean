import SNBModules.Transfer.ClientHandler
import SNBModules.Transfer.GroupCommands

/-!
# When the call of a session comes back

Source: `transfer_session.cpp`, the operations on a file and the group commands;
`group_metadata.cpp`, `get_transfer_meta_from_file_path` and `add_file`.

A session may have no transfer interface, and no records.  A command uses the
interface for the first record that it is for, unless it refuses the record
(`isOk_command_iff`).  A path stands for the first record when no record has it, and a
record that is refused too, so that both need one (`isOk_update_iff`,
`isOk_receiveFile_iff`).
-/

namespace SNBModules
namespace Transfer

open Lib

variable {σ : Type}

/-- A search for a place finds the place of what a search finds. -/
theorem findIdx?_cases {α : Type} (f : α → Bool) (l : List α) :
    (l.findIdx? f = none ∧ l.find? f = none) ∨
      ∃ i a, l.findIdx? f = some i ∧ l[i]? = some a ∧ l.find? f = some a := by
  rw [List.find?_eq_bind_findIdx?_getElem?]
  cases h : l.findIdx? f with
  | none => exact Or.inl ⟨rfl, rfl⟩
  | some i =>
      obtain ⟨hlt, -⟩ := List.findIdx?_eq_some_iff_getElem.1 h
      exact Or.inr ⟨i, l[i], rfl, List.getElem?_eq_getElem hlt, List.getElem?_eq_getElem hlt⟩

/-! ## The pointer to the interface -/

/-- Whether a call through a null pointer was made. -/
def Handle.isCrashed : Handle σ → Bool
  | .crashed => true
  | _ => false

theorem Handle.isCrashed_call (op : σ → TransferMetadata → σ × TransferMetadata × Bool)
    (h : Handle σ) (m : TransferMetadata) :
    (Handle.call op h m).1.isCrashed = true ↔ ∀ x, h ≠ .live x := by
  cases h <;> simp [call, isCrashed]

theorem Handle.result_call (op : σ → TransferMetadata → σ × TransferMetadata × Bool)
    {h : Handle σ} (hh : ∀ x, h ≠ .live x) (m : TransferMetadata) :
    (Handle.call op h m).2.2 = false := by
  cases h with
  | live x => exact absurd rfl (hh x)
  | null | crashed => rfl

/-- The operation of a command, through a pointer. -/
theorem GroupCommand.operation_throughHandle (c : GroupCommand) (ti : TransferInterface σ) :
    c.operation ti.throughHandle = Handle.call (c.operation ti) := by
  cases c <;> rfl

section Interface

variable {s : TransferSession} {env : Env} {dump : Json → String} {allowed : Status → Bool}
  {target : Status} {op : σ → TransferMetadata → σ × TransferMetadata × Bool}
  {notice : Option NotificationType}

/-- An operation on a file touches the interface through its own call alone. -/
theorem interface_fileOperation (isMultiple : Bool) (h : Host σ) (m : TransferMetadata) :
    (s.fileOperation env dump allowed target op notice isMultiple h m).1.interface =
      if allowed m.status then (op h.interface (m.setStatus (h.world.now env) target)).1
      else h.interface := by
  rw [TransferSession.fileOperation]
  split_ifs <;> cases isMultiple <;> rfl

/-- An operation on a file succeeds when its own call does. -/
theorem result_fileOperation (isMultiple : Bool) (h : Host σ) (m : TransferMetadata) :
    (s.fileOperation env dump allowed target op notice isMultiple h m).2.2 =
      if allowed m.status then (op h.interface (m.setStatus (h.world.now env) target)).2.2
      else false := by
  rw [TransferSession.fileOperation]
  split_ifs <;> cases isMultiple <;> rfl

/-- An operation on a file, through a pointer. -/
theorem isCrashed_fileOperation (isMultiple : Bool) (h : Host (Handle σ))
    (hh : h.interface.isCrashed = false) (m : TransferMetadata) :
    (s.fileOperation env dump allowed target (Handle.call op) notice isMultiple h
        m).1.interface.isCrashed = true ↔
      (∀ x, h.interface ≠ .live x) ∧ allowed m.status = true := by
  rw [interface_fileOperation]
  split_ifs with hm
  · rw [Handle.isCrashed_call]
    simp [hm]
  · simp [hm, hh]

/-- A pointer that is not null stays so in the loop. -/
theorem live_andEach {l : List TransferMetadata} {h : Host (Handle σ)} {x : σ}
    (hh : h.interface = .live x) :
    ∃ y, (andEach (s.fileOperation env dump allowed target (Handle.call op) notice true) true h
      l).1.interface = .live y := by
  refine andEach_rel (R := fun h _ h' => ∀ x, h.interface = Handle.live x →
    ∃ y, h'.interface = Handle.live y) ?_ ?_ ?_ h l x hh
  · exact fun h x hx => ⟨x, hx⟩
  · intro h₁ h₂ h₃ r h₁₂ h₂₃ x hx
    obtain ⟨y, hy⟩ := h₁₂ x hx
    exact h₂₃ y hy
  · intro h m x hx
    rw [interface_fileOperation]
    split_ifs
    · rw [hx]
      exact ⟨_, rfl⟩
    · exact ⟨x, hx⟩

/-- **The loop uses a null pointer** exactly when it accepts its first record: after a
record that it refuses it uses nothing. -/
theorem isCrashed_andEach {l : List TransferMetadata} {h : Host (Handle σ)}
    (hh : h.interface.isCrashed = false) :
    (andEach (s.fileOperation env dump allowed target (Handle.call op) notice true) true h
        l).1.interface.isCrashed = true ↔
      (∀ x, h.interface ≠ .live x) ∧ ∃ m, l.head? = some m ∧ allowed m.status = true := by
  by_cases hlive : ∃ x, h.interface = .live x
  · obtain ⟨x, hx⟩ := hlive
    obtain ⟨y, hy⟩ : ∃ y, (andEach (s.fileOperation env dump allowed target (Handle.call op) notice
      true) true h l).1.interface = .live y := live_andEach hx
    simp [hy, hx, Handle.isCrashed]
  · cases l with
    | nil => simp [hh]
    | cons m l =>
        have hnot : ∀ x, h.interface ≠ .live x := fun x hx => hlive ⟨x, hx⟩
        have hstop : (s.fileOperation env dump allowed target (Handle.call op) notice true h
            m).2.2 = false := by
          rw [result_fileOperation, Handle.result_call op hnot, ite_self]
        rw [andEach_cons, hstop, andEach_false, isCrashed_fileOperation true h hh]
        simp

/-- The loop of a command starts with the interface that the command has, and leaves the
one that the command does. -/
theorem GroupCommand.interface_run (c : GroupCommand) (s : TransferSession)
    (ti : TransferInterface σ) (env : Env) (dump : Json → String) (h : Host σ) :
    ∃ h₀ : Host σ, h₀.interface = h.interface ∧ (c.run s ti env dump h).1.interface =
      (andEach (s.fileOperation env dump c.allowed (c.target s.type) (c.operation ti) c.notice
        true) true h₀ s.files).1.interface := by
  cases c with
  | pause => exact ⟨s.tellTargets env .pauseTransfer h, rfl, rfl⟩
  | resume | cancel | download dest | upload => exact ⟨h, rfl, rfl⟩

end Interface

namespace OpenSession

variable {p : Platform σ}

theorem isCrashed_handle (s : OpenSession σ) : s.handle.isCrashed = false := by
  rw [handle]
  cases s.interface <;> rfl

theorem handle_ne_live_iff (s : OpenSession σ) :
    (∀ x, s.handle ≠ .live x) ↔ s.interface = none := by
  rw [handle]
  cases s.interface <;> simp

theorem isOk_after (s : TransferSession) (h : Host (Handle σ)) :
    (after s h).isOk = !h.interface.isCrashed := by
  rw [after]
  cases h.interface <;> rfl

/-! ## Commands -/

/-- The group command that a command is for a session. -/
def groupCommand (c : Command) (s : TransferSession) : GroupCommand :=
  match c with
  | .start =>
      match s.type with
      | .downloader => .download s.workDir
      | .uploader => .upload
  | .pause => .pause
  | .resume => .resume
  | .cancel => .cancel

theorem commandAll_eq (c : Command) (s : OpenSession σ) (w : World) :
    s.commandAll p c w =
      let q := (groupCommand c s.session).run s.session p.interface.throughHandle p.env p.dump
        ⟨w, s.handle⟩
      after q.2.1 q.1 := by
  cases c with
  | start =>
      rw [commandAll, groupCommand]
      simp only [TransferSession.startAll]
      cases s.session.type <;> rfl
  | pause | resume | cancel => rfl

theorem commandAt_eq (c : Command) {i : ℕ} {s : OpenSession σ} {m : TransferMetadata}
    (hi : s.session.files[i]? = some m) (w : World) :
    s.commandAt p c i w =
      let g := groupCommand c s.session
      let q := s.session.fileOperation p.env p.dump g.allowed (g.target s.session.type)
        (g.operation p.interface.throughHandle) g.notice false ⟨w, s.handle⟩ m
      after (s.session.withFiles (s.session.files.set i q.2.1)) q.1 := by
  cases c with
  | start =>
      simp only [commandAt, hi, groupCommand, TransferSession.startFile]
      cases s.session.type <;> rfl
  | pause | resume | cancel =>
      rw [commandAt, hi]
      rfl

/-- The record that stands for a path: the one with it, or else the first. -/
def addressee (data : String) (s : TransferSession) : Option TransferMetadata :=
  if data = "" then s.files.head?
  else (s.files.find? fun m => pathElements m.filePath = pathElements data).or s.files.head?

/-- A command can be carried out: it has a record if it names one, and if its first record
is accepted, an interface. -/
def CanCommand (c : Command) (data : String) (s : OpenSession σ) : Prop :=
  (data ≠ "" → s.session.files ≠ []) ∧
  (s.interface = none → ∀ m, addressee data s.session = some m →
    (groupCommand c s.session).allowed m.status = false)

/-- **The place of a path** is that of the record that stands for it. -/
theorem placeOfPath_cases {data : String} (hdata : data ≠ "") (s : TransferSession) :
    (s.files = [] ∧ s.transferOptions.placeOfPath data = .error .undefined) ∨
    (s.files ≠ [] ∧ ∃ i m, s.transferOptions.placeOfPath data = .ok i ∧ s.files[i]? = some m ∧
      addressee data s = some m) := by
  rw [addressee, if_neg hdata, GroupMetadata.placeOfPath, TransferSession.files]
  generalize s.transferOptions.transfersMeta = l
  rcases findIdx?_cases (fun m : TransferMetadata =>
    decide (pathElements m.filePath = pathElements data)) l with
    ⟨hplace, hfind⟩ | ⟨i, m, hplace, hi, hfind⟩
  · rw [hplace, hfind]
    cases l with
    | nil => exact Or.inl ⟨rfl, rfl⟩
    | cons m l => exact Or.inr ⟨List.cons_ne_nil m l, 0, m, rfl, rfl, rfl⟩
  · rw [hplace, hfind]
    have hne : l ≠ [] := fun hnil => by simp [hnil] at hi
    exact Or.inr ⟨hne, i, m, rfl, hi, rfl⟩

/-- A command to all files. -/
theorem isOk_commandAll_iff (c : Command) (s : OpenSession σ) (w : World) :
    (s.commandAll p c w).isOk = true ↔ (s.interface = none → ∀ m, s.session.files.head? = some m →
      (groupCommand c s.session).allowed m.status = false) := by
  obtain ⟨h₀, hsame, hrun⟩ := (groupCommand c s.session).interface_run s.session
    p.interface.throughHandle p.env p.dump ⟨w, s.handle⟩
  have hcrashed : h₀.interface.isCrashed = false := hsame ▸ s.isCrashed_handle
  rw [commandAll_eq, isOk_after, hrun, GroupCommand.operation_throughHandle, Bool.not_eq_true',
    ← Bool.not_eq_true, isCrashed_andEach hcrashed, hsame]
  simp [s.handle_ne_live_iff]

/-- A command to the file at a place. -/
theorem isOk_commandAt_iff (c : Command) {i : ℕ} {s : OpenSession σ} {m : TransferMetadata}
    (hi : s.session.files[i]? = some m) (w : World) :
    (s.commandAt p c i w).isOk = true ↔
      (s.interface = none → (groupCommand c s.session).allowed m.status = false) := by
  rw [commandAt_eq c hi, isOk_after, GroupCommand.operation_throughHandle, Bool.not_eq_true',
    ← Bool.not_eq_true, isCrashed_fileOperation false _ s.isCrashed_handle]
  simp [s.handle_ne_live_iff]

/-- **A command comes back** exactly when it can be carried out. -/
theorem isOk_command_iff (c : Command) (data : String) (s : OpenSession σ) (w : World) :
    (s.command p c data w).isOk = true ↔ s.CanCommand c data := by
  rw [command]
  split_ifs with hdata
  · rw [isOk_commandAll_iff, CanCommand, addressee, if_pos hdata]
    simp [hdata]
  · rcases placeOfPath_cases hdata s.session with
      ⟨hfiles, hplace⟩ | ⟨hne, i, m, hplace, hi, hm⟩
    · rw [hplace]
      exact iff_of_false (by simp [isOk_bind_iff]) fun h => h.1 hdata hfiles
    · rw [hplace]
      refine (isOk_commandAt_iff c hi w).trans ?_
      simp [CanCommand, hm, hne]

/-! ## Updates -/

/-- A record is sent to the bookkeepers when it is there. -/
theorem isOk_updateAt_iff (i : ℕ) (s : OpenSession σ) (w : World) :
    (s.updateAt p i w).isOk = true ↔ i < s.session.files.length := by
  rw [updateAt]
  cases hi : s.session.files[i]? with
  | none => simpa [isOk_iff] using hi
  | some m =>
      obtain ⟨hlt, -⟩ := List.getElem?_eq_some_iff.1 hi
      simp [isOk_iff, hlt]

/-- The update of the last record. -/
theorem updateAt_last (p : Platform σ) {s : OpenSession σ}
    {files : List TransferMetadata} {m : TransferMetadata} (hs : s.session.files = files ++ [m])
    (w : World) :
    ∃ m' w', s.updateAt p files.length w =
        .ok (⟨s.session.withFiles (files ++ [m']), s.interface⟩, w') ∧
      m'.withoutFlags = m.withoutFlags := by
  have hlast : s.session.files[files.length]? = some m := by simp [hs]
  have hset (m' : TransferMetadata) : s.session.files.set files.length m' = files ++ [m'] := by
    simp [hs]
  refine ⟨(s.session.updateMetadataToBookkeeper p.env p.dump w m).2.1,
    (s.session.updateMetadataToBookkeeper p.env p.dump w m).1, ?_,
    updateMetadataToBookkeeper_withoutFlags s.session p.env p.dump w m⟩
  rw [updateAt, hlast]
  simp only [hset]

/-- **An `UPDATE_REQUEST` comes back** unless it names a path in a session without
records. -/
theorem isOk_update_iff (data : String) (s : OpenSession σ) (w : World) :
    (s.update p data w).isOk = true ↔ (data ≠ "" → s.session.files ≠ []) := by
  rw [update]
  split_ifs with hdata
  · simp [hdata, isOk_iff]
  · rcases placeOfPath_cases hdata s.session with
      ⟨hfiles, hplace⟩ | ⟨hne, i, m, hplace, hi, -⟩
    · rw [hplace]
      exact iff_of_false (by simp [isOk_bind_iff]) fun h => h hdata hfiles
    · rw [hplace]
      refine (isOk_updateAt_iff i s w).trans ?_
      simp [hne, (List.getElem?_eq_some_iff.1 hi).1]

/-! ## Records -/

/-- What sending a record to the bookkeepers makes of it. -/
theorem record_updateMetadataToBookkeeper (s : TransferSession) (env : Env)
    (dump : Json → String) (w : World) (m : TransferMetadata) :
    (s.updateMetadataToBookkeeper env dump w m).2.1 =
      if s.bookkeepersConn = [] then m else m.withoutFlags := by
  rw [TransferSession.updateMetadataToBookkeeper]
  cases hbks : s.bookkeepersConn with
  | nil => simp
  | cons bk bks =>
      have hrest := andLoop_rel (f := s.sendMetadata env dump) (l := bks)
        (R := fun q _ q' => q.2 = m.withoutFlags → q'.2 = m.withoutFlags) (fun _ h => h)
        (fun _ _ _ _ h₁ h₂ h => h₂ (h₁ h)) (fun q _ _ h => by
          rw [TransferSession.sendMetadata, h]
          rfl)
      rw [andLoop_cons, if_neg (List.cons_ne_nil bk bks)]
      generalize hfirst : s.sendMetadata env dump (w, m) bk = q
      have hq : q.1.2 = m.withoutFlags := by rw [← hfirst]; rfl
      cases hr : q.2 with
      | true => exact hrest q.1 hq
      | false => simpa using hq

/-- Whether the group takes the record: it expects its file, or has its id. -/
def takes (g : GroupMetadata TransferMetadata) (m : TransferMetadata) : Bool :=
  m.filePath ∈ g.expectedFiles || m.groupId = g.groupId

theorem withFiles_eq_self_iff {s : OpenSession σ} {files : List TransferMetadata} :
    (⟨s.session.withFiles files, s.interface⟩ : OpenSession σ) = s ↔ files = s.session.files := by
  constructor
  · intro h
    exact congrArg (fun t => t.session.files) h
  · rintro rfl
    rfl

theorem withoutFlags_eq_self_iff {m : TransferMetadata} :
    m.withoutFlags = m ↔ m.modifiedFields = ∅ := by
  constructor
  · intro h
    rw [← h]
    rfl
  · intro h
    rw [TransferMetadata.withoutFlags, ← h]

/-- The records of the session, up to their flags. -/
def records (x : OpenSession σ) : List TransferMetadata :=
  x.session.files.map TransferMetadata.withoutFlags

theorem updateAt_eq_ok {i : ℕ} {s t : OpenSession σ} {w w' : World}
    (h : s.updateAt p i w = .ok (t, w')) :
    t.session.transferOptions.expectedFiles = s.session.transferOptions.expectedFiles ∧
      t.records = s.records := by
  rw [updateAt] at h
  cases hi : s.session.files[i]? with
  | none => simp [hi] at h
  | some m =>
      rw [hi] at h
      cases h
      obtain ⟨hlt, rfl⟩ := List.getElem?_eq_some_iff.1 hi
      have hlt' : i < s.records.length := by simpa [records] using hlt
      have hself := List.set_getElem_self hlt'
      refine ⟨rfl, ?_⟩
      show (s.session.files.set i _).map TransferMetadata.withoutFlags = s.records
      rw [List.map_set, updateMetadataToBookkeeper_withoutFlags]
      simpa [records] using hself

/-- The session after the record was added: its file is not expected any more, and it
is the last of the group, under the group's id and the address of the session. -/
def Added (m : TransferMetadata) (s t : OpenSession σ) : Prop :=
  ∃ m' : TransferMetadata,
    m'.withoutFlags = { m.withoutFlags with
      dest := s.session.ip, groupId := s.session.transferOptions.groupId } ∧
    t = ⟨{ s.session with transferOptions := { s.session.transferOptions with
      expectedFiles := s.session.transferOptions.expectedFiles.erase m.filePath
      transfersMeta := s.session.files ++ [m'] } }, s.interface⟩

theorem Added.length {m : TransferMetadata} {s t : OpenSession σ} (h : Added m s t) :
    t.session.files.length = s.session.files.length + 1 := by
  obtain ⟨m', -, rfl⟩ := h
  exact List.length_append

/-- **A record that the group takes** is added. -/
theorem addNewFile_of_takes {g : GroupMetadata TransferMetadata} {m : TransferMetadata}
    (h : takes g m = true) :
    g.addNewFile m = .ok ({ g with
      expectedFiles := g.expectedFiles.erase m.filePath
      transfersMeta := g.transfersMeta ++ [m.setGroupId g.groupId] },
      g.transfersMeta.length) := by
  rw [GroupMetadata.addNewFile]
  by_cases hexpected : m.filePath ∈ g.expectedFiles
  · rw [if_pos hexpected]
  · have hid : m.groupId = g.groupId := by simpa [takes, hexpected] using h
    rw [if_neg hexpected, if_pos hid, Finset.erase_eq_of_notMem hexpected, ← hid]
    rfl

/-- For one that it does not take the place of the first one is returned, if there is one. -/
theorem addNewFile_of_not_takes {g : GroupMetadata TransferMetadata} {m : TransferMetadata}
    (h : takes g m = false) :
    g.addNewFile m = if g.transfersMeta = [] then .error .undefined else .ok (g, 0) := by
  simp only [takes, Bool.or_eq_false_iff, decide_eq_false_iff_not] at h
  rw [GroupMetadata.addNewFile, if_neg h.1, if_neg h.2]

/-- **`add_file` of a record that the group takes.** -/
theorem addFile_of_takes {m : TransferMetadata} {s : OpenSession σ}
    (htakes : takes s.session.transferOptions m = true) (w : World) :
    ∃ m' w', s.addFile p m w = .ok (⟨{ s.session with
        transferOptions := { s.session.transferOptions with
          expectedFiles := s.session.transferOptions.expectedFiles.erase m.filePath
          transfersMeta := s.session.files ++ [m'] } }, s.interface⟩, w') ∧
      m'.withoutFlags =
        { m.withoutFlags with groupId := s.session.transferOptions.groupId } := by
  obtain ⟨m', w', hupdate, hflags⟩ := updateAt_last p
    (s := ⟨{ s.session with transferOptions := { s.session.transferOptions with
      expectedFiles := s.session.transferOptions.expectedFiles.erase m.filePath
      transfersMeta := s.session.transferOptions.transfersMeta ++
        [m.setGroupId s.session.transferOptions.groupId] } }, s.interface⟩) rfl w
  refine ⟨m', w', ?_, hflags⟩
  rw [addFile, addNewFile_of_takes htakes]
  exact hupdate

/-- Of one that it does not take: the files that are expected and the records stay. -/
theorem addFile_of_not_takes {m : TransferMetadata} {s t : OpenSession σ} {w w' : World}
    (htakes : takes s.session.transferOptions m = false) (h : s.addFile p m w = .ok (t, w')) :
    t.session.transferOptions.expectedFiles = s.session.transferOptions.expectedFiles ∧
      t.records = s.records := by
  rw [addFile, bind_eq_ok] at h
  obtain ⟨q, hq, h⟩ := h
  rw [addNewFile_of_not_takes htakes] at hq
  split_ifs at hq
  cases hq
  exact updateAt_eq_ok h

/-- There is nothing that sending the first record to the bookkeepers would change. -/
def NothingToReport (s : OpenSession σ) : Prop :=
  s.session.bookkeepersConn = [] ∨
    ∀ m, s.session.files.head? = some m → m.modifiedFields = ∅

/-- **`add_file` of a session:** one record more if the group takes it.  If not, the first
record is sent in its place, where there is one. -/
theorem addFile_cases (m : TransferMetadata) (s : OpenSession σ) (w : World) :
    (takes s.session.transferOptions m = true ∧ ∃ t w', s.addFile p m w = .ok (t, w') ∧
      t.session.files.length = s.session.files.length + 1) ∨
    (takes s.session.transferOptions m = false ∧ s.session.files = [] ∧
      s.addFile p m w = .error .undefined) ∨
    (takes s.session.transferOptions m = false ∧ s.session.files ≠ [] ∧
      ∃ t w', s.addFile p m w = .ok (t, w') ∧ (t = s ↔ s.NothingToReport)) := by
  cases htakes : takes s.session.transferOptions m with
  | true =>
      obtain ⟨m', w', hadd, -⟩ := addFile_of_takes (p := p) htakes w
      exact Or.inl ⟨rfl, _, w', hadd, List.length_append⟩
  | false =>
      right
      rw [addFile, addNewFile_of_not_takes htakes]
      cases hfiles : s.session.files with
      | nil =>
          have hnil : s.session.transferOptions.transfersMeta = [] := hfiles
          exact Or.inl ⟨rfl, rfl, by rw [if_pos hnil]; rfl⟩
      | cons m₀ l =>
          right
          have hne : s.session.transferOptions.transfersMeta ≠ [] := fun h =>
            List.cons_ne_nil m₀ l (hfiles.symm.trans h)
          have hrecord := record_updateMetadataToBookkeeper s.session p.env p.dump w m₀
          have hupdate : s.updateAt p 0 w = .ok (⟨s.session.withFiles
              ((if s.session.bookkeepersConn = [] then m₀ else m₀.withoutFlags) :: l), s.interface⟩,
              (s.session.updateMetadataToBookkeeper p.env p.dump w m₀).1) := by
            rw [updateAt, hfiles, ← hrecord]
            rfl
          refine ⟨rfl, List.cons_ne_nil m₀ l, _, _, by rw [if_neg hne]; exact hupdate, ?_⟩
          rw [withFiles_eq_self_iff, hfiles, NothingToReport, hfiles]
          split_ifs with hbks
          · simp [hbks]
          · simp [hbks, withoutFlags_eq_self_iff]

/-- A record can be added: the group takes it, or has a first one to send in its place. -/
def CanAdd (m : TransferMetadata) (s : OpenSession σ) : Prop :=
  takes s.session.transferOptions m = false → s.session.files ≠ []

theorem isOk_addFile_iff (m : TransferMetadata) (s : OpenSession σ) (w : World) :
    (s.addFile p m w).isOk = true ↔ s.CanAdd m := by
  rw [isOk_iff, CanAdd]
  rcases s.addFile_cases (p := p) m w with
    ⟨htakes, t, w', hadd, -⟩ | ⟨htakes, hfiles, hadd⟩ | ⟨-, hfiles, t, w', hadd, -⟩
  · exact iff_of_true ⟨_, hadd⟩ fun h => by simp [htakes] at h
  · exact iff_of_false (by simp [hadd]) fun h => h htakes hfiles
  · exact iff_of_true ⟨_, hadd⟩ fun _ => hfiles

theorem receiveFile_eq (m : TransferMetadata) (s : OpenSession σ) (w : World) :
    receiveFile p m s w =
      if s.session.ip ≠ m.src then s.addFile p { m with dest := s.session.ip } w
      else .error (.thrown (.invalidArgument
        "The destination cannot be equal to the source")) := by
  rw [receiveFile, TransferMetadata.setDest]
  split_ifs <;> rfl

theorem receiveFile_of_takes {m : TransferMetadata} {s : OpenSession σ}
    (hsrc : s.session.ip ≠ m.src) (htakes : takes s.session.transferOptions m = true) (w : World) :
    ∃ t w', receiveFile p m s w = .ok (t, w') ∧ Added m s t := by
  have htakes' : takes s.session.transferOptions { m with dest := s.session.ip } = true := htakes
  obtain ⟨m', w', hadd, hflags⟩ := addFile_of_takes (p := p) htakes' w
  exact ⟨_, w', by rw [receiveFile_eq, if_pos hsrc, hadd], m', hflags, rfl⟩

/-- **A record that arrives** is added under the address of the session, which must not be
its source. -/
theorem isOk_receiveFile_iff (m : TransferMetadata) (s : OpenSession σ) (w : World) :
    (receiveFile p m s w).isOk = true ↔ s.session.ip ≠ m.src ∧ s.CanAdd m := by
  rw [receiveFile_eq]
  split_ifs with hsrc
  · rw [isOk_addFile_iff]
    exact (and_iff_right hsrc).symm
  · exact iff_of_false (by simp [isOk_iff]) fun h => hsrc h.1

/-- It leaves the session as it was exactly when the group does not take it, and the first
record has nothing to report. -/
theorem receiveFile_eq_self_iff {m : TransferMetadata} {s t : OpenSession σ} {w w' : World}
    (h : receiveFile p m s w = .ok (t, w')) :
    t = s ↔ takes s.session.transferOptions m = false ∧ s.NothingToReport := by
  rw [receiveFile_eq] at h
  split_ifs at h with hsrc
  have htakes' : takes s.session.transferOptions { m with dest := s.session.ip } =
    takes s.session.transferOptions m := rfl
  rcases s.addFile_cases (p := p) { m with dest := s.session.ip } w with
    ⟨htakes, t', w', hadd, hlength⟩ | ⟨-, -, hadd⟩ | ⟨htakes, -, t', w', hadd, hsame⟩ <;>
    rw [hadd] at h <;> cases h
  · refine iff_of_false (fun hs => ?_) fun hn => ?_
    · rw [hs] at hlength
      omega
    · rw [← htakes', htakes] at hn
      cases hn.1
  · rw [hsame, ← htakes', htakes]
    exact (and_iff_right rfl).symm

end OpenSession

end Transfer
end SNBModules
