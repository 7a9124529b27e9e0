import SNBModules.Transfer.Session

/-!
# Which files a group command reaches

Source: `transfer_session.cpp`, `pause_all`, `resume_all`, `cancel_all`,
`download_all` and `upload_all`.

Each of the five folds `result = result && operation(file)` over the files of
the group.  A file whose status the operation refuses makes `result` false, and
the files behind it are not operated on any more.  So a group command reaches
every file that it could, exactly when no refused file stands before an accepted
one (`group_command_reaches_iff`).
-/

namespace SNBModules
namespace Transfer

open Lib TransferSession

variable {σ : Type}

/-- An operation of the interface that succeeds and leaves the status alone. -/
def Steady (op : σ → TransferMetadata → σ × TransferMetadata × Bool) : Prop :=
  ∀ x m, (op x m).2.2 = true ∧ (op x m).2.1.status = m.status

/-- An interface whose operations do what they are asked for, without changing
the status of the file themselves. -/
structure TransferInterface.IsSteady (interface : TransferInterface σ) : Prop where
  uploadFile : Steady interface.uploadFile
  downloadFile : ∀ dest, Steady (interface.downloadFile dest)
  pauseFile : Steady interface.pauseFile
  resumeFile : Steady interface.resumeFile
  hashFile : Steady interface.hashFile
  cancelFile : Steady interface.cancelFile

theorem TransferInterface.dummy_isSteady : TransferInterface.dummy.IsSteady where
  uploadFile := fun _ _ => ⟨rfl, rfl⟩
  downloadFile := fun _ _ _ => ⟨rfl, rfl⟩
  pauseFile := fun _ _ => ⟨rfl, rfl⟩
  resumeFile := fun _ _ => ⟨rfl, rfl⟩
  hashFile := fun _ _ => ⟨rfl, rfl⟩
  cancelFile := fun _ _ => ⟨rfl, rfl⟩

/-- The five group commands. -/
inductive GroupCommand where
  | pause
  | resume
  | cancel
  | download (dest : String)
  | upload
  deriving DecidableEq, Repr

namespace GroupCommand

/-- The function that a command stands for. -/
def run (c : GroupCommand) (s : TransferSession) (interface : TransferInterface σ) (env : Env)
    (dump : Json → String) (h : Host σ) : Host σ × TransferSession × Bool :=
  match c with
  | pause => s.pauseAll interface env dump h
  | resume => s.resumeAll interface env dump h
  | cancel => s.cancelAll interface env dump h
  | download dest => s.downloadAll interface env dump dest h
  | upload => s.uploadAll interface env dump h

/-- The statuses that the operation on one file accepts. -/
def allowed : GroupCommand → Status → Bool
  | pause => canPause
  | resume => (· = .paused)
  | cancel => canCancel
  | download _ => (· = .waiting)
  | upload => (· = .waiting)

/-- The status that the operation on one file sets. -/
def target : GroupCommand → SessionType → Status
  | pause, _ => .paused
  | resume, type => resumedStatus type
  | cancel, _ => .cancelled
  | download _, _ => .downloading
  | upload, _ => .uploading

/-- The operation of the interface. -/
def operation (c : GroupCommand) (interface : TransferInterface σ) :
    σ → TransferMetadata → σ × TransferMetadata × Bool :=
  match c with
  | pause => interface.pauseFile
  | resume => interface.resumeFile
  | cancel => interface.cancelFile
  | download dest => interface.downloadFile dest
  | upload => interface.uploadFile

/-- What the targets are told about one file. -/
def notice : GroupCommand → Option NotificationType
  | pause => some .pauseTransfer
  | resume => some .resumeTransfer
  | cancel => some .cancelTransfer
  | download _ => none
  | upload => some .startTransfer

theorem operation_steady (c : GroupCommand) {interface : TransferInterface σ}
    (hI : interface.IsSteady) : Steady (c.operation interface) := by
  cases c with
  | pause => exact hI.pauseFile
  | resume => exact hI.resumeFile
  | cancel => exact hI.cancelFile
  | download dest => exact hI.downloadFile dest
  | upload => exact hI.uploadFile

/-- No command accepts a file that has its target status already. -/
theorem allowed_target (c : GroupCommand) (type : SessionType) :
    c.allowed (c.target type) = false := by
  cases c <;> cases type <;> rfl

end GroupCommand

/-! ## What the loops do to a record -/

theorem updateMetadataToBookkeeper_withoutFlags (s : TransferSession) (env : Env)
    (dump : Json → String) (w : World) (m : TransferMetadata) :
    (s.updateMetadataToBookkeeper env dump w m).2.1.withoutFlags = m.withoutFlags := by
  have h := andLoop_rel (f := s.sendMetadata env dump) (l := s.bookkeepersConn)
    (R := fun p _ q => q.2.withoutFlags = p.2.withoutFlags) (fun _ => rfl)
    (fun _ _ _ _ h₁ h₂ => h₂.trans h₁) (fun _ _ _ => rfl) (w, m)
  exact h

theorem updateMetadatasToBookkeeper_files (s : TransferSession) (env : Env)
    (dump : Json → String) (w : World) :
    (s.updateMetadatasToBookkeeper env dump w).2.1.files.map TransferMetadata.withoutFlags =
      s.files.map TransferMetadata.withoutFlags :=
  andEach_view (updateMetadataToBookkeeper_withoutFlags s env dump) _ _ _

/-- What a group command reports is what its loop made of the records. -/
theorem reportAll_files (s : TransferSession) (env : Env) (dump : Json → String)
    (p : Host σ × List TransferMetadata × Bool) :
    (s.reportAll env dump p).2.1.files.map TransferMetadata.withoutFlags =
      p.2.1.map TransferMetadata.withoutFlags :=
  updateMetadatasToBookkeeper_files _ env dump _

section Operation

variable (s : TransferSession) (env : Env) (dump : Json → String) {allowed : Status → Bool}
  {target : Status} {op : σ → TransferMetadata → σ × TransferMetadata × Bool}
  {notice : Option NotificationType}

/-- A refused file: nothing happens. -/
theorem fileOperation_of_refused {m : TransferMetadata} (hm : ¬ allowed m.status)
    (isMultiple : Bool) (h : Host σ) :
    s.fileOperation env dump allowed target op notice isMultiple h m = (h, m, false) := by
  rw [fileOperation, if_neg hm]

/-- An accepted file, as part of a group command: the target status. -/
theorem fileOperation_of_allowed {m : TransferMetadata} (hm : allowed m.status)
    (hop : Steady op) (h : Host σ) :
    (s.fileOperation env dump allowed target op notice true h m).2.2 = true ∧
      (s.fileOperation env dump allowed target op notice true h m).2.1.status = target := by
  obtain ⟨hok, hstatus⟩ := hop h.interface (m.setStatus (h.world.now env) target)
  rw [fileOperation, if_pos hm]
  simp only [hok, if_true, hstatus, TransferMetadata.setStatus_status, and_self]

end Operation

/-! ## The group commands -/

/-- The loop of a command, from some state of the surroundings. -/
theorem GroupCommand.run_files (c : GroupCommand) (s : TransferSession)
    (interface : TransferInterface σ) (env : Env) (dump : Json → String) (h : Host σ) :
    ∃ h₀ : Host σ, (c.run s interface env dump h).2.1.files.map TransferMetadata.withoutFlags =
      (andEach (s.fileOperation env dump c.allowed (c.target s.type) (c.operation interface)
        c.notice true) true h₀ s.files).2.1.map TransferMetadata.withoutFlags := by
  cases c with
  | pause => exact ⟨s.tellTargets env .pauseTransfer h, reportAll_files s env dump _⟩
  | resume => exact ⟨h, reportAll_files s env dump _⟩
  | cancel => exact ⟨h, reportAll_files s env dump _⟩
  | download dest => exact ⟨h, reportAll_files s env dump _⟩
  | upload => exact ⟨h, reportAll_files s env dump _⟩

/-- What a group command owes to a file `m` that it leaves as `m'`: the target
status when the file's own operation accepts it, and no change otherwise. -/
def GroupCommand.Serves (c : GroupCommand) (type : SessionType) (m m' : TransferMetadata) : Prop :=
  (c.allowed m.status → m'.status = c.target type) ∧
    (¬ c.allowed m.status → m'.withoutFlags = m.withoutFlags)

instance (c : GroupCommand) (type : SessionType) (m m' : TransferMetadata) :
    Decidable (c.Serves type m m') :=
  inferInstanceAs (Decidable ((c.allowed m.status → m'.status = c.target type) ∧
    (¬ c.allowed m.status → m'.withoutFlags = m.withoutFlags)))

/-- The flags of a record play no part in how a file is served. -/
theorem GroupCommand.forall₂_serves_iff (c : GroupCommand) (type : SessionType)
    {l l₁ l₂ : List TransferMetadata}
    (h : l₁.map TransferMetadata.withoutFlags = l₂.map TransferMetadata.withoutFlags) :
    List.Forall₂ (c.Serves type) l l₁ ↔ List.Forall₂ (c.Serves type) l l₂ := by
  have hview : ∀ l', List.Forall₂ (c.Serves type) l l' ↔
      List.Forall₂ (c.Serves type) l (l'.map TransferMetadata.withoutFlags) := by
    intro l'
    rw [List.forall₂_map_right_iff]
    exact Iff.rfl
  rw [hview, hview l₂, h]

/-- **A group command serves every file exactly when no file that it refuses
stands before one that it accepts.** -/
theorem group_command_reaches_iff (c : GroupCommand) (s : TransferSession)
    (interface : TransferInterface σ) (env : Env) (dump : Json → String) (h : Host σ)
    (hI : interface.IsSteady) :
    List.Forall₂ (c.Serves s.type) s.files (c.run s interface env dump h).2.1.files ↔
      s.files.Pairwise fun m m' => c.allowed m'.status → c.allowed m.status := by
  obtain ⟨h₀, hfiles⟩ := c.run_files s interface env dump h
  rw [c.forall₂_serves_iff s.type hfiles]
  apply andEach_forall₂_iff
  · intro h m hm
    exact fileOperation_of_allowed s env dump hm (c.operation_steady hI) h
  · intro h m hm
    rw [fileOperation_of_refused s env dump hm]
    exact ⟨rfl, rfl⟩
  · intro m
    rfl
  · intro m hm hstatus
    rw [hstatus, c.allowed_target] at hm
    cases hm

/-! ## Two sessions -/

/-- A record of a session on a path, in a status. -/
def recordOn (filePath : String) (status : Status) : TransferMetadata :=
  { TransferMetadata.blank with filePath, status, src := ⟨"127.0.0.1", 42100⟩ }

/-- An uploading session with one bookkeeper, over some records. -/
def uploadSession (files : List TransferMetadata) : TransferSession where
  type := .uploader
  sessionId := "client1_sesgroup1"
  ip := ⟨"127.0.0.1", 42100⟩
  transferOptions :=
    ⟨"group1", some .dummy, .null, files, ∅, "client1", ⟨"127.0.0.1", 42100⟩⟩
  workDir := "/listen/s1"
  targetClients := ["client2"]
  connections := ⟨["snbmodules_bookkeeper"], ["snbmodules_client1", "snbmodules_client2"]⟩

/-- Everything is accepted, and the clock goes on by one each time. -/
def calmEnv : Env := ⟨fun _ => true, fun n => n + 1⟩

/-- The surroundings of a session that has not done anything. -/
def newHost : Host Unit := ⟨⟨0, 0, []⟩, ()⟩

/-- An uploading session with a waiting file before a finished one: `upload_all`
serves both. -/
theorem group_command_reaches_iff_upload :
    List.Forall₂ (GroupCommand.upload.Serves .uploader)
      [recordOn "/test.txt" .waiting, recordOn "/test2.txt" .finished]
      (GroupCommand.upload.run
        (uploadSession [recordOn "/test.txt" .waiting, recordOn "/test2.txt" .finished])
        TransferInterface.dummy calmEnv (fun _ => "json") newHost).2.1.files :=
  (group_command_reaches_iff .upload
    (uploadSession [recordOn "/test.txt" .waiting, recordOn "/test2.txt" .finished])
    TransferInterface.dummy calmEnv (fun _ => "json") newHost
    TransferInterface.dummy_isSteady).2 (by decide)

/-- **The second `upload_all` does not reach the second file:** the first one is
uploading already, so the loop ends there, and the file that waits goes on
waiting. -/
theorem upload_all_stops_at_first :
    ¬ List.Forall₂ (GroupCommand.upload.Serves .uploader)
      [recordOn "/test.txt" .uploading, recordOn "/test2.txt" .waiting]
      (GroupCommand.upload.run
        (uploadSession [recordOn "/test.txt" .uploading, recordOn "/test2.txt" .waiting])
        TransferInterface.dummy calmEnv (fun _ => "json") newHost).2.1.files := by
  decide +kernel

end Transfer
end SNBModules
