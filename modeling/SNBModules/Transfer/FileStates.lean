import SNBModules.Lib.Runs
import SNBModules.Transfer.GroupCommands

/-!
# The states of a file

Source: `transfer_session.cpp`, `upload_file`, `download_file`, `pause_file`,
`resume_file`, `hash_file` and `cancel_file`.

The six operations are called on one file of the session after the other, in any
order.  Each is `fileOperation` with its own statuses, so one lemma says what any
call does (`callFile_correct`), and one says which statuses a file can be brought
into (`callStep_status`).  From the second follows what no history of calls does:
`CANCELLED` is not left, `FINISHED` is left through `hash_file` only, and no file
comes back to `WAITING` (`file_states`).
-/

namespace SNBModules
namespace Transfer

open Lib TransferSession

variable {σ : Type}

/-- The calls on one file: those that a group command makes of each of its
files, and `hash_file`. -/
inductive FileCommand where
  | single (c : GroupCommand)
  | hash
  deriving DecidableEq, Repr

namespace FileCommand

/-- The member function that a call is of. -/
def run (c : FileCommand) (s : TransferSession) (interface : TransferInterface σ) (env : Env)
    (dump : Json → String) (isMultiple : Bool) (h : Host σ) (m : TransferMetadata) :
    Host σ × TransferMetadata × Bool :=
  match c with
  | single .pause => s.pauseFile interface env dump isMultiple h m
  | single .resume => s.resumeFile interface env dump isMultiple h m
  | single .cancel => s.cancelFile interface env dump isMultiple h m
  | single (.download dest) => s.downloadFile interface env dump dest isMultiple h m
  | single .upload => s.uploadFile interface env dump isMultiple h m
  | hash => s.hashFile interface env dump isMultiple h m

/-- The statuses that a call accepts. -/
def allowed : FileCommand → Status → Bool
  | single c => c.allowed
  | hash => (· = .finished)

/-- The target status of a call. -/
def target : FileCommand → SessionType → Status
  | single c, type => c.target type
  | hash, _ => .hashing

/-- The operation of the interface. -/
def operation (c : FileCommand) (interface : TransferInterface σ) :
    σ → TransferMetadata → σ × TransferMetadata × Bool :=
  match c with
  | single c => c.operation interface
  | hash => interface.hashFile

/-- What the targets are told. -/
def notice : FileCommand → Option NotificationType
  | single c => c.notice
  | hash => none

/-- The six member functions have one shape. -/
theorem run_eq (c : FileCommand) (s : TransferSession) (interface : TransferInterface σ)
    (env : Env) (dump : Json → String) (isMultiple : Bool) (h : Host σ) (m : TransferMetadata) :
    c.run s interface env dump isMultiple h m =
      s.fileOperation env dump c.allowed (c.target s.type) (c.operation interface) c.notice
        isMultiple h m := by
  cases c with
  | single c => cases c <;> rfl
  | hash => rfl

/-- No call accepts a cancelled file. -/
theorem allowed_cancelled (c : FileCommand) : c.allowed .cancelled = false := by
  cases c with
  | single c => cases c <;> rfl
  | hash => rfl

/-- Only `hash_file` accepts a finished file. -/
theorem eq_hash_of_allowed_finished {c : FileCommand} (h : c.allowed .finished = true) :
    c = .hash := by
  cases c with
  | single c => cases c <;> exact absurd h Bool.false_ne_true
  | hash => rfl

/-- No call brings a file into `WAITING`. -/
theorem target_ne_waiting (c : FileCommand) (type : SessionType) : c.target type ≠ .waiting := by
  cases c with
  | single c => cases c <;> cases type <;> exact fun h => Status.noConfusion h
  | hash => exact fun h => Status.noConfusion h

end FileCommand

/-- An interface that answers as it likes, and does not change the status of the
file itself. -/
def TransferInterface.KeepsStatus (interface : TransferInterface σ) : Prop :=
  ∀ (c : FileCommand) x m, (c.operation interface x m).2.1.status = m.status

/-- The status that an accepted file is left in, and what the call returns. -/
theorem fileOperation_status (s : TransferSession) (env : Env) (dump : Json → String)
    {allowed : Status → Bool} (target : Status)
    {op : σ → TransferMetadata → σ × TransferMetadata × Bool} (notice : Option NotificationType)
    {m : TransferMetadata} (hm : allowed m.status) (hop : ∀ x m, (op x m).2.1.status = m.status)
    (isMultiple : Bool) (h : Host σ) :
    let r := (op h.interface (m.setStatus (h.world.now env) target)).2.2
    (s.fileOperation env dump allowed target op notice isMultiple h m).2.2 = r ∧
      (s.fileOperation env dump allowed target op notice isMultiple h m).2.1.status =
        if r then target else .error := by
  intro r
  have hstatus := hop h.interface (m.setStatus (h.world.now env) target)
  rw [TransferMetadata.setStatus_status] at hstatus
  have hkeep : ∀ w m, (s.updateMetadataToBookkeeper env dump w m).2.1.status = m.status := by
    intro w m
    have hsame := congrArg TransferMetadata.status
      (updateMetadataToBookkeeper_withoutFlags s env dump w m)
    exact hsame
  rw [fileOperation, if_pos hm]
  cases isMultiple <;> cases hr : r <;> simp only [r] at hr <;> simp [hr, hstatus, hkeep]

/-! ## Calls on the files of a session -/

/-- A call on the file at an index. -/
structure FileCall where
  command : FileCommand
  index : ℕ
  isMultiple : Bool
  deriving DecidableEq, Repr

/-- One call: what it leaves, and what it returns.  There is none on a file that
the session does not have. -/
def callFile (interface : TransferInterface σ) (env : Env) (dump : Json → String)
    (p : Host σ × TransferSession) (c : FileCall) : Option ((Host σ × TransferSession) × Bool) :=
  p.2.files[c.index]?.map fun m =>
    let q := c.command.run p.2 interface env dump c.isMultiple p.1 m
    ((q.1, p.2.withFiles (p.2.files.set c.index q.2.1)), q.2.2)

/-- One call after the other. -/
def callStep (interface : TransferInterface σ) (env : Env) (dump : Json → String)
    (p : Host σ × TransferSession) (c : FileCall) : Option (Host σ × TransferSession) :=
  (callFile interface env dump p c).map Prod.fst

/-- What a call owes: a refused one returns `false` and leaves everything as it
was, the messages that were sent included; an accepted one returns what the
interface did and leaves the file in the target status, or else in `ERROR`; and
the other files stay as they were. -/
structure FileCall.Correct (c : FileCall) (interface : TransferInterface σ) (env : Env)
    (p p' : Host σ × TransferSession) (r : Bool) (m : TransferMetadata) : Prop where
  refused : ¬ c.command.allowed m.status → p' = p ∧ r = false
  accepted : c.command.allowed m.status →
    r = (c.command.operation interface p.1.interface
      (m.setStatus (p.1.world.now env) (c.command.target p.2.type))).2.2 ∧
    p'.2.files[c.index]?.map TransferMetadata.status =
      some (if r then c.command.target p.2.type else .error)
  others : ∀ j, j ≠ c.index → p'.2.files[j]? = p.2.files[j]?

@[simp] theorem withFiles_files (s : TransferSession) (files : List TransferMetadata) :
    (s.withFiles files).files = files := rfl

/-- A call meets its contract. -/
theorem callFile_correct {interface : TransferInterface σ} (hI : interface.KeepsStatus) {env : Env}
    {dump : Json → String} {p p' : Host σ × TransferSession} {c : FileCall} {r : Bool}
    (h : callFile interface env dump p c = some (p', r)) :
    ∃ m, p.2.files[c.index]? = some m ∧ c.Correct interface env p p' r m := by
  obtain ⟨m, hm, hq⟩ := Option.map_eq_some_iff.1 h
  obtain ⟨rfl, rfl⟩ := Prod.mk.inj hq
  refine ⟨m, hm, ⟨fun hno => ?_, fun hyes => ?_, fun j hj => ?_⟩⟩
  · rw [c.command.run_eq, fileOperation_of_refused p.2 env dump hno]
    have hset : p.2.files.set c.index m = p.2.files := by
      obtain ⟨hlt, rfl⟩ := List.getElem?_eq_some_iff.1 hm
      exact List.set_getElem_self hlt
    exact ⟨by rw [hset]; rfl, rfl⟩
  · rw [c.command.run_eq]
    obtain ⟨hret, hstatus⟩ := fileOperation_status p.2 env dump (c.command.target p.2.type)
      c.command.notice hyes (hI c.command) c.isMultiple p.1
    refine ⟨hret, ?_⟩
    obtain ⟨hlt, -⟩ := List.getElem?_eq_some_iff.1 hm
    rw [withFiles_files, List.getElem?_set_self hlt, Option.map_some, hstatus, hret]
  · rw [withFiles_files, List.getElem?_set_ne hj.symm]

/-- **The statuses that one call can bring a file into:** the file keeps its
status, or the call was made on it, accepted its status, and left it in the
target status or in `ERROR`. -/
theorem callStep_status {interface : TransferInterface σ} (hI : interface.KeepsStatus) {env : Env}
    {dump : Json → String} {p p' : Host σ × TransferSession} {c : FileCall}
    (h : callStep interface env dump p c = some p') {j : ℕ} {m : TransferMetadata}
    (hm : p.2.files[j]? = some m) :
    ∃ m', p'.2.files[j]? = some m' ∧ (m'.status = m.status ∨
      c.index = j ∧ c.command.allowed m.status ∧
        (m'.status = c.command.target p.2.type ∨ m'.status = .error)) := by
  obtain ⟨⟨q, r⟩, hq, rfl⟩ := Option.map_eq_some_iff.1 h
  obtain ⟨m₀, hm₀, hc⟩ := callFile_correct hI hq
  by_cases hj : j = c.index
  · subst hj
    obtain rfl : m₀ = m := Option.some.inj (hm₀.symm.trans hm)
    by_cases hyes : c.command.allowed m₀.status
    · obtain ⟨-, hstatus⟩ := hc.accepted hyes
      obtain ⟨m', hm', hs⟩ := Option.map_eq_some_iff.1 hstatus
      refine ⟨m', hm', Or.inr ⟨rfl, hyes, ?_⟩⟩
      cases r with
      | true => exact Or.inl hs
      | false => exact Or.inr hs
    · obtain ⟨rfl, -⟩ := hc.refused hyes
      exact ⟨m₀, hm, Or.inl rfl⟩
  · exact ⟨m, (hc.others j hj).trans hm, Or.inl rfl⟩

/-- A set of statuses that the calls of a run, as far as they are on the file,
lead into and not out of is not left. -/
theorem exec_status {interface : TransferInterface σ} (hI : interface.KeepsStatus) {env : Env}
    {dump : Json → String} {S : Status → Prop} {j : ℕ} {calls : List FileCall}
    (hS : ∀ c ∈ calls, c.index = j → ∀ status type, S status → c.command.allowed status →
      S (c.command.target type) ∧ S .error)
    {p p' : Host σ × TransferSession} (hrun : exec (callStep interface env dump) p calls = some p')
    {m : TransferMetadata} (hm : p.2.files[j]? = some m) (hs : S m.status) :
    ∃ m', p'.2.files[j]? = some m' ∧ S m'.status := by
  induction calls generalizing p m with
  | nil =>
      obtain rfl := Option.some.inj hrun
      exact ⟨m, hm, hs⟩
  | cons c calls ih =>
      obtain ⟨q, hq, hrun⟩ := exec_cons_eq_some.1 hrun
      obtain ⟨m', hm', hstatus⟩ := callStep_status hI hq hm
      refine ih (fun d hd => hS d (List.mem_cons_of_mem _ hd)) hrun hm' ?_
      rcases hstatus with hsame | ⟨hj, hyes, hto⟩
      · exact hsame ▸ hs
      · obtain ⟨htarget, herror⟩ := hS c List.mem_cons_self hj m.status p.2.type hs hyes
        rcases hto with hto | hto
        · exact hto ▸ htarget
        · exact hto ▸ herror

/-- What a run of calls does not do to the files of a session. -/
structure NoReturn (calls : List FileCall) (s s' : TransferSession) : Prop where
  cancelled : ∀ (j : ℕ) (m : TransferMetadata), s.files[j]? = some m → m.status = .cancelled →
    ∃ m' : TransferMetadata, s'.files[j]? = some m' ∧ m'.status = .cancelled
  finished : ∀ (j : ℕ) (m : TransferMetadata), s.files[j]? = some m → m.status = .finished →
    (∀ c ∈ calls, c.index = j → c.command ≠ .hash) →
    ∃ m' : TransferMetadata, s'.files[j]? = some m' ∧ m'.status = .finished
  waiting : ∀ (j : ℕ) (m : TransferMetadata), s.files[j]? = some m → m.status ≠ .waiting →
    ∃ m' : TransferMetadata, s'.files[j]? = some m' ∧ m'.status ≠ .waiting

/-- **The states of a file.**  Whatever the interface answers, every call meets
its contract, and no history of calls leaves `CANCELLED`, leaves `FINISHED`
without `hash_file`, or comes back to `WAITING`. -/
theorem file_states (interface : TransferInterface σ) (hI : interface.KeepsStatus) (env : Env)
    (dump : Json → String) (p : Host σ × TransferSession) :
    (∀ c p' r, callFile interface env dump p c = some (p', r) →
      ∃ m, p.2.files[c.index]? = some m ∧ c.Correct interface env p p' r m) ∧
    ∀ calls p', exec (callStep interface env dump) p calls = some p' →
      NoReturn calls p.2 p'.2 := by
  refine ⟨fun c p' r h => callFile_correct hI h, fun calls p' hrun => ⟨?_, ?_, ?_⟩⟩
  · intro j m hm hs
    refine exec_status hI (S := (· = .cancelled)) ?_ hrun hm hs
    rintro c - - status type rfl hyes
    exact absurd (c.command.allowed_cancelled.symm.trans hyes) Bool.false_ne_true
  · intro j m hm hs hcalls
    refine exec_status hI (S := (· = .finished)) ?_ hrun hm hs
    rintro c hc hj status type rfl hyes
    exact absurd (FileCommand.eq_hash_of_allowed_finished hyes) (hcalls c hc hj)
  · intro j m hm hs
    refine exec_status hI (S := (· ≠ .waiting)) ?_ hrun hm hs
    intro c _ _ status type _ _
    exact ⟨c.command.target_ne_waiting type, fun h => Status.noConfusion h⟩

/-- An interface whose calls fail and succeed in turn. -/
def alternating : TransferInterface Bool where
  uploadFile := fun x m => (!x, m, x)
  downloadFile := fun _ x m => (!x, m, x)
  pauseFile := fun x m => (!x, m, x)
  resumeFile := fun x m => (!x, m, x)
  hashFile := fun x m => (!x, m, x)
  cancelFile := fun x m => (!x, m, x)

theorem alternating_keepsStatus : alternating.KeepsStatus := by
  intro c x m
  cases c with
  | single c => cases c <;> rfl
  | hash => rfl

/-- Two files: one is uploaded and cancelled, which the interface fails to do, and
the other is hashed after it was refused to be paused. -/
theorem file_states_alternating :
    ∃ p', exec (callStep alternating calmEnv fun _ => "json")
        (⟨⟨0, 0, []⟩, true⟩,
          uploadSession [recordOn "/test.txt" .waiting, recordOn "/test2.txt" .finished])
        [⟨.single .upload, 0, false⟩, ⟨.single .pause, 1, false⟩, ⟨.single .cancel, 0, false⟩,
          ⟨.hash, 1, true⟩] = some p' ∧
      NoReturn [⟨.single .upload, 0, false⟩, ⟨.single .pause, 1, false⟩,
          ⟨.single .cancel, 0, false⟩, ⟨.hash, 1, true⟩]
        (uploadSession [recordOn "/test.txt" .waiting, recordOn "/test2.txt" .finished]) p'.2 :=
  ⟨_, rfl, (file_states alternating alternating_keepsStatus calmEnv (fun _ => "json")
    (⟨⟨0, 0, []⟩, true⟩,
      uploadSession [recordOn "/test.txt" .waiting, recordOn "/test2.txt" .finished])).2 _ _ rfl⟩

end Transfer
end SNBModules
