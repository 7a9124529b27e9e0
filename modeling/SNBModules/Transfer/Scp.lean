import SNBModules.Transfer.FileOutline
import SNBModules.Transfer.SessionCalls

/-!
# The SCP interface

Source: `transfer_interface_SCP.hpp`, with the calls of `transfer_session.cpp` that go into it.

A download is one command that is run to its end inside of `download_file`, and an upload is
over as soon as it is asked for.  So the interface takes a file past the status that the session
has set for it, and no call finds a file that is `UPLOADING`, `DOWNLOADING` or `PAUSED`.  A file
is copied once at most, then, and pauses and resumptions are refused (`scp_session`).  That is
as well: the interface does not know which side it is on when its `user` is missing, and
`resume_file` is what asks for it.
-/

namespace SNBModules
namespace Transfer

open Lib TransferSession

/-- The shell and the clock that the interface works with: the outcome of the `n`-th command
that it runs, and what the clock shows at its `n`-th reading. -/
structure Shell where
  system : ℕ → String → Bool
  clock : ℕ → ℤ

/-- `TransferInterfaceSCP`, with the commands that it has run, each with its outcome, and the
number of times that it has read the clock. -/
structure Scp where
  user : String
  usePassword : Bool
  isUploader : Bool
  filesBeingTransferred : List (String × String)
  executed : List (String × Bool)
  readings : ℕ
  deriving DecidableEq

namespace Scp

variable (shell : Shell)

/-- The constructor.  Without a user it returns early, and `m_is_uploader` is what it happens to
be. -/
def new (isUploader : Bool) (parameters : Option (String × Bool × Bool)) : Scp :=
  match parameters with
  | some (user, usePassword, isUploader) => ⟨user, usePassword, isUploader, [], [], 0⟩
  | none => ⟨"", false, isUploader, [], [], 0⟩

/-- `set_status`, called by the interface. -/
def setStatus (status : Status) (p : Scp × TransferMetadata) : Scp × TransferMetadata :=
  ({ p.1 with readings := p.1.readings + 1 }, p.2.setStatus (shell.clock p.1.readings) status)

/-- The command that copies a file. -/
def command (x : Scp) (ip filePath dest : String) : String :=
  (if x.usePassword then "scp " else "scp -o PasswordAuthentication='no' ") ++
    x.user ++ "@" ++ ip ++ ":" ++ filePath ++ " " ++ dest

/-- `upload_file`. -/
def uploadFile (x : Scp) (m : TransferMetadata) : Scp × TransferMetadata × Bool :=
  let p := setStatus shell .finished (setStatus shell .uploading (x, m))
  (p.1, p.2.setBytesTransferred p.2.bytesSize, true)

/-- `download_file`. -/
def downloadFile (dest : String) (x : Scp) (m : TransferMetadata) :
    Scp × TransferMetadata × Bool :=
  let p := setStatus shell .downloading (x, m)
  let exec := p.1.command p.2.src.ip p.2.filePath dest
  let ok := shell.system p.1.executed.length exec
  let x := { p.1 with
    filesBeingTransferred := assign (fileName p.2.filePath) dest p.1.filesBeingTransferred
    executed := p.1.executed ++ [(exec, ok)] }
  if ok then
    let q := setStatus shell .finished (x, p.2)
    (q.1, q.2.setBytesTransferred q.2.bytesSize, true)
  else
    let q := setStatus shell .error (x, p.2)
    (q.1, (q.2.setErrorCode "Something went wrong during the download").setBytesTransferred 0,
      false)

/-- `pause_file`. -/
def pauseFile (x : Scp) (m : TransferMetadata) : Scp × TransferMetadata × Bool :=
  let p := setStatus shell .paused (x, m)
  (p.1, p.2.setBytesTransferred 0, true)

/-- `resume_file`; a file that was not downloaded before goes to the empty path. -/
def resumeFile (x : Scp) (m : TransferMetadata) : Scp × TransferMetadata × Bool :=
  if x.isUploader then uploadFile shell x m
  else downloadFile shell (getOrNew "" (fileName m.filePath) x.filesBeingTransferred) x m

/-- `hash_file`. -/
def hashFile (x : Scp) (m : TransferMetadata) : Scp × TransferMetadata × Bool :=
  let p := setStatus shell .hashing (x, m)
  (p.1, p.2, true)

/-- `cancel_file`. -/
def cancelFile (x : Scp) (m : TransferMetadata) : Scp × TransferMetadata × Bool :=
  let p := setStatus shell .cancelled (x, m)
  (p.1, p.2, true)

/-- The interface. -/
def interface : TransferInterface Scp where
  uploadFile := uploadFile shell
  downloadFile := downloadFile shell
  pauseFile := pauseFile shell
  resumeFile := resumeFile shell
  hashFile := hashFile shell
  cancelFile := cancelFile shell

end Scp

/-! ## What a call does -/

/-- A file that is on its way, or that was stopped on it. -/
def Status.isBusy : Status → Bool
  | .uploading | .downloading | .paused => true
  | _ => false

/-- An operation on a file with the interface in another state, in which its own call does the
same. -/
theorem fileOperation_map {σ : Type} (s : TransferSession) (env : Env) (dump : Json → String)
    {allowed : Status → Bool} {target : Status}
    {op : σ → TransferMetadata → σ × TransferMetadata × Bool} {notice : Option NotificationType}
    (f : σ → σ) (h : Host σ)
    (hop : ∀ m, op (f h.interface) m = (f (op h.interface m).1, (op h.interface m).2))
    (isMultiple : Bool) (m : TransferMetadata) :
    let r := s.fileOperation env dump allowed target op notice isMultiple h m
    s.fileOperation env dump allowed target op notice isMultiple ⟨h.world, f h.interface⟩ m =
      (⟨r.1.world, f r.1.interface⟩, r.2) := by
  simp only [fileOperation, hop]
  split_ifs <;> rfl

namespace Scp

variable (shell : Shell) (env : Env) (dump : Json → String)

/-- What a call does to the outline of its file, with the copies that it makes: where to, and
whether the command succeeded. -/
inductive Turn (a : Outline) : FileCommand → List (String × Bool) → Outline → Prop
  | refused (c : FileCommand) (h : ¬ c.allowed a.status) : Turn a c [] a
  | cancelled (h : canCancel a.status) :
      Turn a (.single .cancel) [] { a with status := .cancelled }
  | hashed (h : a.status = .finished) : Turn a .hash [] { a with status := .hashing }
  | uploaded (h : a.status = .waiting) :
      Turn a (.single .upload) [] { a with status := .finished, bytesTransferred := a.bytesSize }
  | copied (dest : String) (h : a.status = .waiting) :
      Turn a (.single (.download dest)) [(dest, true)]
        { a with status := .finished, bytesTransferred := a.bytesSize }
  | failed (dest : String) (h : a.status = .waiting) :
      Turn a (.single (.download dest)) [(dest, false)]
        { a with status := .error, bytesTransferred := 0 }

/-- The command of a copy, with its outcome. -/
def entry (x : Scp) (a : Outline) (copy : String × Bool) : String × Bool :=
  (x.command a.src.ip a.filePath copy.1, copy.2)

/-- The interface has run some commands, and logs in as before. -/
structure Ran (x x' : Scp) (done : List (String × Bool)) : Prop where
  user : x'.user = x.user
  usePassword : x'.usePassword = x.usePassword
  executed : x'.executed = x.executed ++ done

theorem Ran.refl (x : Scp) : Ran x x [] := ⟨rfl, rfl, (List.append_nil _).symm⟩

theorem Ran.trans {x y z : Scp} {l l' : List (String × Bool)} (h : Ran x y l) (h' : Ran y z l') :
    Ran x z (l ++ l') :=
  ⟨h'.user.trans h.user, h'.usePassword.trans h.usePassword, by
    rw [h'.executed, h.executed, List.append_assoc]⟩

/-- The command goes by the user and the flag of the password. -/
theorem command_congr {x y : Scp} (huser : y.user = x.user)
    (hpassword : y.usePassword = x.usePassword) : y.command = x.command := by
  funext ip filePath dest
  rw [command, huser, hpassword, command]

theorem Ran.entry {x x' : Scp} {done : List (String × Bool)} (h : Ran x x' done) :
    x'.entry = x.entry := by
  funext a copy
  rw [Scp.entry, command_congr h.user h.usePassword, Scp.entry]

/-- `download_file` runs one command, from what the record says. -/
theorem downloadFile_spec (dest : String) (x : Scp) (m : TransferMetadata) :
    let r := downloadFile shell dest x m
    Ran x r.1 [x.entry m.outline (dest, r.2.2)] ∧
      r.2.1.outline =
        if r.2.2 then { m.outline with status := .finished, bytesTransferred := m.bytesSize }
        else { m.outline with status := .error, bytesTransferred := 0 } := by
  intro r
  have hcommand : ({ x with readings := x.readings + 1 } : Scp).command = x.command :=
    command_congr rfl rfl
  cases hok : shell.system x.executed.length (x.command m.src.ip m.filePath dest) <;>
    refine ⟨⟨?_, ?_, ?_⟩, ?_⟩ <;> simp [r, downloadFile, setStatus, entry, hcommand, hok]

/-- **A call on a file that is not busy.** -/
theorem turn_run (c : FileCommand) (s : TransferSession) (isMultiple : Bool) (h : Host Scp)
    {m : TransferMetadata} (hm : m.status.isBusy = false) :
    ∃ done, Turn m.outline c done
        (c.run s (interface shell) env dump isMultiple h m).2.1.outline ∧
      Ran h.interface (c.run s (interface shell) env dump isMultiple h m).1.interface
        (done.map (h.interface.entry m.outline)) := by
  rw [c.run_eq]
  by_cases hyes : c.allowed m.status
  · rw [outline_fileOperation s env dump _ _ hyes, interface_fileOperation, if_pos hyes]
    generalize (h.world.now env) = now
    cases c with
    | single c =>
        cases c with
        | pause | resume =>
            cases hs : m.status <;> simp [hs, FileCommand.allowed, GroupCommand.allowed, canPause,
              Status.isBusy] at hyes hm
        | cancel =>
            refine ⟨[], ?_, rfl, rfl, (List.append_nil _).symm⟩
            have hturn := Turn.cancelled (a := m.outline) hyes
            simpa [FileCommand.operation, GroupCommand.operation, interface, cancelFile, setStatus,
              FileCommand.target, GroupCommand.target] using hturn
        | download dest =>
            obtain ⟨hran, hout⟩ := downloadFile_spec shell dest h.interface
              (m.setStatus now .downloading)
            refine ⟨[(dest, _)], ?_, hran⟩
            simp only [FileCommand.operation, GroupCommand.operation, interface,
              FileCommand.target, GroupCommand.target, hout]
            have hwaiting : m.outline.status = .waiting := of_decide_eq_true hyes
            cases (downloadFile shell dest h.interface (m.setStatus now .downloading)).2.2 with
            | true => simpa using Turn.copied dest hwaiting
            | false => simpa using Turn.failed dest hwaiting
        | upload =>
            refine ⟨[], ?_, rfl, rfl, (List.append_nil _).symm⟩
            have hwaiting : m.outline.status = .waiting := of_decide_eq_true hyes
            have hturn := Turn.uploaded hwaiting
            simpa [FileCommand.operation, GroupCommand.operation, interface, uploadFile, setStatus,
              FileCommand.target, GroupCommand.target] using hturn
    | hash =>
        refine ⟨[], ?_, rfl, rfl, (List.append_nil _).symm⟩
        have hfinished : m.outline.status = .finished := of_decide_eq_true hyes
        have hturn := Turn.hashed hfinished
        simpa [FileCommand.operation, interface, hashFile, setStatus,
          FileCommand.target] using hturn
  · rw [fileOperation_of_refused s env dump hyes]
    exact ⟨[], .refused c hyes, .refl _⟩

/-- One step of a run, from files that are not busy. -/
theorem turn_callStep {p p' : Host Scp × TransferSession} {c : FileCall}
    (hidle : ∀ m ∈ p.2.files, m.status.isBusy = false)
    (h : callStep (interface shell) env dump p c = some p') :
    ∃ m m' done, p.2.files[c.index]? = some m ∧ p'.2.files = p.2.files.set c.index m' ∧
      Turn m.outline c.command done m'.outline ∧
      Ran p.1.interface p'.1.interface (done.map (p.1.interface.entry m.outline)) := by
  obtain ⟨q, hq, rfl⟩ := Option.map_eq_some_iff.1 h
  obtain ⟨m, hm, rfl⟩ := Option.map_eq_some_iff.1 hq
  obtain ⟨done, hturn, hran⟩ := turn_run shell env dump c.command p.2 c.isMultiple p.1
    (hidle m (List.mem_of_getElem? hm))
  exact ⟨m, _, done, hm, rfl, hturn, hran⟩

/-! ## What a session does -/

/-- A copy that was made of the file at an index: where to, and whether it succeeded. -/
structure Copy where
  index : ℕ
  dest : String
  ok : Bool

/-- What has become of the file at an index, by some calls and the copies among them. -/
structure Fate (calls : List FileCall) (copies : List Copy) (j : ℕ) (a a' : Outline) : Prop where
  filePath : a'.filePath = a.filePath
  src : a'.src = a.src
  bytesSize : a'.bytesSize = a.bytesSize
  busy : a'.status.isBusy = false
  waiting : a'.status = .waiting → a.status = .waiting ∧ ∀ c ∈ copies, c.index ≠ j
  copied : ∀ c ∈ copies, c.index = j → c.ok = true →
    a'.bytesTransferred = a.bytesSize ∧ a'.status ∈ [Status.finished, .hashing, .cancelled]
  failed : ∀ c ∈ copies, c.index = j → c.ok = false →
    a'.bytesTransferred = 0 ∧ a'.status ∈ [Status.error, .cancelled]
  error : a'.status = .error → a.status = .error ∨ ∃ c ∈ copies, c.index = j ∧ c.ok = false
  finished : a'.status = .finished → a.status = .finished ∨
    (∃ c ∈ copies, c.index = j ∧ c.ok = true) ∨
    ∃ d ∈ calls, d.index = j ∧ d.command = .single .upload

variable {calls calls' : List FileCall} {copies copies' : List Copy} {j : ℕ} {a a' a'' : Outline}

/-- Calls and copies of other files make no difference. -/
theorem Fate.mono (h : Fate calls copies j a a') (hcalls : calls ⊆ calls')
    (hcopies : ∀ c : Copy, c.index = j → (c ∈ copies' ↔ c ∈ copies)) :
    Fate calls' copies' j a a' := by
  have hexists : ∀ ok, (∃ c ∈ copies, c.index = j ∧ c.ok = ok) →
      ∃ c ∈ copies', c.index = j ∧ c.ok = ok := by
    rintro ok ⟨c, hc, hj, hok⟩
    exact ⟨c, (hcopies c hj).2 hc, hj, hok⟩
  refine { h with waiting := fun hw => ?_, copied := ?_, failed := ?_, error := ?_, finished := ?_ }
  · obtain ⟨hstart, hnone⟩ := h.waiting hw
    exact ⟨hstart, fun c hc hj => hnone c ((hcopies c hj).1 hc) hj⟩
  · exact fun c hc hj hok => h.copied c ((hcopies c hj).1 hc) hj hok
  · exact fun c hc hj hok => h.failed c ((hcopies c hj).1 hc) hj hok
  · exact fun he => (h.error he).imp_right (hexists false)
  · intro hf
    rcases h.finished hf with hstart | hcopied | ⟨d, hd, hj, hupload⟩
    · exact Or.inl hstart
    · exact Or.inr (Or.inl (hexists true hcopied))
    · exact Or.inr (Or.inr ⟨d, hcalls hd, hj, hupload⟩)

/-- A file that waits has been copied once, when it is copied. -/
theorem Fate.eq_new (h : Fate calls copies j a a') (hw : a'.status = .waiting) (new : Copy) :
    ∀ c ∈ copies ++ [new], c.index = j → c = new := by
  intro c hc hj
  rcases List.mem_append.1 hc with hold | hnew
  · exact absurd hj ((h.waiting hw).2 c hold)
  · exact List.mem_singleton.1 hnew

/-- **A turn of the file.** -/
theorem Fate.turn (h : Fate calls copies j a a') {d : FileCall} (hd : d.index = j)
    {done : List (String × Bool)} (hturn : Turn a' d.command done a'') :
    Fate (calls ++ [d]) (copies ++ done.map fun e => ⟨j, e.1, e.2⟩) j a a'' := by
  have hlater := h.mono (List.subset_append_left calls [d]) fun _ _ => Iff.rfl
  generalize hc : d.command = c at hturn
  cases hturn with
  | refused c hno => simpa using hlater
  | cancelled hyes =>
      rw [List.map_nil, List.append_nil]
      exact { hlater with
        busy := rfl
        waiting := Status.noConfusion
        copied := fun c hc hj hok => ⟨(h.copied c hc hj hok).1, by simp⟩
        failed := fun c hc hj hok => ⟨(h.failed c hc hj hok).1, by simp⟩
        error := Status.noConfusion
        finished := Status.noConfusion }
  | hashed hfinished =>
      rw [List.map_nil, List.append_nil]
      exact { hlater with
        busy := rfl
        waiting := Status.noConfusion
        copied := fun c hc hj hok => ⟨(h.copied c hc hj hok).1, by simp⟩
        failed := fun c hc hj hok => by simpa [hfinished] using (h.failed c hc hj hok).2
        error := Status.noConfusion
        finished := Status.noConfusion }
  | uploaded hw =>
      rw [List.map_nil, List.append_nil]
      exact { hlater with
        busy := rfl
        waiting := Status.noConfusion
        copied := fun c hc hj => absurd hj ((h.waiting hw).2 c hc)
        failed := fun c hc hj => absurd hj ((h.waiting hw).2 c hc)
        error := Status.noConfusion
        finished := fun _ => Or.inr (Or.inr ⟨d, by simp, hd, hc⟩) }
  | copied dest hw =>
      have hnew := h.eq_new hw ⟨j, dest, true⟩
      exact { hlater with
        busy := rfl
        waiting := Status.noConfusion
        copied := fun c hc hj _ => ⟨h.bytesSize, by simp⟩
        failed := fun c hc hj hok => by simp [hnew c hc hj] at hok
        error := Status.noConfusion
        finished := fun _ => Or.inr (Or.inl ⟨⟨j, dest, true⟩, by simp⟩) }
  | failed dest hw =>
      have hnew := h.eq_new hw ⟨j, dest, false⟩
      exact { hlater with
        busy := rfl
        waiting := Status.noConfusion
        copied := fun c hc hj hok => by simp [hnew c hc hj] at hok
        failed := fun c hc hj _ => ⟨rfl, by simp⟩
        error := fun _ => Or.inr ⟨⟨j, dest, false⟩, by simp⟩
        finished := Status.noConfusion }

/-- What a run of calls has made of a session: which copies it made, and what has become of each
file by them. -/
structure Course (p : Host Scp × TransferSession) (calls : List FileCall)
    (p' : Host Scp × TransferSession) (copies : List Copy) : Prop where
  ran : ∃ done, Ran p.1.interface p'.1.interface done ∧
    List.Forall₂ (fun c e => ∃ m, p.2.files[c.index]? = some m ∧ m.status = .waiting ∧
      e = p.1.interface.entry m.outline (c.dest, c.ok)) copies done
  once : (copies.map Copy.index).Nodup
  length : p'.2.files.length = p.2.files.length
  fate : ∀ (j : ℕ) (m m' : TransferMetadata), p.2.files[j]? = some m → p'.2.files[j]? = some m' →
    Fate calls copies j m.outline m'.outline

/-- The files of a session that are not busy. -/
def Idle (p : Host Scp × TransferSession) : Prop := ∀ m ∈ p.2.files, m.status.isBusy = false

variable {p p' p'' : Host Scp × TransferSession}

/-- Nothing has happened yet. -/
theorem Course.nil (hidle : Idle p) : Course p [] p [] where
  ran := ⟨[], .refl _, .nil⟩
  once := List.nodup_nil
  length := rfl
  fate := by
    intro j m m' hm hm'
    obtain rfl := Option.some.inj (hm.symm.trans hm')
    exact
      { filePath := rfl
        src := rfl
        bytesSize := rfl
        busy := hidle m (List.mem_of_getElem? hm)
        waiting := fun hw => ⟨hw, fun c hc => absurd hc List.not_mem_nil⟩
        copied := fun c hc => absurd hc List.not_mem_nil
        failed := fun c hc => absurd hc List.not_mem_nil
        error := Or.inl
        finished := Or.inl }

/-- The files stay out of the busy statuses. -/
theorem Course.idle (h : Course p calls p' copies) : Idle p' := by
  intro m' hm'
  obtain ⟨j, hj, rfl⟩ := List.mem_iff_getElem.1 hm'
  have hlt : j < p.2.files.length := h.length ▸ hj
  exact (h.fate j p.2.files[j] p'.2.files[j] (List.getElem?_eq_getElem hlt)
    (List.getElem?_eq_getElem hj)).busy

/-- A turn makes one copy at most, of a file that waits. -/
theorem Turn.done_cases {c : FileCommand} {done : List (String × Bool)} (h : Turn a c done a') :
    done = [] ∨ ∃ e, done = [e] ∧ a.status = .waiting := by
  cases h with
  | refused | cancelled | hashed | uploaded => exact Or.inl rfl
  | copied dest hw | failed dest hw => exact Or.inr ⟨_, rfl, hw⟩

/-- **One more call.** -/
theorem Course.step (h : Course p calls p' copies) {d : FileCall}
    (hd : callStep (interface shell) env dump p' d = some p'') :
    ∃ copies', Course p (calls ++ [d]) p'' copies' := by
  obtain ⟨m', m'', done, hm', hfiles, hturn, hran⟩ := turn_callStep shell env dump h.idle hd
  obtain ⟨done₀, hran₀, hall⟩ := h.ran
  obtain ⟨hlt', -⟩ := List.getElem?_eq_some_iff.1 hm'
  have hlt : d.index < p.2.files.length := h.length ▸ hlt'
  have hm : p.2.files[d.index]? = some p.2.files[d.index] := List.getElem?_eq_getElem hlt
  have hfate := h.fate d.index _ m' hm hm'
  have hwaiting : ∀ e ∈ done, m'.outline.status = .waiting := by
    intro e he
    rcases hturn.done_cases with rfl | ⟨e, -, hw⟩
    · exact absurd he List.not_mem_nil
    · exact hw
  refine ⟨copies ++ done.map fun e => ⟨d.index, e.1, e.2⟩, ⟨_, hran₀.trans hran, ?_⟩, ?_, ?_, ?_⟩
  · -- the command is made of what the file has had from the start
    refine List.rel_append hall ?_
    rw [List.forall₂_map_left_iff, List.forall₂_map_right_iff, List.forall₂_same]
    refine fun e he => ⟨_, hm, (hfate.waiting (hwaiting e he)).1, ?_⟩
    rw [hran₀.entry, entry, entry, hfate.src, hfate.filePath]
  · -- a file that waits has not been copied yet
    rcases hturn.done_cases with rfl | ⟨e, rfl, hw⟩
    · simpa using h.once
    · have hnew := (hfate.waiting hw).2
      simpa [List.nodup_append, h.once] using hnew
  · rw [hfiles, List.length_set, h.length]
  · intro j m₀ m₁ hm₀ hm₁
    rw [hfiles] at hm₁
    by_cases hj : d.index = j
    · subst hj
      rw [List.getElem?_set_self hlt'] at hm₁
      obtain rfl := Option.some.inj hm₁
      exact (h.fate d.index m₀ m' hm₀ hm').turn rfl hturn
    · rw [List.getElem?_set_ne hj] at hm₁
      refine (h.fate j m₀ m₁ hm₀ hm₁).mono (List.subset_append_left calls [d]) fun c hc => ?_
      have hother : c ∉ done.map fun e => (⟨d.index, e.1, e.2⟩ : Copy) := by
        intro hmem
        obtain ⟨e, -, rfl⟩ := List.mem_map.1 hmem
        exact hj hc
      simp [hother]

/-- A run of calls. -/
theorem exists_course (hidle : Idle p) (hrun : exec (callStep (interface shell) env dump) p calls =
    some p') : ∃ copies, Course p calls p' copies := by
  induction calls using List.reverseRecOn generalizing p' with
  | nil =>
      obtain rfl := Option.some.inj hrun
      exact ⟨[], .nil hidle⟩
  | append_singleton calls d ih =>
      obtain ⟨q, hq, hd⟩ := exec_concat_eq_some.1 hrun
      obtain ⟨copies, hcourse⟩ := ih hq
      exact hcourse.step shell env dump hd

/-! ## The side that the interface is on -/

/-- The interface, with another value of `m_is_uploader`. -/
def onSide (isUploader : Bool) (x : Scp) : Scp := { x with isUploader }

/-- The session, with the interface on another side. -/
def withSide (isUploader : Bool) (p : Host Scp × TransferSession) : Host Scp × TransferSession :=
  (⟨p.1.world, p.1.interface.onSide isUploader⟩, p.2)

/-- Pausing and resuming are refused of a file that is not busy. -/
theorem refused_of_idle {c : FileCommand} (hc : c = .single .pause ∨ c = .single .resume)
    {status : Status} (h : status.isBusy = false) : ¬ c.allowed status := by
  rcases hc with rfl | rfl <;> cases status <;>
    simp [FileCommand.allowed, GroupCommand.allowed, canPause, Status.isBusy] at h ⊢

/-- `resume_file` apart, no operation asks for the side. -/
theorem operation_onSide {c : FileCommand} (hc : c ≠ .single .resume) (b : Bool) (x : Scp)
    (m : TransferMetadata) :
    c.operation (interface shell) (x.onSide b) m =
      ((c.operation (interface shell) x m).1.onSide b, (c.operation (interface shell) x m).2) := by
  cases c with
  | single c =>
      cases c with
      | pause | cancel | upload => rfl
      | resume => exact absurd rfl hc
      | download dest =>
          -- the command is the same, so it has the same outcome
          have hcommand : ∀ y : Scp, y.user = x.user → y.usePassword = x.usePassword →
              y.command = x.command := fun _ => command_congr
          cases hok : shell.system x.executed.length (x.command m.src.ip m.filePath dest) <;>
            simp [FileCommand.operation, GroupCommand.operation, interface, downloadFile, setStatus,
              onSide, hcommand, hok]
  | hash => rfl

/-- A call on a file that is not busy is the same on either side. -/
theorem run_onSide (c : FileCommand) (s : TransferSession) (isMultiple b : Bool) (h : Host Scp)
    {m : TransferMetadata} (hm : m.status.isBusy = false) :
    let r := c.run s (interface shell) env dump isMultiple h m
    c.run s (interface shell) env dump isMultiple ⟨h.world, h.interface.onSide b⟩ m =
      (⟨r.1.world, r.1.interface.onSide b⟩, r.2) := by
  rw [c.run_eq, c.run_eq]
  by_cases hc : c = .single .resume
  · have hno : ¬ c.allowed m.status := refused_of_idle (Or.inr hc) hm
    rw [fileOperation_of_refused s env dump hno, fileOperation_of_refused s env dump hno]
  · exact fileOperation_map s env dump (onSide b) h (operation_onSide shell hc b h.interface)
      isMultiple m

/-- A step of a run from files that are not busy is the same on either side. -/
theorem callStep_withSide (hidle : Idle p) (b : Bool) (d : FileCall) :
    callStep (interface shell) env dump (withSide b p) d =
      (callStep (interface shell) env dump p d).map (withSide b) := by
  rw [callStep, callStep, callFile, callFile, withSide]
  cases hm : p.2.files[d.index]? with
  | none => rfl
  | some m =>
      have hrun := run_onSide shell env dump d.command p.2 d.isMultiple b p.1
        (hidle m (List.mem_of_getElem? hm))
      simp only [Option.map_some, hrun, withSide]

/-- A run from files that are not busy is the same on either side. -/
theorem exec_withSide (hidle : Idle p) (b : Bool) (calls : List FileCall) :
    exec (callStep (interface shell) env dump) (withSide b p) calls =
      (exec (callStep (interface shell) env dump) p calls).map (withSide b) := by
  induction calls generalizing p with
  | nil => rfl
  | cons d calls ih =>
      rw [exec, exec, callStep_withSide shell env dump hidle]
      cases hd : callStep (interface shell) env dump p d with
      | none => rfl
      | some q =>
          obtain ⟨copies, hcourse⟩ := (Course.nil hidle).step shell env dump hd
          exact ih hcourse.idle

end Scp

/-- **A session over SCP.**  From files none of which is busy, a run of calls makes copies that
`Course` accounts for: each file is copied once at most, and a finished one has been copied unless
it was finished at first or was uploaded.  After the run pausing and resuming are refused, and the
side that the interface takes itself to be on has played no part. -/
theorem scp_session (shell : Shell) (env : Env) (dump : Json → String)
    (p p' : Host Scp × TransferSession) (calls : List FileCall) (hidle : Scp.Idle p)
    (hrun : exec (callStep (Scp.interface shell) env dump) p calls = some p') :
    (∃ copies, Scp.Course p calls p' copies) ∧
      (∀ (d : FileCall) q r, d.command = .single .pause ∨ d.command = .single .resume →
        callFile (Scp.interface shell) env dump p' d = some (q, r) → q = p' ∧ r = false) ∧
      ∀ b, exec (callStep (Scp.interface shell) env dump) (Scp.withSide b p) calls =
        some (Scp.withSide b p') := by
  obtain ⟨copies, hcourse⟩ := Scp.exists_course shell env dump hidle hrun
  refine ⟨⟨copies, hcourse⟩, fun d q r hd hcall => ?_, fun b => ?_⟩
  · obtain ⟨m, hm, hq⟩ := Option.map_eq_some_iff.1 hcall
    have hno : ¬ d.command.allowed m.status :=
      Scp.refused_of_idle hd (hcourse.idle m (List.mem_of_getElem? hm))
    rw [d.command.run_eq, fileOperation_of_refused p'.2 env dump hno] at hq
    obtain ⟨rfl, rfl⟩ := Prod.mk.inj hq
    obtain ⟨hlt, rfl⟩ := List.getElem?_eq_some_iff.1 hm
    refine ⟨?_, rfl⟩
    rw [List.set_getElem_self]
    rfl
  · rw [Scp.exec_withSide shell env dump hidle, hrun]
    rfl

/-- A shell in which the first command succeeds and the others fail. -/
def firstSucceeds : Shell := ⟨fun n _ => n = 0, fun n => n⟩

/-- A session with two files that wait. -/
def newScpSession : Host Scp × TransferSession :=
  (⟨⟨0, 0, []⟩, Scp.new true (some ("dune", false, false))⟩,
    uploadSession [recordOn "/test.txt" .waiting, recordOn "/test2.txt" .waiting])

/-- Both files are downloaded, of which the second fails; the first is paused, in vain, and hashed,
and the second cancelled. -/
theorem scp_session_two_files :
    ∃ p', exec (callStep (Scp.interface firstSucceeds) calmEnv fun _ => "json") newScpSession
        [⟨.single (.download "/data"), 0, false⟩, ⟨.single .pause, 0, false⟩,
          ⟨.single (.download "/data"), 1, true⟩, ⟨.hash, 0, false⟩,
          ⟨.single .cancel, 1, false⟩] = some p' ∧
      ∃ copies, Scp.Course newScpSession
        [⟨.single (.download "/data"), 0, false⟩, ⟨.single .pause, 0, false⟩,
          ⟨.single (.download "/data"), 1, true⟩, ⟨.hash, 0, false⟩,
          ⟨.single .cancel, 1, false⟩] p' copies := by
  have hidle : Scp.Idle newScpSession := by
    simp [Scp.Idle, newScpSession, uploadSession, TransferSession.files, recordOn, Status.isBusy]
  exact ⟨_, rfl, (scp_session firstSucceeds calmEnv (fun _ => "json") newScpSession _ _ hidle
    rfl).1⟩

end Transfer
end SNBModules
