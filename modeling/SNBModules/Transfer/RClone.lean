import SNBModules.Transfer.FileStates

/-!
# The RClone interface and its worker

Source: `transfer_interface_RClone.hpp`.

A download is a job of the RClone library, and `m_jobs_id` has the job of each
file that was downloaded.  The worker asks in turns for the progress of the
transfers that are going on and for the status of every job.  A job is never
taken out of the map, so a job that has finished is reported as finished in each
turn, and each time the worker sets the status of its file again: with a new end
time and a longer duration, and also when the file was cancelled meanwhile
(`worker_final_iff`).

The files of the session stand for their addresses, in order: the map goes by
them.  What the library replies, and what the clock shows when the interface
reads it, are chosen freely, and so is where in its loops the worker is between
two calls.
-/

namespace SNBModules
namespace Transfer

open Lib TransferSession

namespace RClone

/-! ## The interface -/

/-- `m_jobs_id`: the job of each file. -/
abbrev Jobs := List (ℕ × ℤ)

/-- Of `m_params`, what decides whether a download is asked for. -/
structure Params where
  protocol : String
  rootFolder : String
  deriving DecidableEq, Repr

/-- The clock, and the job that `operations/copyfile` returns, if it does. -/
structure Reply where
  now : ℤ
  copyfile : Option ℤ
  deriving DecidableEq, Repr

/-- Whether the file is outside of the folder that is served over HTTP; `relative`
is that of `std::filesystem`. -/
def Outside (params : Params) (relative : String → String → String) (m : TransferMetadata) : Prop :=
  params.protocol = "http" ∧ ['.', '.'] <:+: (relative m.filePath params.rootFolder).toList

instance (params : Params) (relative : String → String → String) (m : TransferMetadata) :
    Decidable (Outside params relative m) :=
  inferInstanceAs (Decidable (_ ∧ _))

/-- The interface, called for the `i`-th file. -/
def interface (params : Params) (relative : String → String → String) (reply : Reply) (i : ℕ) :
    TransferInterface Jobs where
  uploadFile := fun jobs m => (jobs, m.setStatus reply.now .finished, true)
  downloadFile := fun _ jobs m =>
    if Outside params relative m then
      (jobs, (m.setStatus reply.now .error).setErrorCode
        "File path is not relative to root folder !", false)
    else
      match reply.copyfile with
      | some id => (assign i id jobs, m, true)
      | none => (jobs, m, false)
  pauseFile := fun jobs m => (jobs, m, true)
  resumeFile := fun jobs m => (jobs, m, true)
  hashFile := fun jobs m => (jobs, m, true)
  cancelFile := fun jobs m => (jobs, m, (jobs.lookup i).isSome)

/-! ## The worker -/

/-- An entry of `transferring` in the reply to `core/stats`. -/
structure Transferring where
  group : String
  percentage : ℤ
  speedAvg : ℤ
  deriving DecidableEq, Repr

/-- The reply to `job/status`; `finished` may be null. -/
structure JobStatus where
  finished : Option Bool
  success : Bool
  error : String
  deriving DecidableEq, Repr

/-- The text after the first `/`, or all of it. -/
def afterSlash (s : List Char) : List Char :=
  match s.dropWhile (· ≠ '/') with
  | _ :: rest => rest
  | [] => s

/-- Work on the record behind a pointer. -/
def modifyFile (i : ℕ) (f : TransferMetadata → Except Exn TransferMetadata)
    (files : List TransferMetadata) : Except Exn (List TransferMetadata) :=
  match files[i]? with
  | some m => do
      let m ← f m
      .ok (files.set i m)
  | none => .ok files

/-- What the worker does with an entry of `transferring`: the first file with the
job gets the progress and the speed. -/
def readTransferring (jobs : Jobs) (files : List TransferMetadata) (t : Transferring) :
    Except Exn (List TransferMetadata) := do
  let id ← stoi (afterSlash t.group.toList)
  match jobs.find? (·.2 = id) with
  | some (i, _) =>
      modifyFile i (fun m => do
        let m ← m.setProgress t.percentage
        .ok (m.setTransmissionSpeed t.speedAvg)) files
  | none => .ok files

/-- What it does with the reply to `job/status`, if there is one. -/
def readJobStatus (now : ℤ) (status : Option JobStatus) (m : TransferMetadata) :
    Except Exn TransferMetadata :=
  match status with
  | none => .ok m
  | some r =>
      if r.finished = some true then do
        let m ← if r.success then (m.setStatus now .finished).setProgress 100
          else .ok ((m.setStatus now .error).setErrorCode r.error)
        .ok (m.setTransmissionSpeed 0)
      else .ok m

/-! ## Sessions and their worker -/

/-- A call on a file of the session, or what `do_work` does with one entry of
`transferring` or with the reply about the job of one file. -/
inductive Action where
  | call (c : FileCall) (reply : Reply)
  | transferring (t : Transferring)
  | jobStatus (i : ℕ) (status : Option JobStatus) (now : ℤ)
  deriving DecidableEq, Repr

/-- The session with its interface after a call or an action of the worker; what
the worker throws ends the process. -/
def step (params : Params) (relative : String → String → String) (env : Env)
    (dump : Json → String) (p : Host Jobs × TransferSession) :
    Action → Option (Host Jobs × TransferSession)
  | .call c reply => callStep (interface params relative reply c.index) env dump p c
  | .transferring t =>
      (readTransferring p.1.interface p.2.files t).toOption.map fun files =>
        (p.1, p.2.withFiles files)
  | .jobStatus i status now =>
      if (p.1.interface.lookup i).isSome then
        (modifyFile i (readJobStatus now status) p.2.files).toOption.map fun files =>
          (p.1, p.2.withFiles files)
      else none

/-! ## Outcomes -/

/-- The transfer is over: `FINISHED` or `CANCELLED`. -/
def Settled (m : TransferMetadata) : Prop := m.status = .finished ∨ m.status = .cancelled

instance : DecidablePred Settled := fun _ => inferInstanceAs (Decidable (_ ∨ _))

/-- The status of a record, its end time and its accumulated duration. -/
def outcome (m : TransferMetadata) : Status × ℤ × ℤ := (m.status, m.endTime, m.duration)

/-- The files that are settled keep their outcome. -/
def KeepsOutcomes (files files' : List TransferMetadata) : Prop :=
  ∀ (i : ℕ) (m : TransferMetadata), files[i]? = some m → Settled m →
    ∃ m', files'[i]? = some m' ∧ outcome m' = outcome m

theorem KeepsOutcomes.refl (files : List TransferMetadata) : KeepsOutcomes files files :=
  fun _ m hm _ => ⟨m, hm, rfl⟩

/-- A change of one record matters only if the record is settled. -/
theorem keepsOutcomes_set_iff {files : List TransferMetadata} {i : ℕ} {m m' : TransferMetadata}
    (hm : files[i]? = some m) :
    KeepsOutcomes files (files.set i m') ↔ (Settled m → outcome m' = outcome m) := by
  obtain ⟨hlt, -⟩ := List.getElem?_eq_some_iff.1 hm
  have hself : (files.set i m')[i]? = some m' := List.getElem?_set_self hlt
  constructor
  · intro h hs
    obtain ⟨m'', hm'', hout⟩ := h i m hm hs
    obtain rfl : m' = m'' := Option.some.inj (hself.symm.trans hm'')
    exact hout
  · intro h j n hn hs
    by_cases hj : i = j
    · subst hj
      obtain rfl : m = n := Option.some.inj (hm.symm.trans hn)
      exact ⟨m', hself, h hs⟩
    · exact ⟨n, (List.getElem?_set_ne hj).trans hn, rfl⟩

theorem setProgress_outcome {purcent : ℤ} {m m' : TransferMetadata}
    (h : m.setProgress purcent = .ok m') : outcome m' = outcome m := by
  rw [TransferMetadata.setProgress] at h
  split_ifs at h
  cases h
  rfl

/-- The progress of a transfer is not part of its outcome. -/
theorem readTransferring_keeps {jobs : Jobs} {files files' : List TransferMetadata}
    {t : Transferring} (h : readTransferring jobs files t = .ok files') :
    KeepsOutcomes files files' := by
  obtain ⟨id, -, h⟩ := bind_eq_ok.1 h
  cases hjob : jobs.find? (·.2 = id) with
  | none =>
      rw [hjob] at h
      cases h
      exact KeepsOutcomes.refl files
  | some job =>
      rw [hjob] at h
      cases hm : files[job.1]? with
      | none =>
          simp only [modifyFile, hm] at h
          cases h
          exact KeepsOutcomes.refl files
      | some m =>
          simp only [modifyFile, hm] at h
          obtain ⟨m', hm', h⟩ := bind_eq_ok.1 h
          obtain ⟨m₁, hprogress, hspeed⟩ := bind_eq_ok.1 hm'
          cases h
          cases hspeed
          have hout : outcome m₁ = outcome m := setProgress_outcome hprogress
          exact (keepsOutcomes_set_iff hm).2 fun _ => hout

/-! ### A report about a job -/

/-- The job has finished. -/
def Reported (status : Option JobStatus) (r : JobStatus) : Prop :=
  status = some r ∧ r.finished = some true

instance (status : Option JobStatus) (r : JobStatus) : Decidable (Reported status r) :=
  inferInstanceAs (Decidable (_ ∧ _))

/-- Nothing happens to the file of a job that has not finished. -/
theorem readJobStatus_of_pending {status : Option JobStatus} (h : ∀ r, ¬ Reported status r)
    (now : ℤ) (m : TransferMetadata) : readJobStatus now status m = .ok m := by
  cases status with
  | none => rfl
  | some r => exact if_neg fun hfin => h r ⟨rfl, hfin⟩

/-- The file of a job that has finished gets its status, and with it the times. -/
theorem readJobStatus_of_reported {status : Option JobStatus} {r : JobStatus}
    (h : Reported status r) (now : ℤ) (m : TransferMetadata) :
    ∃ m', readJobStatus now status m = .ok m' ∧
      outcome m' = outcome (m.setStatus now (if r.success then .finished else .error)) := by
  obtain ⟨rfl, hfin⟩ := h
  simp only [readJobStatus, if_pos hfin]
  cases r.success with
  | true => exact ⟨_, rfl, rfl⟩
  | false => exact ⟨_, rfl, rfl⟩

/-- **A report keeps the outcome of a settled file** in one case only: the file is
`FINISHED`, the job too, and the file was started and ended just now. -/
theorem outcome_reported_iff {m : TransferMetadata} (hm : Settled m) (now : ℤ) (success : Bool) :
    outcome (m.setStatus now (if success then .finished else .error)) = outcome m ↔
      m.status = .finished ∧ success ∧ m.startTime = now ∧ m.endTime = now := by
  cases success with
  | true =>
      have h : outcome (m.setStatus now .finished) =
        (.finished, now, m.duration + (now - m.startTime)) := rfl
      rw [if_pos rfl, h, outcome, Prod.mk.injEq, Prod.mk.injEq]
      constructor
      · rintro ⟨hstatus, hend, hduration⟩
        exact ⟨hstatus.symm, rfl, by omega, hend.symm⟩
      · rintro ⟨hstatus, -, hstart, hend⟩
        exact ⟨hstatus.symm, hend.symm, by omega⟩
  | false =>
      have h : (outcome (m.setStatus now .error)).1 = .error := rfl
      refine iff_of_false (fun heq => ?_) (fun hno => Bool.false_ne_true hno.2.1)
      have hstatus : Status.error = m.status := h.symm.trans (congrArg Prod.fst heq)
      rcases hm with hm | hm <;> exact Status.noConfusion (hstatus.trans hm)

/-! ### The actions of the worker -/

section Worker

variable (params : Params) (relative : String → String → String) (env : Env)
  (dump : Json → String)

/-- An action of the worker keeps the outcomes of the files that are settled. -/
def Final (p : Host Jobs × TransferSession) : Action → Prop
  | .call _ _ => True
  | a => ∀ p', step params relative env dump p a = some p' → KeepsOutcomes p.2.files p'.2.files

/-- The job of a settled file is not reported as finished, unless the file is
`FINISHED`, was started and ended just now, and the report is one of success. -/
def Quiet (p : Host Jobs × TransferSession) : Action → Prop
  | .jobStatus i status now =>
      (p.1.interface.lookup i).isSome → ∀ m ∈ p.2.files[i]?, Settled m → ∀ r ∈ status,
        r.finished = some true →
          m.status = .finished ∧ r.success ∧ m.startTime = now ∧ m.endTime = now
  | _ => True

instance (p : Host Jobs × TransferSession) : ∀ a, Decidable (Quiet p a)
  | .call _ _ => inferInstanceAs (Decidable True)
  | .transferring _ => inferInstanceAs (Decidable True)
  | .jobStatus i status now =>
      inferInstanceAs (Decidable ((p.1.interface.lookup i).isSome → ∀ m ∈ p.2.files[i]?,
        Settled m → ∀ r ∈ status, r.finished = some true →
          m.status = .finished ∧ r.success ∧ m.startTime = now ∧ m.endTime = now))

/-- An action on the job of a file replaces the record. -/
theorem step_jobStatus {p : Host Jobs × TransferSession} {i : ℕ} {m m' : TransferMetadata}
    {status : Option JobStatus} {now : ℤ} (hjob : (p.1.interface.lookup i).isSome)
    (hm : p.2.files[i]? = some m) (h : readJobStatus now status m = .ok m') :
    step params relative env dump p (.jobStatus i status now) =
      some (p.1, p.2.withFiles (p.2.files.set i m')) := by
  simp only [step, if_pos hjob, modifyFile, hm, h]
  rfl

/-- A report that is kept from the settled files. -/
theorem final_jobStatus_iff {p : Host Jobs × TransferSession} {i : ℕ} {m : TransferMetadata}
    {status : Option JobStatus} {now : ℤ} (hjob : (p.1.interface.lookup i).isSome)
    (hm : p.2.files[i]? = some m) :
    Final params relative env dump p (.jobStatus i status now) ↔
      (Settled m → ∀ r, Reported status r →
        m.status = .finished ∧ r.success ∧ m.startTime = now ∧ m.endTime = now) := by
  by_cases hr : ∃ r, Reported status r
  · obtain ⟨r, hr⟩ := hr
    obtain ⟨m', hread, hout⟩ := readJobStatus_of_reported hr now m
    simp only [Final, step_jobStatus params relative env dump hjob hm hread, Option.some.injEq,
      forall_eq', withFiles_files, keepsOutcomes_set_iff hm, hout]
    refine forall_congr' fun hs => (outcome_reported_iff hs now r.success).trans ?_
    constructor
    · intro h r' hr'
      obtain rfl : r = r' := Option.some.inj (hr.1.symm.trans hr'.1)
      exact h
    · exact fun h => h r hr
  · have hread := readJobStatus_of_pending (fun r h => hr ⟨r, h⟩) now m
    simp only [Final, step_jobStatus params relative env dump hjob hm hread, Option.some.injEq,
      forall_eq', withFiles_files, keepsOutcomes_set_iff hm]
    exact iff_of_true (fun _ => trivial) fun _ r h => absurd ⟨r, h⟩ hr

/-- **One action of the worker.** -/
theorem final_iff_quiet (p : Host Jobs × TransferSession) (a : Action) :
    Final params relative env dump p a ↔ Quiet p a := by
  cases a with
  | call c reply => exact Iff.rfl
  | transferring t =>
      refine iff_of_true (fun p' hp' => ?_) trivial
      obtain ⟨files, hfiles, rfl⟩ := Option.map_eq_some_iff.1 hp'
      exact readTransferring_keeps (toOption_eq_some.1 hfiles)
  | jobStatus i status now =>
      by_cases hjob : (p.1.interface.lookup i).isSome
      · cases hm : p.2.files[i]? with
        | none =>
            refine iff_of_true (fun p' hp' => ?_) fun _ m hm' => ?_
            · simp only [step, if_pos hjob, modifyFile, hm] at hp'
              cases hp'
              exact KeepsOutcomes.refl _
            · rw [hm] at hm'
              cases hm'
        | some m =>
            rw [final_jobStatus_iff params relative env dump hjob hm]
            constructor
            · intro h _ m' hm' hs r hr hfin
              obtain rfl : m = m' := Option.some.inj (hm.symm.trans hm')
              exact h hs r ⟨hr, hfin⟩
            · exact fun h hs r hr => h hjob m hm hs r hr.1 hr.2
      · refine iff_of_true (fun p' hp' => ?_) fun h => absurd h hjob
        rw [step, if_neg hjob] at hp'
        cases hp'

/-- **The worker leaves alone what is over exactly when** it is not told of it.  In
any order of calls on the files and of replies to the worker, no action of the
worker changes the status, the end time or the duration of a file that is
`FINISHED` or `CANCELLED`, if and only if no reply says that the job of such a file
has finished; but for a success in the millisecond in which the file was started
and finished. -/
theorem worker_final_iff (p : Host Jobs × TransferSession) (actions : List Action) :
    Guarded (step params relative env dump) (Final params relative env dump) p actions ↔
      Guarded (step params relative env dump) Quiet p actions :=
  guarded_congr (final_iff_quiet params relative env dump) p actions

end Worker

/-! ### Two downloads -/

/-- A downloading session over some records. -/
def downloadSession (files : List TransferMetadata) : TransferSession where
  type := .downloader
  sessionId := "client2_sesgroup1"
  ip := ⟨"127.0.0.1", 42101⟩
  transferOptions :=
    ⟨"group1", some .rclone, .null, files, ∅, "client1", ⟨"127.0.0.1", 42100⟩⟩
  workDir := "/listen/s2"
  targetClients := []
  connections := ⟨[], ["snbmodules_client1", "snbmodules_client2"]⟩

/-- A clock that goes on by a second with each reading. -/
def secondsEnv : Env := ⟨fun _ => true, fun n => 1000 * (n + 1)⟩

/-- The paths of the two files from the root folder. -/
def fromRoot (path _root : String) : String := if path = "/data/a" then "data/a" else "data/b"

/-- Two files are downloaded, the second one is cancelled, and then the worker comes
to the job of the first one, which has finished, and to the one that was stopped. -/
def twoDownloads : List Action :=
  [.call ⟨.single (.download "/listen/s2"), 0, true⟩ ⟨1000, some 1⟩,
    .call ⟨.single (.download "/listen/s2"), 1, true⟩ ⟨2000, some 2⟩,
    .call ⟨.single .cancel, 1, true⟩ ⟨3000, none⟩,
    .jobStatus 0 (some ⟨some true, true, ""⟩) 5000,
    .jobStatus 1 (some ⟨some true, false, "context canceled"⟩) 5000]

/-- The session before the downloads. -/
def beforeDownloads : Host Jobs × TransferSession :=
  (⟨⟨0, 0, []⟩, []⟩,
    downloadSession [recordOn "/data/a" .waiting, recordOn "/data/b" .waiting])

/-- **Outcomes change:** the file that was cancelled becomes one in error, and in
the next turn of the worker, ten seconds later, the one that was finished after
four seconds is finished again, then and after eighteen. -/
theorem outcomes_change :
    (((exec (step ⟨"http", "/"⟩ fromRoot secondsEnv fun _ => "json") beforeDownloads
        (twoDownloads.take 4)).map fun p => p.2.files.map outcome) =
      some [(.finished, 5000, 4000), (.cancelled, 0, 0)]) ∧
    (((exec (step ⟨"http", "/"⟩ fromRoot secondsEnv fun _ => "json") beforeDownloads
        (twoDownloads ++ [.jobStatus 0 (some ⟨some true, true, ""⟩) 15000])).map
          fun p => p.2.files.map outcome) =
      some [(.finished, 15000, 18000), (.error, 5000, 3000)]) ∧
    ¬ Guarded (step ⟨"http", "/"⟩ fromRoot secondsEnv fun _ => "json")
        (Final ⟨"http", "/"⟩ fromRoot secondsEnv fun _ => "json") beforeDownloads twoDownloads := by
  refine ⟨by decide +kernel, by decide +kernel, fun h => ?_⟩
  have hquiet := (guarded_congr (final_iff_quiet ⟨"http", "/"⟩ fromRoot secondsEnv fun _ => "json")
    beforeDownloads twoDownloads).1 h
  exact absurd hquiet (by decide +kernel)

end RClone

end Transfer
end SNBModules
