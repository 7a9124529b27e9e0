import SNBModules.Transfer.AddressParsing
import SNBModules.Transfer.FileOutline
import SNBModules.Transfer.RClone
import SNBModules.Transfer.SessionCalls

/-!
# The jobs of the files

Source: `transfer_interface_RClone.hpp`, `download_file`, `cancel_file` and `do_work`.

The worker knows a transfer by its job: it takes the number out of the group of an entry of
`transferring`, and looks for the file that has this job in `m_jobs_id`.  A file waits once, so
it is downloaded once and has one job at most, which it keeps; if the library gives each job a
number of its own, the progress of a job goes to its file and to no other (`rclone_jobs`).
-/

namespace SNBModules
namespace Transfer

open Lib TransferSession

namespace RClone

variable (params : Params) (relative : String → String → String) (env : Env)
  (dump : Json → String)

/-- The job that an action gets from the library, with its file. -/
def started (p : Host Jobs × TransferSession) : Action → Option (ℕ × ℤ)
  | .call ⟨.single (.download _), i, _⟩ reply =>
      p.2.files[i]?.bind fun m =>
        if m.status = .waiting ∧ ¬ Outside params relative m then
          reply.copyfile.map fun id => (i, id)
        else none
  | _ => none

/-- The jobs of a run, in the order in which they were started. -/
def issued (p : Host Jobs × TransferSession) : List Action → List (ℕ × ℤ)
  | [] => []
  | a :: l => (started params relative p a).toList ++
      ((step params relative env dump p a).map fun q => issued q l).getD []

/-! ### What one action does -/

/-- What the interface does to its jobs and to the outline of a record. -/
theorem operation_spec (reply : Reply) (i : ℕ) (c : FileCommand) (jobs : Jobs)
    (m : TransferMetadata) :
    let r := c.operation (interface params relative reply i) jobs m
    (r.2.1.outline = m.outline ∨ r.2.1.outline = { m.outline with status := .finished } ∨
      r.2.1.outline = { m.outline with status := .error }) ∧
    r.1 = match c with
      | .single (.download _) =>
          if Outside params relative m then jobs
          else (reply.copyfile.map fun id => assign i id jobs).getD jobs
      | _ => jobs := by
  cases c with
  | single c =>
      cases c with
      | pause | resume | cancel => exact ⟨Or.inl rfl, rfl⟩
      | upload => exact ⟨Or.inr (Or.inl (by
          simp [FileCommand.operation, GroupCommand.operation, interface])), rfl⟩
      | download dest =>
          simp only [FileCommand.operation, GroupCommand.operation, interface]
          split_ifs with hout
          · exact ⟨Or.inr (Or.inr (by simp)), rfl⟩
          · cases reply.copyfile with
            | none => exact ⟨Or.inl rfl, rfl⟩
            | some id => exact ⟨Or.inl rfl, rfl⟩
  | hash => exact ⟨Or.inl rfl, rfl⟩

theorem outside_setStatus (now : ℤ) (status : Status) (m : TransferMetadata) :
    Outside params relative (m.setStatus now status) ↔ Outside params relative m := by
  rw [Outside, Outside, TransferMetadata.setStatus_filePath]

/-- The jobs after an action that starts one, or none. -/
def jobsAfter (jobs : Jobs) (e : Option (ℕ × ℤ)) : Jobs :=
  (e.map fun e => assign e.1 e.2 jobs).getD jobs

/-- A record that has no part in the transfer: its bytes and its speed are the same. -/
def SameProgress (m m' : TransferMetadata) : Prop :=
  m'.bytesTransferred = m.bytesTransferred ∧ m'.transmissionSpeed = m.transmissionSpeed

variable {params relative env dump}

theorem started_call {p : Host Jobs × TransferSession} {i : ℕ} {m : TransferMetadata}
    (hm : p.2.files[i]? = some m) (c : FileCommand) (isMultiple : Bool) (reply : Reply) :
    started params relative p (.call ⟨c, i, isMultiple⟩ reply) = match c with
      | .single (.download _) =>
          if m.status = .waiting ∧ ¬ Outside params relative m then
            reply.copyfile.map fun id => (i, id)
          else none
      | _ => none := by
  cases c with
  | single c => cases c <;> simp [started, hm]
  | hash => rfl

/-- A call that accepts a record leaves it in a status other than `WAITING`, and its outline as
it was apart from that. -/
theorem outline_run_of_allowed {c : FileCommand} {m : TransferMetadata} (hm : c.allowed m.status)
    (s : TransferSession) (reply : Reply) (i : ℕ) (isMultiple : Bool) (h : Host Jobs) :
    ∃ status, status ≠ .waiting ∧
      (c.run s (interface params relative reply i) env dump isMultiple h m).2.1.outline =
        { m.outline with status } := by
  have hspec := (operation_spec params relative reply i c h.interface
    (m.setStatus (h.world.now env) (c.target s.type))).1
  have htarget := c.target_ne_waiting s.type
  rw [c.run_eq, outline_fileOperation s env dump _ _ hm]
  simp only
  split_ifs
  · rcases hspec with hout | hout | hout <;> rw [hout]
    · exact ⟨_, htarget, by simp⟩
    · exact ⟨.finished, by decide, by simp⟩
    · exact ⟨.error, by decide, by simp⟩
  · rcases hspec with hout | hout | hout <;> rw [hout] <;> exact ⟨.error, by decide, by simp⟩

/-- The jobs after a call. -/
theorem interface_run {p : Host Jobs × TransferSession} {i : ℕ} {m : TransferMetadata}
    (hm : p.2.files[i]? = some m) (c : FileCommand) (isMultiple : Bool) (reply : Reply) :
    (c.run p.2 (interface params relative reply i) env dump isMultiple p.1 m).1.interface =
      jobsAfter p.1.interface (started params relative p (.call ⟨c, i, isMultiple⟩ reply)) := by
  have hspec := (operation_spec params relative reply i c p.1.interface
    (m.setStatus (p.1.world.now env) (c.target p.2.type))).2
  rw [c.run_eq, interface_fileOperation, started_call hm, hspec]
  cases c with
  | single c =>
      cases c with
      | pause | resume | cancel | upload => exact ite_self _
      | download dest =>
          have hallowed : (FileCommand.single (.download dest)).allowed m.status = true ↔
              m.status = .waiting := decide_eq_true_iff
          simp only [hallowed, outside_setStatus]
          by_cases hw : m.status = .waiting <;> by_cases hout : Outside params relative m <;>
            cases reply.copyfile <;> simp [hw, hout, jobsAfter]
  | hash => exact ite_self _

/-- **A call** changes one record, but not its bytes and its speed.  A file that waits afterwards
has waited before, and no job was started. -/
theorem call_cases {p q : Host Jobs × TransferSession} {c : FileCall} {reply : Reply}
    (h : step params relative env dump p (.call c reply) = some q) :
    ∃ m m', p.2.files[c.index]? = some m ∧ q.2.files = p.2.files.set c.index m' ∧
      SameProgress m m' ∧
      (m'.status = .waiting → m.status = .waiting ∧
        started params relative p (.call c reply) = none) ∧
      (∀ e, started params relative p (.call c reply) = some e →
        e.1 = c.index ∧ m.status = .waiting) ∧
      q.1.interface = jobsAfter p.1.interface (started params relative p (.call c reply)) := by
  obtain ⟨r, hr, rfl⟩ := Option.map_eq_some_iff.1 h
  obtain ⟨m, hm, rfl⟩ := Option.map_eq_some_iff.1 hr
  obtain ⟨command, index, isMultiple⟩ := c
  have hstarted : ∀ e, started params relative p (.call ⟨command, index, isMultiple⟩ reply) =
      some e → e.1 = index ∧ command.allowed m.status ∧ m.status = .waiting := by
    intro e he
    rw [started_call hm] at he
    cases command with
    | single c =>
        cases c with
        | pause | resume | cancel | upload => cases he
        | download dest =>
            obtain ⟨⟨hw, -⟩, he⟩ := Option.ite_none_right_eq_some.1 he
            obtain ⟨id, -, rfl⟩ := Option.map_eq_some_iff.1 he
            exact ⟨rfl, decide_eq_true hw, hw⟩
    | hash => cases he
  have hnew : ∃ status, (command.run p.2 (interface params relative reply index) env dump isMultiple
      p.1 m).2.1.outline = { m.outline with status } ∧ (status = .waiting → m.status = .waiting ∧
        started params relative p (.call ⟨command, index, isMultiple⟩ reply) = none) := by
    by_cases hyes : command.allowed m.status
    · obtain ⟨status, hne, hout⟩ : ∃ status, status ≠ .waiting ∧ (command.run p.2
          (interface params relative reply index) env dump isMultiple p.1 m).2.1.outline =
            { m.outline with status } :=
        outline_run_of_allowed hyes p.2 reply index isMultiple p.1
      exact ⟨status, hout, fun hw => absurd hw hne⟩
    · refine ⟨m.status, ?_, fun hw => ⟨hw, ?_⟩⟩
      · rw [command.run_eq, fileOperation_of_refused p.2 env dump hyes]
        rfl
      · exact Option.eq_none_iff_forall_ne_some.2 fun e he => hyes (hstarted e he).2.1
  obtain ⟨status, hout, hw⟩ := hnew
  refine ⟨m, _, hm, rfl, ⟨?_, ?_⟩, fun hs => hw ?_,
    fun e he => ⟨(hstarted e he).1, (hstarted e he).2.2⟩, interface_run hm command isMultiple reply⟩
  · exact congrArg Outline.bytesTransferred hout
  · exact congrArg Outline.transmissionSpeed hout
  · exact (congrArg Outline.status hout).symm.trans hs

/-! ### What a run does -/

/-- The jobs of the files, where the files were `files` at first and `jobs` were started since. -/
structure JobsKept (files : List TransferMetadata) (jobs : List (ℕ × ℤ))
    (p : Host Jobs × TransferSession) : Prop where
  ordered : KeysOrdered p.1.interface
  lookup : ∀ i id, p.1.interface.lookup i = some id ↔ (i, id) ∈ jobs
  once : (jobs.map Prod.fst).Nodup
  begun : ∀ i ∈ jobs.map Prod.fst, ∃ m : TransferMetadata,
    p.2.files[i]? = some m ∧ m.status ≠ .waiting
  alike : ∀ (i : ℕ) (m m' : TransferMetadata), files[i]? = some m → p.2.files[i]? = some m' →
    i ∉ jobs.map Prod.fst → SameProgress m m'

variable {files : List TransferMetadata} {jobs : List (ℕ × ℤ)}
  {p q : Host Jobs × TransferSession}

/-- A record is replaced and no job is started. -/
theorem JobsKept.set (h : JobsKept files jobs p) {i : ℕ} {m m' : TransferMetadata}
    (hm : p.2.files[i]? = some m) (hq : q.2.files = p.2.files.set i m')
    (hjobs : q.1.interface = p.1.interface) (hw : m'.status = .waiting → m.status = .waiting)
    (halike : i ∉ jobs.map Prod.fst → SameProgress m m') : JobsKept files jobs q := by
  obtain ⟨hlt, -⟩ := List.getElem?_eq_some_iff.1 hm
  refine ⟨hjobs ▸ h.ordered, hjobs ▸ h.lookup, h.once, ?_, ?_⟩
  · intro j hj
    obtain ⟨n, hn, hs⟩ := h.begun j hj
    rw [hq]
    by_cases hij : i = j
    · subst hij
      obtain rfl := Option.some.inj (hm.symm.trans hn)
      exact ⟨m', List.getElem?_set_self hlt, fun hs' => hs (hw hs')⟩
    · exact ⟨n, (List.getElem?_set_ne hij).trans hn, hs⟩
  · intro j n n' hn hn' hj
    rw [hq] at hn'
    by_cases hij : i = j
    · subst hij
      rw [List.getElem?_set_self hlt] at hn'
      obtain rfl := Option.some.inj hn'
      have hfirst := h.alike i n m hn hm hj
      have hsame := halike hj
      exact ⟨hsame.1.trans hfirst.1, hsame.2.trans hfirst.2⟩
    · rw [List.getElem?_set_ne hij] at hn'
      exact h.alike j n n' hn hn' hj

/-- A file without a job gets one. -/
theorem JobsKept.assign (h : JobsKept files jobs p) {i : ℕ} {id : ℤ}
    (hnew : i ∉ jobs.map Prod.fst)
    (hw : ∃ m : TransferMetadata, p.2.files[i]? = some m ∧ m.status ≠ .waiting)
    (hq : q.2.files = p.2.files) (hjobs : q.1.interface = assign i id p.1.interface) :
    JobsKept files (jobs ++ [(i, id)]) q := by
  have hmem : ∀ j, j ∈ (jobs ++ [(i, id)]).map Prod.fst ↔ j ∈ jobs.map Prod.fst ∨ j = i := by
    intro j
    rw [List.map_append, List.mem_append, List.map_singleton, List.mem_singleton]
  refine ⟨?_, ?_, ?_, ?_, ?_⟩
  · rw [hjobs]
    exact h.ordered.assign i id
  · intro j k
    rw [hjobs, lookup_assign, List.mem_append, List.mem_singleton, Prod.mk.injEq]
    by_cases hj : j = i
    · subst hj
      have hno : (j, k) ∉ jobs := fun hjk => hnew (List.mem_map_of_mem hjk)
      rw [if_pos rfl, Option.some.injEq]
      exact ⟨fun hk => Or.inr ⟨rfl, hk.symm⟩, fun hk => (hk.resolve_left hno).2.symm⟩
    · rw [if_neg hj, h.lookup]
      exact ⟨Or.inl, fun hk => hk.resolve_right fun hk => hj hk.1⟩
  · rw [List.map_append, List.map_singleton, List.nodup_append]
    refine ⟨h.once, List.nodup_singleton i, ?_⟩
    rintro j hj k hk rfl
    obtain rfl := List.mem_singleton.1 hk
    exact hnew hj
  · intro j hj
    rw [hq]
    rcases (hmem j).1 hj with hj | rfl
    · exact h.begun j hj
    · exact hw
  · intro j m m' hm hm' hj
    rw [hq] at hm'
    exact h.alike j m m' hm hm' fun hj' => hj ((hmem j).2 (Or.inl hj'))

/-- What the worker does with an entry of `transferring`, if the files of all jobs are there. -/
theorem transferring_cases {t : Transferring}
    (hfile : ∀ e ∈ p.1.interface, ∃ m : TransferMetadata, p.2.files[e.1]? = some m)
    (h : step params relative env dump p (.transferring t) = some q) :
    ∃ id, stoi (afterSlash t.group.toList) = .ok id ∧
      (q = p ∧ (∀ e ∈ p.1.interface, e.2 ≠ id) ∨
        ∃ i m m', (i, id) ∈ p.1.interface ∧ p.2.files[i]? = some m ∧
          m.setProgress t.percentage = .ok m' ∧
          q = (p.1, p.2.withFiles (p.2.files.set i (m'.setTransmissionSpeed t.speedAvg)))) := by
  obtain ⟨files, hfiles, rfl⟩ := Option.map_eq_some_iff.1 h
  obtain ⟨id, hid, hfiles⟩ := bind_eq_ok.1 (toOption_eq_some.1 hfiles)
  refine ⟨id, hid, ?_⟩
  cases hjob : p.1.interface.find? (·.2 = id) with
  | none =>
      rw [hjob] at hfiles
      cases hfiles
      refine Or.inl ⟨rfl, fun e he => ?_⟩
      simpa using List.find?_eq_none.1 hjob e he
  | some job =>
      obtain ⟨m, hm⟩ := hfile job (List.mem_of_find?_eq_some hjob)
      obtain rfl : job.2 = id := by simpa using List.find?_some hjob
      simp only [hjob, modifyFile, hm] at hfiles
      obtain ⟨m', hm', hfiles⟩ := bind_eq_ok.1 hfiles
      obtain ⟨m₁, hprogress, hspeed⟩ := bind_eq_ok.1 hm'
      cases hfiles
      cases hspeed
      exact Or.inr ⟨job.1, m, m₁, List.mem_of_find?_eq_some hjob, hm, hprogress, rfl⟩

/-- The file of a job is there. -/
theorem JobsKept.file (h : JobsKept files jobs p) {e : ℕ × ℤ} (he : e ∈ p.1.interface) :
    e ∈ jobs ∧ ∃ m : TransferMetadata, p.2.files[e.1]? = some m ∧ m.status ≠ .waiting := by
  have hmem : e ∈ jobs := (h.lookup e.1 e.2).1 (h.ordered.lookup_of_mem he)
  exact ⟨hmem, h.begun e.1 (List.mem_map_of_mem hmem)⟩

theorem setProgress_status {purcent : ℤ} {m m' : TransferMetadata}
    (h : m.setProgress purcent = .ok m') : m'.status = m.status :=
  congrArg Prod.fst (setProgress_outcome h)

/-- A report about a job does not make its file wait. -/
theorem readJobStatus_waiting {now : ℤ} {status : Option JobStatus} {m m' : TransferMetadata}
    (h : readJobStatus now status m = .ok m') (hw : m'.status = .waiting) :
    m.status = .waiting := by
  by_cases hr : ∃ r, Reported status r
  · obtain ⟨r, hr⟩ := hr
    obtain ⟨m₁, hread, hout⟩ := readJobStatus_of_reported hr now m
    obtain rfl := Except.ok.inj (h.symm.trans hread)
    have hstatus : m'.status = if r.success then .finished else .error :=
      (congrArg Prod.fst hout).trans (TransferMetadata.setStatus_status _ _ m)
    rw [hw] at hstatus
    split_ifs at hstatus
  · have hread := readJobStatus_of_pending (fun r h => hr ⟨r, h⟩) now m
    obtain rfl := Except.ok.inj (h.symm.trans hread)
    exact hw

/-- **One action.** -/
theorem JobsKept.action (h : JobsKept files jobs p) {a : Action}
    (hq : step params relative env dump p a = some q) :
    JobsKept files (jobs ++ (started params relative p a).toList) q := by
  cases a with
  | call c reply =>
      obtain ⟨m, m', hm, hfiles, halike, hw, hstart, hjobs⟩ := call_cases hq
      -- the record first, and then the job, if there is one
      have hset : JobsKept files jobs (⟨q.1.world, p.1.interface⟩, q.2) :=
        h.set hm hfiles rfl (fun hs => (hw hs).1) fun _ => halike
      cases hs : started params relative p (.call c reply) with
      | none =>
          rw [hs] at hjobs
          rw [Option.toList_none, List.append_nil]
          exact { hset with
            ordered := hjobs ▸ hset.ordered
            lookup := hjobs ▸ hset.lookup }
      | some e =>
          obtain ⟨i, id⟩ := e
          obtain ⟨rfl, hwaiting⟩ := hstart _ hs
          rw [hs] at hjobs
          have hnew : c.index ∉ jobs.map Prod.fst := by
            intro hmem
            obtain ⟨n, hn, hne⟩ := h.begun _ hmem
            obtain rfl := Option.some.inj (hm.symm.trans hn)
            exact hne hwaiting
          obtain ⟨hlt, -⟩ := List.getElem?_eq_some_iff.1 hm
          have hm' : q.2.files[c.index]? = some m' := by
            rw [hfiles, List.getElem?_set_self hlt]
          refine hset.assign hnew ⟨m', hm', fun hs' => ?_⟩ rfl hjobs
          exact Option.some_ne_none _ (hs.symm.trans (hw hs').2)
  | transferring t =>
      have hnone : started params relative p (.transferring t) = none := rfl
      rw [hnone, Option.toList_none, List.append_nil]
      obtain ⟨id, -, ⟨rfl, -⟩ | ⟨i, m, m', hjob, hm, hprogress, rfl⟩⟩ :=
        transferring_cases (fun e he => (h.file he).2.imp fun _ hm => hm.1) hq
      · exact h
      · obtain ⟨hmem, -⟩ := h.file hjob
        refine h.set hm rfl rfl (fun hs => ?_) fun hno => absurd (List.mem_map_of_mem hmem) hno
        exact (setProgress_status hprogress).symm.trans hs
  | jobStatus i status now =>
      have hnone : started params relative p (.jobStatus i status now) = none := rfl
      rw [hnone, Option.toList_none, List.append_nil]
      obtain ⟨hjob, hq⟩ := Option.ite_none_right_eq_some.1 hq
      obtain ⟨id, hid⟩ := Option.isSome_iff_exists.1 hjob
      have hmem : i ∈ jobs.map Prod.fst := List.mem_map_of_mem ((h.lookup i id).1 hid)
      obtain ⟨m, hm, -⟩ := h.begun i hmem
      obtain ⟨files', hfiles, rfl⟩ := Option.map_eq_some_iff.1 hq
      simp only [modifyFile, hm] at hfiles
      obtain ⟨m', hm', hfiles⟩ := bind_eq_ok.1 (toOption_eq_some.1 hfiles)
      cases hfiles
      exact h.set hm rfl rfl (readJobStatus_waiting hm') fun hno => absurd hmem hno

/-- A run. -/
theorem JobsKept.run (h : JobsKept files jobs p) {actions : List Action}
    (hrun : exec (step params relative env dump) p actions = some q) :
    JobsKept files (jobs ++ issued params relative env dump p actions) q := by
  induction actions generalizing p jobs with
  | nil =>
      obtain rfl := Option.some.inj hrun
      rwa [issued, List.append_nil]
  | cons a actions ih =>
      obtain ⟨t, ht, hrun⟩ := exec_cons_eq_some.1 hrun
      have hrest := ih (h.action ht) hrun
      rw [List.append_assoc] at hrest
      rw [issued, ht]
      exact hrest

/-- Before the first download. -/
theorem jobsKept_nil (hp : p.1.interface = []) : JobsKept p.2.files [] p where
  ordered := hp ▸ keysOrdered_nil
  lookup := by simp [hp]
  once := List.nodup_nil
  begun := by simp
  alike := by
    intro i m m' hm hm' _
    obtain rfl := Option.some.inj (hm.symm.trans hm')
    exact ⟨rfl, rfl⟩

variable (params relative env dump)

/-- What is certain of the jobs that were started between `p` and `p'`. -/
structure JobTable (jobs : List (ℕ × ℤ)) (p p' : Host Jobs × TransferSession) : Prop where
  once : (jobs.map Prod.fst).Nodup
  lookup : ∀ i id, p'.1.interface.lookup i = some id ↔ (i, id) ∈ jobs
  alike : ∀ (i : ℕ) (m m' : TransferMetadata), p.2.files[i]? = some m →
    p'.2.files[i]? = some m' → i ∉ jobs.map Prod.fst → SameProgress m m'
  routed : (jobs.map Prod.snd).Nodup → ∀ t q,
    step params relative env dump p' (.transferring t) = some q →
      ∃ id, NumberText (afterSlash t.group.toList) id ∧
        ((∀ i, (i, id) ∉ jobs) ∧ q = p' ∨
          ∃ i m m', (∀ j, (j, id) ∈ jobs ↔ j = i) ∧ p'.2.files[i]? = some m ∧
            m.setProgress t.percentage = .ok m' ∧
            q = (p'.1, p'.2.withFiles (p'.2.files.set i (m'.setTransmissionSpeed t.speedAvg))))

/-- **The jobs of the files.**  In a run from a session without jobs each file has one job at
most, and `m_jobs_id` is the table of them.  A file without a job keeps its bytes and its speed.
If no two jobs have one number, an entry of `transferring` changes the file of its job, and
nothing if there is none. -/
theorem rclone_jobs (p p' : Host Jobs × TransferSession) (actions : List Action)
    (hp : p.1.interface = []) (hrun : exec (step params relative env dump) p actions = some p') :
    JobTable params relative env dump (issued params relative env dump p actions) p p' := by
  have h : JobsKept p.2.files (issued params relative env dump p actions) p' := by
    simpa using (jobsKept_nil hp).run hrun
  refine ⟨h.once, h.lookup, h.alike, fun hids t q hq => ?_⟩
  obtain ⟨id, hid, hcases⟩ := transferring_cases
    (fun e he => (h.file he).2.imp fun _ hm => hm.1) hq
  refine ⟨id, (stoi_eq_ok_iff.1 hid).1, ?_⟩
  rcases hcases with ⟨rfl, hnone⟩ | ⟨i, m, m', hjob, hm, hprogress, rfl⟩
  · refine Or.inl ⟨fun i hi => ?_, rfl⟩
    exact hnone (i, id) (mem_of_lookup ((h.lookup i id).2 hi)) rfl
  · refine Or.inr ⟨i, m, m', fun j => ⟨fun hj => ?_, ?_⟩, hm, hprogress, rfl⟩
    · have hsame := List.inj_on_of_nodup_map hids hj (h.file hjob).1 rfl
      exact congrArg Prod.fst hsame
    · rintro rfl
      exact (h.file hjob).1

/-- Two files are downloaded as the jobs 1 and 2; the second one is cancelled. -/
theorem rclone_jobs_two_downloads :
    ∃ p', exec (step ⟨"http", "/"⟩ fromRoot secondsEnv fun _ => "json") beforeDownloads
        twoDownloads = some p' ∧
      JobTable ⟨"http", "/"⟩ fromRoot secondsEnv (fun _ => "json") [(0, 1), (1, 2)]
        beforeDownloads p' := by
  have hissued : issued ⟨"http", "/"⟩ fromRoot secondsEnv (fun _ => "json") beforeDownloads
      twoDownloads = [(0, 1), (1, 2)] := by
    decide +kernel
  obtain ⟨p', hp'⟩ := Option.isSome_iff_exists.1 (show (exec (step ⟨"http", "/"⟩ fromRoot secondsEnv
    fun _ => "json") beforeDownloads twoDownloads).isSome = true by decide +kernel)
  have htable := rclone_jobs ⟨"http", "/"⟩ fromRoot secondsEnv (fun _ => "json") beforeDownloads p'
    twoDownloads rfl hp'
  rw [hissued] at htable
  exact ⟨p', hp', htable⟩

end RClone

end Transfer
end SNBModules
