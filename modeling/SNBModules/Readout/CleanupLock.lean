import SNBModules.Lib.Accounting
import SNBModules.Lib.Runs
import Mathlib.Data.Int.Notation

/-!
# Requests and cleanups exclude each other

Source: `SNBRequestHandlerModel.hxx`, `cleanup_check`, `issue_request` and
`periodic_cleanups`.

A worker enters `data_request` when no cleanup is requested, and a cleanup runs
when no request does; both wait on `m_cv`, and `m_cleanup_requested` is taken
inside the lock.  A section under `m_cv_mutex` is one step: it either runs to
its end or stops at its `wait`, and a thread that waits is woken when its
predicate holds.

Jobs of the pool and calls of `cleanup_check` are threads here, as many as there
are; the periodic thread is one call after another.
-/

namespace SNBModules
namespace Readout

open Lib

/-- Where a job of the pool or a call of `cleanup_check` is. -/
inductive Thread where
  | arrived
  | waitNoCleanup
  | inside
  | served
  | checking
  | waitIdle
  | finished
  deriving DecidableEq, Repr

/-- The threads and what they share under `m_cv_mutex`. -/
structure LockState where
  threads : List Thread
  requestsRunning : ℤ
  cleanupRequested : Bool
  numBufferCleanups : ℕ
  deriving DecidableEq

/-- Nobody is there yet. -/
def LockState.new : LockState := ⟨[], 0, false, 0⟩

/-- The `i`-th thread goes on to `t`. -/
def LockState.goTo (s : LockState) (i : ℕ) (t : Thread) : LockState :=
  { s with threads := s.threads.set i t }

/-- `m_requests_running++`, once no cleanup is requested. -/
def enterRequest (s : LockState) (i : ℕ) : LockState :=
  { s.goTo i .inside with requestsRunning := s.requestsRunning + 1 }

/-- `cleanup_check` after its wait: `cleanup` runs and the request is taken
back. -/
def runCleanup (s : LockState) (i : ℕ) : LockState :=
  { s.goTo i .finished with
    cleanupRequested := false
    numBufferCleanups := s.numBufferCleanups + 1 }

/-- A new thread, or the next section of the `i`-th one. -/
inductive LockAction where
  | issueRequest
  | cleanupCheck
  | lockRequest (i : ℕ)
  | wakeRequest (i : ℕ)
  | leaveRequest (i : ℕ)
  | afterRequest (i : ℕ) (sent : Bool)
  | lockCheck (i : ℕ) (popListEmpty : Bool)
  | wakeCheck (i : ℕ)
  deriving DecidableEq, Repr

/-- The sections.  After `data_request` a worker that has sent its fragment calls
`cleanup_check`; one that re-queues its request, or whose send throws, does not. -/
def lockStep (s : LockState) : LockAction → Option LockState
  | .issueRequest => some { s with threads := s.threads ++ [.arrived] }
  | .cleanupCheck => some { s with threads := s.threads ++ [.checking] }
  | .lockRequest i =>
      if s.threads[i]? = some .arrived then
        some (if s.cleanupRequested then s.goTo i .waitNoCleanup else enterRequest s i)
      else none
  | .wakeRequest i =>
      if s.threads[i]? = some .waitNoCleanup ∧ s.cleanupRequested = false then
        some (enterRequest s i)
      else none
  | .leaveRequest i =>
      if s.threads[i]? = some .inside then
        some { s.goTo i .served with requestsRunning := s.requestsRunning - 1 }
      else none
  | .afterRequest i sent =>
      if s.threads[i]? = some .served then
        some (s.goTo i (if sent then .checking else .finished))
      else none
  | .lockCheck i popListEmpty =>
      if s.threads[i]? = some .checking then
        some (if popListEmpty ∨ s.cleanupRequested then s.goTo i .finished
          else if s.requestsRunning = 0 then runCleanup s i
          else { s.goTo i .waitIdle with cleanupRequested := true })
      else none
  | .wakeCheck i =>
      if s.threads[i]? = some .waitIdle ∧ s.requestsRunning = 0 then some (runCleanup s i)
      else none

/-- The thread waits on `m_cv` for a predicate that is false. -/
def Blocked (s : LockState) : Thread → Prop
  | .waitNoCleanup => s.cleanupRequested = true
  | .waitIdle => s.requestsRunning ≠ 0
  | _ => False

/-! ### The invariant -/

/-- The counter counts the workers inside `data_request`, and the flag is set
exactly while one thread waits to clean up. -/
structure LockInv (s : LockState) : Prop where
  running : s.requestsRunning = s.threads.count .inside
  requested : s.threads.count .waitIdle = s.cleanupRequested.toNat

namespace LockInv

variable {s s' : LockState} {i : ℕ}

theorem new : LockInv .new := ⟨rfl, rfl⟩

/-- A new thread that is neither inside nor waiting to clean up. -/
theorem append {t : Thread} (h : LockInv s) (hin : [t].count .inside = 0)
    (hwait : [t].count .waitIdle = 0) : LockInv { s with threads := s.threads ++ [t] } where
  running := by rw [h.running, List.count_append, hin, Nat.add_zero]
  requested := by rw [← h.requested, List.count_append, hwait, Nat.add_zero]

/-- The `i`-th thread goes from `t` to `u` and the counter and the flag follow
its coming and going. -/
theorem goTo {t u : Thread} {requestsRunning : ℤ} {cleanupRequested : Bool} {n : ℕ}
    (h : LockInv s) (ht : s.threads[i]? = some t)
    (hrun : requestsRunning + [t].count .inside = s.requestsRunning + [u].count .inside)
    (hreq : cleanupRequested.toNat + [t].count .waitIdle =
      s.cleanupRequested.toNat + [u].count .waitIdle) :
    LockInv ⟨s.threads.set i u, requestsRunning, cleanupRequested, n⟩ where
  running := by
    have := count_set_add ht u .inside
    have := h.running
    change requestsRunning = ((s.threads.set i u).count .inside : ℕ)
    omega
  requested := by
    have := count_set_add ht u .waitIdle
    have := h.requested
    change (s.threads.set i u).count .waitIdle = cleanupRequested.toNat
    omega

theorem cleanupRequested_of_mem (h : LockInv s) (hmem : Thread.waitIdle ∈ s.threads) :
    s.cleanupRequested = true := by
  have := List.count_pos_iff.2 hmem
  rw [h.requested] at this
  cases hflag : s.cleanupRequested with
  | true => rfl
  | false => simp [hflag] at this

/-- Every section keeps the invariant. -/
theorem step {a : LockAction} (h : LockInv s) (hs : lockStep s a = some s') : LockInv s' := by
  cases a with
  | issueRequest => exact Option.some.inj hs ▸ h.append rfl rfl
  | cleanupCheck => exact Option.some.inj hs ▸ h.append rfl rfl
  | lockRequest i =>
      obtain ⟨ht, hs⟩ := Option.ite_none_right_eq_some.1 hs
      obtain rfl := Option.some.inj hs
      split
      · exact h.goTo ht rfl rfl
      · exact h.goTo ht (by simp) rfl
  | wakeRequest i =>
      obtain ⟨⟨ht, -⟩, hs⟩ := Option.ite_none_right_eq_some.1 hs
      exact Option.some.inj hs ▸ h.goTo ht (by simp) rfl
  | leaveRequest i =>
      obtain ⟨ht, hs⟩ := Option.ite_none_right_eq_some.1 hs
      obtain rfl := Option.some.inj hs
      exact h.goTo ht (by simp) rfl
  | afterRequest i sent =>
      obtain ⟨ht, hs⟩ := Option.ite_none_right_eq_some.1 hs
      obtain rfl := Option.some.inj hs
      cases sent
      · exact h.goTo ht rfl rfl
      · exact h.goTo ht rfl rfl
  | lockCheck i popListEmpty =>
      obtain ⟨ht, hs⟩ := Option.ite_none_right_eq_some.1 hs
      obtain rfl := Option.some.inj hs
      split
      · exact h.goTo ht rfl rfl
      · rename_i hfree
        have hflag : s.cleanupRequested = false := by simpa using (not_or.1 hfree).2
        split
        · exact h.goTo ht rfl (by rw [hflag]; rfl)
        · exact h.goTo ht rfl (by rw [hflag]; rfl)
  | wakeCheck i =>
      obtain ⟨⟨ht, -⟩, hs⟩ := Option.ite_none_right_eq_some.1 hs
      have hflag := h.cleanupRequested_of_mem (List.mem_of_getElem? ht)
      exact Option.some.inj hs ▸ h.goTo ht rfl (by rw [hflag]; rfl)

theorem inside_not_mem (h : LockInv s) (hrun : s.requestsRunning = 0) :
    Thread.inside ∉ s.threads := fun hmem => by
  have := List.count_pos_iff.2 hmem
  have := h.running
  omega

theorem exists_inside (h : LockInv s) (hrun : s.requestsRunning ≠ 0) :
    Thread.inside ∈ s.threads := by
  by_contra hno
  refine hrun ?_
  rw [h.running, List.count_eq_zero.2 hno]
  rfl

theorem exists_waitIdle (h : LockInv s) (hflag : s.cleanupRequested = true) :
    Thread.waitIdle ∈ s.threads := by
  have := h.requested
  rw [hflag] at this
  exact List.count_pos_iff.1 (this ▸ Nat.zero_lt_one)

/-- When every unfinished thread waits, one of them can go on. -/
theorem exists_not_blocked (h : LockInv s) {t : Thread} (ht : t ∈ s.threads)
    (hne : t ≠ .finished) : ∃ u ∈ s.threads, u ≠ .finished ∧ ¬ Blocked s u := by
  have hidle : Thread.waitIdle ∈ s.threads → ∃ u ∈ s.threads, u ≠ .finished ∧ ¬ Blocked s u :=
    fun hmem => by
      by_cases hrun : s.requestsRunning = 0
      · exact ⟨_, hmem, by decide, not_not.2 hrun⟩
      · exact ⟨_, h.exists_inside hrun, by decide, id⟩
  cases t with
  | waitNoCleanup =>
      cases hflag : s.cleanupRequested with
      | false => exact ⟨_, ht, hne, by simp [Blocked, hflag]⟩
      | true => exact hidle (h.exists_waitIdle hflag)
  | waitIdle => exact hidle ht
  | arrived | inside | served | checking => exact ⟨_, ht, hne, id⟩
  | finished => exact absurd rfl hne

end LockInv

/-- A section in which `cleanup` runs begins with no request running. -/
theorem running_of_cleanup {s s' : LockState} {a : LockAction} (hs : lockStep s a = some s')
    (hclean : s'.numBufferCleanups ≠ s.numBufferCleanups) : s.requestsRunning = 0 := by
  cases a with
  | wakeCheck i => exact (Option.ite_none_right_eq_some.1 hs).1.2
  | lockCheck i popListEmpty =>
      obtain ⟨-, hs⟩ := Option.ite_none_right_eq_some.1 hs
      obtain rfl := Option.some.inj hs
      by_contra hrun
      refine hclean ?_
      rw [if_neg hrun]
      split <;> rfl
  | issueRequest | cleanupCheck =>
      exact absurd (Option.some.inj hs ▸ rfl) hclean
  | lockRequest i =>
      obtain ⟨-, hs⟩ := Option.ite_none_right_eq_some.1 hs
      refine absurd ?_ hclean
      rw [← Option.some.inj hs]
      split <;> rfl
  | wakeRequest i | leaveRequest i | afterRequest i sent =>
      obtain ⟨-, hs⟩ := Option.ite_none_right_eq_some.1 hs
      exact absurd (Option.some.inj hs ▸ rfl) hclean

/-- **Exclusion and progress.**  For any number of workers and callers of
`cleanup_check` and any interleaving: the counter counts the workers inside
`data_request`; at most one thread waits with the flag taken; `cleanup` only
runs with no worker inside; and the unfinished threads are never all blocked. -/
theorem cleanup_excludes_requests {l : List LockAction} {s : LockState}
    (hrun : exec lockStep .new l = some s) :
    s.requestsRunning = s.threads.count .inside ∧
      s.threads.count .waitIdle ≤ 1 ∧
      (∀ a s', lockStep s a = some s' → s'.numBufferCleanups ≠ s.numBufferCleanups →
        Thread.inside ∉ s.threads) ∧
      ((∃ t ∈ s.threads, t ≠ .finished) →
        ∃ t ∈ s.threads, t ≠ .finished ∧ ¬ Blocked s t) := by
  have h : LockInv s := exec_invariant (fun _ _ _ h hs => h.step hs) .new hrun
  refine ⟨h.running, ?_, fun a s' hs hclean => ?_, fun ⟨t, ht, hne⟩ => ?_⟩
  · rw [h.requested]
    exact Bool.toNat_le s.cleanupRequested
  · exact h.inside_not_mem (running_of_cleanup hs hclean)
  · exact h.exists_not_blocked ht hne

/-- A cleaner waits for one worker, which makes another one wait. -/
def contendedRun : List LockAction :=
  [.issueRequest, .issueRequest, .cleanupCheck, .lockRequest 0, .lockCheck 2 false,
    .lockRequest 1]

/-- The theorem there: the worker inside is not blocked. -/
theorem cleanup_excludes_requests_contended :
    ∃ s, exec lockStep .new contendedRun = some s ∧
      s.threads = [.inside, .waitNoCleanup, .waitIdle] ∧ s.threads.count .waitIdle ≤ 1 ∧
      ∃ t ∈ s.threads, t ≠ .finished ∧ ¬ Blocked s t := by
  have hrun : exec lockStep .new contendedRun = some _ := (Option.some_get (by decide)).symm
  obtain ⟨-, hone, -, hprogress⟩ := cleanup_excludes_requests hrun
  exact ⟨_, hrun, by decide, hone, hprogress ⟨.inside, by decide, by decide⟩⟩

end Readout
end SNBModules
