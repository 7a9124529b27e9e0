import SNBModules.Lib.Runs
import SNBModules.Transfer.Metadata

/-!
# How long a transfer took

Source: `transfer_metadata.hpp`, `set_status` and `get_total_duration_ms`.

`m_duration` collects the time from the last start each time the transfer pauses
or ends, and `get_total_duration_ms` adds the time from the last start again
while there is no end, and leaves `m_duration` out once there is one.  So it is
right while the transfer is in progress and wrong nearly everywhere else.

What it should be is what a stopwatch shows that runs while the file is
`UPLOADING` or `DOWNLOADING` (`Stopwatch`).  `getTotalDurationMs_eq_iff` says
exactly when the two agree.  A start time of 0 stands for a transfer that has not
started and an end time of 0 for one that has not ended, so a start or an end at
the clock reading 0 is a case of its own.  A record that was read from a text may
bring times of its own while it is `WAITING`; they are 0 in a record as it is made.
-/

namespace SNBModules
namespace Transfer

open Lib

/-- `UPLOADING` or `DOWNLOADING`. -/
def Status.Active (s : Status) : Prop := s = .downloading ∨ s = .uploading

instance : DecidablePred Status.Active := fun _ => inferInstanceAs (Decidable (_ ∨ _))

/-- `FINISHED` or `ERROR`. -/
def Status.Ended (s : Status) : Prop := s = .finished ∨ s = .error

instance : DecidablePred Status.Ended := fun _ => inferInstanceAs (Decidable (_ ∨ _))

theorem Status.Ended.not_active {s : Status} (h : s.Ended) : ¬ s.Active := by
  rcases h with rfl | rfl <;> decide

theorem Status.Active.ne_paused {s : Status} (h : s.Active) : s ≠ .paused := by
  rcases h with rfl | rfl <;> decide

namespace TransferMetadata

/-- `get_total_duration_ms`, with the clock at `now`. -/
def getTotalDurationMs (now : ℤ) (m : TransferMetadata) : ℤ :=
  if m.startTime = 0 then 0
  else if m.endTime = 0 then m.duration + (now - m.startTime)
  else m.endTime - m.startTime

/-- A start sets the start time. -/
theorem setStatus_of_active {status : Status} (h : status.Active) (now : ℤ)
    (m : TransferMetadata) :
    m.setStatus now status = { m with status, startTime := now }.flag .status := by
  rcases h with rfl | rfl <;> rfl

/-- An end sets the end time and adds the time from the last start too. -/
theorem setStatus_of_ended {status : Status} (h : status.Ended) (now : ℤ)
    (m : TransferMetadata) :
    m.setStatus now status =
      { m with
        status, endTime := now, duration := m.duration + (now - m.startTime) }.flag .status := by
  rcases h with rfl | rfl <;> rfl

end TransferMetadata

/-! ### The stopwatch -/

/-- What a stopwatch knows that was last touched at `clock`: whether it runs,
when it was last started, the time it had measured at that moment and has measured
until `clock`, and how often it was stopped since it was started. -/
structure Stopwatch where
  clock : ℤ
  running : Bool
  startedAt : ℤ
  before : ℤ
  spent : ℤ
  stops : ℕ
  deriving DecidableEq, Repr

namespace Stopwatch

/-- A stopwatch that has not been started. -/
def new (clock : ℤ) : Stopwatch := ⟨clock, false, 0, 0, 0, 0⟩

/-- What it shows later, when it has not been touched again. -/
def shows (w : Stopwatch) (now : ℤ) : ℤ :=
  if w.running then w.spent + (now - w.clock) else w.spent

/-- It is started. -/
def start (now : ℤ) (w : Stopwatch) : Stopwatch := ⟨now, true, now, w.shows now, w.shows now, 0⟩

/-- It is stopped, or stays so. -/
def stop (now : ℤ) (w : Stopwatch) : Stopwatch :=
  ⟨now, false, w.startedAt, w.before, w.shows now, w.stops + 1⟩

/-- The time since the last start during which it stood. -/
def stoodSince (w : Stopwatch) : ℤ := (w.clock - w.startedAt) - (w.spent - w.before)

end Stopwatch

/-! ### A record and its stopwatch -/

/-- A record beside the stopwatch of its transfer. -/
structure Timed where
  record : TransferMetadata
  watch : Stopwatch
  deriving DecidableEq

/-- The transitions that a session makes of a file, from `WAITING` to the end. -/
def Follows (s s' : Status) : Prop :=
  (s'.Active ∧ (s = .waiting ∨ s = .paused)) ∨ (s' = .paused ∧ s.Active) ∨
    (s'.Ended ∧ (s.Active ∨ s = .paused))

instance (s s' : Status) : Decidable (Follows s s') :=
  inferInstanceAs (Decidable (_ ∨ _ ∨ _))

/-- `set_status` with a reading of the clock that is not earlier than the last
one. -/
def timedStep (s : Timed) (call : Status × ℤ) : Option Timed :=
  if s.watch.clock ≤ call.2 ∧ Follows s.record.status call.1 then
    some ⟨s.record.setStatus call.2 call.1,
      if call.1.Active then s.watch.start call.2 else s.watch.stop call.2⟩
  else none

/-- When the duration is right, `m` being the record at the beginning.  Before the
start: when it brings no start time, or times that cancel out.  After a start at
another clock reading than 0: in progress when it brings no duration, and during a
pause only in the very millisecond of the last start; an end time that it brings is
read instead.  After the end: if what was measured before the last start is as long
as the pause that the end came in; an end at the clock reading 0 is read as none, and
then the duration that it brings has to cancel out the time since the last start, which
is added once more for an end that came in a pause. -/
def RightlyRead (m : TransferMetadata) (s : Timed) (now : ℤ) : Prop :=
  if s.record.status = .waiting then
    m.startTime = 0 ∨ (m.endTime = 0 ∧ m.duration + now = m.startTime) ∨
      (m.endTime ≠ 0 ∧ m.endTime = m.startTime)
  else if s.watch.startedAt = 0 then s.watch.shows now = 0
  else if s.record.status.Ended then
    if s.watch.clock = 0 then m.duration + now = s.watch.stops * s.watch.startedAt
    else s.watch.before = s.watch.stoodSince
  else if m.endTime = 0 then
    if s.record.status = .paused then m.duration + now = s.watch.startedAt else m.duration = 0
  else m.endTime = s.watch.startedAt + s.watch.shows now

/-- A transfer that has not started has the times it brought. -/
structure BeforeStart (m : TransferMetadata) (s : Timed) : Prop where
  status : s.record.status = .waiting
  spent : s.watch.spent = 0
  startTime : s.record.startTime = m.startTime
  endTime : s.record.endTime = m.endTime
  duration : s.record.duration = m.duration

/-- In progress the duration is what was measured before the last start. -/
structure InProgress (m : TransferMetadata) (s : Timed) : Prop where
  status : s.record.status.Active
  startTime : s.record.startTime = s.watch.startedAt
  startedAt : s.watch.startedAt = s.watch.clock
  endTime : s.record.endTime = m.endTime
  duration : s.record.duration = m.duration + s.watch.spent
  stops : s.watch.stops = 0

/-- During a pause the duration is all that was measured. -/
structure InPause (m : TransferMetadata) (s : Timed) : Prop where
  status : s.record.status = .paused
  startTime : s.record.startTime = s.watch.startedAt
  endTime : s.record.endTime = m.endTime
  duration : s.record.duration = m.duration + s.watch.spent
  stops : s.watch.stops = 1

/-- After the end it is the end time that counts.  To the duration an end in a pause
has added what the pause had added already. -/
structure AfterEnd (m : TransferMetadata) (s : Timed) : Prop where
  status : s.record.status.Ended
  startTime : s.record.startTime = s.watch.startedAt
  endTime : s.record.endTime = s.watch.clock
  duration : (s.watch.stops = 1 ∧ s.record.duration = m.duration + s.watch.spent) ∨
    (s.watch.stops = 2 ∧
      s.record.duration = m.duration + s.watch.spent + (s.watch.clock - s.watch.startedAt))

/-- What the three stored times are, given the stopwatch. -/
structure TimedInv (m : TransferMetadata) (s : Timed) : Prop where
  running : s.watch.running = decide s.record.status.Active
  phase : BeforeStart m s ∨ InProgress m s ∨ InPause m s ∨ AfterEnd m s

namespace TimedInv

variable {m : TransferMetadata} {s s' : Timed}

theorem new (h : m.status = .waiting) (clock : ℤ) : TimedInv m ⟨m, .new clock⟩ where
  running := by rw [h]; rfl
  phase := Or.inl ⟨h, rfl, rfl, rfl, rfl⟩

theorem shows_of_active (h : TimedInv m s) (ha : s.record.status.Active) (now : ℤ) :
    s.watch.shows now = s.watch.spent + (now - s.watch.clock) :=
  if_pos (h.running.trans (decide_eq_true ha))

theorem shows_of_not_active (h : TimedInv m s) (ha : ¬ s.record.status.Active) (now : ℤ) :
    s.watch.shows now = s.watch.spent :=
  if_neg (ne_true_of_eq_false (h.running.trans (decide_eq_false ha)))

/-- A start from `WAITING` or from a pause. -/
theorem step_start (h : TimedInv m s) {status : Status} (hact : status.Active) (now : ℤ)
    (hs : s.record.status = .waiting ∨ s.record.status = .paused) :
    TimedInv m ⟨s.record.setStatus now status, s.watch.start now⟩ := by
  have hnot : ¬ s.record.status.Active := by rcases hs with hs | hs <;> rw [hs] <;> decide
  have hshows := h.shows_of_not_active hnot now
  have hstored : s.record.endTime = m.endTime ∧
      s.record.duration = m.duration + s.watch.shows now := by
    rcases h.phase with hp | hp | hp | hp
    · have hspent := hp.spent
      have hdur := hp.duration
      exact ⟨hp.endTime, by omega⟩
    · exact absurd hp.status hnot
    · have hdur := hp.duration
      exact ⟨hp.endTime, by omega⟩
    · rcases hs with hs | hs <;> exact absurd (hs ▸ hp.status) (by decide)
  rw [TransferMetadata.setStatus_of_active hact]
  exact ⟨(decide_eq_true hact).symm,
    Or.inr (Or.inl ⟨hact, rfl, rfl, hstored.1, hstored.2, rfl⟩)⟩

/-- A pause. -/
theorem step_pause (h : TimedInv m s) {now : ℤ} (hact : s.record.status.Active) :
    TimedInv m ⟨s.record.setStatus now .paused, s.watch.stop now⟩ := by
  have hshows := h.shows_of_active hact now
  rcases h.phase with hp | hp | hp | hp
  · exact absurd (hp.status ▸ hact) (by decide)
  · have hstart := hp.startTime
    have hat := hp.startedAt
    have hdur := hp.duration
    have hsum : s.record.duration + (now - s.record.startTime) =
        m.duration + s.watch.shows now := by omega
    have hstops : s.watch.stops + 1 = 1 := by rw [hp.stops]
    exact ⟨rfl, Or.inr (Or.inr (Or.inl ⟨rfl, hstart, hp.endTime, hsum, hstops⟩))⟩
  · exact absurd (hp.status ▸ hact) (by decide)
  · exact absurd hact hp.status.not_active

/-- An end, in progress or during a pause. -/
theorem step_end (h : TimedInv m s) {status : Status} (hend : status.Ended) {now : ℤ}
    (hs : s.record.status.Active ∨ s.record.status = .paused) :
    TimedInv m ⟨s.record.setStatus now status, s.watch.stop now⟩ := by
  have hstored : s.record.startTime = s.watch.startedAt ∧
      ((s.watch.stops + 1 = 1 ∧
        s.record.duration + (now - s.record.startTime) = m.duration + s.watch.shows now) ∨
      (s.watch.stops + 1 = 2 ∧ s.record.duration + (now - s.record.startTime) =
        m.duration + s.watch.shows now + (now - s.watch.startedAt))) := by
    rcases h.phase with hp | hp | hp | hp
    · rcases hs with hs | hs <;> exact absurd (hp.status ▸ hs) (by decide)
    · have hshows := h.shows_of_active hp.status now
      have hstart := hp.startTime
      have hat := hp.startedAt
      have hdur := hp.duration
      exact ⟨hstart, Or.inl ⟨by rw [hp.stops], by omega⟩⟩
    · have hshows := h.shows_of_not_active (hp.status ▸ by decide) now
      have hstart := hp.startTime
      have hdur := hp.duration
      exact ⟨hstart, Or.inr ⟨by rw [hp.stops], by omega⟩⟩
    · rcases hs with hs | hs
      · exact absurd hs hp.status.not_active
      · exact absurd (hs ▸ hp.status) (by decide)
  rw [TransferMetadata.setStatus_of_ended hend]
  exact ⟨(decide_eq_false hend.not_active).symm,
    Or.inr (Or.inr (Or.inr ⟨hend, hstored.1, rfl, hstored.2⟩))⟩

/-- Every transition keeps the invariant. -/
theorem step {call : Status × ℤ} (h : TimedInv m s) (hs : timedStep s call = some s') :
    TimedInv m s' := by
  obtain ⟨status, now⟩ := call
  obtain ⟨⟨-, hfollows⟩, hs⟩ := Option.ite_none_right_eq_some.1 hs
  obtain rfl := Option.some.inj hs
  rcases hfollows with ⟨hact, hfrom⟩ | ⟨hpause, hact⟩ | ⟨hend, hfrom⟩
  · rw [if_pos hact]
    exact h.step_start hact now hfrom
  · rw [if_neg fun ha => ha.ne_paused hpause]
    obtain rfl : status = .paused := hpause
    exact h.step_pause hact
  · rw [if_neg hend.not_active]
    exact h.step_end hend hfrom

/-- In each phase the duration is right under its own condition. -/
theorem rightlyRead_iff (h : TimedInv m s) (now : ℤ) :
    s.record.getTotalDurationMs now = s.watch.shows now ↔ RightlyRead m s now := by
  unfold RightlyRead TransferMetadata.getTotalDurationMs
  rcases h.phase with hp | hp | hp | hp
  · have hshows := h.shows_of_not_active (hp.status ▸ by decide) now
    rw [if_pos hp.status, hp.startTime, hp.endTime, hp.duration, hshows, hp.spent]
    split_ifs with hstart hend
    · exact iff_of_true rfl (Or.inl hstart)
    · omega
    · omega
  · have hshows := h.shows_of_active hp.status now
    have hwaiting : s.record.status ≠ .waiting := by
      intro hw
      exact absurd (hw ▸ hp.status) (by decide)
    have hended : ¬ s.record.status.Ended := fun hended => hended.not_active hp.status
    have hpaused := hp.status.ne_paused
    have hdur := hp.duration
    have hat := hp.startedAt
    rw [if_neg hwaiting, if_neg hended, if_neg hpaused, hp.startTime, hp.endTime]
    split_ifs <;> omega
  · have hshows := h.shows_of_not_active (hp.status ▸ by decide) now
    have hwaiting : s.record.status ≠ .waiting := by rw [hp.status]; decide
    have hended : ¬ s.record.status.Ended := by rw [hp.status]; decide
    have hdur := hp.duration
    rw [if_neg hwaiting, if_neg hended, if_pos hp.status, hp.startTime, hp.endTime]
    split_ifs <;> omega
  · have hshows := h.shows_of_not_active hp.status.not_active now
    have hwaiting : s.record.status ≠ .waiting := by
      intro hw
      exact absurd (hw ▸ hp.status) (by decide)
    rw [if_neg hwaiting, if_pos hp.status, hp.startTime, hp.endTime, Stopwatch.stoodSince]
    rcases hp.duration with ⟨hstops, hdur⟩ | ⟨hstops, hdur⟩
    · rw [hstops]
      split_ifs <;> omega
    · rw [hstops]
      split_ifs <;> omega

end TimedInv

/-- **The duration of a transfer.**  For every record that starts `WAITING`, every
sequence of `set_status` calls along the transitions of a session at clock times
that do not decrease, and every reading: `get_total_duration_ms` is the time spent in
`UPLOADING` and `DOWNLOADING` exactly when it is rightly read. -/
theorem getTotalDurationMs_eq_iff {m : TransferMetadata} (h : m.status = .waiting) (clock : ℤ)
    {calls : List (Status × ℤ)} {s : Timed}
    (hrun : exec timedStep ⟨m, .new clock⟩ calls = some s) (now : ℤ) :
    s.record.getTotalDurationMs now = s.watch.shows now ↔ RightlyRead m s now :=
  (exec_invariant (fun _ _ _ h hs => h.step hs) (TimedInv.new h clock) hrun).rightlyRead_iff now

/-- In progress for the second time, with a second on either side of the pause. -/
theorem getTotalDurationMs_eq_iff_resumed :
    (exec timedStep ⟨.blank, .new 0⟩
        [(.downloading, 1000), (.paused, 2000), (.downloading, 5000)]).map
      (fun s => (s.record.getTotalDurationMs 6000, s.watch.shows 6000)) = some (2000, 2000) := by
  obtain ⟨s, hrun, hw, hstatus⟩ : ∃ s, exec timedStep ⟨.blank, .new 0⟩
      [(.downloading, 1000), (.paused, 2000), (.downloading, 5000)] = some s ∧
        s.watch = ⟨5000, true, 5000, 1000, 1000, 0⟩ ∧ s.record.status = .downloading :=
    ⟨_, (Option.some_get (by decide)).symm, by decide, by decide⟩
  have hend : TransferMetadata.blank.endTime = 0 := rfl
  have hread : RightlyRead .blank s 6000 := by
    rw [RightlyRead, hw, hstatus, if_neg (by decide), if_neg (by decide), if_neg (by decide),
      if_pos hend, if_neg (by decide)]
    rfl
  have heq := (getTotalDurationMs_eq_iff (m := .blank) rfl 0 hrun 6000).2 hread
  rw [hrun, Option.map_some, heq, hw]
  decide

/-- Three seconds into a pause after one second of transfer the duration reads
five seconds; resumed and finished a second later, it reads one second. -/
theorem duration_wrong :
    TransferMetadata.blank.status = .waiting ∧
      (exec timedStep ⟨.blank, .new 0⟩ [(.downloading, 1000), (.paused, 2000)]).map
          (fun s => (s.watch.clock, s.record.getTotalDurationMs 5000, s.watch.shows 5000)) =
        some (2000, 5000, 1000) ∧
      (exec timedStep ⟨.blank, .new 0⟩
          [(.downloading, 1000), (.paused, 2000), (.downloading, 5000), (.finished, 6000)]).map
          (fun s => (s.watch.clock, s.record.getTotalDurationMs 6000, s.watch.shows 6000)) =
        some (6000, 1000, 2000) :=
  ⟨rfl, by decide, by decide⟩

end Transfer
end SNBModules
