import Mathlib.Data.List.Destutter
import Mathlib.Data.List.Count
import SNBModules.Readout.Types

/-!
# Time synchronisation messages

Source: `SNBDataHandlingModel.hxx`, `run_timesync`.

Every 100 ms the thread asks the raw data processor for the time of the last frame, and
sends it if there is one and it is not the time that was sent last.  What is sent is the
stream of times without zeros and repetitions, numbered from 1 (`timesyncs_sent`); a message
whose sending fails keeps its number, so the numbers that arrive show what is missing.

Of the counters that the thread prints at its end two overlap: a zero that comes before the
first time is sent counts as a zero and as a repetition.
-/

namespace SNBModules
namespace Readout

/-! ### The code -/

/-- `dfmessages::TimeSync`, as far as the thread sets it. -/
structure TimeSync where
  daqTime : ℕ
  runNumber : ℕ
  sequenceNumber : ℕ
  sourceId : ℕ
  deriving DecidableEq, Repr

/-- The thread: its variables, and the members of the data handler that it uses.  `sent` has
the messages given to the sender, each with whether it went through, and `issued` the
requests of fake triggers. -/
structure TimesyncThread where
  runNumber : ℕ
  sourceid : SourceID
  fakeTrigger : Bool
  currentFakeTriggerId : ℕ
  numRequests : ℕ
  sumRequests : ℕ
  msgSeqno : ℕ
  prevTimestamp : ℕ
  oncePerRun : Bool
  zeroTimestampCount : ℕ
  duplicateTimestampCount : ℕ
  totalTimestampCount : ℕ
  sent : List (TimeSync × Bool)
  issued : List DataRequest
  deriving DecidableEq, Repr

/-- One answer of `get_last_daq_time`, and whether the sender takes a message. -/
structure Poll where
  daqTime : ℕ
  sends : Bool
  deriving DecidableEq, Repr

namespace TimesyncThread

/-- The thread before its first turn. -/
def begin (runNumber : ℕ) (sourceid : SourceID) (fakeTrigger : Bool) (currentFakeTriggerId : ℕ) :
    TimesyncThread where
  runNumber := runNumber
  sourceid := sourceid
  fakeTrigger := fakeTrigger
  currentFakeTriggerId := currentFakeTriggerId
  numRequests := 0
  sumRequests := 0
  msgSeqno := 0
  prevTimestamp := 0
  oncePerRun := true
  zeroTimestampCount := 0
  duplicateTimestampCount := 0
  totalTimestampCount := 0
  sent := []
  issued := []

/-- `us`, in ticks. -/
def us : ℕ := 1000

/-- The request of a fake trigger; `blank` is one that has just been constructed. -/
def fakeRequest (blank : DataRequest) (triggerNumber daqTime : ℕ) (sourceid : SourceID) :
    DataRequest :=
  let triggerTimestamp := if daqTime > 500 * us then daqTime - 500 * us else 0
  let width := 300000
  let offset := 100
  let windowBegin := if triggerTimestamp > offset then triggerTimestamp - offset else 0
  { blank with
    triggerNumber := triggerNumber
    triggerTimestamp := triggerTimestamp
    requestInformation := ⟨sourceid, windowBegin, windowBegin + width⟩
    dataDestination := "data_fragments_q" }

/-- The request that goes with a message, if there are fake triggers. -/
def issueFake (blank : DataRequest) (daqTime : ℕ) (t : TimesyncThread) : TimesyncThread :=
  if t.fakeTrigger then
    { t with
      currentFakeTriggerId := t.currentFakeTriggerId + 1
      issued := t.issued ++ [fakeRequest blank (t.currentFakeTriggerId + 1) daqTime t.sourceid]
      numRequests := t.numRequests + 1
      sumRequests := t.sumRequests + 1 }
  else t

/-- One turn of the loop. -/
def poll (blank : DataRequest) (t : TimesyncThread) (p : Poll) : TimesyncThread :=
  let t := { t with totalTimestampCount := t.totalTimestampCount + 1 }
  if p.daqTime ≠ 0 ∧ p.daqTime ≠ t.prevTimestamp then
    issueFake blank p.daqTime
      { t with
        prevTimestamp := p.daqTime
        msgSeqno := t.msgSeqno + 1
        sent := t.sent ++ [(⟨p.daqTime, t.runNumber, t.msgSeqno + 1, t.sourceid.id⟩, p.sends)] }
  else
    { t with
      zeroTimestampCount := t.zeroTimestampCount + if p.daqTime = 0 then 1 else 0
      duplicateTimestampCount :=
        t.duplicateTimestampCount + if p.daqTime = t.prevTimestamp then 1 else 0
      oncePerRun := false }

/-- The loop, for the answers of a run. -/
def run (blank : DataRequest) (t : TimesyncThread) (polls : List Poll) : TimesyncThread :=
  polls.foldl (poll blank) t

/-! ### One turn -/

/-- The times that are sent after `prev`. -/
def sentFrom : ℕ → List ℕ → List ℕ
  | _, [] => []
  | prev, time :: rest =>
      if time ≠ 0 ∧ time ≠ prev then time :: sentFrom time rest else sentFrom prev rest

theorem cons_sentFrom (prev : ℕ) (times : List ℕ) :
    prev :: sentFrom prev times = (times.filter (· ≠ 0)).destutter' (· ≠ ·) prev := by
  induction times generalizing prev with
  | nil => rfl
  | cons time rest ih =>
      by_cases hzero : time = 0
      · rw [sentFrom, if_neg (fun h => h.1 hzero), List.filter_cons_of_neg (by simpa using hzero)]
        exact ih prev
      · rw [List.filter_cons_of_pos (by simpa using hzero)]
        by_cases hprev : time = prev
        · subst hprev
          rw [sentFrom, if_neg (fun h => h.2 rfl), List.destutter'_cons_neg _ (by simp)]
          exact ih time
        · rw [sentFrom, if_pos ⟨hzero, hprev⟩, List.destutter'_cons_pos _ (Ne.symm hprev), ih time]

/-- From the start of a run nothing but zeros and repetitions is left out. -/
theorem sentFrom_zero (times : List ℕ) :
    sentFrom 0 times = (times.filter (· ≠ 0)).destutter (· ≠ ·) := by
  have hcons := cons_sentFrom 0 times
  cases hfilter : times.filter (· ≠ 0) with
  | nil =>
      rw [hfilter] at hcons
      exact (List.cons.inj hcons).2
  | cons time rest =>
      have htime : time ≠ 0 := by
        have hmem : time ∈ times.filter (· ≠ 0) := hfilter ▸ List.mem_cons_self
        simpa using (List.mem_filter.1 hmem).2
      rw [hfilter, List.destutter'_cons_pos _ htime.symm] at hcons
      exact (List.cons.inj hcons).2

/-- What a stretch of the loop has done, from `t` to `u`. -/
structure Polled (polls : List Poll) (t u : TimesyncThread) : Prop where
  runNumber_eq : u.runNumber = t.runNumber
  sourceid_eq : u.sourceid = t.sourceid
  fakeTrigger_eq : u.fakeTrigger = t.fakeTrigger
  messages : ∃ new, u.sent = t.sent ++ new ∧
    new.map (fun m => m.1.daqTime) = sentFrom t.prevTimestamp (polls.map Poll.daqTime) ∧
    new.map (fun m => m.1.sequenceNumber) = List.range' (t.msgSeqno + 1) new.length ∧
    (∀ m ∈ new, m.1.runNumber = t.runNumber ∧ m.1.sourceId = t.sourceid.id) ∧
    u.msgSeqno = t.msgSeqno + new.length ∧
    u.zeroTimestampCount + u.duplicateTimestampCount + new.length =
      t.zeroTimestampCount + t.duplicateTimestampCount + polls.length +
        if t.prevTimestamp = 0 then
          ((polls.map Poll.daqTime).takeWhile (· = 0)).length else 0
  total_eq : u.totalTimestampCount = t.totalTimestampCount + polls.length
  zero_eq : u.zeroTimestampCount = t.zeroTimestampCount + (polls.map Poll.daqTime).count 0
  issued_eq : t.fakeTrigger = false → u.issued = t.issued

/-- What a turn does: a message, or a count. -/
theorem poll_cases (blank : DataRequest) (t : TimesyncThread) (p : Poll) :
    (p.daqTime ≠ 0 ∧ p.daqTime ≠ t.prevTimestamp ∧ (t.poll blank p).prevTimestamp = p.daqTime ∧
        (t.poll blank p).msgSeqno = t.msgSeqno + 1 ∧
        (t.poll blank p).sent = t.sent ++
          [(⟨p.daqTime, t.runNumber, t.msgSeqno + 1, t.sourceid.id⟩, p.sends)] ∧
        (t.poll blank p).zeroTimestampCount = t.zeroTimestampCount ∧
        (t.poll blank p).duplicateTimestampCount = t.duplicateTimestampCount) ∨
      ((p.daqTime = 0 ∨ p.daqTime = t.prevTimestamp) ∧
        (t.poll blank p).prevTimestamp = t.prevTimestamp ∧
        (t.poll blank p).msgSeqno = t.msgSeqno ∧ (t.poll blank p).sent = t.sent ∧
        (t.poll blank p).zeroTimestampCount =
          t.zeroTimestampCount + (if p.daqTime = 0 then 1 else 0) ∧
        (t.poll blank p).duplicateTimestampCount =
          t.duplicateTimestampCount + (if p.daqTime = t.prevTimestamp then 1 else 0)) := by
  by_cases h : p.daqTime ≠ 0 ∧ p.daqTime ≠ t.prevTimestamp
  · refine Or.inl ⟨h.1, h.2, ?_⟩
    simp only [poll, if_pos h, issueFake]
    split_ifs <;> exact ⟨rfl, rfl, rfl, rfl, rfl⟩
  · refine Or.inr ⟨by by_contra hn; exact h (not_or.1 hn), ?_⟩
    simp only [poll, if_neg h]
    exact ⟨trivial, trivial, trivial, trivial, trivial⟩

/-- What every turn leaves, and the number of turns. -/
theorem poll_frame (blank : DataRequest) (t : TimesyncThread) (p : Poll) :
    (t.poll blank p).runNumber = t.runNumber ∧ (t.poll blank p).sourceid = t.sourceid ∧
      (t.poll blank p).fakeTrigger = t.fakeTrigger ∧
      (t.poll blank p).totalTimestampCount = t.totalTimestampCount + 1 ∧
      (t.fakeTrigger = false → (t.poll blank p).issued = t.issued) := by
  by_cases hsend : p.daqTime ≠ 0 ∧ p.daqTime ≠ t.prevTimestamp
  · simp only [poll, if_pos hsend, issueFake]
    split_ifs with hfake
    · exact ⟨rfl, rfl, rfl, rfl, fun h => by rw [h] at hfake; cases hfake⟩
    · exact ⟨rfl, rfl, rfl, rfl, fun _ => rfl⟩
  · simp only [poll, if_neg hsend]
    exact ⟨trivial, trivial, trivial, trivial, fun _ => trivial⟩

/-- **The loop,** by induction on the answers. -/
theorem polled_run (blank : DataRequest) (t : TimesyncThread) (polls : List Poll) :
    Polled polls t (t.run blank polls) := by
  induction polls generalizing t with
  | nil =>
      refine ⟨rfl, rfl, rfl, ⟨[], (List.append_nil _).symm, rfl, rfl, ?_, rfl, ?_⟩, rfl, rfl,
        fun _ => rfl⟩
      · intro m hm
        cases hm
      · split_ifs <;> rfl
  | cons p polls ih =>
      obtain ⟨hrun, hsource, hfake, ⟨new, hsent, htimes, hnumbers, hfrom, hseqno, hcounts⟩, htotal,
        hzero, hissued⟩ := ih (t.poll blank p)
      obtain ⟨hrun₁, hsource₁, hfake₁, htotal₁, hissued₁⟩ := t.poll_frame blank p
      have hend : t.run blank (p :: polls) = (t.poll blank p).run blank polls := rfl
      refine ⟨hrun.trans hrun₁, hsource.trans hsource₁, hfake.trans hfake₁, ?_, ?_, ?_,
        fun h => (hissued (hfake₁.trans h)).trans (hissued₁ h)⟩
      · rw [hrun₁, hsource₁] at hfrom
        rw [hend]
        rcases t.poll_cases blank p with ⟨hne, hnew, hprev, hseqno₁, hsent₁, hzero₁, hdup₁⟩ |
          ⟨hold, hprev, hseqno₁, hsent₁, hzero₁, hdup₁⟩
        · refine ⟨(⟨p.daqTime, t.runNumber, t.msgSeqno + 1, t.sourceid.id⟩, p.sends) :: new, ?_, ?_,
            ?_, List.forall_mem_cons.2 ⟨⟨rfl, rfl⟩, hfrom⟩, ?_, ?_⟩
          · rw [hsent, hsent₁, List.append_assoc, List.singleton_append]
          · rw [List.map_cons, List.map_cons, sentFrom, if_pos ⟨hne, hnew⟩, htimes, hprev]
          · rw [List.map_cons, hnumbers, hseqno₁, List.length_cons, List.range'_succ]
          · rw [hseqno, hseqno₁, List.length_cons]
            omega
          · rw [hprev, if_neg hne, hzero₁, hdup₁] at hcounts
            rw [List.length_cons, List.length_cons, List.map_cons,
              List.takeWhile_cons_of_neg (by simpa using hne), List.length_nil, ite_self]
            omega
        · refine ⟨new, by rw [hsent, hsent₁], ?_, by rw [hnumbers, hseqno₁], hfrom,
            by rw [hseqno, hseqno₁], ?_⟩
          · have hnot : ¬(p.daqTime ≠ 0 ∧ p.daqTime ≠ t.prevTimestamp) := fun h =>
              hold.elim h.1 h.2
            rw [List.map_cons, sentFrom, if_neg hnot, htimes, hprev]
          · rw [hprev, hzero₁, hdup₁] at hcounts
            rw [List.length_cons, List.map_cons]
            by_cases hp : p.daqTime = 0
            · rw [List.takeWhile_cons_of_pos (by simpa using hp), List.length_cons]
              rw [if_pos hp, hp] at hcounts
              split_ifs at hcounts ⊢ <;> omega
            · rw [List.takeWhile_cons_of_neg (by simpa using hp), List.length_nil, ite_self]
              have hsame := hold.resolve_left hp
              rw [if_neg hp, if_pos hsame, if_neg (hsame ▸ hp)] at hcounts
              omega
      · rw [hend, htotal, htotal₁, List.length_cons]
        omega
      · rw [hend, hzero, List.map_cons, List.count_cons]
        rcases t.poll_cases blank p with ⟨hne, -, -, -, -, hzero₁, -⟩ | ⟨-, -, -, -, hzero₁, -⟩
        · rw [hzero₁, if_neg (by simpa using hne)]
          rfl
        · rw [hzero₁]
          simp only [beq_iff_eq]
          omega

/-- **What a run sends:** the times without the zeros and the repetitions, numbered from 1.
Where the time does not go back, every message is later than the one before it.  Without fake
triggers nothing is requested.  Each turn is a message, a zero or a repetition, or both if it is
a zero before the first message. -/
theorem timesyncs_sent (blank : DataRequest) (runNumber : ℕ) (sourceid : SourceID)
    (fakeTrigger : Bool) (currentFakeTriggerId : ℕ) (polls : List Poll) :
    let u := (begin runNumber sourceid fakeTrigger currentFakeTriggerId).run blank polls
    let times := polls.map Poll.daqTime
    u.sent.map (fun m => m.1.daqTime) = (times.filter (· ≠ 0)).destutter (· ≠ ·) ∧
      (times.Pairwise (· ≤ ·) → (u.sent.map (fun m => m.1.daqTime)).Pairwise (· < ·)) ∧
      u.sent.map (fun m => m.1.sequenceNumber) = List.range' 1 u.sent.length ∧
      (∀ m ∈ u.sent, m.1.runNumber = runNumber ∧ m.1.sourceId = sourceid.id) ∧
      (fakeTrigger = false → u.issued = []) ∧
      u.totalTimestampCount = polls.length ∧ u.zeroTimestampCount = times.count 0 ∧
      u.zeroTimestampCount + u.duplicateTimestampCount + u.sent.length =
        u.totalTimestampCount + (times.takeWhile (· = 0)).length := by
  intro u times
  obtain ⟨-, -, -, ⟨new, hsent, htimes, hnumbers, hfrom, -, hcounts⟩, htotal, hzero, hissued⟩ :=
    polled_run blank (begin runNumber sourceid fakeTrigger currentFakeTriggerId) polls
  have hnew : u.sent = new := hsent.trans (List.nil_append new)
  have hdaq : u.sent.map (fun m => m.1.daqTime) = (times.filter (· ≠ 0)).destutter (· ≠ ·) := by
    rw [hnew, htimes]
    exact sentFrom_zero times
  refine ⟨hdaq, fun hle => ?_, ?_, hnew ▸ hfrom, hissued, ?_, ?_, ?_⟩
  · rw [hdaq]
    have hsorted : ((times.filter (· ≠ 0)).destutter (· ≠ ·)).Pairwise (· ≤ ·) :=
      (hle.sublist List.filter_sublist).sublist (List.destutter_sublist _ _)
    refine List.isChain_iff_pairwise.1 (List.isChain_iff_getElem.2 fun i hi => ?_)
    have hne := List.isChain_iff_getElem.1 (List.isChain_destutter (· ≠ ·) _) i hi
    exact lt_of_le_of_ne (List.isChain_iff_getElem.1 hsorted.isChain i hi) hne
  · rw [hnew, hnumbers]
    rfl
  · exact htotal.trans (Nat.zero_add _)
  · exact hzero.trans (Nat.zero_add _)
  · rw [hnew]
    have htotal' : u.totalTimestampCount = polls.length := htotal.trans (Nat.zero_add _)
    have hcounts' : u.zeroTimestampCount + u.duplicateTimestampCount + new.length =
        0 + 0 + polls.length + (times.takeWhile (· = 0)).length := hcounts
    omega

theorem timesyncs_sent_rising :
    (((begin 7 ⟨2, 0⟩ false 0).run (requestFor 0 0)
      [⟨0, true⟩, ⟨5, true⟩, ⟨5, true⟩, ⟨7, false⟩]).sent.map (fun m => m.1.daqTime)).Pairwise
        (· < ·) :=
  (timesyncs_sent (requestFor 0 0) 7 ⟨2, 0⟩ false 0
    [⟨0, true⟩, ⟨5, true⟩, ⟨5, true⟩, ⟨7, false⟩]).2.1 (by decide)

end TimesyncThread

end Readout
end SNBModules
