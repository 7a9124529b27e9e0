import Mathlib.Algebra.Ring.Int.Defs
import Mathlib.Algebra.Ring.Nat
import Mathlib.Data.Int.Notation
import Mathlib.Data.List.Nodup
import SNBModules.Lib.LowerBound
import SNBModules.Lib.Runs
import SNBModules.Readout.Types

/-!
# Delayed post-processing

Source: `SNBDataHandlingModel.hxx`, `postprocess_schedule` and `process_item`,
with the removal of `SNBRequestHandlerModel::cleanup`.

The scheduler processes the frames between two boundaries, and keeps one of them:
`processedTs`, the end of the last range and the start of the next.  The buffer
keeps its frames sorted while they arrive out of order, and loses its oldest ones,
never the newest.  So the newest timestamp never falls behind the boundary, the
unsigned differences do not wrap, and the ranges of all cycles stand side by side.

`written` are all the frames that were inserted, in the order in which they came;
the place of a frame in it says which object a frame is.
-/

namespace SNBModules
namespace Readout

open Lib

/-- The difference of two `uint64_t`. -/
def sub64 (a b : ℕ) : ℕ := (a + (2 ^ 64 - b % 2 ^ 64)) % 2 ^ 64

theorem sub64_of_le {a b : ℕ} (hab : b ≤ a) (ha : a < 2 ^ 64) : sub64 a b = a - b := by
  rw [sub64, Nat.mod_eq_of_lt (Nat.lt_of_le_of_lt hab ha)]
  omega

/-- The settings of the scheduler. -/
structure DelaySettings where
  processingDelayTicks : ℕ
  minWait : ℕ

/-- A frame in the buffer, and which of the frames written it is. -/
structure Element where
  serial : ℕ
  frame : Frame
  deriving DecidableEq, Repr

/-- Its timestamp. -/
def Element.timestamp (e : Element) : ℕ := e.frame.timestamp

/-- The latency buffer, and the variables of `postprocess_schedule` that live from
one cycle to the next; `processedTs` is the timestamp of `processed_element`.
`postprocessed` are the frames that `postprocess_item` was called with. -/
structure Scheduler where
  buffer : List Element
  written : List Frame
  firstCycle : Bool
  processedTs : ℕ
  lastPostProcTime : ℤ
  postprocessed : List Element
  deriving DecidableEq

namespace Scheduler

/-- Before the first cycle of a run; the clock is read in nanoseconds. -/
def new (now : ℤ) : Scheduler := ⟨[], [], true, 0, now, []⟩

/-- The insertion of `process_item`: the buffer puts the frame at a place that keeps
it sorted. -/
def insertItem (cfg : DelaySettings) (payload : Frame) (place : ℕ) (s : Scheduler) :
    Option Scheduler :=
  let written : Element := ⟨s.written.length, payload⟩
  let buffer := s.buffer.insertIdx place written
  if payload.timestamp < 2 ^ 64 ∧ place ≤ s.buffer.length ∧ SortedBy Element.timestamp buffer then
    some { s with
      buffer
      written := s.written ++ [payload]
      postprocessed :=
        if cfg.processingDelayTicks = 0 then s.postprocessed ++ [written] else s.postprocessed }
  else none

/-- One `pop` of `cleanup`, whose loop keeps a frame. -/
def popFront (s : Scheduler) : Option Scheduler :=
  if s.buffer.length > 1 then some { s with buffer := s.buffer.tail } else none

/-- The wait check: the milliseconds since the last cycle, as an unsigned number, are
not more than the least wait. -/
def waits (cfg : DelaySettings) (now : ℤ) (s : Scheduler) : Bool :=
  decide (((now - s.lastPostProcTime).tdiv 1000000 % 2 ^ 64).toNat ≤ cfg.minWait)

/-- The boundary that a cycle starts from, when the oldest frame is `head`. -/
def boundary (head : Element) (s : Scheduler) : ℕ :=
  if s.firstCycle then head.timestamp else s.processedTs

/-- One cycle of `postprocess_schedule`, from the end of its wait on. -/
def postprocessCycle (cfg : DelaySettings) (now : ℤ) (s : Scheduler) : Scheduler :=
  match s.buffer.head?, s.buffer.getLast? with
  | some head, some tail =>
      if s.waits cfg now then s
      else
        let processedTs := s.boundary head
        let s := { s with lastPostProcTime := now, processedTs, firstCycle := false }
        if sub64 tail.timestamp processedTs > cfg.processingDelayTicks then
          let endWinTs := sub64 tail.timestamp cfg.processingDelayTicks
          -- the loop runs from the one lower bound to the other
          let range := window Element.timestamp s.buffer processedTs endWinTs
          { s with processedTs := endWinTs, postprocessed := s.postprocessed ++ range }
        else s
  | _, _ => s

/-- What happens in a run. -/
inductive Action where
  | insert (payload : Frame) (place : ℕ)
  | popFront
  | cycle (now : ℤ)
  deriving DecidableEq

/-- One action. -/
def step (cfg : DelaySettings) (s : Scheduler) : Action → Option Scheduler
  | .insert payload place => s.insertItem cfg payload place
  | .popFront => s.popFront
  | .cycle now => some (s.postprocessCycle cfg now)

/-- A cycle that passes the wait checks with a newest timestamp more than the delay
after `t`. -/
def Reaches (cfg : DelaySettings) (t : ℕ) (s : Scheduler) (a : Action) : Prop :=
  ∃ now tail, a = .cycle now ∧ s.buffer.getLast? = some tail ∧ s.waits cfg now = false ∧
    t + cfg.processingDelayTicks < tail.timestamp

/-! ## Invariant -/

/-- What holds in every run. -/
structure Inv (s : Scheduler) : Prop where
  sorted : SortedBy Element.timestamp s.buffer
  small : ∀ e ∈ s.buffer, e.timestamp < 2 ^ 64
  stored : ∀ e ∈ s.buffer, s.written[e.serial]? = some e.frame
  nodup : (s.buffer.map Element.serial).Nodup
  boundary : s.firstCycle = false → ∃ tail, s.buffer.getLast? = some tail ∧
    s.processedTs ≤ tail.timestamp
  done : ∀ e ∈ s.postprocessed, s.written[e.serial]? = some e.frame ∧ s.firstCycle = false ∧
    e.timestamp < s.processedTs
  once : (s.postprocessed.map Element.serial).Nodup
  inOrder : SortedBy Element.timestamp s.postprocessed

/-- Which of the frames written it is says which frame it is. -/
theorem Element.eq_of_serial {written : List Frame} {e e' : Element}
    (he : written[e.serial]? = some e.frame) (he' : written[e'.serial]? = some e'.frame)
    (h : e.serial = e'.serial) : e = e' := by
  cases e
  cases e'
  simp_all

/-- In a sorted buffer, no frame is newer than the last one. -/
theorem le_getLast {l : List Element} (h : SortedBy Element.timestamp l) {e tail : Element}
    (he : e ∈ l) (htail : l.getLast? = some tail) : e.timestamp ≤ tail.timestamp := by
  obtain ⟨init, rfl⟩ := List.getLast?_eq_some_iff.1 htail
  rcases List.mem_append.1 he with he | he
  · exact (List.pairwise_append.1 h).2.2 e he tail (List.mem_singleton_self _)
  · rw [List.mem_singleton.1 he]

/-- Nor is one older than the first one. -/
theorem head_le {l : List Element} (h : SortedBy Element.timestamp l) {e head : Element}
    (he : e ∈ l) (hhead : l.head? = some head) : head.timestamp ≤ e.timestamp := by
  obtain ⟨rest, rfl⟩ := List.head?_eq_some_iff.1 hhead
  rcases List.mem_cons.1 he with rfl | he
  · exact Nat.le_refl _
  · exact (List.pairwise_cons.1 h).1 e he

variable {cfg : DelaySettings} {s t : Scheduler}

/-- The boundary of the next cycle is not behind the newest frame. -/
theorem Inv.boundary_le (h : s.Inv) {head tail : Element} (hhead : s.buffer.head? = some head)
    (htail : s.buffer.getLast? = some tail) : s.boundary head ≤ tail.timestamp := by
  rw [Scheduler.boundary]
  split_ifs with hfirst
  · exact le_getLast h.sorted (List.mem_of_head? hhead) htail
  · obtain ⟨tail', htail', hle⟩ := h.boundary (by simpa using hfirst)
    obtain rfl : tail = tail' := Option.some.inj (htail.symm.trans htail')
    exact hle

theorem Inv.sub64_boundary (h : s.Inv) {head tail : Element} (hhead : s.buffer.head? = some head)
    (htail : s.buffer.getLast? = some tail) :
    sub64 tail.timestamp (s.boundary head) = tail.timestamp - s.boundary head :=
  sub64_of_le (h.boundary_le hhead htail) (h.small tail (List.mem_of_getLast? htail))

/-- **An insertion keeps the invariant,** wherever the buffer puts the frame. -/
theorem Inv.insertItem (h : s.Inv) (hdelay : 0 < cfg.processingDelayTicks) {payload : Frame}
    {place : ℕ} (ht : s.insertItem cfg payload place = some t) : t.Inv := by
  rw [Scheduler.insertItem] at ht
  split_ifs at ht with hguard hzero
  · omega
  obtain ⟨hsmall, hplace, hsorted⟩ := hguard
  obtain rfl := Option.some.inj ht
  have hold : ∀ {e : Element}, s.written[e.serial]? = some e.frame →
      (s.written ++ [payload])[e.serial]? = some e.frame := by
    intro e he
    rw [List.getElem?_append_left (List.getElem?_eq_some_iff.1 he).1, he]
  constructor
  · exact hsorted
  · intro e he
    rcases (List.mem_insertIdx hplace).1 he with rfl | he
    · exact hsmall
    · exact h.small e he
  · intro e he
    rcases (List.mem_insertIdx hplace).1 he with rfl | he
    · exact List.getElem?_concat_length
    · exact hold (h.stored e he)
  · have hperm := (List.perm_insertIdx (⟨s.written.length, payload⟩ : Element) s.buffer hplace).map
      Element.serial
    rw [hperm.nodup_iff, List.map_cons, List.nodup_cons]
    refine ⟨fun hmem => ?_, h.nodup⟩
    obtain ⟨e, he, hserial⟩ := List.mem_map.1 hmem
    exact absurd hserial (List.getElem?_eq_some_iff.1 (h.stored e he)).1.ne
  · intro hfirst
    obtain ⟨tail, htail, hle⟩ := h.boundary hfirst
    have hmem : tail ∈ s.buffer.insertIdx place ⟨s.written.length, payload⟩ :=
      (List.mem_insertIdx hplace).2 (Or.inr (List.mem_of_getLast? htail))
    obtain ⟨last, hlast⟩ := Option.isSome_iff_exists.1
      (List.getLast?_isSome.2 (List.ne_nil_of_mem hmem))
    exact ⟨last, hlast, hle.trans (le_getLast hsorted hmem hlast)⟩
  · intro e he
    obtain ⟨hw, hrest⟩ := h.done e he
    exact ⟨hold hw, hrest⟩
  · exact h.once
  · exact h.inOrder

/-- **A removal keeps the invariant:** the newest frame stays. -/
theorem Inv.popFront (h : s.Inv) (ht : s.popFront = some t) : t.Inv := by
  rw [Scheduler.popFront] at ht
  split_ifs at ht with hlen
  obtain rfl := Option.some.inj ht
  have hsub := List.tail_sublist s.buffer
  constructor
  · exact h.sorted.sublist hsub
  · exact fun e he => h.small e (hsub.subset he)
  · exact fun e he => h.stored e (hsub.subset he)
  · exact h.nodup.sublist (hsub.map _)
  · intro hfirst
    obtain ⟨tail, htail, hle⟩ := h.boundary hfirst
    refine ⟨tail, ?_, hle⟩
    cases hb : s.buffer with
    | nil => simp [hb] at hlen
    | cons a l =>
        cases l with
        | nil => simp [hb] at hlen
        | cons a' l => rw [← htail, hb, List.getLast?_cons_cons, List.tail_cons]
  · exact h.done
  · exact h.once
  · exact h.inOrder

/-- **What a cycle does:** nothing, or it sets the boundary, or it processes the frames
from its boundary up to the newest timestamp less the delay. -/
theorem Inv.postprocessCycle_cases (h : s.Inv) (cfg : DelaySettings) (now : ℤ) :
    ((s.buffer = [] ∨ s.waits cfg now = true) ∧ s.postprocessCycle cfg now = s) ∨
    ∃ head tail, s.buffer.head? = some head ∧ s.buffer.getLast? = some tail ∧
      s.waits cfg now = false ∧
      (tail.timestamp - s.boundary head ≤ cfg.processingDelayTicks ∧
        s.postprocessCycle cfg now = { s with
          lastPostProcTime := now, processedTs := s.boundary head, firstCycle := false } ∨
      tail.timestamp - s.boundary head > cfg.processingDelayTicks ∧
        s.postprocessCycle cfg now = { s with
          lastPostProcTime := now
          processedTs := tail.timestamp - cfg.processingDelayTicks
          firstCycle := false
          postprocessed := s.postprocessed ++ window Element.timestamp s.buffer
            (s.boundary head) (tail.timestamp - cfg.processingDelayTicks) }) := by
  rw [Scheduler.postprocessCycle]
  cases hhead : s.buffer.head? with
  | none => exact Or.inl ⟨Or.inl (List.head?_eq_none_iff.1 hhead), rfl⟩
  | some head =>
      cases htail : s.buffer.getLast? with
      | none => simp [List.getLast?_eq_none_iff.1 htail] at hhead
      | some tail =>
          cases hwaits : s.waits cfg now with
          | true => exact Or.inl ⟨Or.inr rfl, by simp⟩
          | false =>
              have hnew : sub64 tail.timestamp (s.boundary head) = _ :=
                h.sub64_boundary hhead htail
              refine Or.inr ⟨head, tail, rfl, rfl, rfl, ?_⟩
              simp only [Bool.false_eq_true, if_false, hnew]
              split_ifs with hpass
              · have hdelay := sub64_of_le (a := tail.timestamp) (b := cfg.processingDelayTicks)
                  (by omega) (h.small tail (List.mem_of_getLast? htail))
                exact Or.inr ⟨hpass, by rw [hdelay]⟩
              · exact Or.inl ⟨by omega, rfl⟩

/-- What was processed before is below the boundary of the next cycle. -/
theorem Inv.done_lt_boundary (h : s.Inv) (head : Element) {e : Element}
    (he : e ∈ s.postprocessed) : e.timestamp < s.boundary head := by
  obtain ⟨-, hfirst, hlt⟩ := h.done e he
  rw [Scheduler.boundary, if_neg (by simp [hfirst])]
  exact hlt

/-- **A cycle keeps the invariant:** its range starts where the one before it ended. -/
theorem Inv.postprocessCycle (h : s.Inv) (cfg : DelaySettings) (now : ℤ) :
    (s.postprocessCycle cfg now).Inv := by
  obtain ⟨-, heq⟩ | ⟨head, tail, hhead, htail, -, ⟨-, heq⟩ | ⟨hpass, heq⟩⟩ :=
    h.postprocessCycle_cases cfg now <;> rw [heq]
  · exact h
  · refine ⟨h.sorted, h.small, h.stored, h.nodup, fun _ => ?_, fun e he => ?_, h.once, h.inOrder⟩
    · exact ⟨tail, htail, h.boundary_le hhead htail⟩
    · exact ⟨(h.done e he).1, rfl, h.done_lt_boundary head he⟩
  · have hmem : ∀ e, e ∈ window Element.timestamp s.buffer (s.boundary head)
        (tail.timestamp - cfg.processingDelayTicks) ↔ e ∈ s.buffer ∧ s.boundary head ≤ e.timestamp ∧
          e.timestamp < tail.timestamp - cfg.processingDelayTicks := fun e => mem_window h.sorted
    have hsub := window_sublist Element.timestamp s.buffer (s.boundary head)
      (tail.timestamp - cfg.processingDelayTicks)
    refine ⟨h.sorted, h.small, h.stored, h.nodup, fun _ => ⟨tail, htail, Nat.sub_le _ _⟩,
      fun e he => ?_, ?_, ?_⟩
    · rcases List.mem_append.1 he with he | he
      · have hlt := h.done_lt_boundary head he
        exact ⟨(h.done e he).1, rfl, by show e.timestamp < tail.timestamp - _; omega⟩
      · obtain ⟨hb, -, hlt⟩ := (hmem e).1 he
        exact ⟨h.stored e hb, rfl, hlt⟩
    · rw [List.map_append, List.nodup_append]
      refine ⟨h.once, h.nodup.sublist (hsub.map _), ?_⟩
      rintro _ hx _ hy rfl
      obtain ⟨e, he, hserial⟩ := List.mem_map.1 hx
      obtain ⟨e', he', hserial'⟩ := List.mem_map.1 hy
      -- one object would stand on both sides of the boundary
      obtain ⟨hb, hge, -⟩ := (hmem e').1 he'
      have hlt := h.done_lt_boundary head he
      rw [Element.eq_of_serial (h.done e he).1 (h.stored e' hb)
        (hserial.trans hserial'.symm)] at hlt
      omega
    · refine List.pairwise_append.2 ⟨h.inOrder, h.sorted.sublist hsub, fun e he e' he' => ?_⟩
      exact (h.done_lt_boundary head he).le.trans ((hmem e').1 he').2.1

/-- **Every action keeps the invariant.** -/
theorem Inv.step (h : s.Inv) (hdelay : 0 < cfg.processingDelayTicks) {a : Action}
    (ht : s.step cfg a = some t) : t.Inv := by
  cases a with
  | insert payload place => exact h.insertItem hdelay ht
  | popFront => exact h.popFront ht
  | cycle now =>
      obtain rfl := Option.some.inj ht
      exact h.postprocessCycle cfg now

/-! ## A frame that arrives in time -/

/-- A frame that was written, that no cycle has processed, and that is not below the
boundary while it is in the buffer. -/
structure Pending (e : Element) (s : Scheduler) : Prop where
  inv : s.Inv
  written : s.written[e.serial]? = some e.frame
  notDone : e ∉ s.postprocessed
  inTime : e ∈ s.buffer → s.firstCycle = false → s.processedTs ≤ e.timestamp

variable {e : Element}

/-- The next cycle starts at or before the frame. -/
theorem Pending.boundary_le (h : Pending e s) (he : e ∈ s.buffer) {head : Element}
    (hhead : s.buffer.head? = some head) : s.boundary head ≤ e.timestamp := by
  rw [Scheduler.boundary]
  split_ifs with hfirst
  · exact head_le h.inv.sorted he hhead
  · exact h.inTime he (by simpa using hfirst)

/-- **A frame in time stays in time** until a cycle reaches it. -/
theorem Pending.step (h : Pending e s) (hdelay : 0 < cfg.processingDelayTicks) {a : Action}
    (hnot : ¬ Reaches cfg e.timestamp s a) (ht : s.step cfg a = some t) : Pending e t := by
  have hinv := h.inv.step hdelay ht
  cases a with
  | insert payload place =>
      rw [Scheduler.step, Scheduler.insertItem] at ht
      split_ifs at ht with hguard hzero
      · omega
      obtain rfl := Option.some.inj ht
      have hlt := (List.getElem?_eq_some_iff.1 h.written).1
      refine ⟨hinv, ?_, h.notDone, fun he => h.inTime ?_⟩
      · rw [List.getElem?_append_left hlt, h.written]
      · rcases (List.mem_insertIdx hguard.2.1).1 he with rfl | he
        · exact absurd hlt (Nat.lt_irrefl _)
        · exact he
  | popFront =>
      rw [Scheduler.step, Scheduler.popFront] at ht
      split_ifs at ht with hlen
      obtain rfl := Option.some.inj ht
      exact ⟨hinv, h.written, h.notDone, fun he => h.inTime (List.mem_of_mem_tail he)⟩
  | cycle now =>
      obtain rfl := Option.some.inj ht
      obtain ⟨-, heq⟩ | ⟨head, tail, hhead, htail, hwaits, ⟨-, heq⟩ | ⟨-, heq⟩⟩ :=
        h.inv.postprocessCycle_cases cfg now <;> rw [heq] at hinv ⊢
      · exact h
      · exact ⟨hinv, h.written, h.notDone, fun he _ => h.boundary_le he hhead⟩
      · have hend : tail.timestamp - cfg.processingDelayTicks ≤ e.timestamp := by
          by_contra hlt
          exact hnot ⟨now, tail, rfl, htail, hwaits, by omega⟩
        refine ⟨hinv, h.written, fun he => ?_, fun _ _ => hend⟩
        rcases List.mem_append.1 he with he | he
        · exact h.notDone he
        · have hlt := ((mem_window h.inv.sorted).1 he).2.2
          omega

end Scheduler

end Readout
end SNBModules
