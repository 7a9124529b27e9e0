import SNBModules.Readout.Interleaving

/-!
# The pop list across runs

Source: `SNBRequestHandlerModel.hxx`, `start` and `stop`, and
`SNBDataHandlingModel.hxx`, `stop`.

`SNBDataHandlingModel::stop` stops the request handler, which waits for its
threads, and then flushes the latency buffer.  Nothing clears `m_pop_list`, and
`SNBRequestHandlerModel::start` only resets counters: what the pop list has at
the flush it still has in the next run, when the frames it speaks of are gone.
-/

namespace SNBModules
namespace Readout

open Lib

/-- Where the data handling model is between two commands. -/
inductive Phase where
  | idle
  | running
  | stopped
  deriving DecidableEq, Repr

/-- The data handling model: its phase and the current or latest run. -/
structure DataHandling where
  phase : Phase
  run : RunState
  deriving DecidableEq

/-- The commands of a data handling model, and the turns of a run. -/
inductive Command where
  | start
  | turn (a : Action)
  | stop
  | flush
  deriving DecidableEq

/-- `SNBRequestHandlerModel::start`: the counters are reset. -/
def startHandler (h : RequestHandler) : RequestHandler :=
  { h with stats := { occupancy := h.stats.occupancy, oldestTimestamp := h.stats.oldestTimestamp } }

/-- `SNBDataHandlingModel::stop`, its last part. -/
def flushBuffer (h : RequestHandler) : RequestHandler :=
  { h with latencyBuffer := h.latencyBuffer.flush }

/-- One command or one turn.  `stop` returns when the pool and the cleanup
thread have joined; the flush follows it. -/
def command (s : DataHandling) : Command → Option DataHandling
  | .start =>
      if s.phase = .idle then some ⟨.running, .ofHandler (startHandler s.run.handler)⟩ else none
  | .turn a =>
      if s.phase = .running then do
        let run ← step s.run a
        some { s with run := run }
      else none
  | .stop =>
      if s.phase = .running ∧ s.run.workers = [] then some { s with phase := .stopped } else none
  | .flush =>
      if s.phase = .stopped then
        some ⟨.idle, { s.run with handler := flushBuffer s.run.handler }⟩
      else none

/-- A new module, before its first run. -/
def DataHandling.new (capacity : ℕ) (sourceid : SourceID) (detid fragmentType : ℕ) :
    DataHandling :=
  ⟨.idle, .ofHandler (.new capacity sourceid detid fragmentType)⟩

/-! ### What the pop list should say -/

/-- Every timestamp in the pop list is the timestamp of a buffered frame that
was included during the current run. -/
def PopListCurrent (s : RunState) : Prop :=
  ∀ ts ∈ s.handler.popList, ∃ f ∈ s.frames, f.timestamp = ts ∧ f ∈ s.included

/-- The pop list is current; `cleanup_check` does not call `cleanup` on an empty
buffer; and a frame whose timestamp makes it skipped or popped has the
timestamp of a frame that this run included. -/
structure PopListSound (s : RunState) : Prop where
  current : PopListCurrent s
  cleanup_safe : (cleanupCheck s.handler).isSome
  skipped : ∀ f ∈ s.frames, f.timestamp ∈ s.handler.popList →
    ∃ g ∈ s.included, g.timestamp = f.timestamp

theorem PopListCurrent.sound {s : RunState} (h : PopListCurrent s) : PopListSound s where
  current := h
  cleanup_safe := by
    unfold cleanupCheck
    split
    · rfl
    · rename_i hne
      obtain ⟨ts, hts⟩ := Finset.nonempty_iff_ne_empty.2 hne
      obtain ⟨f, hf, -⟩ := h ts hts
      exact (cleanup_isSome _).2 (List.ne_nil_of_mem hf)
  skipped f _ hts := by
    obtain ⟨g, -, heq, hg⟩ := h _ hts
    exact ⟨g, hg, heq⟩

theorem popListCurrent_of_empty {s : RunState} (h : s.handler.popList = ∅) : PopListCurrent s :=
  fun ts hts => absurd (h ▸ hts) (Finset.notMem_empty ts)

/-- Every turn of a run keeps the pop list current, whatever the order in which
the frames arrive. -/
theorem PopListCurrent.step {s s' : RunState} {a : Action} (h : PopListCurrent s)
    (hs : step s a = some s') : PopListCurrent s' := by
  intro ts hts
  cases a with
  | processItem payload =>
      obtain ⟨hf, hp, hi, -⟩ := step_processItem hs
      obtain ⟨f, hmem, heq, hinc⟩ := h ts (hp ▸ hts)
      exact ⟨f, hf ▸ List.mem_append_left _ hmem, heq, hi ▸ hinc⟩
  | enter dr =>
      obtain ⟨hh, hi, -⟩ := step_enter hs
      obtain ⟨f, hmem, heq, hinc⟩ := h ts (hh ▸ hts)
      exact ⟨f, by rwa [RunState.frames, hh], heq, hi ▸ hinc⟩
  | collect i =>
      obtain ⟨w, e, hw, he, rfl⟩ := step_collect hs
      have hbuffered := Worker.mem_of_element he
      have hold : ts ∈ s.handler.popList →
          ∃ f ∈ s.frames, f.timestamp = ts ∧ f ∈ (s.collect i w e).included := fun hts => by
        obtain ⟨f, hmem, heq, hinc⟩ := h ts hts
        refine ⟨f, hmem, heq, (included_collect_perm hw).mem_iff.2 ?_⟩
        have hinc := (included_perm hw).mem_iff.1 hinc
        rcases collectElement_cases w.request.requestInformation.windowBegin e
          (w.fragPieces, s.handler.popList) with ⟨-, -, hacc⟩ | ⟨-, hacc⟩
        · rw [hacc, ← List.append_assoc]
          exact List.mem_append_left _ hinc
        · rwa [hacc]
      -- the turn inserts the timestamp of the frame it includes, or nothing
      rcases collectElement_cases w.request.requestInformation.windowBegin e
        (w.fragPieces, s.handler.popList) with ⟨-, -, hacc⟩ | ⟨-, hacc⟩
      · rw [RunState.collect, RunState.advance, hacc] at hts
        rcases Finset.mem_insert.1 hts with rfl | hts
        · refine ⟨e, hbuffered, rfl, (included_collect_perm hw).mem_iff.2 ?_⟩
          rw [hacc]
          exact List.mem_append_right _ (List.mem_append_right _ (List.mem_singleton_self e))
        · exact hold hts
      · rw [RunState.collect, RunState.advance, hacc] at hts
        exact hold hts
  | leave i =>
      obtain ⟨w, hw, -, rfl⟩ := step_leave hs
      obtain ⟨f, hmem, heq, hinc⟩ := h ts hts
      exact ⟨f, hmem, heq, (included_leave_perm hw).mem_iff.2 hinc⟩
  | cleanupCheck =>
      obtain ⟨hf, hp, hi, -, -⟩ := step_cleanupCheck hs
      obtain ⟨popped, hframes, -, hlist⟩ := cleanupLoop_spec s.frames s.handler.popList
      rw [hp, hlist, Finset.mem_sdiff] at hts
      obtain ⟨f, hmem, heq, hinc⟩ := h ts hts.1
      rw [hframes, ← hf] at hmem
      refine ⟨f, (List.mem_append.1 hmem).resolve_left fun hpop => hts.2 ?_, heq, hi ▸ hinc⟩
      exact List.mem_toFinset.2 (heq ▸ List.mem_map_of_mem hpop)

/-! ### Exactly when it does -/

/-- The pop list is empty when the buffer is flushed. -/
def FlushedClean (s : DataHandling) (c : Command) : Prop :=
  c = .flush → s.run.handler.popList = ∅

instance (s : DataHandling) (c : Command) : Decidable (FlushedClean s c) :=
  inferInstanceAs (Decidable (_ → _))

/-- The pop list is current, and between runs it is empty. -/
def BoundaryInv (s : DataHandling) : Prop :=
  PopListCurrent s.run ∧ (s.phase = .idle → s.run.handler.popList = ∅)

theorem BoundaryInv.command {s s' : DataHandling} {c : Command} (h : BoundaryInv s)
    (hok : FlushedClean s c) (hs : command s c = some s') : BoundaryInv s' := by
  cases c with
  | start =>
      obtain ⟨hidle, hs⟩ := Option.ite_none_right_eq_some.1 hs
      obtain rfl := Option.some.inj hs
      exact ⟨popListCurrent_of_empty (h.2 hidle), fun hphase => Phase.noConfusion hphase⟩
  | turn a =>
      obtain ⟨hrunning, hs⟩ := Option.ite_none_right_eq_some.1 hs
      obtain ⟨run, hrun, hs⟩ := Option.bind_eq_some_iff.1 hs
      obtain rfl := Option.some.inj hs
      exact ⟨h.1.step hrun, fun hphase => absurd (hrunning.symm.trans hphase) (by decide)⟩
  | stop =>
      obtain ⟨-, hs⟩ := Option.ite_none_right_eq_some.1 hs
      obtain rfl := Option.some.inj hs
      exact ⟨h.1, fun hphase => Phase.noConfusion hphase⟩
  | flush =>
      obtain ⟨-, hs⟩ := Option.ite_none_right_eq_some.1 hs
      obtain rfl := Option.some.inj hs
      exact ⟨popListCurrent_of_empty (hok rfl), fun _ => hok rfl⟩

/-- A timestamp left in the pop list at a flush has no frame any more. -/
theorem not_popListCurrent_of_flush {s s' : DataHandling} (hbad : ¬ FlushedClean s .flush)
    (hs : command s .flush = some s') : ¬ PopListCurrent s'.run := by
  obtain ⟨-, hs⟩ := Option.ite_none_right_eq_some.1 hs
  obtain rfl := Option.some.inj hs
  intro h
  refine hbad fun _ => Finset.eq_empty_iff_forall_notMem.2 fun ts hts => ?_
  obtain ⟨f, hf, -⟩ := h ts hts
  exact absurd hf List.not_mem_nil

/-- **The pop list over any sequence of runs.**  It is sound in every state of a
sequence of commands and turns exactly when it is empty at every flush. -/
theorem popList_sound_iff (capacity : ℕ) (sourceid : SourceID) (detid fragmentType : ℕ)
    {l : List Command} {s : DataHandling}
    (hrun : exec command (.new capacity sourceid detid fragmentType) l = some s) :
    Always command (fun s => PopListSound s.run) (.new capacity sourceid detid fragmentType) l ↔
      Guarded command FlushedClean (.new capacity sourceid detid fragmentType) l := by
  refine always_iff_guarded (I := BoundaryInv) (fun s h => h.1.sound)
    (fun s c t h hok hs => h.command hok hs) (fun s c t _ hbad hs hsound => ?_)
    ⟨popListCurrent_of_empty rfl, fun _ => rfl⟩ hrun
  obtain rfl : c = .flush := by
    by_contra hc
    exact hbad fun h => absurd h hc
  exact not_popListCurrent_of_flush hbad hs hsound.current

/-- A run in which the frames 1, 2 and 3 are written and the window [1, 2] is
requested and served. -/
def servedRun : List Command :=
  [.start, .turn (.processItem ⟨1, []⟩), .turn (.processItem ⟨2, []⟩),
    .turn (.processItem ⟨3, []⟩), .turn (.enter (requestFor 1 2)), .turn (.collect 0),
    .turn (.collect 0), .turn (.leave 0)]

/-- After a cleanup that run leaves nothing in the pop list. -/
theorem popList_sound_iff_cleaned :
    Always command (fun s => PopListSound s.run) (.new 8 ⟨0, 0⟩ 0 0)
      (servedRun ++ [.turn .cleanupCheck, .stop, .flush, .start]) :=
  (popList_sound_iff 8 ⟨0, 0⟩ 0 0 (Option.some_get (by decide)).symm).2 (by decide)

/-- Stopped before a cleanup, it leaves 1 and 2 in the pop list: the next run
starts with an unsound one, its first `cleanup_check` dereferences null, and
when it writes frames with the same timestamps they are popped although no
fragment has them. -/
theorem popList_stale :
    ∃ s, exec command (.new 8 ⟨0, 0⟩ 0 0) (servedRun ++ [.stop, .flush, .start]) = some s ∧
      s.run.handler.popList = {1, 2} ∧ ¬ PopListSound s.run ∧
      cleanupCheck s.run.handler = none ∧
      ∃ s', exec command s [.turn (.processItem ⟨1, []⟩), .turn (.processItem ⟨2, []⟩),
          .turn .cleanupCheck] = some s' ∧
        s'.run.frames = [⟨2, []⟩] ∧ s'.run.included = [] := by
  refine ⟨_, (Option.some_get (by decide)).symm, by decide, fun h => ?_, by decide, _,
    (Option.some_get (by decide)).symm, by decide, by decide⟩
  obtain ⟨f, hf, -⟩ := h.current 1 (by decide)
  exact absurd hf List.not_mem_nil

end Readout
end SNBModules
