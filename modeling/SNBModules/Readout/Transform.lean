import SNBModules.Readout.Completeness
import SNBModules.Readout.FileDelivery
import SNBModules.Readout.Interleaving
import SNBModules.Readout.TransformTriggers

/-!
# A transform, from the files to the fragments

Source: `FileSourceModel.hxx`, `run_produce`; `SNBDataHandlingModel.hxx`,
`consume_callback`, `transform_and_process` and `process_item`;
`SNBRequestHandlerModel.hxx`; `python/snbmodules/simple_transform_test_gen.py`.

The producer thread of a link hands the frames of its files to `process_item`, which waits
while the latency buffer is full.  Requests and cleanups go on at the same time, and make
room.  Whatever the interleaving, a frame that was handed on is in the buffer or has been
included, once (`transform_once`).  When the thread has got to the end of its files, the
windows of the triggers are requested: then no frame is missing but one at which every
window that has it ends (`transform_complete`).
-/

namespace SNBModules
namespace Readout

open Lib FileSourceModel

/-! ### The replay -/

/-- What a producer thread with work has still to hand on. -/
def FileSourceModel.remaining (files : String → Option (List Frame)) (e : FileSourceModel) :
    List Frame :=
  match e.producerThread with
  | .ready => []
  | .loadMarker | .read =>
      e.fileReader.getD [] ++ contents files (e.fileNames.drop e.fileIterator)
  | .send elem =>
      elem :: (e.fileReader.getD [] ++ contents files (e.fileNames.drop e.fileIterator))

/-- The emulator is on its way through files with the frames `total`. -/
structure Replays (files : String → Option (List Frame)) (total : List Frame)
    (e : FileSourceModel) : Prop where
  total_eq : e.sent ++ e.remaining files = total
  isConfigured : e.producerThread ≠ .ready → e.isConfigured = true

/-- What has been handed on and what remains are the same after some turns. -/
theorem Replays.keep {files : String → Option (List Frame)} {total : List Frame}
    {e e' : FileSourceModel} (h : Replays files total e) (hsent : e'.sent = e.sent)
    (hremaining : e'.remaining files = e.remaining files)
    (hc : e'.producerThread ≠ .ready → e'.isConfigured = true) : Replays files total e' :=
  ⟨by rw [hsent, hremaining, h.total_eq], hc⟩

/-- At the end of a file the thread opens the next one, or has no work any more. -/
theorem Replays.endOfFile {files : String → Option (List Frame)} {total : List Frame}
    {e e' : FileSourceModel} {found : Bool} (h : Replays files total e)
    (hthread : e.producerThread = .read) (hreader : e.fileReader = some [])
    (hturn : produceTurn files e found = some e') :
    Replays files total e' ∧ e'.sent = e.sent := by
  have hc : e.isConfigured = true := h.isConfigured (by simp [hthread])
  obtain ⟨r, hr, hok⟩ := Option.bind_eq_some_iff.1 hturn
  simp only [produce, hthread, hreader, Option.some.injEq] at hr
  subst hr
  cases hname : e.fileNames[e.fileIterator]? with
  | none =>
      have hend : e.fileNames.drop e.fileIterator = [] :=
        List.drop_eq_nil_of_le (List.getElem?_eq_none_iff.1 hname)
      simp only [openNextFile, hname, bind, Except.bind, Except.toOption, Bool.false_eq_true,
        if_false, Option.some.injEq] at hok
      subst hok
      refine ⟨h.keep rfl ?_ fun hn => absurd rfl hn, rfl⟩
      simp [remaining, hthread, hreader, hend, contents]
  | some name =>
      have hdrop : e.fileNames.drop e.fileIterator =
          name :: e.fileNames.drop (e.fileIterator + 1) := by
        obtain ⟨hlt, hget⟩ := List.getElem?_eq_some_iff.1 hname
        rw [List.drop_eq_getElem_cons hlt, hget]
      cases hopen : files name with
      | none =>
          simp only [openNextFile, hname, hopen, bind, Except.bind, Except.toOption] at hok
          cases hok
      | some frames =>
          simp only [openNextFile, hname, hopen, bind, Except.bind, Except.toOption, hc, if_true,
            Option.some.injEq] at hok
          subst hok
          refine ⟨h.keep rfl ?_ fun _ => rfl, rfl⟩
          simp [remaining, hthread, hreader, hdrop, contents_cons hopen]

/-- One turn of the producer thread hands on at most one frame. -/
theorem Replays.turn {files : String → Option (List Frame)} {total : List Frame}
    {e e' : FileSourceModel} {found : Bool} (h : Replays files total e)
    (hturn : produceTurn files e found = some e') :
    Replays files total e' ∧ ∃ handed, e'.sent = e.sent ++ handed := by
  obtain ⟨r, hr, hok⟩ := Option.bind_eq_some_iff.1 hturn
  cases hthread : e.producerThread with
  | ready =>
      simp only [produce, hthread] at hr
      cases hr
  | loadMarker =>
      have hc : e.isConfigured = true := h.isConfigured (by simp [hthread])
      simp only [produce, hthread, if_true, Option.some.injEq] at hr
      subst hr
      obtain rfl := Option.some.inj hok
      refine ⟨h.keep rfl ?_ fun _ => hc, [], (List.append_nil _).symm⟩
      simp [remaining, hthread]
  | read =>
      have hc : e.isConfigured = true := h.isConfigured (by simp [hthread])
      cases hreader : e.fileReader with
      | none =>
          simp only [produce, hthread, hreader] at hr
          cases hr
      | some frames =>
          cases frames with
          | cons elem rest =>
              simp only [produce, hthread, hreader, Option.some.injEq] at hr
              subst hr
              obtain rfl := Option.some.inj hok
              refine ⟨h.keep rfl ?_ fun _ => hc, [], (List.append_nil _).symm⟩
              simp [remaining, hthread, hreader]
          | nil =>
              obtain ⟨hnext, hsent⟩ := h.endOfFile hthread hreader hturn
              exact ⟨hnext, [], by rw [hsent, List.append_nil]⟩
  | send elem =>
      have hc : e.isConfigured = true := h.isConfigured (by simp [hthread])
      cases hcallback : e.rawDataCallback with
      | false =>
          simp only [produce, hthread, hcallback, and_self, if_true, Option.some.injEq] at hr
          subst hr
          obtain rfl := Option.some.inj hok
          refine ⟨h.keep rfl ?_ fun _ => hc, [], (List.append_nil _).symm⟩
          simp [remaining, hthread]
      | true =>
          simp only [produce, hthread, hcallback, Bool.true_eq_false, false_and, if_false,
            Option.some.injEq] at hr
          subst hr
          obtain rfl := Option.some.inj hok
          refine ⟨⟨?_, fun _ => hc⟩, [elem], rfl⟩
          rw [← h.total_eq]
          simp [remaining, hthread]

/-- A thread without work has handed on all frames. -/
theorem Replays.sent_eq {files : String → Option (List Frame)} {total : List Frame}
    {e : FileSourceModel} (h : Replays files total e) (hready : e.producerThread = .ready) :
    e.sent = total := by
  rw [← h.total_eq]
  simp [remaining, hready]

/-- A new emulator that is configured and started. -/
theorem replays_start {files : String → Option (List Frame)} {e e₁ : FileSourceModel}
    (hc : e.isConfigured = false) (hsent : e.sent = []) {sourceId : ℕ} {dataFiles : List String}
    (hne : dataFiles ≠ []) (hopen : ∀ name ∈ dataFiles, (files name).isSome)
    (hconf : e.conf files sourceId dataFiles = (e₁, none)) :
    Replays files (contents files dataFiles) e₁.start ∧ e₁.start.sent = [] := by
  obtain ⟨name, names, rfl⟩ := List.exists_cons_of_ne_nil hne
  obtain ⟨frames, hframes⟩ := Option.isSome_iff_exists.1 (hopen name List.mem_cons_self)
  rw [conf_cons hc sourceId names hframes] at hconf
  obtain ⟨rfl, -⟩ := Prod.mk.inj hconf
  refine ⟨⟨?_, fun _ => rfl⟩, hsent⟩
  simp [remaining, start, hsent, contents_cons hframes]

/-! ### The link -/

/-- A link: the emulator that replays its files, and the run of its data handler. -/
structure Link where
  source : FileSourceModel
  run : RunState

/-- What happens next: the producer thread takes a turn, or the data handler does. -/
inductive LinkTurn where
  | produce (found : Bool)
  | handle (a : Action)
  deriving DecidableEq

namespace Link

/-- One turn.  What the producer thread hands on goes to `process_item`, which may have to
wait, and no frame comes from elsewhere. -/
def step (files : String → Option (List Frame)) (t : Link) : LinkTurn → Option Link
  | .produce found => do
      let e ← produceTurn files t.source found
      let r ← exec Readout.step t.run ((e.sent.drop t.source.sent.length).map .processItem)
      some ⟨e, r⟩
  | .handle (.processItem _) => none
  | .handle a => (Readout.step t.run a).map fun r => { t with run := r }

/-- What has come through is what was handed on, and buffer and fragments have it once. -/
structure Inv (files : String → Option (List Frame)) (total : List Frame) (t : Link) : Prop where
  replays : Replays files total t.source
  written_eq : t.run.written = t.source.sent
  implements : Implements t.run

variable {files : String → Option (List Frame)} {total : List Frame} {t t' : Link}

theorem exec_processItem {r r' : RunState} {l : List Frame}
    (h : exec Readout.step r (l.map .processItem) = some r') : r'.written = r.written ++ l := by
  induction l generalizing r with
  | nil =>
      obtain rfl := Option.some.inj h
      exact (List.append_nil _).symm
  | cons payload l ih =>
      obtain ⟨r₁, hstep, hrest⟩ := exec_cons_eq_some.1 h
      rw [ih hrest, (step_processItem hstep).2.2.2, List.append_assoc, List.singleton_append]

theorem written_of_step {r r' : RunState} {a : Action} (ha : ∀ payload, a ≠ .processItem payload)
    (h : Readout.step r a = some r') : r'.written = r.written := by
  cases a with
  | processItem payload => exact absurd rfl (ha payload)
  | enter dr => exact (step_enter h).2.2
  | collect i =>
      obtain ⟨w, e, -, -, rfl⟩ := step_collect h
      rfl
  | leave i =>
      obtain ⟨w, -, -, rfl⟩ := step_leave h
      rfl
  | cleanupCheck => exact (step_cleanupCheck h).2.2.2.1

/-- Every turn keeps the invariant. -/
theorem Inv.step {a : LinkTurn} (h : Inv files total t) (hs : t.step files a = some t') :
    Inv files total t' := by
  cases a with
  | produce found =>
      obtain ⟨e, hturn, hs⟩ := Option.bind_eq_some_iff.1 hs
      obtain ⟨r, hrun, hs⟩ := Option.bind_eq_some_iff.1 hs
      obtain rfl := Option.some.inj hs
      obtain ⟨hreplays, handed, hhanded⟩ := h.replays.turn hturn
      rw [hhanded, List.drop_left] at hrun
      refine ⟨hreplays, ?_, exec_invariant (fun _ _ _ h hs => h.step hs) h.implements hrun⟩
      rw [exec_processItem hrun, h.written_eq]
      exact hhanded.symm
  | handle a =>
      have hs' : (∀ payload, a ≠ .processItem payload) ∧
          ∃ r, Readout.step t.run a = some r ∧ t' = { t with run := r } := by
        cases a with
        | processItem payload => cases hs
        | _ =>
            obtain ⟨r, hr, rfl⟩ := Option.map_eq_some_iff.1 hs
            exact ⟨fun _ h => (nomatch h), r, hr, rfl⟩
      obtain ⟨ha, r, hr, rfl⟩ := hs'
      exact ⟨h.replays, (written_of_step ha hr).trans h.written_eq, h.implements.step hr⟩

/-- A link before its first turn: the emulator is configured and started, and the buffer of
the data handler and its pop list are empty. -/
structure Starts (files : String → Option (List Frame)) (dataFiles : List String) (t : Link) :
    Prop where
  started : ∃ (e e₁ : FileSourceModel) (sourceId : ℕ), e.isConfigured = false ∧ e.sent = [] ∧
    e.conf files sourceId dataFiles = (e₁, none) ∧ t.source = e₁.start
  handler : ∃ h : RequestHandler, h.latencyBuffer.frames = [] ∧ h.popList = ∅ ∧
    t.run = .ofHandler h
  files_ne : dataFiles ≠ []
  opens : ∀ name ∈ dataFiles, (files name).isSome

theorem Starts.inv {dataFiles : List String} (h : Starts files dataFiles t) :
    Inv files (contents files dataFiles) t := by
  obtain ⟨e, e₁, sourceId, hc, hsent, hconf, hsource⟩ := h.started
  obtain ⟨handler, hbuf, hpop, hrun⟩ := h.handler
  obtain ⟨hreplays, hnone⟩ := replays_start hc hsent h.files_ne h.opens hconf
  refine ⟨hsource ▸ hreplays, ?_, hrun ▸ implements_ofHandler hbuf hpop⟩
  rw [hrun, hsource, hnone]
  rfl

/-- Two files, with two frames and with one. -/
def recordings (name : String) : Option (List Frame) :=
  if name = "a" then some [⟨1, []⟩, ⟨2, []⟩] else if name = "b" then some [⟨5, []⟩] else none

/-- The link that replays them, with room for two frames. -/
def recordingLink : Link :=
  ⟨(((FileSourceModel.new "link").conf recordings 7 ["a", "b"]).1).start,
    .ofHandler (.new 2 ⟨0, 0⟩ 0 0)⟩

/-- The second file is handed on after a request has made room for it. -/
def recordingTrace : List LinkTurn :=
  List.replicate 7 (.produce true) ++
    [.handle (.enter (requestFor 1 2)), .handle (.collect 0), .handle (.collect 0),
      .handle (.leave 0), .handle .cleanupCheck] ++
    List.replicate 7 (.produce true)

theorem starts_recordingLink : Starts recordings ["a", "b"] recordingLink :=
  ⟨⟨.new "link", _, 7, rfl, rfl, rfl, rfl⟩, ⟨.new 2 ⟨0, 0⟩ 0 0, rfl, rfl, rfl⟩,
    List.cons_ne_nil _ _, by decide⟩

/-- **Nothing is lost on the way.**  For files whose frames come in increasing order, in every
interleaving of the producer thread with requests and cleanups: the frames that were handed on
are the first ones of the files; each of them is buffered or has been included; and none is
included twice, or comes from elsewhere. -/
theorem transform_once {dataFiles : List String} (h : Starts files dataFiles t)
    (hinc : Increasing (contents files dataFiles)) {trace : List LinkTurn}
    (hrun : exec (step files) t trace = some t') :
    t'.source.sent <+: contents files dataFiles ∧
      (∀ f ∈ t'.source.sent, f ∈ t'.run.frames ∨ f ∈ t'.run.included) ∧
      t'.run.included.Nodup ∧ ∀ f ∈ t'.run.included, f ∈ t'.source.sent := by
  have hinv := exec_invariant (fun _ _ _ h hs => Inv.step h hs) h.inv hrun
  have hsent : t'.source.sent <+: contents files dataFiles :=
    ⟨_, hinv.replays.total_eq⟩
  obtain ⟨d, hd, hst⟩ := hinv.implements (hinv.written_eq ▸ hinc.sublist hsent.sublist)
  rw [hinv.written_eq] at hst
  refine ⟨hsent, fun f hf => ?_, hd.nodup, fun f hf => hst ▸ hd.mem_stored_of_mem_claims hf⟩
  by_cases hmem : f ∈ t'.run.frames
  · exact Or.inl hmem
  · exact Or.inr (hd.mem_claims_of_not_mem_frames (hst ▸ hf) hmem)

theorem transform_once_recordings :
    ∃ t, exec (step recordings) recordingLink recordingTrace = some t ∧
      t.source.sent <+: [⟨1, []⟩, ⟨2, []⟩, ⟨5, []⟩] ∧ t.run.included.Nodup := by
  obtain ⟨t, ht⟩ := Option.isSome_iff_exists.1 (show (exec (step recordings) recordingLink
    recordingTrace).isSome = true by decide +kernel)
  obtain ⟨hsent, -, hnodup, -⟩ := transform_once starts_recordingLink (by decide) ht
  exact ⟨t, ht, hsent, hnodup⟩

/-! ### Room in the buffer -/

/-- There is room for all that the producer thread has still to hand on. -/
def HasRoom (files : String → Option (List Frame)) (t : Link) : Prop :=
  t.run.frames.length + (t.source.remaining files).length ≤ t.run.handler.latencyBuffer.capacity

theorem exec_processItem_of_room {r : RunState} {l : List Frame}
    (hroom : r.frames.length + l.length ≤ r.handler.latencyBuffer.capacity) :
    ∃ r', exec Readout.step r (l.map .processItem) = some r' ∧
      r'.frames.length = r.frames.length + l.length ∧
      r'.handler.latencyBuffer.capacity = r.handler.latencyBuffer.capacity := by
  induction l generalizing r with
  | nil => exact ⟨r, rfl, rfl, rfl⟩
  | cons payload l ih =>
      rw [List.length_cons] at hroom
      have hfree : r.handler.latencyBuffer.isFull = false := by
        have hlt : r.handler.latencyBuffer.frames.length < r.handler.latencyBuffer.capacity := by
          have : r.frames.length = r.handler.latencyBuffer.frames.length := rfl
          omega
        exact decide_eq_false (Nat.not_le.2 hlt)
      have hp : processItem r.handler.latencyBuffer payload =
          some ({ r.handler.latencyBuffer with frames := r.frames ++ [payload] }, true) := by
        simp [processItem, LatencyBuffer.write, hfree, RunState.frames]
      obtain ⟨r₁, hr₁⟩ : ∃ r₁, Readout.step r (.processItem payload) = some r₁ :=
        ⟨_, by rw [Readout.step, hp]; rfl⟩
      have hframes := (step_processItem hr₁).1
      have hcapacity : r₁.handler.latencyBuffer.capacity = r.handler.latencyBuffer.capacity := by
        rw [Readout.step, hp] at hr₁
        obtain rfl := Option.some.inj hr₁
        rfl
      obtain ⟨r', hr', hlength, hcapacity'⟩ := ih (r := r₁) (by
        rw [hframes, hcapacity, List.length_append, List.length_singleton]
        omega)
      refine ⟨r', exec_cons_eq_some.2 ⟨r₁, hr₁, hr'⟩, ?_, hcapacity'.trans hcapacity⟩
      rw [hlength, hframes, List.length_append, List.length_singleton, List.length_cons]
      omega

/-- With room, the link takes the turns of its producer thread. -/
theorem exec_of_room (h : Replays files total t.source) (hroom : t.HasRoom files) {l : List Bool}
    {e : FileSourceModel} (hrun : exec (produceTurn files) t.source l = some e) :
    ∃ t', exec (step files) t (l.map .produce) = some t' ∧ t'.source = e := by
  induction l generalizing t with
  | nil =>
      obtain rfl := Option.some.inj hrun
      exact ⟨t, rfl, rfl⟩
  | cons found l ih =>
      obtain ⟨e₁, hturn, hrest⟩ := exec_cons_eq_some.1 hrun
      obtain ⟨h₁, handed, hhanded⟩ := h.turn hturn
      have hsplit : handed ++ e₁.remaining files = t.source.remaining files := by
        have htotal := h₁.total_eq.trans h.total_eq.symm
        rw [hhanded, List.append_assoc] at htotal
        exact List.append_cancel_left htotal
      rw [HasRoom, ← hsplit, List.length_append] at hroom
      obtain ⟨r, hr, hlength, hcapacity⟩ :=
        exec_processItem_of_room (r := t.run) (l := handed) (by omega)
      have hstep : t.step files (.produce found) = some ⟨e₁, r⟩ := by
        simp [step, hturn, hhanded, hr]
      obtain ⟨t', ht', hsource⟩ := ih (t := ⟨e₁, r⟩) h₁
        (by rw [HasRoom, hlength, hcapacity, Nat.add_assoc]; exact hroom) hrest
      exact ⟨t', exec_cons_eq_some.2 ⟨_, hstep, ht'⟩, hsource⟩

/-- **With room for all frames** the replay needs nobody else: as long as the callback registry
has the callback again and again, the producer thread gets to the end, and everything is
written. -/
theorem transform_finishes {dataFiles : List String} (h : Starts files dataFiles t)
    (hroom : (contents files dataFiles).length ≤ t.run.handler.latencyBuffer.capacity)
    {found : ℕ → Bool} (hfound : Recurs (fun b => b = true) found) :
    ∃ n t', exec (step files) t ((List.range n).map fun i => .produce (found i)) = some t' ∧
      t'.source.producerThread = .ready ∧ t'.run.written = contents files dataFiles := by
  have hinv := h.inv
  obtain ⟨e, e₁, sourceId, hc, hsent, hconf, hsource⟩ := h.started
  obtain ⟨handler, hbuf, -, hrun⟩ := h.handler
  obtain ⟨name, names, hfiles⟩ := List.exists_cons_of_ne_nil h.files_ne
  subst hfiles
  obtain ⟨frames, hframes⟩ := Option.isSome_iff_exists.1 (h.opens name List.mem_cons_self)
  rw [conf_cons hc sourceId names hframes] at hconf
  obtain ⟨rfl, -⟩ := Prod.mk.inj hconf
  have hleft : t.source.fileNames.drop t.source.fileIterator = names := by
    rw [hsource]
    rfl
  have hreader : t.source.fileReader = some frames := by rw [hsource]; rfl
  obtain ⟨e₂, hto, hready, -⟩ := leadsTo_files files (e := t.source) (by rw [hsource]; rfl)
    hreader (by rw [hsource]; rfl) hleft fun n hn => h.opens n (List.mem_cons_of_mem _ hn)
  obtain ⟨n, hn⟩ := hto found hfound
  have htotal := hinv.replays.total_eq
  have hempty : t.run.frames = [] := by rw [hrun]; exact hbuf
  have hlength : (t.source.remaining files).length ≤ (contents files (name :: names)).length := by
    rw [← htotal, List.length_append]
    omega
  obtain ⟨t', ht', heq⟩ := exec_of_room hinv.replays
    (by rw [HasRoom, hempty, List.length_nil]; omega) hn
  rw [List.map_map] at ht'
  have hinv' := exec_invariant (fun _ _ _ h hs => Inv.step h hs) hinv ht'
  refine ⟨n, t', ht', heq ▸ hready, ?_⟩
  rw [hinv'.written_eq, hinv'.replays.sent_eq (heq ▸ hready)]

theorem transform_finishes_recordings :
    ∃ n t', exec (step recordings)
        { recordingLink with run := .ofHandler (.new 3 ⟨0, 0⟩ 0 0) }
        ((List.range n).map fun _ => .produce true) = some t' ∧
      t'.source.producerThread = .ready ∧ t'.run.written = [⟨1, []⟩, ⟨2, []⟩, ⟨5, []⟩] := by
  have hstarts : Starts recordings ["a", "b"]
      { recordingLink with run := .ofHandler (.new 3 ⟨0, 0⟩ 0 0) } :=
    { starts_recordingLink with handler := ⟨.new 3 ⟨0, 0⟩ 0 0, rfl, rfl, rfl⟩ }
  have hrecurs : Recurs (fun b => b = true) fun _ => true := fun n => ⟨n, le_rfl, rfl⟩
  exact transform_finishes hstarts (by decide) hrecurs

/-! ### No room in the buffer -/

/-- The buffer is full, nothing in it is recorded for a cleanup, and nobody is collecting. -/
structure Stuck (files : String → Option (List Frame)) (total : List Frame) (s t : Link) :
    Prop where
  replays : Replays files total t.source
  full : t.run.handler.latencyBuffer.isFull = true
  popList_eq : t.run.handler.popList = ∅
  workers : ∀ w ∈ t.run.workers, w.resultCode ≠ .kFound
  frames_eq : t.run.frames = s.run.frames
  included_perm : t.run.included.Perm s.run.included
  sent_eq : t.source.sent = s.source.sent

/-- A worker whose window goes on after the newest frame does not collect. -/
theorem startRequest_of_after {h : RequestHandler} {newest : Frame}
    (hback : h.latencyBuffer.back = some newest) {dr : DataRequest}
    (hend : newest.timestamp < dr.requestInformation.windowEnd) {w : Worker}
    (hw : startRequest h dr = some w) : w.resultCode ≠ .kFound := by
  rw [startRequest] at hw
  split_ifs at hw with hempty
  · cases hw
    simp
  · obtain ⟨rc, hrc, hw⟩ := Option.bind_eq_some_iff.1 hw
    cases hw
    obtain ⟨front, hfront⟩ : ∃ front, h.latencyBuffer.front = some front := by
      cases hframes : h.latencyBuffer.frames with
      | nil => exact absurd (by rw [LatencyBuffer.occupancy, hframes]; rfl) hempty
      | cons front rest => exact ⟨front, by rw [LatencyBuffer.front, hframes]; rfl⟩
    rw [windowResult_eq hfront hback, if_pos (Or.inr hend)] at hrc
    obtain rfl := Option.some.inj hrc
    simp

/-- The requests that come are for windows that go on after the newest frame. -/
def RequestsAfter (s : Link) (a : LinkTurn) : Prop :=
  ∀ dr, a = .handle (.enter dr) →
    ∃ newest, s.run.frames.getLast? = some newest ∧
      newest.timestamp < dr.requestInformation.windowEnd

/-- One turn of a stuck link. -/
theorem Stuck.step {s : Link} {a : LinkTurn} (ha : RequestsAfter s a)
    (h : Stuck files total s t) (hs : t.step files a = some t') : Stuck files total s t' := by
  obtain ⟨hreplays, hfull, hpop, hworkers, hframes, hincluded, hsent⟩ := h
  cases a with
  | produce found =>
      obtain ⟨e, hturn, hs⟩ := Option.bind_eq_some_iff.1 hs
      obtain ⟨r, hrun, hs⟩ := Option.bind_eq_some_iff.1 hs
      obtain rfl := Option.some.inj hs
      obtain ⟨hreplays', handed, hgrow⟩ := hreplays.turn hturn
      rw [hgrow, List.drop_left] at hrun
      cases handed with
      | cons payload rest =>
          -- `process_item` waits
          rw [List.map_cons, exec_cons_eq_some] at hrun
          obtain ⟨r₁, hr₁, -⟩ := hrun
          simp [Readout.step, processItem, hfull] at hr₁
      | nil =>
          obtain rfl := Option.some.inj hrun
          rw [List.append_nil] at hgrow
          exact ⟨hreplays', hfull, hpop, hworkers, hframes, hincluded, hgrow.trans hsent⟩
  | handle a =>
      cases a with
      | processItem payload => cases hs
      | enter dr =>
          obtain ⟨r, hr, rfl⟩ := Option.map_eq_some_iff.1 hs
          obtain ⟨w, hw, hr⟩ := Option.bind_eq_some_iff.1 hr
          obtain rfl := Option.some.inj hr
          obtain ⟨newest, hnewest, hend⟩ := ha dr rfl
          have hback : t.run.handler.latencyBuffer.back = some newest := by
            rw [← hframes] at hnewest
            exact hnewest
          refine ⟨hreplays, hfull, hpop, fun w' hw' => ?_, hframes, ?_, hsent⟩
          · rcases List.mem_append.1 hw' with hw' | hw'
            · exact hworkers w' hw'
            · rw [List.mem_singleton.1 hw']
              exact startRequest_of_after hback hend hw
          · refine List.Perm.trans (.of_eq ?_) hincluded
            simp [RunState.included, startRequest_fragPieces hw]
      | collect i =>
          obtain ⟨r, hr, rfl⟩ := Option.map_eq_some_iff.1 hs
          obtain ⟨w, e, hw, he, -⟩ := step_collect hr
          rw [Worker.element, if_neg (hworkers w (List.mem_of_getElem? hw))] at he
          cases he
      | leave i =>
          obtain ⟨r, hr, rfl⟩ := Option.map_eq_some_iff.1 hs
          obtain ⟨w, hw, -, rfl⟩ := step_leave hr
          exact ⟨hreplays, hfull, hpop, fun w' hw' => hworkers w' (List.mem_of_mem_eraseIdx hw'),
            hframes, (included_leave_perm hw).trans hincluded, hsent⟩
      | cleanupCheck =>
          obtain ⟨r, hr, rfl⟩ := Option.map_eq_some_iff.1 hs
          have hsame : r = t.run := by
            simp only [Readout.step, cleanupCheck, hpop, if_true] at hr
            split_ifs at hr
            exact (Option.some.inj hr).symm
          rw [hsame]
          exact ⟨hreplays, hfull, hpop, hworkers, hframes, hincluded, hsent⟩

/-- **A window that does not fit into the buffer stops the replay.**  When the buffer is full
and nothing in it has been included, and all requests are for windows that go on after its
newest frame, no interleaving writes another frame, includes one, or removes one. -/
theorem transform_stalls {dataFiles : List String} (h : Starts files dataFiles t)
    {trace : List LinkTurn} (hrun : exec (step files) t trace = some t')
    (hfull : t'.run.handler.latencyBuffer.isFull = true) (hpop : t'.run.handler.popList = ∅)
    (hworkers : t'.run.workers = []) {later : List LinkTurn} {u : Link}
    (hlater : ∀ a ∈ later, RequestsAfter t' a) (hu : exec (step files) t' later = some u) :
    u.run.frames = t'.run.frames ∧ u.run.included.Perm t'.run.included ∧
      u.source.sent = t'.source.sent := by
  have hinv := exec_invariant (fun _ _ _ h hs => Inv.step h hs) h.inv hrun
  have hnobody : ∀ w ∈ t'.run.workers, w.resultCode ≠ .kFound := by simp [hworkers]
  have hstuck : Stuck files (contents files dataFiles) t' t' :=
    ⟨hinv.replays, hfull, hpop, hnobody, rfl, .refl _, rfl⟩
  have hkept := always_of_guarded (fun _ _ _ h ha hs => Stuck.step ha h hs) hstuck
    (guarded_of_forall_mem hlater t')
  obtain ⟨-, -, -, -, hframes, hincluded, hsent⟩ := hkept.last hu
  exact ⟨hframes, hincluded, hsent⟩

/-- With a window for everything the second file is not even read to its end. -/
theorem transform_stalls_recordings :
    ∃ t, exec (step recordings) recordingLink (List.replicate 7 (.produce true)) = some t ∧
      ∀ n u, exec (step recordings) t ((List.replicate n
          [LinkTurn.handle (.enter (requestFor 1 5)), .handle (.leave 0), .produce true]).flatten) =
        some u → u.run.frames = [⟨1, []⟩, ⟨2, []⟩] := by
  have hfacts : ((exec (step recordings) recordingLink
      (List.replicate 7 (.produce true))).any fun t =>
      decide (t.run.handler.latencyBuffer.isFull = true ∧ t.run.handler.popList = ∅ ∧
        t.run.workers = [] ∧ t.run.frames = [⟨1, []⟩, ⟨2, []⟩])) = true := by decide +kernel
  obtain ⟨t, ht, hend⟩ := (Option.any_eq_true _ _).1 hfacts
  obtain ⟨hfull, hpop, hworkers, hframes⟩ := of_decide_eq_true hend
  refine ⟨t, ht, fun n u hu => ?_⟩
  have hlater : ∀ a ∈ (List.replicate n [LinkTurn.handle (.enter (requestFor 1 5)),
      .handle (.leave 0), .produce true]).flatten, RequestsAfter t a := by
    rintro a ha dr rfl
    obtain ⟨l, hl, ha⟩ := List.mem_flatten.1 ha
    rw [List.eq_of_mem_replicate hl] at ha
    have hwindow : dr = requestFor 1 5 := by simpa using ha
    exact ⟨⟨2, []⟩, by rw [hframes]; rfl, by rw [hwindow]; decide⟩
  obtain ⟨hsame, -, -⟩ :=
    transform_stalls starts_recordingLink ht hfull hpop hworkers hlater hu
  rw [hsame, hframes]

end Link

/-! ### The windows -/

/-- The window that a trigger requests. -/
def FixedTimeTC.window (w : FixedTimeTC) : ℕ × ℕ := (w.timestampStart.toNat, w.timestampEnd.toNat)

/-- What `get_file_info` finds in a file. -/
def fileInfo (files : String → Option (List Frame)) (name : String) : FileInfo :=
  getFileInfo (((files name).getD []).map fun f => (f.timestamp : ℤ))

/-- A frame inside a window that goes on after it is delivered. -/
theorem delivered_of_inside {stream : List Frame} {s s' : RequestHandler × List Fragment}
    (h : Serving stream s) {schedule : List Service} (hrun : exec serve s schedule = some s')
    {dr : DataRequest} (hdr : .request dr ∈ schedule) {f last : Frame} (hf : f ∈ stream)
    (hlast : stream.getLast? = some last) (hbegin : dr.window.1 ≤ f.timestamp)
    (hend : f.timestamp < dr.window.2) (hnewest : dr.window.2 ≤ last.timestamp) :
    f ∈ delivered s' := by
  obtain ⟨pre, post, rfl⟩ := List.append_of_mem hdr
  rw [exec_append, Option.bind_eq_some_iff] at hrun
  obtain ⟨t, hpre, hrun⟩ := hrun
  obtain ⟨t', hstep, hpost⟩ := exec_cons_eq_some.1 hrun
  have ht : Serving stream t := exec_invariant (fun _ _ _ h hs => Serving.serve h hs) h hpre
  refine delivered_mono (delivered_of_request ht hstep hf hlast hbegin hend.le hnewest ?_) hpost
  obtain ⟨d, hd, -⟩ := ht
  exact fun hmem g hg => (hd.increasing_frames.head_le hg hmem).trans_lt hend

section Files

variable {files : String → Option (List Frame)} {dataFiles : List String}

/-- Every file opens, and has a frame. -/
def HasFrames (files : String → Option (List Frame)) (dataFiles : List String) : Prop :=
  ∀ name ∈ dataFiles, ∃ frames, files name = some frames ∧ frames ≠ []

theorem mem_contents {f : Frame} : f ∈ contents files dataFiles ↔
    ∃ name ∈ dataFiles, f ∈ (files name).getD [] := List.mem_flatMap

/-- What is known of a file with frames: it has its first and its last timestamp, and none
outside them. -/
theorem fileInfo_spec {name : String} {frames : List Frame} (hname : files name = some frames)
    (hne : frames ≠ []) :
    (∃ f ∈ frames, (f.timestamp : ℤ) = (fileInfo files name).first) ∧
      (∃ f ∈ frames, (f.timestamp : ℤ) = (fileInfo files name).last) ∧
      ∀ f ∈ frames, (fileInfo files name).first ≤ f.timestamp ∧
        f.timestamp ≤ (fileInfo files name).last := by
  have hnonneg : ∀ x ∈ frames.map fun f => (f.timestamp : ℤ), 0 ≤ x := by
    intro x hx
    obtain ⟨f, -, rfl⟩ := List.mem_map.1 hx
    exact Int.natCast_nonneg _
  have hne' : (frames.map fun f => (f.timestamp : ℤ)) ≠ [] := by simpa using hne
  obtain ⟨hfirst, hle⟩ := earliest_spec hne' hnonneg
  obtain ⟨hlast, hge⟩ := latest_spec hne' hnonneg
  rw [fileInfo, hname]
  exact ⟨List.mem_map.1 hfirst, List.mem_map.1 hlast, fun f hf =>
    ⟨hle _ (List.mem_map_of_mem hf), hge _ (List.mem_map_of_mem hf)⟩⟩

theorem mem_fileInfos {i : FileInfo} :
    i ∈ fileInfos (fileInfo files) dataFiles ↔ ∃ name ∈ dataFiles, fileInfo files name = i := by
  simp [fileInfos]

theorem HasFrames.recorded (h : HasFrames files dataFiles) (hne : dataFiles ≠ []) :
    Recorded (fileInfos (fileInfo files) dataFiles) := by
  obtain ⟨name, hname⟩ := List.exists_mem_of_ne_nil _ hne
  refine ⟨List.ne_nil_of_mem (mem_fileInfos.2 ⟨name, hname, rfl⟩), fun i hi => ?_⟩
  obtain ⟨name, hname, rfl⟩ := mem_fileInfos.1 hi
  obtain ⟨frames, hframes, hne⟩ := h name hname
  obtain ⟨⟨f, hf, hfirst⟩, -, hall⟩ := fileInfo_spec hframes hne
  exact ⟨hfirst ▸ Int.natCast_nonneg _, (hall f hf).1.trans (hall f hf).2⟩

/-- In increasing order no file begins before another has ended. -/
theorem HasFrames.disjoint (h : HasFrames files dataFiles)
    (hinc : Increasing (contents files dataFiles)) {i k : FileInfo}
    (hi : i ∈ fileInfos (fileInfo files) dataFiles)
    (hk : k ∈ fileInfos (fileInfo files) dataFiles) :
    i = k ∨ i.last < k.first ∨ k.last < i.first := by
  obtain ⟨a, ha, rfl⟩ := mem_fileInfos.1 hi
  obtain ⟨b, hb, rfl⟩ := mem_fileInfos.1 hk
  obtain ⟨framesA, hframesA, hneA⟩ := h a ha
  obtain ⟨framesB, hframesB, hneB⟩ := h b hb
  obtain ⟨⟨f, hf, hfirstA⟩, ⟨g, hg, hlastA⟩, -⟩ := fileInfo_spec hframesA hneA
  obtain ⟨⟨f', hf', hfirstB⟩, ⟨g', hg', hlastB⟩, -⟩ := fileInfo_spec hframesB hneB
  by_cases hab : a = b
  · exact Or.inl (hab ▸ rfl)
  -- one of the two names comes before the other
  have horder : ∀ {a b : String} {framesA framesB : List Frame}, files a = some framesA →
      files b = some framesB → ∀ pre mid post, dataFiles = pre ++ a :: mid ++ b :: post →
      ∀ f ∈ framesA, ∀ g ∈ framesB, f.timestamp < g.timestamp := by
    intro a b framesA framesB hA hB pre mid post hsplit f hf g hg
    have hcontents : contents files dataFiles = (contents files pre ++ framesA) ++
        (contents files mid ++ (framesB ++ contents files post)) := by
      rw [hsplit]
      simp [contents, hA, hB]
    rw [hcontents] at hinc
    exact (List.pairwise_append.1 hinc).2.2 f (List.mem_append_right _ hf) g
      (List.mem_append_right _ (List.mem_append_left _ hg))
  have hpair : (∃ pre mid post, dataFiles = pre ++ a :: mid ++ b :: post) ∨
      ∃ pre mid post, dataFiles = pre ++ b :: mid ++ a :: post := by
    obtain ⟨pre, post, hsplit⟩ := List.append_of_mem ha
    rw [hsplit] at hb
    rcases List.mem_append.1 hb with hb | hb
    · obtain ⟨pre', mid, rfl⟩ := List.append_of_mem hb
      exact Or.inr ⟨pre', mid, post, hsplit⟩
    · obtain ⟨mid, post', rfl⟩ :=
        List.append_of_mem ((List.mem_cons.1 hb).resolve_left fun heq => hab heq.symm)
      exact Or.inl ⟨pre, mid, post', by rw [hsplit]; simp⟩
  right
  rcases hpair with ⟨pre, mid, post, hsplit⟩ | ⟨pre, mid, post, hsplit⟩
  · left
    rw [← hlastA, ← hfirstB]
    exact_mod_cast horder hframesA hframesB pre mid post hsplit g hg f' hf'
  · right
    rw [← hlastB, ← hfirstA]
    exact_mod_cast horder hframesB hframesA pre mid post hsplit g' hg' f hf

/-- So the windows of every mode cover the files. -/
theorem HasFrames.coverage (h : HasFrames files dataFiles) (hne : dataFiles ≠ [])
    (hinc : Increasing (contents files dataFiles)) (triggerMode : String) :
    Coverage triggerMode (fileInfos (fileInfo files) dataFiles)
      (triggers triggerMode (fileInfos (fileInfo files) dataFiles)) := by
  have hrec := h.recorded hne
  unfold triggers
  split_ifs with hper hmode
  · refine (coverage_perFile_iff hrec (by rw [hper]; decide)).2 fun i hi k hk _ hfirst hlast => ?_
    exfalso
    rcases h.disjoint hinc hi hk with rfl | hlt | hlt
    · exact lt_irrefl _ hlast
    · have := (hrec.2 k hk).2
      omega
    · omega
  · exact hrec.coverage_alignedChunks triggerMode
  · exact hrec.coverage_singleTrigger hmode

/-- A window of the triggers ends at the newest frame at the latest. -/
theorem window_le_getLast {triggerMode : String} {windows : List FixedTimeTC}
    (h : HasFrames files dataFiles) (hinc : Increasing (contents files dataFiles))
    (hcov : Coverage triggerMode (fileInfos (fileInfo files) dataFiles) windows) {last : Frame}
    (hlast : (contents files dataFiles).getLast? = some last) {w : FixedTimeTC} (hw : w ∈ windows) :
    w.window.2 ≤ last.timestamp := by
  obtain ⟨-, -, i, hi, hle⟩ := hcov.within w hw
  obtain ⟨name, hname, rfl⟩ := mem_fileInfos.1 hi
  obtain ⟨frames, hframes, hne⟩ := h name hname
  obtain ⟨-, ⟨g, hg, hglast⟩, -⟩ := fileInfo_spec hframes hne
  have hmem : g ∈ contents files dataFiles :=
    mem_contents.2 ⟨name, hname, by rw [hframes]; exact hg⟩
  have hnewest : g.timestamp ≤ last.timestamp := by
    by_cases heq : g = last
    · rw [heq]
    · exact (hinc.lt_getLast hlast hmem heq).le
  rw [FixedTimeTC.window, Int.toNat_le]
  exact hle.trans (hglast ▸ Int.ofNat_le.2 hnewest)

/-- In the other modes a timestamp before the end of everything is inside a window that goes
on after it. -/
theorem exists_inside {infos : List FileInfo} {triggerMode : String}
    (hmode : triggerMode ≠ "per-file") {t : ℤ} (hfirst : earliest (infos.map FileInfo.first) ≤ t)
    (hlast : t < latest (infos.map FileInfo.last)) :
    ∃ w ∈ triggers triggerMode infos, w.timestampStart ≤ t ∧ t < w.timestampEnd := by
  rw [triggers, if_neg hmode]
  by_cases haligned : triggerMode = "aligned-chunks"
  · rw [if_pos haligned, alignedChunks]
    generalize earliest (infos.map FileInfo.first) = es at *
    generalize latest (infos.map FileInfo.first) = ls
    generalize earliest (infos.map FileInfo.last) = ee
    generalize latest (infos.map FileInfo.last) = le at *
    have hboundary : ls ≤ (if ee < ls then ls else ee) := by split_ifs <;> omega
    generalize (if ee < ls then ls else ee) = boundary at *
    rcases Int.lt_or_le t ls with hlt | hle
    · exact ⟨⟨es, ls⟩, by split_ifs <;> simp, hfirst, hlt⟩
    rcases Int.lt_or_le t boundary with hlt | hle'
    · have hbody : boundary > ls := by omega
      exact ⟨⟨ls, boundary⟩, by rw [if_pos hbody]; simp, hle, hlt⟩
    · exact ⟨⟨boundary, le⟩, by split_ifs <;> simp, hle', hlast⟩
  · rw [if_neg haligned]
    exact ⟨_, List.mem_singleton_self _, hfirst, hlast⟩

/-- In the mode `per-file` every file has a window of its own. -/
theorem HasFrames.mem_perFile (h : HasFrames files dataFiles) (hne : dataFiles ≠ [])
    (hinc : Increasing (contents files dataFiles)) {i : FileInfo}
    (hi : i ∈ fileInfos (fileInfo files) dataFiles) :
    ⟨i.first, i.last⟩ ∈ perFile (fileInfos (fileInfo files) dataFiles) := by
  have hrec := h.recorded hne
  obtain ⟨k, hk, hfirst⟩ := exists_leading hi
  obtain rfl : i = k := by
    have hi' := (hrec.2 i hi).2
    have hk' := (hrec.2 k hk.mem).2
    rcases h.disjoint hinc hi hk.mem with heq | hlt | hlt
    · exact heq
    · omega
    · omega
  exact Readout.mem_perFile.2 ⟨i, hk, rfl⟩

/-- The newest frame of what it can still be missing in: of everything, or of a file. -/
def Final (files : String → Option (List Frame)) (dataFiles : List String) (triggerMode : String)
    (f : Frame) : Prop :=
  if triggerMode = "per-file" then
    ∃ name ∈ dataFiles, ((files name).getD []).getLast? = some f
  else (contents files dataFiles).getLast? = some f

/-- **A frame that is not final** is inside a window that goes on after it. -/
theorem HasFrames.inside (h : HasFrames files dataFiles) (hne : dataFiles ≠ [])
    (hinc : Increasing (contents files dataFiles)) {triggerMode : String} {f : Frame}
    (hf : f ∈ contents files dataFiles) (hfinal : ¬ Final files dataFiles triggerMode f) :
    ∃ w ∈ triggers triggerMode (fileInfos (fileInfo files) dataFiles),
      w.timestampStart ≤ f.timestamp ∧ (f.timestamp : ℤ) < w.timestampEnd := by
  have hrec := h.recorded hne
  obtain ⟨name, hname, hfile⟩ := mem_contents.1 hf
  obtain ⟨frames, hframes, hne'⟩ := h name hname
  rw [hframes, Option.getD_some] at hfile
  have hi : fileInfo files name ∈ fileInfos (fileInfo files) dataFiles :=
    mem_fileInfos.2 ⟨name, hname, rfl⟩
  obtain ⟨-, ⟨g, hg, hglast⟩, hall⟩ := fileInfo_spec hframes hne'
  by_cases hmode : triggerMode = "per-file"
  · rw [triggers, if_pos hmode]
    refine ⟨_, h.mem_perFile hne hinc hi, (hall f hfile).1, ?_⟩
    refine lt_of_le_of_ne (hall f hfile).2 fun heq : (f.timestamp : ℤ) =
      (fileInfo files name).last => hfinal ?_
    -- the frame with the last timestamp of its file is the last frame of it
    have hincFile : Increasing frames := by
      obtain ⟨pre, post, rfl⟩ := List.append_of_mem hname
      refine hinc.sublist ?_
      rw [contents, List.flatMap_append, List.flatMap_cons, hframes]
      exact (List.sublist_append_left _ _).trans (List.sublist_append_right _ _)
    obtain ⟨last, hlast⟩ := Option.isSome_iff_exists.1 (List.getLast?_isSome.2 hne')
    rw [Final, if_pos hmode]
    refine ⟨name, hname, ?_⟩
    rw [hframes, Option.getD_some, hlast]
    by_contra hfl
    have hlt := hincFile.lt_getLast hlast hfile fun heq => hfl (congrArg some heq.symm)
    have hle := (hall last (List.mem_of_getLast? hlast)).2
    omega
  · obtain ⟨last, hlast⟩ :=
      Option.isSome_iff_exists.1 (List.getLast?_isSome.2 (List.ne_nil_of_mem hf))
    have hlt := hinc.lt_getLast hlast hf fun heq => hfinal (by
      rw [Final, if_neg hmode, hlast, heq])
    obtain ⟨name', hname', hlastFile⟩ := mem_contents.1 (List.mem_of_getLast? hlast)
    obtain ⟨frames', hframes', hne''⟩ := h name' hname'
    rw [hframes', Option.getD_some] at hlastFile
    have hbefore := hrec.earliest_first.2 _ hi
    have hafter := hrec.latest_last.2 _ (mem_fileInfos.2 ⟨name', hname', rfl⟩)
    have hin := (hall f hfile).1
    have hin' := ((fileInfo_spec hframes' hne'').2.2 last hlastFile).2
    exact exists_inside hmode (by omega) (by omega)

end Files

/-! ### Result -/

/-- **A transform misses final frames at most.**  A link replays files that have frames, in
increasing order, in any interleaving with requests and cleanups; when its producer thread has
got to the end, and no worker is busy, each window of the triggers is requested once, in any
order and with cleanups anywhere.  Then every request can be served, the fragments have
nothing but frames of the files, and none twice; and a frame that is in none of them is the
newest of its file, or of all files when there is not a window for each. -/
theorem transform_complete {files : String → Option (List Frame)} {dataFiles : List String}
    {t t' : Link} (h : Link.Starts files dataFiles t) (hframes : HasFrames files dataFiles)
    (hinc : Increasing (contents files dataFiles)) {trace : List LinkTurn}
    (hrun : exec (Link.step files) t trace = some t')
    (hdone : t'.source.producerThread = .ready) (hworkers : t'.run.workers = [])
    (triggerMode : String) {schedule : List Service}
    (hrequested : (requestedWindows schedule).Perm
      ((triggers triggerMode (fileInfos (fileInfo files) dataFiles)).map FixedTimeTC.window)) :
    ∃ s, exec serve (t'.run.handler, t'.run.fragments) schedule = some s ∧
      (delivered s).Nodup ∧ (∀ f ∈ delivered s, f ∈ contents files dataFiles) ∧
      ∀ f ∈ contents files dataFiles, f ∉ delivered s → Final files dataFiles triggerMode f := by
  have hinv := exec_invariant (fun _ _ _ h hs => Link.Inv.step h hs) h.inv hrun
  have hwritten : t'.run.written = contents files dataFiles :=
    hinv.written_eq.trans (hinv.replays.sent_eq hdone)
  have hserving : Serving (contents files dataFiles) (t'.run.handler, t'.run.fragments) := by
    obtain ⟨d, hd, hst⟩ := hinv.implements (hwritten ▸ hinc)
    have hincluded : t'.run.included = delivered (t'.run.handler, t'.run.fragments) := by
      simp [RunState.included, hworkers, delivered]
    exact ⟨d, hincluded ▸ hd, hst.trans hwritten⟩
  have hne : contents files dataFiles ≠ [] := by
    obtain ⟨name, hname⟩ := List.exists_mem_of_ne_nil _ h.files_ne
    obtain ⟨frames, hopen, hsome⟩ := hframes name hname
    obtain ⟨f, hf⟩ := List.exists_mem_of_ne_nil _ hsome
    exact List.ne_nil_of_mem (mem_contents.2 ⟨name, hname, by rw [hopen]; exact hf⟩)
  obtain ⟨last, hlast⟩ := Option.isSome_iff_exists.1 (List.getLast?_isSome.2 hne)
  obtain ⟨s, hs, hserved⟩ := exec_isSome (Serving.isSome hne) hserving schedule
  obtain ⟨d, hd, hst⟩ := hserved
  refine ⟨s, hs, hd.nodup, fun f hf => hst ▸ hd.mem_stored_of_mem_claims hf,
    fun f hf hmissing => ?_⟩
  by_contra hfinal
  obtain ⟨w, hw, hbegin, hend⟩ := hframes.inside h.files_ne hinc hf hfinal
  obtain ⟨dr, hdr, hwindow⟩ := mem_requestedWindows.1
    (hrequested.mem_iff.2 (List.mem_map_of_mem hw))
  have hcov := hframes.coverage h.files_ne hinc triggerMode
  refine hmissing (delivered_of_inside hserving hs hdr hf hlast ?_ ?_ ?_)
  · rw [hwindow, FixedTimeTC.window, Int.toNat_le]
    exact hbegin
  · rw [hwindow, FixedTimeTC.window, Int.lt_toNat]
    exact hend
  · rw [hwindow]
    exact window_le_getLast hframes hinc hcov hlast hw

theorem hasFrames_recordings : HasFrames Link.recordings ["a", "b"] := by
  refine List.forall_mem_cons.2 ⟨⟨_, rfl, List.cons_ne_nil _ _⟩, List.forall_mem_cons.2 ⟨?_, ?_⟩⟩
  · exact ⟨_, rfl, List.cons_ne_nil _ _⟩
  · intro name hname
    cases hname

theorem transform_complete_recordings :
    ∃ t s, exec (Link.step Link.recordings) Link.recordingLink Link.recordingTrace = some t ∧
      exec serve (t.run.handler, t.run.fragments)
        [.request (requestFor 1 2), .cleanup, .request (requestFor 5 5)] = some s ∧
      ∀ f ∈ [(⟨1, []⟩ : Frame), ⟨2, []⟩, ⟨5, []⟩], f ∉ delivered s →
        Final Link.recordings ["a", "b"] "per-file" f := by
  have hfacts : ((exec (Link.step Link.recordings) Link.recordingLink
      Link.recordingTrace).any fun t =>
      decide (t.source.producerThread = .ready ∧ t.run.workers = [])) = true := by decide +kernel
  obtain ⟨t, ht, hend⟩ := (Option.any_eq_true _ _).1 hfacts
  obtain ⟨hdone, hworkers⟩ := of_decide_eq_true hend
  have hrequested : (requestedWindows
      [.request (requestFor 1 2), .cleanup, .request (requestFor 5 5)]).Perm
      ((triggers "per-file" (fileInfos (fileInfo Link.recordings) ["a", "b"])).map
        FixedTimeTC.window) := by decide
  obtain ⟨s, hs, -, -, hfinal⟩ := transform_complete Link.starts_recordingLink hasFrames_recordings
    (by decide) ht hdone hworkers "per-file" hrequested
  exact ⟨t, s, ht, hs, hfinal⟩

end Readout
end SNBModules
