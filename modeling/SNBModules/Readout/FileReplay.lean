import SNBModules.Lib.Runs
import SNBModules.Readout.Types

/-!
# File replay under run control

Source: `FileSourceModel.hxx` and `.hpp`, and `src/readout/FileReaderBase.cpp`,
`do_conf`, `do_scrap`, `do_start` and `do_stop`.

A `FileReaderBase` has one emulator for each raw data callback.  An emulator
opens its first file in `conf`; its producer thread, in `run_produce`, reads
frames while the run marker is set and opens the next file when a read fails.
When there is no next file it drops the reader and clears its own configured
flag, but the module's flag stays set; and `conf` sets the emulator's flag
whatever `open_next_file` did.

`files` is what the files have: the frames that the reader of a file yields one
after the other, or nothing when the file cannot be opened.
-/

namespace SNBModules
namespace Readout

open Lib

/-- Where the producer thread is: its work is done or not set, it is about to
load the run marker, to read, or to hand a frame on. -/
inductive ProducerThread where
  | ready
  | loadMarker
  | read
  | send (elem : Frame)
  deriving DecidableEq, Repr

/-- A `FileSourceModel`; `fileReader` is what is left of the open file, and
`sent` the frames handed to the raw data callback. -/
structure FileSourceModel where
  name : String
  isConfigured : Bool
  sourceid : ℕ
  fileNames : List String
  fileIterator : ℕ
  fileReader : Option (List Frame)
  rawDataCallback : Bool
  packetCountTot : ℕ
  sent : List Frame
  producerThread : ProducerThread
  deriving DecidableEq, Repr

/-- The issues that are thrown, and the null `link_conf` that `conf` would
dereference. -/
inductive ConfError where
  | genericConfigurationError (message : String)
  | configurationError (sourceid : ℕ) (message : String)
  | nullLinkConf
  deriving DecidableEq, Repr

/-- `DataMoveCallbackConf`: its UID and the source it is for. -/
structure CallbackConf where
  uid : String
  sourceId : ℕ
  deriving DecidableEq, Repr

/-- The configuration that `do_conf` reads: the source ids of the detector
streams, the raw data callbacks and the data files. -/
structure ReplayConf where
  streams : List ℕ
  rawDataCallbacks : List CallbackConf
  dataFiles : List String
  deriving DecidableEq, Repr

namespace FileSourceModel

variable (files : String → Option (List Frame))

/-- A new emulator. -/
def new (name : String) : FileSourceModel :=
  ⟨name, false, 0, [], 0, none, false, 0, [], .ready⟩

/-- `open_next_file`. -/
def openNextFile (e : FileSourceModel) : Except ConfError FileSourceModel :=
  match e.fileNames[e.fileIterator]? with
  | none => .ok { e with fileReader := none, isConfigured := false }
  | some name =>
      match files name with
      | some frames => .ok { e with fileReader := some frames, fileIterator := e.fileIterator + 1 }
      | none => .error (.configurationError e.sourceid "")

/-- The assignments of `conf` before it opens the first file. -/
def setParameters (e : FileSourceModel) (sourceId : ℕ) (dataFiles : List String) :
    FileSourceModel :=
  { e with sourceid := sourceId, fileNames := dataFiles, fileIterator := 0 }

/-- `conf`, with what it throws. -/
def conf (e : FileSourceModel) (sourceId : ℕ) (dataFiles : List String) :
    FileSourceModel × Option ConfError :=
  if e.isConfigured then (e, none)
  else
    match openNextFile files (e.setParameters sourceId dataFiles) with
    | .ok e => ({ e with isConfigured := true }, none)
    | .error err => (e.setParameters sourceId dataFiles, some err)

/-- `scrap`. -/
def scrap (e : FileSourceModel) : FileSourceModel :=
  { e with fileReader := none, isConfigured := false }

/-- `start` gives the producer thread its work. -/
def start (e : FileSourceModel) : FileSourceModel :=
  { e with packetCountTot := 0, producerThread := .loadMarker }

/-- The next turn of `run_produce`; `found` says whether the callback registry
has the callback, when it is asked.  No turn is possible when the thread has no
work, and none when it would read through a null reader. -/
def produce (e : FileSourceModel) (runMarker found : Bool) :
    Option (Except ConfError FileSourceModel) :=
  match e.producerThread with
  | .ready => none
  | .loadMarker => some (.ok { e with producerThread := if runMarker then .read else .ready })
  | .read =>
      match e.fileReader with
      | none => none
      | some (elem :: rest) =>
          some (.ok { e with fileReader := some rest, producerThread := .send elem })
      | some [] => some do
          let e ← openNextFile files e
          .ok { e with producerThread := if e.isConfigured then .loadMarker else .ready }
  | .send elem =>
      if e.rawDataCallback = false ∧ runMarker then some (.ok { e with rawDataCallback := found })
      else if runMarker = false then some (.ok { e with producerThread := .ready })
      else some (.ok { e with
        packetCountTot := e.packetCountTot + 1
        sent := e.sent ++ [elem]
        producerThread := .loadMarker })

end FileSourceModel

/-- A `FileReaderBase`. -/
structure FileReaderBase where
  configured : Bool
  sourceEmus : List FileSourceModel
  runMarker : Bool
  deriving DecidableEq, Repr

namespace FileReaderBase

variable (files : String → Option (List Frame))

/-- The loop of `do_conf` over the raw data callbacks. -/
def confEmus (c : ReplayConf) :
    List CallbackConf → List FileSourceModel → List FileSourceModel × Option ConfError
  | [], emus => (emus, none)
  | cb :: rest, emus =>
      match emus.find? (·.name = cb.uid) with
      | none => (emus, some (.genericConfigurationError ("Cannot find queue: " ++ cb.uid)))
      | some emu =>
          if emu.isConfigured then
            (emus, some (.genericConfigurationError ("Emulator configured twice: " ++ cb.uid)))
          else if cb.sourceId ∉ c.streams then (emus, some .nullLinkConf)
          else
            let (emu', err) := emu.conf files cb.sourceId c.dataFiles
            let emus' := emus.map fun e => if e.name = cb.uid then emu' else e
            match err with
            | none => confEmus c rest emus'
            | some err => (emus', some err)

/-- `do_conf`, with what it throws. -/
def doConf (b : FileReaderBase) (c : ReplayConf) : FileReaderBase × Option ConfError :=
  if b.configured then (b, none)
  else
    match confEmus files c c.rawDataCallbacks b.sourceEmus with
    | (emus, some err) => ({ b with sourceEmus := emus }, some err)
    | (emus, none) =>
        if emus.all (·.isConfigured) then ({ b with sourceEmus := emus, configured := true }, none)
        else
          ({ b with sourceEmus := emus },
            some (.genericConfigurationError "Not all links were configured"))

/-- `do_scrap`. -/
def doScrap (b : FileReaderBase) : FileReaderBase :=
  { b with sourceEmus := b.sourceEmus.map FileSourceModel.scrap, configured := false }

/-- `do_start`. -/
def doStart (b : FileReaderBase) : FileReaderBase :=
  { b with runMarker := true, sourceEmus := b.sourceEmus.map FileSourceModel.start }

end FileReaderBase

/-- Where run control has the module, or whether the process has ended. -/
inductive ControlState where
  | initial
  | configured
  | running
  | stopping
  | terminated
  deriving DecidableEq, Repr

/-- The module under run control. -/
structure Replay where
  control : ControlState
  base : FileReaderBase
  deriving DecidableEq, Repr

/-- `init` has made one emulator for each callback. -/
def Replay.new (uids : List String) : Replay :=
  ⟨.initial, ⟨false, uids.map FileSourceModel.new, false⟩⟩

/-- The commands, and the turns of the producer threads. -/
inductive ReplayAction where
  | conf (c : ReplayConf)
  | start
  | stop
  | stopped
  | scrap
  | produce (i : ℕ) (found : Bool)
  deriving DecidableEq, Repr

/-- One command or turn.  A command that throws leaves run control where it is;
an issue thrown in a producer thread, or a null `link_conf`, ends the process.
`stop` clears the run marker and returns when every producer thread is done. -/
def replayStep (files : String → Option (List Frame)) (s : Replay) : ReplayAction → Option Replay
  | .conf c =>
      if s.control = .initial then
        match s.base.doConf files c with
        | (b, none) => some ⟨.configured, b⟩
        | (b, some .nullLinkConf) => some ⟨.terminated, b⟩
        | (b, some _) => some ⟨.initial, b⟩
      else none
  | .start => if s.control = .configured then some ⟨.running, s.base.doStart⟩ else none
  | .stop =>
      if s.control = .running then some ⟨.stopping, { s.base with runMarker := false }⟩ else none
  | .stopped =>
      if s.control = .stopping ∧ s.base.sourceEmus.all (·.producerThread = .ready) then
        some { s with control := .configured }
      else none
  | .scrap => if s.control = .configured then some ⟨.initial, s.base.doScrap⟩ else none
  | .produce i found =>
      if s.control = .terminated then none
      else do
        let e ← s.base.sourceEmus[i]?
        let r ← e.produce files s.base.runMarker found
        match r with
        | .ok e =>
            some { s with base := { s.base with sourceEmus := s.base.sourceEmus.set i e } }
        | .error _ => some { s with control := .terminated }

/-- No producer thread is about to read through a null reader, and the module is
configured only while all its emulators are. -/
def ReplaySafe (s : Replay) : Prop :=
  (∀ e ∈ s.base.sourceEmus, e.producerThread = .read → e.fileReader ≠ none) ∧
    (s.base.configured = true → ∀ e ∈ s.base.sourceEmus, e.isConfigured = true)

instance (s : Replay) : Decidable (ReplaySafe s) := inferInstanceAs (Decidable (_ ∧ _))

/-- A producer thread that finds the run marker set has a file list that is not
empty, and one whose read fails has another file in the list. -/
def FilesLeft (s : Replay) : ReplayAction → Prop
  | .produce i _ => ∀ e ∈ s.base.sourceEmus[i]?,
      (e.producerThread = .loadMarker → s.base.runMarker = true → e.fileNames ≠ []) ∧
        (e.producerThread = .read → e.fileReader = some [] → e.fileIterator < e.fileNames.length)
  | _ => True

instance (s : Replay) : ∀ a, Decidable (FilesLeft s a)
  | .produce i _ =>
      inferInstanceAs (Decidable (∀ e ∈ s.base.sourceEmus[i]?,
        (e.producerThread = .loadMarker → s.base.runMarker = true → e.fileNames ≠ []) ∧
          (e.producerThread = .read → e.fileReader = some [] →
            e.fileIterator < e.fileNames.length)))
  | .conf _ | .start | .stop | .stopped | .scrap => inferInstanceAs (Decidable True)

/-! ### What the functions do -/

namespace FileSourceModel

variable {files : String → Option (List Frame)} {e : FileSourceModel}

/-- Past the last file the reader is dropped and the emulator is not configured
any more. -/
theorem openNextFile_of_end (h : e.fileNames.length ≤ e.fileIterator) :
    openNextFile files e = .ok { e with fileReader := none, isConfigured := false } := by
  rw [openNextFile, List.getElem?_eq_none h]

/-- Before it the next file is opened, or the issue thrown. -/
theorem openNextFile_of_lt (files : String → Option (List Frame))
    (h : e.fileIterator < e.fileNames.length) :
    (∃ frames, openNextFile files e =
        .ok { e with fileReader := some frames, fileIterator := e.fileIterator + 1 }) ∨
      openNextFile files e = .error (.configurationError e.sourceid "") := by
  rw [openNextFile, List.getElem?_eq_getElem h]
  cases hopen : files e.fileNames[e.fileIterator] with
  | none => right; simp [hopen]
  | some frames => left; exact ⟨frames, by simp [hopen]⟩

/-- While an emulator is configured it has a reader, unless it has no files. -/
def ReaderOpen (e : FileSourceModel) : Prop :=
  e.isConfigured = true → (e.fileReader = none ↔ e.fileNames = [])

/-- `conf` opens the first file, if there is one. -/
theorem conf_readerOpen (h : e.ReaderOpen) (sourceId : ℕ) (dataFiles : List String) :
    (e.conf files sourceId dataFiles).1.ReaderOpen := by
  unfold conf
  split
  · exact h
  · rename_i hnot
    have hfalse : e.isConfigured = false := by simpa using hnot
    cases dataFiles with
    | nil =>
        rw [openNextFile_of_end (Nat.le_refl _)]
        intro _
        simp [setParameters]
    | cons name rest =>
        rcases openNextFile_of_lt files (e := e.setParameters sourceId (name :: rest))
          (Nat.zero_lt_succ _) with ⟨frames, hopen⟩ | hopen
        · rw [hopen]
          intro _
          simp [setParameters]
        · rw [hopen]
          intro hconf
          exact absurd hconf (by simp [setParameters, hfalse])

/-- `conf` does not touch the producer thread's work. -/
theorem conf_producerThread (sourceId : ℕ) (dataFiles : List String) :
    (e.conf files sourceId dataFiles).1.producerThread = e.producerThread := by
  unfold conf
  split
  · rfl
  · unfold openNextFile
    split
    · rename_i hopen
      split at hopen
      · cases hopen; rfl
      · split at hopen
        · cases hopen; rfl
        · cases hopen
    · rfl

/-- A turn of `run_produce` that finds another file when it needs one keeps an
emulator that is configured, with its reader open, that way; a thread that is
about to read has files. -/
theorem produce_readerOpen {e' : FileSourceModel} {runMarker found : Bool}
    (h : e.ReaderOpen) (hread : e.producerThread = .read → e.fileNames ≠ [])
    (hmarker : e.producerThread = .loadMarker → runMarker = true → e.fileNames ≠ [])
    (hnext : e.producerThread = .read → e.fileReader = some [] →
      e.fileIterator < e.fileNames.length)
    (hp : e.produce files runMarker found = some (.ok e')) :
    e'.ReaderOpen ∧ e'.isConfigured = e.isConfigured ∧
      (e'.producerThread = .read → e'.fileNames ≠ []) := by
  unfold produce at hp
  split at hp
  · cases hp
  · rename_i hthread
    cases hp
    refine ⟨h, rfl, ?_⟩
    cases runMarker with
    | true => exact fun _ => hmarker hthread rfl
    | false => exact fun hr => ProducerThread.noConfusion hr
  · rename_i hthread
    split at hp
    · cases hp
    · rename_i elem rest hreader
      cases hp
      refine ⟨fun hc => ?_, rfl, fun hr => ProducerThread.noConfusion hr⟩
      have := h hc
      simpa [hreader] using this
    · rename_i hreader
      rcases openNextFile_of_lt files (hnext hthread hreader) with ⟨frames, hopen⟩ | hopen
      · rw [hopen] at hp
        cases hp
        refine ⟨fun _ => ?_, rfl, fun _ => hread hthread⟩
        simpa using hread hthread
      · rw [hopen] at hp
        cases hp
  · split at hp
    · rename_i hthread _
      cases hp
      exact ⟨h, rfl, fun hr => absurd (hthread.symm.trans hr) (by simp)⟩
    · split at hp
      · cases hp
        exact ⟨h, rfl, fun hr => ProducerThread.noConfusion hr⟩
      · cases hp
        exact ⟨h, rfl, fun hr => ProducerThread.noConfusion hr⟩

end FileSourceModel

/-- An emulator whose producer thread has no work. -/
def Resting (e : FileSourceModel) : Prop := e.ReaderOpen ∧ e.producerThread = .ready

theorem FileReaderBase.confEmus_resting (files : String → Option (List Frame)) (c : ReplayConf)
    (cbs : List CallbackConf) {emus : List FileSourceModel} (h : ∀ e ∈ emus, Resting e) :
    ∀ e ∈ (confEmus files c cbs emus).1, Resting e := by
  induction cbs generalizing emus with
  | nil => exact h
  | cons cb rest ih =>
      rw [confEmus]
      split
      · exact h
      · rename_i emu hfind
        split
        · exact h
        · split
          · exact h
          · have hemu := h emu (List.mem_of_find?_eq_some hfind)
            have hmap : ∀ e ∈ emus.map fun e => if e.name = cb.uid then
                (emu.conf files cb.sourceId c.dataFiles).1 else e, Resting e := by
              intro e he
              obtain ⟨e₀, he₀, rfl⟩ := List.mem_map.1 he
              split
              · exact ⟨FileSourceModel.conf_readerOpen hemu.1 _ _,
                  (FileSourceModel.conf_producerThread _ _).trans hemu.2⟩
              · exact h e₀ he₀
            dsimp only
            split
            · exact ih hmap
            · exact hmap

/-- `do_conf` leaves the emulators resting, and sets the module's flag only when
all of them are configured. -/
theorem FileReaderBase.doConf_resting (files : String → Option (List Frame))
    {b : FileReaderBase} (c : ReplayConf) (h : ∀ e ∈ b.sourceEmus, Resting e)
    (hconf : b.configured = true → ∀ e ∈ b.sourceEmus, e.isConfigured = true) :
    (∀ e ∈ (b.doConf files c).1.sourceEmus, Resting e) ∧
      ((b.doConf files c).1.configured = true →
        ∀ e ∈ (b.doConf files c).1.sourceEmus, e.isConfigured = true) ∧
      ((b.doConf files c).2 = none → (b.doConf files c).1.configured = true) := by
  have hrest := FileReaderBase.confEmus_resting files c c.rawDataCallbacks h
  unfold doConf
  by_cases hb : b.configured = true
  · rw [if_pos hb]
    exact ⟨h, hconf, fun _ => hb⟩
  · rw [if_neg hb]
    split
    · rename_i emus err hloop
      rw [hloop] at hrest
      exact ⟨hrest, fun hc => absurd hc hb, fun herr => by cases herr⟩
    · rename_i emus hloop
      rw [hloop] at hrest
      split
      · rename_i hall
        exact ⟨hrest, fun _ e he => List.all_eq_true.1 hall e he, fun _ => rfl⟩
      · exact ⟨hrest, fun hc => absurd hc hb, fun herr => by cases herr⟩

/-! ### The invariant -/

/-- The readers are open; a producer thread works only in a configured module,
and has files when it is about to read; between runs all threads rest. -/
structure ReplayInv (s : Replay) : Prop where
  readerOpen : ∀ e ∈ s.base.sourceEmus, e.ReaderOpen
  working : ∀ e ∈ s.base.sourceEmus, e.producerThread ≠ .ready → s.base.configured = true
  reading : ∀ e ∈ s.base.sourceEmus, e.producerThread = .read → e.fileNames ≠ []
  emusConfigured : s.base.configured = true → ∀ e ∈ s.base.sourceEmus, e.isConfigured = true
  resting : s.control = .initial ∨ s.control = .configured →
    ∀ e ∈ s.base.sourceEmus, e.producerThread = .ready
  configured : s.control = .configured ∨ s.control = .running ∨ s.control = .stopping →
    s.base.configured = true

namespace ReplayInv

variable {files : String → Option (List Frame)} {s s' : Replay}

theorem safe (h : ReplayInv s) : ReplaySafe s := by
  refine ⟨fun e he hread hnull => ?_, h.emusConfigured⟩
  have hconf := h.emusConfigured (h.working e he (by rw [hread]; decide)) e he
  exact h.reading e he hread ((h.readerOpen e he hconf).1 hnull)

/-- All threads rest: what is left to say about such a state. -/
theorem of_resting (hrest : ∀ e ∈ s.base.sourceEmus, Resting e)
    (hemus : s.base.configured = true → ∀ e ∈ s.base.sourceEmus, e.isConfigured = true)
    (hconf : s.control = .configured ∨ s.control = .running ∨ s.control = .stopping →
      s.base.configured = true) : ReplayInv s where
  readerOpen e he := (hrest e he).1
  working e he hwork := absurd (hrest e he).2 hwork
  reading e he hread := absurd ((hrest e he).2.symm.trans hread) (by decide)
  emusConfigured := hemus
  resting _ e he := (hrest e he).2
  configured := hconf

theorem new (uids : List String) : ReplayInv (.new uids) := by
  refine of_resting (fun e he => ?_) (fun hc => Bool.noConfusion hc) (by simp [Replay.new])
  obtain ⟨name, -, rfl⟩ := List.mem_map.1 he
  exact ⟨fun hc => Bool.noConfusion hc, rfl⟩

theorem rests (h : ReplayInv s) (hc : s.control = .initial ∨ s.control = .configured) :
    ∀ e ∈ s.base.sourceEmus, Resting e :=
  fun e he => ⟨h.readerOpen e he, h.resting hc e he⟩

/-- A turn of a producer thread, taken apart. -/
theorem step_produce {i : ℕ} {found : Bool} (hs : replayStep files s (.produce i found) = some s') :
    s.control ≠ .terminated ∧ ∃ e, s.base.sourceEmus[i]? = some e ∧
      ((∃ e', e.produce files s.base.runMarker found = some (.ok e') ∧
          s' = { s with base := { s.base with sourceEmus := s.base.sourceEmus.set i e' } }) ∨
        ∃ err, e.produce files s.base.runMarker found = some (.error err) ∧
          s' = { s with control := .terminated }) := by
  simp only [replayStep] at hs
  split at hs
  · cases hs
  · rename_i hterm
    obtain ⟨e, he, hs⟩ := Option.bind_eq_some_iff.1 hs
    obtain ⟨r, hp, hs⟩ := Option.bind_eq_some_iff.1 hs
    refine ⟨hterm, e, he, ?_⟩
    cases r with
    | ok e' => exact Or.inl ⟨e', hp, (Option.some.inj hs).symm⟩
    | error err => exact Or.inr ⟨err, hp, (Option.some.inj hs).symm⟩

theorem produce_working {e : FileSourceModel} {runMarker found : Bool}
    {r : Except ConfError FileSourceModel} (hp : e.produce files runMarker found = some r) :
    e.producerThread ≠ .ready := by
  intro hready
  rw [FileSourceModel.produce, hready] at hp
  cases hp

/-- Every command, and every turn that finds files, keeps the invariant. -/
theorem step {a : ReplayAction} (h : ReplayInv s) (hok : FilesLeft s a)
    (hs : replayStep files s a = some s') : ReplayInv s' := by
  cases a with
  | conf c =>
      obtain ⟨hinit, hs⟩ := Option.ite_none_right_eq_some.1 hs
      obtain ⟨hrest, hemus, hset⟩ := FileReaderBase.doConf_resting files c
        (h.rests (Or.inl hinit)) h.emusConfigured
      split at hs
      · rename_i b hdo
        rw [hdo] at hrest hemus hset
        obtain rfl := Option.some.inj hs
        exact of_resting hrest hemus fun _ => hset rfl
      · rename_i b hdo
        rw [hdo] at hrest hemus
        obtain rfl := Option.some.inj hs
        exact of_resting hrest hemus (by simp)
      · rename_i b err _ hdo
        rw [hdo] at hrest hemus
        obtain rfl := Option.some.inj hs
        exact of_resting hrest hemus (by simp)
  | start =>
      obtain ⟨hc, hs⟩ := Option.ite_none_right_eq_some.1 hs
      obtain rfl := Option.some.inj hs
      have hconf := h.configured (Or.inl hc)
      refine ⟨fun e he => ?_, fun _ _ _ => hconf, fun e he hread => ?_, fun hb e he => ?_,
        by simp, fun _ => hconf⟩
      · obtain ⟨e₀, he₀, rfl⟩ := List.mem_map.1 he
        exact h.readerOpen e₀ he₀
      · obtain ⟨e₀, he₀, rfl⟩ := List.mem_map.1 he
        exact ProducerThread.noConfusion hread
      · obtain ⟨e₀, he₀, rfl⟩ := List.mem_map.1 he
        exact h.emusConfigured hb e₀ he₀
  | stop =>
      obtain ⟨hc, hs⟩ := Option.ite_none_right_eq_some.1 hs
      obtain rfl := Option.some.inj hs
      exact ⟨h.readerOpen, h.working, h.reading, h.emusConfigured, by simp,
        fun _ => h.configured (Or.inr (Or.inl hc))⟩
  | stopped =>
      obtain ⟨⟨hc, hall⟩, hs⟩ := Option.ite_none_right_eq_some.1 hs
      obtain rfl := Option.some.inj hs
      refine ⟨h.readerOpen, h.working, h.reading, h.emusConfigured, fun _ e he => ?_,
        fun _ => h.configured (Or.inr (Or.inr hc))⟩
      simpa using List.all_eq_true.1 hall e he
  | scrap =>
      obtain ⟨hc, hs⟩ := Option.ite_none_right_eq_some.1 hs
      obtain rfl := Option.some.inj hs
      refine of_resting (fun e he => ?_) (fun hb => Bool.noConfusion hb) (by simp)
      obtain ⟨e₀, he₀, rfl⟩ := List.mem_map.1 he
      exact ⟨fun hconf => Bool.noConfusion hconf, h.resting (Or.inr hc) e₀ he₀⟩
  | produce i found =>
      obtain ⟨hterm, e, he, ⟨e', hp, rfl⟩ | ⟨err, hp, rfl⟩⟩ := step_produce hs
      · have hmem := List.mem_of_getElem? he
        have hconf := h.working e hmem (produce_working hp)
        obtain ⟨hmarker, hnext⟩ := hok e he
        obtain ⟨hopen, hsame, hread⟩ := FileSourceModel.produce_readerOpen (h.readerOpen e hmem)
          (h.reading e hmem) hmarker hnext hp
        have hset : ∀ f ∈ s.base.sourceEmus.set i e', f = e' ∨ f ∈ s.base.sourceEmus :=
          fun f hf => (List.mem_or_eq_of_mem_set hf).symm
        refine ⟨fun f hf => ?_, fun _ _ _ => hconf, fun f hf hr => ?_, fun hb f hf => ?_,
          fun hc => ?_, fun _ => hconf⟩
        · rcases hset f hf with rfl | hf
          · exact hopen
          · exact h.readerOpen f hf
        · rcases hset f hf with rfl | hf
          · exact hread hr
          · exact h.reading f hf hr
        · rcases hset f hf with rfl | hf
          · exact hsame.trans (h.emusConfigured hb e hmem)
          · exact h.emusConfigured hb f hf
        · exact absurd (h.resting hc e hmem) (produce_working hp)
      · exact ⟨h.readerOpen, h.working, h.reading, h.emusConfigured, by simp, by simp⟩

/-- A turn that finds no file breaks safety at once: without any file the thread
is about to read through a null reader, and after the last one the emulator is
not configured any more while the module is. -/
theorem not_safe_of_not_filesLeft {a : ReplayAction} (h : ReplayInv s) (hbad : ¬ FilesLeft s a)
    (hs : replayStep files s a = some s') : ¬ ReplaySafe s' := by
  cases a with
  | conf _ | start | stop | stopped | scrap => exact absurd trivial hbad
  | produce i found =>
      obtain ⟨-, e, he, hstep⟩ := step_produce hs
      have hmem := List.mem_of_getElem? he
      obtain ⟨hi, -⟩ := List.getElem?_eq_some_iff.1 he
      have hnot : ¬ ((e.producerThread = .loadMarker → s.base.runMarker = true →
          e.fileNames ≠ []) ∧ (e.producerThread = .read → e.fileReader = some [] →
          e.fileIterator < e.fileNames.length)) := fun hok => hbad fun f hf => by
        obtain rfl := Option.some.inj (he.symm.trans hf)
        exact hok
      rcases not_and_or.1 hnot with hnot | hnot
      · obtain ⟨hthread, hnot⟩ := Classical.not_imp.1 hnot
        obtain ⟨hmarker, hnil⟩ := Classical.not_imp.1 hnot
        have hp : e.produce files s.base.runMarker found =
            some (.ok { e with producerThread := .read }) := by
          rw [FileSourceModel.produce, hthread, hmarker]
          rfl
        rcases hstep with ⟨e', hp', rfl⟩ | ⟨err, hp', -⟩
        · obtain rfl : { e with producerThread := .read } = e' := by simpa [hp] using hp'
          have hconf := h.emusConfigured (h.working e hmem (by rw [hthread]; decide)) e hmem
          intro hsafe
          exact hsafe.1 _ (List.mem_set hi _) rfl
            ((h.readerOpen e hmem hconf).2 (not_not.1 hnil))
        · rw [hp] at hp'
          cases hp'
      · obtain ⟨hthread, hnot⟩ := Classical.not_imp.1 hnot
        obtain ⟨hreader, hend⟩ := Classical.not_imp.1 hnot
        have hp : e.produce files s.base.runMarker found =
            some (.ok { e with
              fileReader := none, isConfigured := false, producerThread := .ready }) := by
          rw [FileSourceModel.produce, hthread, hreader]
          simp only [FileSourceModel.openNextFile_of_end (Nat.le_of_not_lt hend)]
          rfl
        rcases hstep with ⟨e', hp', rfl⟩ | ⟨err, hp', -⟩
        · obtain rfl : { e with
              fileReader := none, isConfigured := false, producerThread := .ready } = e' := by
            simpa [hp] using hp'
          intro hsafe
          have hconf := h.working e hmem (by rw [hthread]; decide)
          exact Bool.noConfusion (hsafe.2 hconf _ (List.mem_set hi _))
        · rw [hp] at hp'
          cases hp'

end ReplayInv

/-- **Replay safety.**  Whatever the files have, a sequence of commands and turns
is safe in every state exactly when no producer thread runs without a file list
or past its end. -/
theorem replay_safe_iff (files : String → Option (List Frame)) (uids : List String)
    {l : List ReplayAction} {s : Replay}
    (hrun : exec (replayStep files) (.new uids) l = some s) :
    Always (replayStep files) ReplaySafe (.new uids) l ↔
      Guarded (replayStep files) FilesLeft (.new uids) l :=
  always_iff_guarded (fun _ h => h.safe) (fun _ _ _ h hok hs => h.step hok hs)
    (fun _ _ _ h hbad hs => h.not_safe_of_not_filesLeft hbad hs) (ReplayInv.new uids) hrun

/-- A configuration with one callback. -/
def oneCallback (dataFiles : List String) : ReplayConf := ⟨[7], [⟨"link", 7⟩], dataFiles⟩

/-- The file "a" has two frames, and there is no other. -/
def fileA : String → Option (List Frame)
  | "a" => some [⟨1, []⟩, ⟨2, []⟩]
  | _ => none

/-- Stopped after the first of two frames, the replay is safe. -/
theorem replay_safe_iff_stopped :
    Always (replayStep fileA) ReplaySafe (.new ["link"])
      [.conf (oneCallback ["a"]), .start, .produce 0 false, .produce 0 false, .produce 0 true,
        .produce 0 true, .stop, .produce 0 false, .stopped, .start] :=
  (replay_safe_iff fileA ["link"] (Option.some_get (by decide)).symm).2 (by decide)

/-- Replayed to its end, the emulator is not configured while the module is, and
in the next run its thread is about to read through a null reader; and a
configuration without files is accepted and leads there in the first run. -/
theorem replay_past_end :
    (∃ s, exec (replayStep fileA) (.new ["link"])
        [.conf (oneCallback ["a"]), .start, .produce 0 false, .produce 0 false, .produce 0 true,
          .produce 0 true, .produce 0 false, .produce 0 false, .produce 0 true, .produce 0 false,
          .produce 0 false] = some s ∧
      s.base.configured = true ∧ s.base.sourceEmus.any (·.isConfigured) = false ∧
      ¬ ReplaySafe s ∧
      ∃ s', exec (replayStep fileA) s [.stop, .stopped, .start, .produce 0 false] = some s' ∧
        ¬ ReplaySafe s' ∧ replayStep fileA s' (.produce 0 false) = none) ∧
    ∃ s, exec (replayStep fileA) (.new ["link"])
        [.conf (oneCallback []), .start, .produce 0 false] = some s ∧ ¬ ReplaySafe s := by
  refine ⟨⟨_, (Option.some_get (by decide)).symm, by decide, by decide, by decide, _,
    (Option.some_get (by decide)).symm, by decide, by decide⟩, _,
    (Option.some_get (by decide)).symm, by decide⟩

end Readout
end SNBModules
