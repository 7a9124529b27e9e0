import SNBModules.Lib.Streams
import SNBModules.Readout.FileReplay

/-!
# What a replay delivers

Source: `FileSourceModel.hxx`, `conf`, `open_next_file` and `run_produce`.

While the run marker stays set the producer thread has one way to go.  The
callback registry answers each time it is asked, and the thread waits in the
loop around it until the callback is there; everything else is decided by what
is left of the open file and of the file list.  So the way through a file is an
induction over its frames (`leadsTo_frames`), and the way through the files one
over the names that are left (`leadsTo_files`): a file without frames is passed
by opening the next one, and after the last the thread has no work any more.
-/

namespace SNBModules
namespace Readout
namespace FileSourceModel

open Lib

variable {files : String → Option (List Frame)} {e : FileSourceModel}

/-- A turn of `run_produce` with the run marker set, unless an issue is thrown;
`found` is the answer of the callback registry, if it is asked. -/
def produceTurn (files : String → Option (List Frame)) (e : FileSourceModel) (found : Bool) :
    Option FileSourceModel := do
  let r ← e.produce files true found
  r.toOption

/-- Whatever the registry answers, as long as it has the callback again and
again. -/
abbrev Produces (files : String → Option (List Frame)) (e e' : FileSourceModel) : Prop :=
  LeadsTo (produceTurn files) (fun found => found = true) e e'

/-! ### The turns -/

theorem leadsTo_read (h : e.producerThread = .loadMarker) :
    Produces files e { e with producerThread := .read } := by
  refine LeadsTo.of_step fun found => ?_
  simp [produceTurn, produce, h, Except.toOption]

/-- A frame that is read is about to be sent. -/
theorem leadsTo_send {elem : Frame} {rest : List Frame} (h : e.producerThread = .read)
    (hr : e.fileReader = some (elem :: rest)) :
    Produces files e { e with fileReader := some rest, producerThread := .send elem } := by
  refine LeadsTo.of_step fun found => ?_
  simp [produceTurn, produce, h, hr, Except.toOption]

/-- The thread waits for the callback. -/
theorem leadsTo_callback {elem : Frame} (h : e.producerThread = .send elem) :
    Produces files e { e with rawDataCallback := true } := by
  cases hcb : e.rawDataCallback with
  | true =>
      rw [← hcb]
      exact LeadsTo.refl e
  | false =>
      have hturn : ∀ found, produceTurn files e found =
          some { e with rawDataCallback := found } := fun found => by
        simp [produceTurn, produce, h, hcb, Except.toOption]
      refine LeadsTo.wait (fun found hf => ?_) fun found hf => ?_
      · rw [hturn found, Bool.eq_false_of_not_eq_true hf, ← hcb]
      · rw [hturn found, hf]

/-- With the callback the frame is handed on. -/
theorem leadsTo_sent {elem : Frame} (h : e.producerThread = .send elem)
    (hcb : e.rawDataCallback = true) :
    Produces files e { e with
      packetCountTot := e.packetCountTot + 1
      sent := e.sent ++ [elem]
      producerThread := .loadMarker } := by
  refine LeadsTo.of_step fun found => ?_
  simp [produceTurn, produce, h, hcb, Except.toOption]

/-- A failed read opens the next file. -/
theorem leadsTo_next {name : String} {frames : List Frame} (h : e.producerThread = .read)
    (hr : e.fileReader = some []) (hc : e.isConfigured = true)
    (hname : e.fileNames[e.fileIterator]? = some name) (hopen : files name = some frames) :
    Produces files e { e with
      fileReader := some frames
      fileIterator := e.fileIterator + 1
      producerThread := .loadMarker } := by
  have hnext : openNextFile files e =
      .ok { e with fileReader := some frames, fileIterator := e.fileIterator + 1 } := by
    simp [openNextFile, hname, hopen]
  refine LeadsTo.of_step fun found => ?_
  simp [produceTurn, produce, h, hr, hnext, bind, Except.bind, Except.toOption, hc]

/-- After the last file the thread has no work any more. -/
theorem leadsTo_end (h : e.producerThread = .read) (hr : e.fileReader = some [])
    (hname : e.fileNames[e.fileIterator]? = none) :
    Produces files e { e with
      fileReader := none, isConfigured := false, producerThread := .ready } := by
  have hnext : openNextFile files e = .ok { e with fileReader := none, isConfigured := false } :=
    openNextFile_of_end (List.getElem?_eq_none_iff.1 hname)
  refine LeadsTo.of_step fun found => ?_
  simp [produceTurn, produce, h, hr, hnext, bind, Except.bind, Except.toOption]

/-! ### The way through the files -/

/-- A frame of the open file is read and handed on. -/
theorem leadsTo_frame {elem : Frame} {rest : List Frame} (h : e.producerThread = .loadMarker)
    (hr : e.fileReader = some (elem :: rest)) :
    Produces files e { e with
      fileReader := some rest
      rawDataCallback := true
      packetCountTot := e.packetCountTot + 1
      sent := e.sent ++ [elem]
      producerThread := .loadMarker } := by
  have hread : Produces files e _ := leadsTo_read h
  have hsend := hread.trans (leadsTo_send rfl hr)
  have hcallback := hsend.trans (leadsTo_callback rfl)
  exact hcallback.trans (leadsTo_sent rfl rfl)

/-- Where the emulator is after the frames that the open file has: at its end,
with all of them handed on. -/
structure FileDone (e e' : FileSourceModel) (frames : List Frame) : Prop where
  producerThread : e'.producerThread = .loadMarker
  fileReader : e'.fileReader = some []
  isConfigured : e'.isConfigured = e.isConfigured
  fileNames : e'.fileNames = e.fileNames
  fileIterator : e'.fileIterator = e.fileIterator
  sent : e'.sent = e.sent ++ frames

/-- The way through the open file, by induction on its frames. -/
theorem leadsTo_frames (files : String → Option (List Frame)) {frames : List Frame}
    (h : e.producerThread = .loadMarker) (hr : e.fileReader = some frames) :
    ∃ e', Produces files e e' ∧ FileDone e e' frames := by
  induction frames generalizing e with
  | nil => exact ⟨e, LeadsTo.refl e, h, hr, rfl, rfl, rfl, (List.append_nil _).symm⟩
  | cons elem rest ih =>
      obtain ⟨e', hto, hdone⟩ := ih (e := { e with
        fileReader := some rest
        rawDataCallback := true
        packetCountTot := e.packetCountTot + 1
        sent := e.sent ++ [elem]
        producerThread := .loadMarker }) rfl rfl
      refine ⟨e', (leadsTo_frame h hr).trans hto, hdone.producerThread, hdone.fileReader,
        hdone.isConfigured, hdone.fileNames, hdone.fileIterator, ?_⟩
      rw [hdone.sent, List.append_assoc, List.singleton_append]

/-- What the files of a list have, one after the other. -/
def contents (files : String → Option (List Frame)) (names : List String) : List Frame :=
  names.flatMap fun name => (files name).getD []

theorem contents_cons {name : String} {frames : List Frame} (h : files name = some frames)
    (names : List String) : contents files (name :: names) = frames ++ contents files names := by
  rw [contents, List.flatMap_cons, h, Option.getD_some, contents]

/-- The way through the open file and the names that are left, by induction on
these. -/
theorem leadsTo_files (files : String → Option (List Frame)) {names : List String}
    {frames : List Frame}
    (h : e.producerThread = .loadMarker) (hr : e.fileReader = some frames)
    (hc : e.isConfigured = true) (hnames : e.fileNames.drop e.fileIterator = names)
    (hopen : ∀ name ∈ names, (files name).isSome) :
    ∃ e', Produces files e e' ∧ e'.producerThread = .ready ∧
      e'.sent = e.sent ++ frames ++ contents files names := by
  induction names generalizing e frames with
  | nil =>
      obtain ⟨e₁, hto, hdone⟩ := leadsTo_frames files h hr
      have hend : e₁.fileNames[e₁.fileIterator]? = none := by
        rw [hdone.fileNames, hdone.fileIterator]
        exact List.getElem?_eq_none (List.drop_eq_nil_iff.1 hnames)
      have hread := hto.trans (leadsTo_read hdone.producerThread)
      refine ⟨_, hread.trans (leadsTo_end rfl hdone.fileReader hend), rfl, ?_⟩
      rw [contents, List.flatMap_nil, List.append_nil]
      exact hdone.sent
  | cons name names ih =>
      obtain ⟨e₁, hto, hdone⟩ := leadsTo_frames files h hr
      obtain ⟨next, hnext⟩ := Option.isSome_iff_exists.1 (hopen name List.mem_cons_self)
      have hname : e₁.fileNames[e₁.fileIterator]? = some name := by
        rw [hdone.fileNames, hdone.fileIterator, ← List.head?_drop, hnames, List.head?_cons]
      have hleft : e₁.fileNames.drop (e₁.fileIterator + 1) = names := by
        rw [hdone.fileNames, hdone.fileIterator, ← List.tail_drop, hnames, List.tail_cons]
      have hread := hto.trans (leadsTo_read hdone.producerThread)
      have hopened := hread.trans
        (leadsTo_next rfl hdone.fileReader (hdone.isConfigured.trans hc) hname hnext)
      obtain ⟨e', hto', hready, hsent⟩ := ih (e := { e₁ with
          fileReader := some next
          fileIterator := e₁.fileIterator + 1
          producerThread := .loadMarker }) rfl rfl (hdone.isConfigured.trans hc) hleft
        fun n hn => hopen n (List.mem_cons_of_mem _ hn)
      refine ⟨e', hopened.trans hto', hready, ?_⟩
      rw [hsent, contents_cons hnext, ← List.append_assoc]
      exact congrArg (· ++ next ++ contents files names) hdone.sent

/-- `conf` opens the first file. -/
theorem conf_cons {name : String} {frames : List Frame} (hc : e.isConfigured = false)
    (sourceId : ℕ) (names : List String) (hopen : files name = some frames) :
    e.conf files sourceId (name :: names) =
      ({ e with
          sourceid := sourceId
          fileNames := name :: names
          fileReader := some frames
          fileIterator := 1
          isConfigured := true }, none) := by
  simp [conf, hc, openNextFile, setParameters, hopen]

/-- **Replay delivers everything.**  An emulator that is not configured yet is
configured with a list of files that is not empty and all of whose files open,
and started.  While the run marker stays set, whatever the callback registry
answers as long as the callback becomes available, the producer thread gets to
the end of its work, and what it has handed to the callback is the frames of the
files, in order and each once. -/
theorem runProduce_delivers (files : String → Option (List Frame)) {e : FileSourceModel}
    (hc : e.isConfigured = false) (sourceId : ℕ) {dataFiles : List String} (hne : dataFiles ≠ [])
    (hopen : ∀ name ∈ dataFiles, (files name).isSome) :
    ∃ e₁, e.conf files sourceId dataFiles = (e₁, none) ∧
      ∀ found : ℕ → Bool, (∀ n, ∃ m, n ≤ m ∧ found m = true) →
        ∃ n e₂, exec (produceTurn files) e₁.start ((List.range n).map found) = some e₂ ∧
          e₂.producerThread = .ready ∧ e₂.sent = e.sent ++ contents files dataFiles := by
  obtain ⟨name, names, rfl⟩ := List.exists_cons_of_ne_nil hne
  obtain ⟨frames, hframes⟩ := Option.isSome_iff_exists.1 (hopen name List.mem_cons_self)
  refine ⟨_, conf_cons hc sourceId names hframes, fun found hfound => ?_⟩
  obtain ⟨e₂, hto, hready, hsent⟩ := leadsTo_files files (e := start { e with
      sourceid := sourceId
      fileNames := name :: names
      fileReader := some frames
      fileIterator := 1
      isConfigured := true }) rfl rfl rfl rfl fun n hn => hopen n (List.mem_cons_of_mem _ hn)
  obtain ⟨n, hn⟩ := hto found hfound
  refine ⟨n, e₂, hn, hready, ?_⟩
  rw [hsent, contents_cons hframes, ← List.append_assoc]
  rfl

/-- The file "a" twice, with a file without frames in between. -/
theorem runProduce_delivers_empty_between :
    ∃ e₁, (new "link").conf (fun name => if name = "b" then some [] else fileA name) 7
        ["a", "b", "a"] = (e₁, none) ∧
      ∀ found : ℕ → Bool, (∀ n, ∃ m, n ≤ m ∧ found m = true) →
        ∃ n e₂, exec (produceTurn fun name => if name = "b" then some [] else fileA name)
            e₁.start ((List.range n).map found) = some e₂ ∧
          e₂.producerThread = .ready ∧
          e₂.sent = [⟨1, []⟩, ⟨2, []⟩, ⟨1, []⟩, ⟨2, []⟩] :=
  runProduce_delivers _ rfl 7 (List.cons_ne_nil _ _) (by decide)

end FileSourceModel
end Readout
end SNBModules
