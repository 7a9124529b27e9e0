import SNBModules.Transfer.JsonText
import SNBModules.Transfer.RoundTrip

/-!
# When a round trip gives everything back

Source: `transfer_metadata.cpp` and `group_metadata.cpp`, `export_to_string` and
`from_string`, which are also what a metadata file is written and read with.

`from_string` goes through the setters, in the order of the members.  The source
comes before the destination, so `set_src` compares it with the destination that
a new record has, `0.0.0.0:0`; a record whose source is that address cannot be
read (`fromString_export_iff`).  A group lists only the files whose records it has,
so the files that it still expects are lost (`GroupMetadata.ofString_export_iff`).
-/

namespace SNBModules
namespace Transfer

open Lib

namespace TransferMetadata

/-- A record that was read whole into a new one has a source that is not the
destination of a new record. -/
theorem src_ne_default_of_fromString {parse : String → Option Json} {data : String} {j : Json}
    (hparse : parse data = some j) {a : IPFormat} (hsource : j.readMember "source" getAddress
      setSrc = setSrc a) {cwd : String} {now : ℤ}
    (h : (blank.fromString cwd parse now data).2 = none) : a ≠ .default := by
  rw [fromString, hparse] at h
  have hrun : runSteps (fromStringSteps cwd now j) blank =
      ((runSteps (fromStringSteps cwd now j) blank).1, none) := Prod.ext rfl h
  simp only [fromStringSteps, runSteps_append_eq_none] at hrun
  obtain ⟨p, hp, q, hq, -⟩ := hrun
  obtain ⟨-, hdest⟩ := addresses_sizeSteps hp
  rw [addressSteps, runSteps_cons_eq_none, hsource] at hq
  obtain ⟨r, hr, -⟩ := hq
  obtain ⟨hne, -⟩ := setSrc_eq_ok.1 hr
  rwa [hdest] at hne

/-- The source is read as it was written. -/
theorem readMember_source {m : TransferMetadata} (h : m.src.WellFormed) (forceAll : Bool) :
    (m.exportJson forceAll).readMember "source" getAddress setSrc = setSrc m.src := by
  funext r
  rw [Json.readMember, (exportJson_carries m forceAll).source]
  simp [getAddress, Json.getString, IPFormat.new_getIpPort h, bind, Except.bind]

/-- A record whose source is that address throws when it is read. -/
theorem fromString_of_default_source {dump : Json → String} {parse : String → Option Json}
    (hparse : ∀ j, parse (dump j) = some j) {m : TransferMetadata} (hm : m.Representable)
    (hpath : RecordedPath m.filePath) (hsrc : m.src = .default) (cwd : String) (now : ℤ) :
    (blank.fromString cwd parse now (m.exportToStringPartial dump true).1).2 =
      some (.invalidArgument "The source cannot be equal to the destination") := by
  have hsize := runSteps_sizeSteps (exportJson_carries m true) hm cwd now blank
  simp only [normalised_of_recorded hpath] at hsize
  obtain ⟨-, hdest⟩ := addresses_sizeSteps hsize
  have hsource : (m.exportJson true).readMember "source" getAddress setSrc = setSrc .default := by
    rw [readMember_source (hsrc ▸ IPFormat.default_wellFormed), hsrc]
  have hthrow {r : TransferMetadata} (hr : r.dest = .default) :
      setSrc .default r =
        .error (.invalidArgument "The source cannot be equal to the destination") :=
    if_neg fun hne => hne hr.symm
  rw [exportToStringPartial, fromString, hparse]
  simp only [fromStringSteps, addressSteps, List.cons_append, runSteps_append_ok hsize, hsource]
  rw [runSteps_cons_error (hthrow hdest)]

/-- **The round trip of a record.**  For every record with a recorded path and
with different addresses, and every reading of the clock: the text of its export
is read into a new record, and gives it back in all but the flags, exactly when
its source is not the address that a new record has as its destination. -/
theorem fromString_export_iff {dump : Json → String} {parse : String → Option Json}
    (hparse : ∀ j, parse (dump j) = some j) {m : TransferMetadata} (hm : m.Representable)
    (hpath : RecordedPath m.filePath) (hsrc : m.src.WellFormed) (hdest : m.dest.WellFormed)
    (hne : m.dest ≠ m.src) (cwd : String) (now : ℤ) :
    (∃ m', blank.fromString cwd parse now (m.exportToStringPartial dump true).1 = (m', none) ∧
        m'.withoutFlags = m.withoutFlags) ↔
      m.src ≠ .default := by
  constructor
  · rintro ⟨m', hread, -⟩
    exact src_ne_default_of_fromString (hparse _) (readMember_source hsrc true)
      (congrArg Prod.snd hread)
  · intro hset
    obtain ⟨m', hread, heq⟩ :=
      ofString_exportJson (hparse _) hm hpath hsrc hdest hset hne cwd now
    exact ⟨m', ofString_eq_ok.1 hread, heq⟩

/-- A record on its way between two hosts. -/
def savedFile : TransferMetadata :=
  { blank with
    filePath := "/data/run1.hdf5", bytesSize := 100, bytesTransferred := 50, status := .paused
    src := ⟨"10.0.0.1", 5000⟩, dest := ⟨"10.0.0.2", 5001⟩, groupId := "run1", startTime := 7
    duration := 3 }

theorem savedFile_src : savedFile.src.WellFormed :=
  ⟨by decide, by simp [savedFile], by decide, by decide⟩

theorem savedFile_dest : savedFile.dest.WellFormed :=
  ⟨by decide, by simp [savedFile], by decide, by decide⟩

theorem fromString_export_iff_savedFile :
    ∃ m', blank.fromString "/" JsonText.parse 20
        (savedFile.exportToStringPartial JsonText.dump true).1 = (m', none) ∧
      m'.withoutFlags = savedFile.withoutFlags :=
  (fromString_export_iff JsonText.parse_dump (by decide) (by decide) savedFile_src savedFile_dest
    (by decide) "/" 20).2 (by decide)

/-- The same record before its source is known: reading it throws. -/
theorem unknown_source_not_read :
    RecordedPath savedFile.filePath ∧ savedFile.dest ≠ .default ∧
      (blank.fromString "/" JsonText.parse 20
        (({ savedFile with src := .default } : TransferMetadata).exportToStringPartial
          JsonText.dump true).1).2 =
        some (.invalidArgument "The source cannot be equal to the destination") := by
  exact ⟨by decide, by decide,
    fromString_of_default_source JsonText.parse_dump (by decide) (by decide) rfl "/" 20⟩

end TransferMetadata

namespace GroupMetadata

variable {ρ : Type}

/-- A group without its records, that expects all of its files. -/
def saved (path : ρ → String) (g : GroupMetadata ρ) : GroupMetadata ρ :=
  { g with
    transfersMeta := []
    expectedFiles := (g.transfersMeta.map path).toFinset ∪ g.expectedFiles }

/-- A group whose protocol was never set cannot be read. -/
theorem ofString_ne_ok_of_protocol {dump : Json → String} {parse : String → Option Json}
    (hparse : ∀ j, parse (dump j) = some j) {g : GroupMetadata ρ} (h : g.protocol = none)
    (path : ρ → String) (cwd : String) (g' : GroupMetadata ρ) :
    ofString cwd parse (g.exportToString dump path) ≠ .ok g' := by
  intro hread
  rw [ofString, exportToString, hparse] at hread
  obtain ⟨g₅, hread, -⟩ := bind_eq_ok.1 hread
  obtain ⟨g₄, hread, -⟩ := bind_eq_ok.1 hread
  obtain ⟨g₃, -, hprotocol⟩ := bind_eq_ok.1 hread
  have hmember : (g.exportJson dump path).member? "protocol" =
      some (.string "Not supported") := by
    simp [exportJson, h]
  rw [Json.readMember, hmember] at hprotocol
  cases hprotocol

/-- **The round trip of a group.**  For every group whose records have recorded
paths: the text of its export is read back as the same group, with every file
expected, exactly when its protocol is set and it expects no file but those
whose records it has; with distinct paths, when it expects none. -/
theorem ofString_export_iff {dump : Json → String} {parse : String → Option Json}
    (hparse : ∀ j, parse (dump j) = some j) {g : GroupMetadata ρ} {path : ρ → String}
    (hip : g.sourceIp.WellFormed) (hpaths : ∀ ptr ∈ g.transfersMeta, RecordedPath (path ptr))
    (cwd : String) :
    ofString cwd parse (g.exportToString dump path) = .ok (g.saved path) ↔
      g.protocol.isSome ∧ g.expectedFiles ⊆ (g.transfersMeta.map path).toFinset := by
  cases hprotocol : g.protocol with
  | none =>
      refine iff_of_false (ofString_ne_ok_of_protocol hparse hprotocol path cwd _) fun h => ?_
      exact Bool.false_ne_true h.1
  | some protocol =>
      rw [ofString_exportJson hparse hprotocol hip hpaths cwd, and_iff_right Option.isSome_some]
      constructor
      · intro h
        have hfiles := congrArg expectedFiles (Except.ok.inj h)
        exact Finset.union_eq_left.1 hfiles.symm
      · intro h
        rw [arriving, saved, Finset.union_eq_left.2 h]

/-- A group of one file whose record it has. -/
def savedGroup : GroupMetadata TransferMetadata :=
  ⟨"run1", some .rclone, .null, [TransferMetadata.savedFile], ∅, "client1", ⟨"10.0.0.1", 5000⟩⟩

theorem savedGroup_sourceIp : savedGroup.sourceIp.WellFormed :=
  ⟨by decide, by simp [savedGroup], by decide, by decide⟩

theorem savedGroup_paths : ∀ m ∈ savedGroup.transfersMeta, RecordedPath m.filePath := by
  intro m hm
  obtain rfl := List.mem_singleton.1 hm
  decide

theorem ofString_export_iff_savedGroup :
    ofString "/" JsonText.parse
        (savedGroup.exportToString JsonText.dump TransferMetadata.filePath) =
      .ok (savedGroup.saved TransferMetadata.filePath) :=
  (ofString_export_iff JsonText.parse_dump savedGroup_sourceIp savedGroup_paths "/").2
    ⟨rfl, Finset.empty_subset _⟩

/-- The same group while it expects another file: the file is lost. -/
theorem expected_file_not_saved :
    let g : GroupMetadata TransferMetadata :=
      { savedGroup with expectedFiles := {"/data/run2.hdf5"} }
    RecordedPath "/data/run2.hdf5" ∧ "/data/run2.hdf5" ∉ g.transfersMeta.map (·.filePath) ∧
      ofString "/" JsonText.parse (g.exportToString JsonText.dump (·.filePath)) =
        .ok (g.arriving (·.filePath)) ∧
      "/data/run2.hdf5" ∉ (g.arriving (·.filePath)).expectedFiles ∧
      ofString "/" JsonText.parse (g.exportToString JsonText.dump (·.filePath)) ≠
        .ok (g.saved (·.filePath)) := by
  intro g
  have hset : g.protocol = some .rclone := rfl
  have hread : ofString "/" JsonText.parse (g.exportToString JsonText.dump (·.filePath)) =
      .ok (g.arriving (·.filePath)) :=
    ofString_exportJson JsonText.parse_dump hset savedGroup_sourceIp savedGroup_paths "/"
  have hlost : "/data/run2.hdf5" ∉ (g.arriving (·.filePath)).expectedFiles := by decide
  refine ⟨by decide, by decide, hread, hlost, ?_⟩
  rw [hread]
  intro heq
  have hfiles := congrArg expectedFiles (Except.ok.inj heq)
  exact hlost (hfiles ▸ Finset.mem_union_right _ (Finset.mem_singleton_self _))

end GroupMetadata

end Transfer
end SNBModules
