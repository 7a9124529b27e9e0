import SNBModules.Transfer.Metadata

/-!
# Group metadata

Source: `group_metadata.hpp` and `group_metadata.cpp`.

A `GroupMetadata` lists the records of one group of transfers through shared
pointers.  It is generic in the type `ρ` of the pointers, which `addFile`
compares and nothing else does.
-/

namespace SNBModules
namespace Transfer

open Lib

/-- `GroupMetadata`; `m_protocol` has no initial value, and is read as one outside
the enumeration until it is set. -/
structure GroupMetadata (ρ : Type) where
  groupId : String
  protocol : Option ProtocolType
  protocolOptions : Json
  transfersMeta : List ρ
  expectedFiles : Finset String
  sourceId : String
  sourceIp : IPFormat

namespace GroupMetadata

variable {ρ : Type}

/-- The object before anything is read into it. -/
def blank : GroupMetadata ρ := ⟨"", none, .null, [], ∅, "", .default⟩

/-- `set_group_id`. -/
def setGroupId (groupId : String) (g : GroupMetadata ρ) : GroupMetadata ρ := { g with groupId }

/-- `set_source_id`. -/
def setSourceId (sourceId : String) (g : GroupMetadata ρ) : GroupMetadata ρ := { g with sourceId }

/-- `set_protocol_options`. -/
def setProtocolOptions (protocolOptions : Json) (g : GroupMetadata ρ) : GroupMetadata ρ :=
  { g with protocolOptions }

/-- `set_transfers_meta`. -/
def setTransfersMeta (transfersMeta : List ρ) (g : GroupMetadata ρ) : GroupMetadata ρ :=
  { g with transfersMeta }

/-- `set_expected_files`. -/
def setExpectedFiles (expectedFiles : Finset String) (g : GroupMetadata ρ) : GroupMetadata ρ :=
  { g with expectedFiles }

/-- `add_expected_file`. -/
def addExpectedFile (cwd file : String) (g : GroupMetadata ρ) : Except Exn (GroupMetadata ρ) := do
  let file ← normalised cwd file
  .ok { g with expectedFiles := insert file g.expectedFiles }

/-- `add_file` of the record `m` behind the pointer `ptr`: the group, the record,
and the pointer that is returned.  A record that is neither expected nor of the
group is reported as fatal, and the first of the list returned. -/
def addFile [DecidableEq ρ] (g : GroupMetadata ρ) (ptr : ρ) (m : TransferMetadata) :
    GroupMetadata ρ × TransferMetadata × Option ρ :=
  if m.filePath ∈ g.expectedFiles then
    ({ g with
        expectedFiles := g.expectedFiles.erase m.filePath
        transfersMeta := g.transfersMeta ++ [ptr] },
      m.setGroupId g.groupId, some ptr)
  else if m.groupId = g.groupId then
    ({ g with transfersMeta := g.transfersMeta.erase ptr ++ [ptr] }, m, some ptr)
  else
    (g, m, g.transfersMeta.head?)

/-- The value that `export_to_string` builds; `path` reads the path behind a
pointer. -/
def exportJson (dump : Json → String) (path : ρ → String) (g : GroupMetadata ρ) : Json :=
  (((((Json.null.set "transfer_id" (.string g.groupId)).set
    "source_id" (.string g.sourceId)).set
    "source_ip" (.string g.sourceIp.getIpPort)).set
    "protocol" (.string (match g.protocol with
      | some p => protocolsToString p
      | none => "Not supported"))).set
    "protocol_options" (.string (dump g.protocolOptions))).set
    "files" (.array (g.transfersMeta.map fun ptr => .string (path ptr)))

/-- `export_to_string`. -/
def exportToString (dump : Json → String) (path : ρ → String) (g : GroupMetadata ρ) : String :=
  dump (g.exportJson dump path)

/-- `set_protocol` of a name; an unknown one makes `value()` throw. -/
def readProtocol (s : String) (g : GroupMetadata ρ) : Except Exn (GroupMetadata ρ) :=
  match stringToProtocols s with
  | some p => .ok { g with protocol := some p }
  | none => .error .badOptionalAccess

/-- `set_protocol_options` of a text. -/
def readProtocolOptions (parse : String → Option Json) (s : String) (g : GroupMetadata ρ) :
    Except Exn (GroupMetadata ρ) :=
  match parse s with
  | some options => .ok (g.setProtocolOptions options)
  | none => .error .jsonParseError

/-- The loop over the members of `files`. -/
def readFiles (cwd : String) (files : List String) (g : GroupMetadata ρ) :
    Except Exn (GroupMetadata ρ) :=
  files.foldlM (fun g file => g.addExpectedFile cwd file) g

/-- `from_string`, on a new object. -/
def ofString (cwd : String) (parse : String → Option Json) (data : String) :
    Except Exn (GroupMetadata ρ) :=
  match parse data with
  | none => .error .jsonParseError
  | some j =>
      j.readMember "transfer_id" Json.getString (fun s g => .ok (g.setGroupId s)) blank >>=
      j.readMember "source_id" Json.getString (fun s g => .ok (g.setSourceId s)) >>=
      j.readMember "source_ip" TransferMetadata.getAddress
        (fun a g => .ok { g with sourceIp := a }) >>=
      j.readMember "protocol" Json.getString readProtocol >>=
      j.readMember "protocol_options" Json.getString (readProtocolOptions parse) >>=
      j.readMember "files" Json.getStrings (readFiles cwd)

/-- `get_group_status`: of the records behind the pointers, the highest status in
the order of the enumeration. -/
def getGroupStatus (status : ρ → Status) (g : GroupMetadata ρ) : Status :=
  g.transfersMeta.foldl (fun s ptr => if (status ptr).ctorIdx > s.ctorIdx then status ptr else s)
    .preparing

/-- The highest of the statuses that a list leads to from `s`. -/
theorem foldl_status (status : ρ → Status) (l : List ρ) (s : Status) :
    let r := l.foldl (fun s ptr => if (status ptr).ctorIdx > s.ctorIdx then status ptr else s) s
    s.ctorIdx ≤ r.ctorIdx ∧ (∀ ptr ∈ l, (status ptr).ctorIdx ≤ r.ctorIdx) ∧
      (r = s ∨ ∃ ptr ∈ l, r = status ptr) := by
  induction l generalizing s with
  | nil => simp
  | cons a l ih =>
      obtain ⟨hle, hall, hfrom⟩ := ih (if (status a).ctorIdx > s.ctorIdx then status a else s)
      have hs : s.ctorIdx ≤ (if (status a).ctorIdx > s.ctorIdx then status a else s).ctorIdx := by
        split_ifs <;> omega
      have ha : (status a).ctorIdx ≤
          (if (status a).ctorIdx > s.ctorIdx then status a else s).ctorIdx := by
        split_ifs <;> omega
      refine ⟨hs.trans hle, ?_, ?_⟩
      · intro ptr hptr
        rcases List.mem_cons.1 hptr with rfl | hptr
        · exact ha.trans hle
        · exact hall ptr hptr
      · rcases hfrom with hfrom | ⟨ptr, hptr, hfrom⟩
        · rw [List.foldl_cons, hfrom]
          split_ifs
          · exact Or.inr ⟨a, List.mem_cons_self, rfl⟩
          · exact Or.inl rfl
        · exact Or.inr ⟨ptr, List.mem_cons_of_mem _ hptr, hfrom⟩

/-! ## What a reading and a record change -/

theorem addExpectedFile_transfersMeta {cwd file : String} {g g' : GroupMetadata ρ}
    (h : g.addExpectedFile cwd file = .ok g') : g'.transfersMeta = g.transfersMeta := by
  rw [addExpectedFile] at h
  cases hp : normalised cwd file with
  | error e => simp [hp, bind, Except.bind] at h
  | ok path =>
      rw [hp] at h
      cases h
      rfl

theorem readFiles_transfersMeta {cwd : String} {files : List String} {g g' : GroupMetadata ρ}
    (h : g.readFiles cwd files = .ok g') : g'.transfersMeta = g.transfersMeta := by
  induction files generalizing g g' with
  | nil =>
      cases h
      rfl
  | cons file files ih =>
      rw [readFiles, List.foldlM_cons] at h
      exact bind_frame (g := transfersMeta) (fun _ => addExpectedFile_transfersMeta)
        (fun _ _ hrest => ih hrest) g' h

/-- **A group that was read out of a message has no transfers yet.** -/
theorem ofString_transfersMeta {cwd : String} {parse : String → Option Json} {data : String}
    {g : GroupMetadata ρ} (h : ofString cwd parse data = .ok g) : g.transfersMeta = [] := by
  rw [ofString] at h
  cases hj : parse data with
  | none => simp [hj] at h
  | some j =>
      simp only [hj] at h
      refine bind_frame (g := transfersMeta) (bind_frame (bind_frame (bind_frame (bind_frame
        ?_ ?_) ?_) ?_) ?_) ?_ g h
      · exact fun g => Json.readMember_frame (g := transfersMeta) (fun _ _ _ h => by cases h; rfl)
          blank g
      · exact Json.readMember_frame fun _ _ _ h => by cases h; rfl
      · exact Json.readMember_frame fun _ _ _ h => by cases h; rfl
      · refine Json.readMember_frame fun name g g' h => ?_
        rw [readProtocol] at h
        cases hp : stringToProtocols name with
        | none => simp [hp] at h
        | some p =>
            rw [hp] at h
            cases h
            rfl
      · refine Json.readMember_frame fun text g g' h => ?_
        rw [readProtocolOptions] at h
        cases hp : parse text with
        | none => simp [hp] at h
        | some options =>
            rw [hp] at h
            cases h
            rfl
      · exact Json.readMember_frame fun _ _ _ h => readFiles_transfersMeta h

/-- **A record of the group is added to it,** whether the group expected it or not,
and stays as it is. -/
theorem addFile_of_groupId [DecidableEq ρ] {g : GroupMetadata ρ} {ptr : ρ} {m : TransferMetadata}
    (hid : m.groupId = g.groupId) (hptr : ptr ∉ g.transfersMeta) :
    ∃ g', g.addFile ptr m = (g', m, some ptr) ∧ g'.groupId = g.groupId ∧
      g'.transfersMeta = g.transfersMeta ++ [ptr] := by
  rw [addFile]
  split_ifs with hexp
  · refine ⟨_, Prod.ext rfl (Prod.ext ?_ rfl), rfl, rfl⟩
    rw [← hid]
    rfl
  · refine ⟨_, rfl, rfl, ?_⟩
    show g.transfersMeta.erase ptr ++ [ptr] = _
    rw [List.erase_of_not_mem hptr]

end GroupMetadata

end Transfer
end SNBModules
