import Mathlib.Data.Fintype.Basic
import SNBModules.Lib.Steps
import SNBModules.Transfer.Address

/-!
# Transfer metadata

Source: `transfer_metadata.hpp` and `transfer_metadata.cpp`.

A `TransferMetadata` is the record of one file on its way from a source to a
destination.  Its four identifying fields go into every message; the other ten
(`Field`) go into a partial export only while they are flagged as modified, and
the export clears the flags.  `setStatus` writes the times of the transfer too,
and flags the status alone.

`cwd` is the working directory, `now` a reading of the system clock in
milliseconds, and `dump` and `parse` are those of the JSON library.
-/

namespace SNBModules
namespace Transfer

open Lib

/-- The fields that a partial export leaves out when they have not changed, in
the order of the export. -/
inductive Field where
  | hash
  | size
  | bytesTransferred
  | transmissionSpeed
  | status
  | magnetLink
  | errorCode
  | startTime
  | endTime
  | duration
  deriving DecidableEq, Repr

namespace Field

/-- The key of a field in the JSON text. -/
def key : Field → String
  | hash => "hash"
  | size => "size"
  | bytesTransferred => "transfered"
  | transmissionSpeed => "speed"
  | status => "status"
  | magnetLink => "magnet_link"
  | errorCode => "error_code"
  | startTime => "start_t"
  | endTime => "end_t"
  | duration => "duration"

/-- The fields in the order of the export. -/
def all : List Field :=
  [hash, size, bytesTransferred, transmissionSpeed, status, magnetLink, errorCode, startTime,
    endTime, duration]

theorem mem_all (x : Field) : x ∈ all := by
  cases x <;> decide

instance : Fintype Field := Fintype.ofList all mem_all

theorem key_injective : Function.Injective key := by
  intro x y
  cases x <;> cases y <;> decide

end Field

/-- A value that a field is exported as. -/
inductive Scalar where
  | number (n : ℤ)
  | text (s : String)
  deriving DecidableEq, Repr

/-- The JSON value. -/
def Scalar.toJson : Scalar → Json
  | number n => .integer n
  | text s => .string s

/-- `TransferMetadata`; `modifiedFields` are the fields whose flag is set. -/
structure TransferMetadata where
  filePath : String
  hash : String
  bytesSize : ℕ
  bytesTransferred : ℕ
  transmissionSpeed : ℤ
  status : Status
  src : IPFormat
  dest : IPFormat
  magnetLink : String
  groupId : String
  errorCode : String
  startTime : ℤ
  endTime : ℤ
  duration : ℤ
  modifiedFields : Finset Field
  deriving DecidableEq

namespace TransferMetadata

/-- The object before anything is read into it. -/
def blank : TransferMetadata :=
  ⟨"", "", 0, 0, 0, .waiting, .default, .default, "", "", "", 0, 0, 0, ∅⟩

/-- The constructor from a path, a size and a source. -/
def new (cwd filePath : String) (bytesSize : ℕ) (src : IPFormat) (hash : String) (dest : IPFormat)
    (groupId : String) (bytesTransferred : ℕ) (status : Status) : Except Exn TransferMetadata := do
  let filePath ← normalised cwd filePath
  .ok { blank with
    filePath, hash, bytesSize, bytesTransferred, status, src, dest, groupId
    modifiedFields := Finset.univ }

/-- `m_modified_fields[x] = true`. -/
def flag (m : TransferMetadata) (x : Field) : TransferMetadata :=
  { m with modifiedFields := insert x m.modifiedFields }

/-! ## Setters -/

/-- `set_file_path`. -/
def setFilePath (cwd path : String) (m : TransferMetadata) : Except Exn TransferMetadata := do
  let filePath ← normalised cwd path
  .ok { m with filePath }

/-- `set_group_id`. -/
def setGroupId (groupId : String) (m : TransferMetadata) : TransferMetadata := { m with groupId }

/-- `set_src`. -/
def setSrc (source : IPFormat) (m : TransferMetadata) : Except Exn TransferMetadata :=
  if source ≠ m.dest then .ok { m with src := source }
  else .error (.invalidArgument "The source cannot be equal to the destination")

/-- `set_dest`. -/
def setDest (dest : IPFormat) (m : TransferMetadata) : Except Exn TransferMetadata :=
  if dest ≠ m.src then .ok { m with dest }
  else .error (.invalidArgument "The destination cannot be equal to the source")

/-- `set_hash`. -/
def setHash (hash : String) (m : TransferMetadata) : TransferMetadata :=
  { m with hash }.flag .hash

/-- `set_size`. -/
def setSize (size : ℕ) (m : TransferMetadata) : TransferMetadata :=
  { m with bytesSize := size }.flag .size

/-- `set_bytes_transferred`. -/
def setBytesTransferred (bytesTransferred : ℕ) (m : TransferMetadata) : TransferMetadata :=
  { m with bytesTransferred }.flag .bytesTransferred

/-- `set_progress`; the product is one of 64 bits. -/
def setProgress (purcent : ℤ) (m : TransferMetadata) : Except Exn TransferMetadata :=
  if purcent < 0 ∨ purcent > 100 then
    .error (.invalidArgument "The progress must be between 0 and 100")
  else
    .ok (m.setBytesTransferred (purcent.toNat * m.bytesSize % 2 ^ 64 / 100))

/-- `set_status`, with the clock at `now`. -/
def setStatus (now : ℤ) (status : Status) (m : TransferMetadata) : TransferMetadata :=
  let m := { m with status }
  let m := if status = .downloading ∨ status = .uploading then { m with startTime := now } else m
  let m := if status = .finished ∨ status = .error then
      { m with endTime := now, duration := m.duration + (now - m.startTime) }
    else m
  let m := if status = .paused then { m with duration := m.duration + (now - m.startTime) } else m
  m.flag .status

@[simp] theorem setStatus_status (now : ℤ) (status : Status) (m : TransferMetadata) :
    (m.setStatus now status).status = status := by
  simp only [setStatus, flag]
  split_ifs <;> rfl

/-- **`set_status` flags the status and nothing else,** whatever times it writes. -/
@[simp] theorem setStatus_modifiedFields (now : ℤ) (status : Status) (m : TransferMetadata) :
    (m.setStatus now status).modifiedFields = insert .status m.modifiedFields := by
  simp only [setStatus, flag]
  split_ifs <;> rfl

/-- `set_magnet_link`. -/
def setMagnetLink (magnetLink : String) (m : TransferMetadata) : TransferMetadata :=
  { m with magnetLink }.flag .magnetLink

/-- `set_error_code`. -/
def setErrorCode (errorCode : String) (m : TransferMetadata) : TransferMetadata :=
  { m with errorCode }.flag .errorCode

/-- `set_transmission_speed`. -/
def setTransmissionSpeed (transmissionSpeed : ℤ) (m : TransferMetadata) : TransferMetadata :=
  { m with transmissionSpeed }.flag .transmissionSpeed

/-- `set_duration`. -/
def setDuration (duration : ℤ) (m : TransferMetadata) : TransferMetadata :=
  { m with duration }.flag .duration

/-- `set_start_time`. -/
def setStartTime (startTime : ℤ) (m : TransferMetadata) : TransferMetadata :=
  { m with startTime }.flag .startTime

/-- `set_end_time`. -/
def setEndTime (endTime : ℤ) (m : TransferMetadata) : TransferMetadata :=
  { m with endTime }.flag .endTime

/-! ## Export -/

/-- What a field is exported as. -/
def value (m : TransferMetadata) : Field → Scalar
  | .hash => .text m.hash
  | .size => .number m.bytesSize
  | .bytesTransferred => .number m.bytesTransferred
  | .transmissionSpeed => .number m.transmissionSpeed
  | .status => .text (statusToString m.status)
  | .magnetLink => .text m.magnetLink
  | .errorCode => .text m.errorCode
  | .startTime => .number m.startTime
  | .endTime => .number m.endTime
  | .duration => .number m.duration

/-- The members that every export has. -/
def header (m : TransferMetadata) : Json :=
  (((Json.null.set "file_path" (.string m.filePath)).set "source" (.string m.src.getIpPort)).set
    "destination" (.string m.dest.getIpPort)).set "group_id" (.string m.groupId)

/-- The value that `export_to_string_partial` builds. -/
def exportJson (m : TransferMetadata) (forceAll : Bool) : Json :=
  Field.all.foldl
    (fun j x => if forceAll ∨ x ∈ m.modifiedFields then j.set x.key (m.value x).toJson else j)
    m.header

/-- `export_to_string_partial`: the text, and the object without its flags. -/
def exportToStringPartial (dump : Json → String) (forceAll : Bool) (m : TransferMetadata) :
    String × TransferMetadata :=
  (dump (m.exportJson forceAll), { m with modifiedFields := ∅ })

/-- The fold over the fields adds the members of the fields that pass, and no
others. -/
theorem member?_foldl_set (m : TransferMetadata) (p : Field → Prop) [DecidablePred p]
    (l : List Field) (j : Json) (x : Field) :
    (l.foldl (fun j y => if p y then j.set y.key (m.value y).toJson else j) j).member? x.key =
      if x ∈ l ∧ p x then some (m.value x).toJson else j.member? x.key := by
  induction l generalizing j with
  | nil => simp
  | cons y l ih =>
      rw [List.foldl_cons, ih]
      by_cases hxy : x = y
      · subst hxy
        by_cases hx : p x <;> simp [hx]
      · have hkey : x.key ≠ y.key := fun h => hxy (Field.key_injective h)
        by_cases hy : p y <;> simp [hxy, hkey, hy]

/-- The keys of the fields are not among those of every export. -/
theorem header_member? (m : TransferMetadata) (x : Field) : m.header.member? x.key = none := by
  cases x <;> simp [header, Field.key]

/-- **A partial export carries the fields that are flagged,** each with its
present value, and no others. -/
theorem exportJson_member? (m : TransferMetadata) (forceAll : Bool) (x : Field) :
    (m.exportJson forceAll).member? x.key =
      if forceAll ∨ x ∈ m.modifiedFields then some (m.value x).toJson else none := by
  have h := member?_foldl_set m (fun x => forceAll ∨ x ∈ m.modifiedFields) Field.all m.header x
  rw [header_member?] at h
  simpa [exportJson, Field.mem_all] using h

/-- The record without its flags: what the code reads of it besides exporting. -/
def withoutFlags (m : TransferMetadata) : TransferMetadata := { m with modifiedFields := ∅ }

/-- An export changes the flags only. -/
@[simp] theorem exportToStringPartial_withoutFlags (dump : Json → String) (forceAll : Bool)
    (m : TransferMetadata) :
    (m.exportToStringPartial dump forceAll).2.withoutFlags = m.withoutFlags := rfl

/-! ## Import -/

/-- An address out of the text `ip:port`. -/
def getAddress (v : Json) : Except Exn IPFormat := do
  IPFormat.new (← v.getString) 0

/-- The `status` member: an unknown name is reported and changes nothing. -/
def readStatus (now : ℤ) (s : String) (m : TransferMetadata) : TransferMetadata :=
  match stringToStatus s with
  | some status => m.setStatus now status
  | none => m

/-- `from_string` up to the speed. -/
def sizeSteps (cwd : String) (j : Json) : List (TransferMetadata → Except Exn TransferMetadata) :=
  [j.readMember "file_path" Json.getString (setFilePath cwd),
    j.readMember "hash" Json.getString fun s m => .ok (m.setHash s),
    j.readMember "size" Json.getUInt64 fun n m => .ok (m.setSize n),
    j.readMember "transfered" Json.getUInt64 fun n m => .ok (m.setBytesTransferred n),
    j.readMember "speed" Json.getInt32 fun n m => .ok (m.setTransmissionSpeed n)]

/-- The addresses. -/
def addressSteps (j : Json) : List (TransferMetadata → Except Exn TransferMetadata) :=
  [j.readMember "source" getAddress setSrc, j.readMember "destination" getAddress setDest]

/-- The rest of `from_string`. -/
def statusSteps (now : ℤ) (j : Json) : List (TransferMetadata → Except Exn TransferMetadata) :=
  [j.readMember "status" Json.getString fun s m => .ok (m.readStatus now s),
    j.readMember "magnet_link" Json.getString fun s m => .ok (m.setMagnetLink s),
    j.readMember "group_id" Json.getString fun s m => .ok (m.setGroupId s),
    j.readMember "error_code" Json.getString fun s m => .ok (m.setErrorCode s),
    j.readMember "start_t" Json.getInt64 fun n m => .ok (m.setStartTime n),
    j.readMember "end_t" Json.getInt64 fun n m => .ok (m.setEndTime n),
    j.readMember "duration" Json.getInt64 fun n m => .ok (m.setDuration n)]

/-- The steps of `from_string`, in order. -/
def fromStringSteps (cwd : String) (now : ℤ) (j : Json) :
    List (TransferMetadata → Except Exn TransferMetadata) :=
  sizeSteps cwd j ++ (addressSteps j ++ statusSteps now j)

/-- `from_string`: the object as the call leaves it, and what it threw. -/
def fromString (cwd : String) (parse : String → Option Json) (now : ℤ) (data : String)
    (m : TransferMetadata) : TransferMetadata × Option Exn :=
  match parse data with
  | none => (m, some .jsonParseError)
  | some j => runSteps (fromStringSteps cwd now j) m

/-- The constructor from a message text. -/
def ofString (cwd : String) (parse : String → Option Json) (now : ℤ) (data : String) :
    Except Exn TransferMetadata :=
  match fromString cwd parse now data blank with
  | (m, none) => .ok m
  | (_, some e) => .error e

end TransferMetadata

end Transfer
end SNBModules
