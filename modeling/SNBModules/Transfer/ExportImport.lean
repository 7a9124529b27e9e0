import SNBModules.Transfer.Import

/-!
# Exports read back

Source: `transfer_metadata.cpp`, `export_to_string_partial` and `from_string`.

The reader of an export stores the fields that the export carries, one after the
other and each with its setter (`runSteps_sizeSteps`, `runSteps_statusSteps`).
All setters but `set_status` store their own field alone; that one writes the
times of the transfer from the clock of the reader (`value_setStatus`).
-/

namespace SNBModules
namespace Transfer

open Lib

namespace TransferMetadata

/-- The numbers are values of the types they have in the source. -/
def Representable (m : TransferMetadata) : Prop :=
  m.bytesSize < 2 ^ 64 ∧ m.bytesTransferred < 2 ^ 64 ∧
    (-2 ^ 31 ≤ m.transmissionSpeed ∧ m.transmissionSpeed < 2 ^ 31) ∧
    (-2 ^ 63 ≤ m.startTime ∧ m.startTime < 2 ^ 63) ∧
    (-2 ^ 63 ≤ m.endTime ∧ m.endTime < 2 ^ 63) ∧ -2 ^ 63 ≤ m.duration ∧ m.duration < 2 ^ 63

instance (m : TransferMetadata) : Decidable m.Representable := by
  unfold Representable
  infer_instance

/-! ## What an export carries -/

/-- The fields that an export carries. -/
def carried (forceAll : Bool) (m : TransferMetadata) : Finset Field :=
  if forceAll then Finset.univ else m.modifiedFields

/-- The value has the members that an export of `m` with the fields `c` has. -/
structure Carries (m : TransferMetadata) (c : Finset Field) (j : Json) : Prop where
  field : ∀ x : Field, j.member? x.key = if x ∈ c then some (m.value x).toJson else none
  path : j.member? "file_path" = some (.string m.filePath)
  source : j.member? "source" = some (.string m.src.getIpPort)
  destination : j.member? "destination" = some (.string m.dest.getIpPort)
  group : j.member? "group_id" = some (.string m.groupId)

/-- The members that every export has are not among the fields. -/
theorem exportJson_member?_header (m : TransferMetadata) (forceAll : Bool) {k : String}
    (hk : ∀ x : Field, k ≠ x.key) : (m.exportJson forceAll).member? k = m.header.member? k := by
  have h : ∀ (l : List Field) (j : Json),
      (l.foldl (fun j x =>
        if forceAll ∨ x ∈ m.modifiedFields then j.set x.key (m.value x).toJson
        else j) j).member? k = j.member? k := by
    intro l
    induction l with
    | nil => exact fun _ => rfl
    | cons x l ih =>
        intro j
        rw [List.foldl_cons, ih]
        split_ifs
        · rw [Json.member?_set, if_neg (hk x)]
        · rfl
  exact h Field.all m.header

theorem exportJson_carries (m : TransferMetadata) (forceAll : Bool) :
    m.Carries (m.carried forceAll) (m.exportJson forceAll) := by
  refine ⟨fun x => ?_, ?_, ?_, ?_, ?_⟩
  · rw [exportJson_member?]
    cases forceAll <;> simp [carried]
  all_goals
    rw [exportJson_member?_header m forceAll fun x => by cases x <;> decide]
    simp [header]

/-! ## Storing the fields of an export -/

/-- The setter of a field, called with the value that `m` has there. -/
def store (now : ℤ) (m r : TransferMetadata) : Field → TransferMetadata
  | .hash => r.setHash m.hash
  | .size => r.setSize m.bytesSize
  | .bytesTransferred => r.setBytesTransferred m.bytesTransferred
  | .transmissionSpeed => r.setTransmissionSpeed m.transmissionSpeed
  | .status => r.setStatus now m.status
  | .magnetLink => r.setMagnetLink m.magnetLink
  | .errorCode => r.setErrorCode m.errorCode
  | .startTime => r.setStartTime m.startTime
  | .endTime => r.setEndTime m.endTime
  | .duration => r.setDuration m.duration

/-- The fields of `l` that are among `c`, stored in turn. -/
def storeAll (now : ℤ) (m : TransferMetadata) (c : Finset Field) (l : List Field)
    (r : TransferMetadata) : TransferMetadata :=
  l.foldl (fun r x => if x ∈ c then store now m r x else r) r

/-- Steps that store a field each, run to their end. -/
theorem runSteps_storeAll {now : ℤ} {m : TransferMetadata} {c : Finset Field} {l : List Field}
    {steps : List (TransferMetadata → Except Exn TransferMetadata)}
    (h : List.Forall₂ (fun f x => ∀ r, f r = .ok (if x ∈ c then store now m r x else r)) steps l)
    (r : TransferMetadata) : runSteps steps r = (storeAll now m c l r, none) := by
  induction h generalizing r with
  | nil => rfl
  | cons hf _ ih =>
      rw [runSteps_cons_ok (hf r), ih]
      rfl

section Reading

variable {m : TransferMetadata} {c : Finset Field} {j : Json}

/-- A member that an export carries is read with the value it was written with. -/
theorem Carries.readMember (hj : m.Carries c j) {α : Type} (x : Field)
    {get : Json → Except Exn α} {a : α} (hget : get (m.value x).toJson = .ok a)
    (set : α → TransferMetadata → TransferMetadata) (r : TransferMetadata) :
    j.readMember x.key get (fun a r => .ok (set a r)) r = .ok (if x ∈ c then set a r else r) := by
  rw [Json.readMember, hj.field x]
  by_cases hx : x ∈ c <;> simp [hx, hget, bind, Except.bind]

theorem getString_text (s : String) : Json.getString (Scalar.text s).toJson = .ok s := rfl

theorem getUInt64_toNat {n : ℕ} (h : n < 2 ^ 64) :
    Json.getUInt64 (Scalar.number n).toJson = .ok n := by
  have hmod : ((n : ℤ) % 2 ^ 64).toNat = n := by omega
  rw [Scalar.toJson, Json.getUInt64, hmod]

theorem getInt32_number {n : ℤ} (h : -2 ^ 31 ≤ n ∧ n < 2 ^ 31) :
    Json.getInt32 (Scalar.number n).toJson = .ok n := by
  have hmod : n.bmod (2 ^ 32) = n := Int.bmod_eq_of_le (by omega) (by omega)
  rw [Scalar.toJson, Json.getInt32, hmod]

theorem getInt64_number {n : ℤ} (h : -2 ^ 63 ≤ n ∧ n < 2 ^ 63) :
    Json.getInt64 (Scalar.number n).toJson = .ok n := by
  have hmod : n.bmod (2 ^ 64) = n := Int.bmod_eq_of_le (by omega) (by omega)
  rw [Scalar.toJson, Json.getInt64, hmod]

theorem readStatus_statusToString (now : ℤ) (s : Status) (r : TransferMetadata) :
    r.readStatus now (statusToString s) = r.setStatus now s := by
  rw [readStatus, stringToStatus_statusToString]

/-- The fields before the addresses. -/
def sizeFields : List Field := [.hash, .size, .bytesTransferred, .transmissionSpeed]

/-- The fields after the last identifying one. -/
def timeFields : List Field := [.errorCode, .startTime, .endTime, .duration]

/-- **Up to the speed,** the path comes first and its error ends the reading. -/
theorem runSteps_sizeSteps (hj : m.Carries c j) (hm : m.Representable) (cwd : String) (now : ℤ)
    (r : TransferMetadata) :
    runSteps (sizeSteps cwd j) r =
      match normalised cwd m.filePath with
      | .ok filePath => (storeAll now m c sizeFields { r with filePath }, none)
      | .error e => (r, some e) := by
  have hpath : j.readMember "file_path" Json.getString (setFilePath cwd) r =
      r.setFilePath cwd m.filePath := by
    rw [Json.readMember, hj.path]
    rfl
  rw [sizeSteps]
  cases h : normalised cwd m.filePath with
  | error e =>
      refine runSteps_cons_error (hpath.trans ?_)
      rw [setFilePath, h]
      rfl
  | ok filePath =>
      have hset : r.setFilePath cwd m.filePath = .ok { r with filePath } := by
        rw [setFilePath, h]
        rfl
      rw [runSteps_cons_ok (hpath.trans hset)]
      refine runSteps_storeAll ?_ _
      obtain ⟨hsize, htransferred, hspeed, -⟩ := hm
      refine .cons (fun r => ?_) (.cons (fun r => ?_) (.cons (fun r => ?_)
        (.cons (fun r => ?_) .nil)))
      · exact hj.readMember .hash (getString_text m.hash) setHash r
      · exact hj.readMember .size (getUInt64_toNat hsize) setSize r
      · exact hj.readMember .bytesTransferred (getUInt64_toNat htransferred) setBytesTransferred r
      · exact hj.readMember .transmissionSpeed (getInt32_number hspeed) setTransmissionSpeed r

/-- **From the status on,** nothing ends the reading. -/
theorem runSteps_statusSteps (hj : m.Carries c j) (hm : m.Representable) (now : ℤ)
    (r : TransferMetadata) :
    runSteps (statusSteps now j) r =
      (storeAll now m c timeFields
        ((storeAll now m c [.status, .magnetLink] r).setGroupId m.groupId), none) := by
  obtain ⟨-, -, -, hstart, hend, hduration⟩ := hm
  have hfirst : ∀ r, runSteps
      [j.readMember "status" Json.getString fun s r => .ok (r.readStatus now s),
        j.readMember "magnet_link" Json.getString fun s r => .ok (r.setMagnetLink s)] r =
      (storeAll now m c [.status, .magnetLink] r, none) := by
    refine runSteps_storeAll (.cons (fun r => ?_) (.cons (fun r => ?_) .nil))
    · refine (hj.readMember .status (getString_text _) (fun s r => r.readStatus now s) r).trans ?_
      rw [readStatus_statusToString]
      rfl
    · exact hj.readMember .magnetLink (getString_text m.magnetLink) setMagnetLink r
  have hlast : ∀ r, runSteps
      [j.readMember "error_code" Json.getString fun s r => .ok (r.setErrorCode s),
        j.readMember "start_t" Json.getInt64 fun n r => .ok (r.setStartTime n),
        j.readMember "end_t" Json.getInt64 fun n r => .ok (r.setEndTime n),
        j.readMember "duration" Json.getInt64 fun n r => .ok (r.setDuration n)] r =
      (storeAll now m c timeFields r, none) := by
    refine runSteps_storeAll (.cons (fun r => ?_) (.cons (fun r => ?_) (.cons (fun r => ?_)
      (.cons (fun r => ?_) .nil))))
    · exact hj.readMember .errorCode (getString_text m.errorCode) setErrorCode r
    · exact hj.readMember .startTime (getInt64_number hstart) setStartTime r
    · exact hj.readMember .endTime (getInt64_number hend) setEndTime r
    · exact hj.readMember .duration (getInt64_number hduration) setDuration r
  refine (runSteps_append_eq_none (l := [_, _])).2 ⟨_, hfirst r, ?_⟩
  refine (runSteps_cons_ok ?_).trans (hlast _)
  rw [Json.readMember, hj.group]
  rfl

end Reading

/-! ## The values that are left -/

/-- The value that `set_status` writes to a time. -/
def writtenTime (now : ℤ) (status : Status) (r : TransferMetadata) : Field → Option ℤ
  | .startTime => if status = .downloading ∨ status = .uploading then some now else none
  | .endTime => if status = .finished ∨ status = .error then some now else none
  | .duration =>
      if status = .finished ∨ status = .error ∨ status = .paused then
        some (r.duration + (now - r.startTime))
      else none
  | _ => none

/-- **`set_status` changes its own field and the times that it writes.** -/
theorem value_setStatus (now : ℤ) (status : Status) (r : TransferMetadata) (y : Field) :
    (r.setStatus now status).value y =
      if y = .status then .text (statusToString status)
      else ((writtenTime now status r y).map Scalar.number).getD (r.value y) := by
  cases y <;> cases status <;> rfl

/-- The other setters change their own field alone. -/
theorem value_store {x : Field} (hx : x ≠ .status) (now : ℤ) (m r : TransferMetadata) (y : Field) :
    (store now m r x).value y = if y = x then m.value x else r.value y := by
  cases x <;> first | exact absurd rfl hx | (cases y <;> rfl)

theorem value_storeAll {l : List Field} (hl : .status ∉ l) (now : ℤ) (m : TransferMetadata)
    (c : Finset Field) (r : TransferMetadata) (y : Field) :
    (storeAll now m c l r).value y = if y ∈ l ∧ y ∈ c then m.value y else r.value y := by
  induction l generalizing r with
  | nil => simp [storeAll]
  | cons x l ih =>
      obtain ⟨hx, hl⟩ := not_or.1 (List.mem_cons.not.1 hl)
      have hstep : storeAll now m c (x :: l) r =
          storeAll now m c l (if x ∈ c then store now m r x else r) := rfl
      rw [hstep, ih hl]
      by_cases hxc : x ∈ c
      · rw [if_pos hxc, value_store (Ne.symm hx)]
        by_cases hyx : y = x <;> simp [hyx, hxc]
      · rw [if_neg hxc]
        by_cases hyx : y = x <;> simp [hyx, hxc]

end TransferMetadata

end Transfer
end SNBModules
