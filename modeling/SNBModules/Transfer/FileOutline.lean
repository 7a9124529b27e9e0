import SNBModules.Transfer.FileStates

/-!
# The outline of a record

Source: `transfer_session.cpp`, the operations on a file; `transfer_metadata.hpp`, the setters.

An operation on a file writes the times and the flags of the record too, and sends it to the
bookkeepers.  None of this plays a part in what an interface does next: it goes by the outline of
the record alone.  `outline_fileOperation` says what an accepted operation makes of it, whatever
the interface does to the record.
-/

namespace SNBModules
namespace Transfer

open Lib TransferSession

/-- What a record says about the copy of its file. -/
structure Outline where
  status : Status
  bytesTransferred : ℕ
  bytesSize : ℕ
  transmissionSpeed : ℤ
  filePath : String
  src : IPFormat
  deriving DecidableEq

/-- The outline of a record. -/
@[simps] def TransferMetadata.outline (m : TransferMetadata) : Outline :=
  ⟨m.status, m.bytesTransferred, m.bytesSize, m.transmissionSpeed, m.filePath, m.src⟩

@[simp] theorem TransferMetadata.outline_setStatus (now : ℤ) (status : Status)
    (m : TransferMetadata) : (m.setStatus now status).outline = { m.outline with status } := by
  simp only [setStatus, flag]
  split_ifs <;> rfl

@[simp] theorem TransferMetadata.setStatus_bytesSize (now : ℤ) (status : Status)
    (m : TransferMetadata) : (m.setStatus now status).bytesSize = m.bytesSize :=
  congrArg Outline.bytesSize (outline_setStatus now status m)

@[simp] theorem TransferMetadata.setStatus_filePath (now : ℤ) (status : Status)
    (m : TransferMetadata) : (m.setStatus now status).filePath = m.filePath :=
  congrArg Outline.filePath (outline_setStatus now status m)

@[simp] theorem TransferMetadata.setStatus_src (now : ℤ) (status : Status)
    (m : TransferMetadata) : (m.setStatus now status).src = m.src :=
  congrArg Outline.src (outline_setStatus now status m)

@[simp] theorem TransferMetadata.outline_setBytesTransferred (bytesTransferred : ℕ)
    (m : TransferMetadata) :
    (m.setBytesTransferred bytesTransferred).outline = { m.outline with bytesTransferred } := rfl

@[simp] theorem TransferMetadata.outline_setErrorCode (errorCode : String)
    (m : TransferMetadata) : (m.setErrorCode errorCode).outline = m.outline := rfl

theorem TransferMetadata.outline_eq_of_withoutFlags {m m' : TransferMetadata}
    (h : m.withoutFlags = m'.withoutFlags) : m.outline = m'.outline := by
  have hsame := congrArg outline h
  exact hsame

/-- The outline that an operation on a file leaves of a record that it accepts. -/
theorem outline_fileOperation {σ : Type} (s : TransferSession) (env : Env) (dump : Json → String)
    {allowed : Status → Bool} (target : Status)
    {op : σ → TransferMetadata → σ × TransferMetadata × Bool} (notice : Option NotificationType)
    {m : TransferMetadata} (hm : allowed m.status) (isMultiple : Bool) (h : Host σ) :
    (s.fileOperation env dump allowed target op notice isMultiple h m).2.1.outline =
      let p := op h.interface (m.setStatus (h.world.now env) target)
      if p.2.2 then p.2.1.outline else { p.2.1.outline with status := .error } := by
  have hkeep : ∀ w m, (s.updateMetadataToBookkeeper env dump w m).2.1.outline = m.outline :=
    fun w m => TransferMetadata.outline_eq_of_withoutFlags
      (updateMetadataToBookkeeper_withoutFlags s env dump w m)
  rw [fileOperation, if_pos hm]
  cases isMultiple <;> cases hr : (op h.interface (m.setStatus (h.world.now env) target)).2.2 <;>
    simp [hr, hkeep]

end Transfer
end SNBModules
