import Mathlib.Data.Finset.Basic
import Mathlib.Data.List.Basic

/-!
# What the readout stores and what it sends

The latency buffer `LBT`, the readout type `RDT` and the message types
`dfmessages::DataRequest`, `daqdataformats::Fragment` and `FragmentHeader` are
template parameters or come from other packages; here they are what
`SNBRequestHandlerModel` and `SNBDataHandlingModel` use of them.

A frame is a timestamp and the bytes that `begin()` and `get_payload_size()`
delimit.  The latency buffer is a bounded first-in first-out queue: `front` is
the oldest frame, `back` the newest, both null on an empty buffer, and the
iterator goes from the oldest to the newest.  Timestamps and window bounds are
`uint64_t` in the source and are only compared, so they are natural numbers.
-/

namespace SNBModules
namespace Readout

/-- An `RDT` element: its timestamp and its payload. -/
structure Frame where
  timestamp : ℕ
  payload : List UInt8
  deriving DecidableEq, Repr

/-- The latency buffer, oldest frame first. -/
structure LatencyBuffer where
  capacity : ℕ
  frames : List Frame
  deriving DecidableEq, Repr

namespace LatencyBuffer

def occupancy (lb : LatencyBuffer) : ℕ := lb.frames.length

def isFull (lb : LatencyBuffer) : Bool := decide (lb.capacity ≤ lb.frames.length)

/-- The oldest frame, null on an empty buffer. -/
def front (lb : LatencyBuffer) : Option Frame := lb.frames.head?

/-- The newest frame, null on an empty buffer. -/
def back (lb : LatencyBuffer) : Option Frame := lb.frames.getLast?

/-- `write` fails on a full buffer. -/
def write (lb : LatencyBuffer) (payload : Frame) : Option LatencyBuffer :=
  if lb.isFull then none else some { lb with frames := lb.frames ++ [payload] }

def flush (lb : LatencyBuffer) : LatencyBuffer := { lb with frames := [] }

end LatencyBuffer

/-- `SNBDataHandlingModel::process_item` from its `isFull` loop on: `none` while
the loop waits, otherwise the buffer and whether the payload was inserted (a
failed insert is counted and the payload is dropped). -/
def processItem (lb : LatencyBuffer) (payload : Frame) : Option (LatencyBuffer × Bool) :=
  if lb.isFull then none
  else match lb.write payload with
    | some lb' => some (lb', true)
    | none => some (lb, false)

/-- The loop of `process_item` leaves room for the insert: with one producer it
never fails, and the payload becomes the newest frame. -/
theorem processItem_eq_some {lb lb' : LatencyBuffer} {payload : Frame} {inserted : Bool}
    (h : processItem lb payload = some (lb', inserted)) :
    inserted = true ∧ lb' = { lb with frames := lb.frames ++ [payload] } := by
  unfold processItem LatencyBuffer.write at h
  cases hf : lb.isFull with
  | true => simp [hf] at h
  | false =>
      simp only [hf, Bool.false_eq_true, if_false, Option.some.injEq, Prod.mk.injEq] at h
      exact ⟨h.2.symm, h.1.symm⟩

/-- `daqdataformats::SourceID`. -/
structure SourceID where
  subsystem : ℕ
  id : ℕ
  deriving DecidableEq, Repr

/-- `dfmessages::ComponentRequest`: whom the request addresses and its window. -/
structure ComponentRequest where
  component : SourceID
  windowBegin : ℕ
  windowEnd : ℕ
  deriving DecidableEq, Repr

/-- `dfmessages::DataRequest`. -/
structure DataRequest where
  triggerNumber : ℕ
  sequenceNumber : ℕ
  runNumber : ℕ
  triggerTimestamp : ℕ
  requestInformation : ComponentRequest
  dataDestination : String
  deriving DecidableEq, Repr

/-- A request for a window, its other fields zero. -/
def requestFor (windowBegin windowEnd : ℕ) : DataRequest :=
  ⟨0, 0, 0, 0, ⟨⟨0, 0⟩, windowBegin, windowEnd⟩, ""⟩

/-- The result codes of a data request that this package uses. -/
inductive ResultCode where
  | kFound
  | kNotFound
  | kTooOld
  | kPartiallyOld
  | kPartial
  | kNotYet
  | kUnknown
  deriving DecidableEq, Repr

/-- The fragment status bits that this package sets. -/
inductive FragmentStatusBits where
  | kEmptyFragment
  | kLatencyBufferEmpty
  | kRequestWindowBeforeBuffer
  | kRequestWindowAfterBuffer
  | kIncomplete
  deriving DecidableEq, Repr

/-- `daqdataformats::FragmentHeader`; the status word is the set of its bits. -/
structure FragmentHeader where
  triggerNumber : ℕ
  triggerTimestamp : ℕ
  windowBegin : ℕ
  windowEnd : ℕ
  runNumber : ℕ
  fragmentType : ℕ
  sequenceNumber : ℕ
  detectorId : ℕ
  elementId : SourceID
  statusBits : Finset FragmentStatusBits
  deriving DecidableEq

/-- A fragment: its header and the frames its constructor copied, piece by
piece. -/
structure Fragment where
  header : FragmentHeader
  pieces : List Frame
  deriving DecidableEq

/-- What `data_request` returns. -/
structure RequestResult where
  resultCode : ResultCode
  dataRequest : DataRequest
  fragment : Fragment
  deriving DecidableEq

end Readout
end SNBModules
