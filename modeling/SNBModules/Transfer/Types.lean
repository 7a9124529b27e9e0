import Mathlib.Algebra.Ring.Int.Defs
import Mathlib.Algebra.Ring.Nat
import Mathlib.Control.Monad.Basic
import Mathlib.Data.Int.Notation
import Mathlib.Data.Nat.Notation
import SNBModules.Lib.OrderedMap
import SNBModules.Lib.Steps

/-!
# Shared data of the transfer system

Source: the enumerations under `include/snbmodules/common/`, `NotificationData`
of `notification_interface.hpp`, and the values of `nlohmann::json` that the
metadata classes read and write.

Printing and parsing JSON text is the library's work: where the code needs it,
`dump : Json → String` and `parse : String → Option Json` are parameters.  What
the code itself does with a value (`contains`, `operator[]`, `get`) is here.
-/

namespace SNBModules
namespace Transfer

open Lib

/-- What the code, or the library code it calls, throws. -/
inductive Exn where
  | invalidArgument (what : String)
  | outOfRange (what : String)
  | jsonParseError
  | jsonTypeError
  | badOptionalAccess
  | filesystemError
  deriving DecidableEq, Repr

/-! ## Enumerations -/

/-- `status_type::e_status`, lowest priority first. -/
inductive Status where
  | preparing
  | error
  | successUpload
  | successDownload
  | finished
  | cancelled
  | paused
  | waiting
  | checking
  | hashing
  | uploading
  | downloading
  deriving DecidableEq, Repr

/-- `status_to_string`. -/
def statusToString : Status → String
  | .preparing => "PREPARING"
  | .error => "ERROR"
  | .successUpload => "SUCCESS_UPLOAD"
  | .successDownload => "SUCCESS_DOWNLOAD"
  | .finished => "FINISHED"
  | .cancelled => "CANCELLED"
  | .paused => "PAUSED"
  | .waiting => "WAITING"
  | .checking => "CHECKING"
  | .hashing => "HASHING"
  | .uploading => "UPLOADING"
  | .downloading => "DOWNLOADING"

/-- `string_to_status`. -/
def stringToStatus : String → Option Status
  | "PREPARING" => some .preparing
  | "ERROR" => some .error
  | "SUCCESS_UPLOAD" => some .successUpload
  | "SUCCESS_DOWNLOAD" => some .successDownload
  | "FINISHED" => some .finished
  | "CANCELLED" => some .cancelled
  | "PAUSED" => some .paused
  | "WAITING" => some .waiting
  | "CHECKING" => some .checking
  | "HASHING" => some .hashing
  | "UPLOADING" => some .uploading
  | "DOWNLOADING" => some .downloading
  | _ => none

/-- The two tables agree. -/
@[simp] theorem stringToStatus_statusToString (s : Status) :
    stringToStatus (statusToString s) = some s := by
  cases s <;> rfl

/-- `notification_type::e_notification_type`. -/
inductive NotificationType where
  | connectionRequest
  | newTransfer
  | updateRequest
  | groupMetadata
  | transferError
  | startTransfer
  | transferMetadata
  | pauseTransfer
  | resumeTransfer
  | cancelTransfer
  deriving DecidableEq, Repr

/-- `notification_to_string`. -/
def notificationToString : NotificationType → String
  | .connectionRequest => "CONNECTION_REQUEST"
  | .newTransfer => "NEW_TRANSFER"
  | .updateRequest => "UPDATE_REQUEST"
  | .groupMetadata => "GROUP_METADATA"
  | .transferError => "TRANSFER_ERROR"
  | .startTransfer => "START_TRANSFER"
  | .transferMetadata => "TRANSFER_METADATA"
  | .pauseTransfer => "PAUSE_TRANSFER"
  | .resumeTransfer => "RESUME_TRANSFER"
  | .cancelTransfer => "CANCEL_TRANSFER"

/-- `string_to_notification`. -/
def stringToNotification : String → Option NotificationType
  | "CONNECTION_REQUEST" => some .connectionRequest
  | "NEW_TRANSFER" => some .newTransfer
  | "UPDATE_REQUEST" => some .updateRequest
  | "GROUP_METADATA" => some .groupMetadata
  | "TRANSFER_ERROR" => some .transferError
  | "START_TRANSFER" => some .startTransfer
  | "TRANSFER_METADATA" => some .transferMetadata
  | "PAUSE_TRANSFER" => some .pauseTransfer
  | "RESUME_TRANSFER" => some .resumeTransfer
  | "CANCEL_TRANSFER" => some .cancelTransfer
  | _ => none

/-- The two tables agree. -/
@[simp] theorem stringToNotification_notificationToString (n : NotificationType) :
    stringToNotification (notificationToString n) = some n := by
  cases n <;> rfl

/-- `protocol_type::e_protocol_type`. -/
inductive ProtocolType where
  | bittorrent
  | rclone
  | scp
  | dummy
  deriving DecidableEq, Repr

/-- `protocols_to_string`. -/
def protocolsToString : ProtocolType → String
  | .bittorrent => "BITTORRENT"
  | .rclone => "RCLONE"
  | .scp => "SCP"
  | .dummy => "dummy"

/-- `string_to_protocols`. -/
def stringToProtocols : String → Option ProtocolType
  | "BITTORRENT" => some .bittorrent
  | "RCLONE" => some .rclone
  | "SCP" => some .scp
  | "dummy" => some .dummy
  | _ => none

/-- The two tables agree. -/
@[simp] theorem stringToProtocols_protocolsToString (p : ProtocolType) :
    stringToProtocols (protocolsToString p) = some p := by
  cases p <;> rfl

/-! ## JSON values -/

/-- A `nlohmann::json` value.  The members of an object stand in the order of
their keys, which is how `std::map` holds them; of a floating point number only
the part before the point is kept, the one that `get` to an integer reads. -/
inductive Json where
  | null
  | boolean (b : Bool)
  | integer (n : ℤ)
  | float (whole : ℤ)
  | string (s : String)
  | array (elems : List Json)
  | object (members : List (String × Json))

namespace Json

/-- `j[k] = v` on an object or on a value that was just declared. -/
def set (j : Json) (k : String) (v : Json) : Json :=
  match j with
  | object members => object (assign k v members)
  | _ => object [(k, v)]

/-- The member that `j[k]` reads; `j.contains(k)` asks whether there is one, and
is `false` of a value that is no object. -/
def member? (j : Json) (k : String) : Option Json :=
  match j with
  | object members => members.lookup k
  | _ => none

/-- `get<std::string>()`, and `get<std::filesystem::path>()`. -/
def getString : Json → Except Exn String
  | string s => .ok s
  | _ => .error .jsonTypeError

/-- `get<uint64_t>()`: any number, converted. -/
def getUInt64 : Json → Except Exn ℕ
  | integer n => .ok (n % 2 ^ 64).toNat
  | float n => .ok (n % 2 ^ 64).toNat
  | _ => .error .jsonTypeError

/-- `get<int64_t>()`: any number, converted. -/
def getInt64 : Json → Except Exn ℤ
  | integer n => .ok (n.bmod (2 ^ 64))
  | float n => .ok (n.bmod (2 ^ 64))
  | _ => .error .jsonTypeError

/-- `get<int32_t>()`: any number, converted; this type takes a boolean too. -/
def getInt32 : Json → Except Exn ℤ
  | integer n => .ok (n.bmod (2 ^ 32))
  | float n => .ok (n.bmod (2 ^ 32))
  | boolean b => .ok b.toNat
  | _ => .error .jsonTypeError

/-- `get<std::vector<std::filesystem::path>>()`. -/
def getStrings : Json → Except Exn (List String)
  | array elems => elems.mapM getString
  | _ => .error .jsonTypeError

/-- `if (j.contains(k)) put(j[k].get<α>())` on an object of type `σ`. -/
def readMember {α σ : Type} (j : Json) (k : String) (get : Json → Except Exn α)
    (put : α → σ → Except Exn σ) (s : σ) : Except Exn σ :=
  match j.member? k with
  | some v => get v >>= fun a => put a s
  | none => .ok s

@[simp] theorem member?_null (k : String) : null.member? k = none := rfl

/-- A member that was set is read back, and no other changes. -/
@[simp] theorem member?_set (j : Json) (k k' : String) (v : Json) :
    (j.set k v).member? k' = if k' = k then some v else j.member? k' := by
  cases j with
  | object l => exact lookup_assign k k' v l
  | _ => exact lookup_cons_ite k k' v []

section ReadMember

variable {α σ β : Type} {j : Json} {k : String} {get : Json → Except Exn α}
  {put put' : α → σ → Except Exn σ}

/-- **What reading a member amounts to:** nothing where it is missing, an error
where it has the wrong type, and else storing one value. -/
theorem readMember_cases (j : Json) (k : String) (get : Json → Except Exn α) :
    (∀ put : α → σ → Except Exn σ, j.readMember k get put = .ok) ∨
      (∃ e, ∀ put : α → σ → Except Exn σ, j.readMember k get put = fun _ => .error e) ∨
      ∃ a, ∀ put : α → σ → Except Exn σ, j.readMember k get put = put a := by
  cases hv : j.member? k with
  | none => exact Or.inl fun put => funext fun s => by rw [readMember, hv]
  | some v =>
      right
      cases ha : get v with
      | error e =>
          left
          refine ⟨e, fun put => funext fun s => ?_⟩
          simp [readMember, hv, ha, bind, Except.bind]
      | ok a =>
          right
          refine ⟨a, fun put => funext fun s => ?_⟩
          simp [readMember, hv, ha, bind, Except.bind]

/-- Reading a member changes what storing its value changes. -/
theorem readMember_frame {g : σ → β} (hput : ∀ a s t, put a s = .ok t → g t = g s) (s t : σ)
    (h : j.readMember k get put s = .ok t) : g t = g s := by
  rcases readMember_cases j k get with hread | ⟨e, hread⟩ | ⟨a, hread⟩ <;> rw [hread] at h
  · cases h
    rfl
  · cases h
  · exact hput a s t h

/-- Reading a member assigns what storing its value assigns. -/
theorem readMember_assigns {g : σ → β} (hput : ∀ a, Assigns g (put a)) :
    Assigns g (j.readMember k get put) := by
  rcases readMember_cases j k get with hread | ⟨e, hread⟩ | ⟨a, hread⟩ <;> rw [hread]
  · right
    intro s t h
    cases h
    rfl
  · right
    intro s t h
    cases h
  · exact hput a

/-- Reading a member into related objects leaves related objects, or throws the
same from both, when storing its value does. -/
theorem readMember_rel {R : σ → σ → Prop}
    (hput : ∀ a s t, R s t → (∃ s' t', put a s = .ok s' ∧ put' a t = .ok t' ∧ R s' t') ∨
      ∃ e, put a s = .error e ∧ put' a t = .error e) (s t : σ) (h : R s t) :
    (∃ s' t', j.readMember k get put s = .ok s' ∧ j.readMember k get put' t = .ok t' ∧ R s' t') ∨
      ∃ e, j.readMember k get put s = .error e ∧ j.readMember k get put' t = .error e := by
  rcases readMember_cases j k get with hread | ⟨e, hread⟩ | ⟨a, hread⟩ <;> rw [hread, hread]
  · exact Or.inl ⟨s, t, rfl, rfl, h⟩
  · exact Or.inr ⟨e, rfl, rfl⟩
  · exact hput a s t h

end ReadMember

end Json

/-! ## Notifications -/

/-- `NotificationData`. -/
structure NotificationData where
  sourceId : String
  targetId : String
  notification : String
  data : String
  deriving DecidableEq, Repr

end Transfer
end SNBModules
