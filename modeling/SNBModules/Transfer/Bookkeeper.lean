import SNBModules.Lib.Runs
import SNBModules.Transfer.Group
import SNBModules.Transfer.Import
import SNBModules.Transfer.Notification

/-!
# The bookkeeper

Source: `bookkeeper.hpp` and `bookkeeper.cpp`, `action_on_receive_notification`,
`add_update_transfer` and `add_update_grp_transfer`.

The records are shared: a pointer is a place of `heap`, and stands in the list of
the client that sent the record and in that of the group that it was linked to.
A bookkeeper deletes no record.

What a handler throws is caught by nobody, and ends the thread that receives.
-/

namespace SNBModules
namespace Transfer

open Lib

/-- `Bookkeeper`, as far as it handles notifications. -/
structure Bookkeeper where
  bookkeeperId : String
  heap : List TransferMetadata
  grpTransfers : List (String × GroupMetadata ℕ)
  clientsPerGrpTransfer : List (String × Finset String)
  transfers : List (String × List ℕ)

/-- A notification that is received, and what the system clock shows when its data
are read into a new record, and again when they are read into a known one. -/
structure Receipt where
  notif : NotificationData
  decodedAt : ℤ
  updatedAt : ℤ

namespace Bookkeeper

/-- The constructor. -/
def new (bookkeeperId : String) : Bookkeeper := ⟨bookkeeperId, [], [], [], []⟩

/-- The record behind a pointer. -/
def deref (b : Bookkeeper) (ptr : ℕ) : TransferMetadata := b.heap.getD ptr .blank

/-- `m_grp_transfers.at(groupId).add_file(file)`, if the id is not empty and there is
such a group. -/
def linkFile (groupId : String) (ptr : ℕ) (b : Bookkeeper) : Bookkeeper :=
  if groupId = "" then b
  else
    match b.grpTransfers.lookup groupId with
    | some g =>
        let (g, file, _) := g.addFile ptr (b.deref ptr)
        { b with heap := b.heap.set ptr file, grpTransfers := assign groupId g b.grpTransfers }
    | none => b

/-- `m_transfers[client_id]`: a client without a list gets an empty one. -/
def touch (clientId : String) (b : Bookkeeper) : Bookkeeper :=
  { b with transfers := assign clientId (getOrNew [] clientId b.transfers) b.transfers }

/-- `m_transfers[client_id].push_back(file)`. -/
def pushTransfer (clientId : String) (ptr : ℕ) (b : Bookkeeper) : Bookkeeper :=
  { b with transfers := assign clientId (getOrNew [] clientId b.transfers ++ [ptr]) b.transfers }

@[simp] theorem pushTransfer_heap (clientId : String) (ptr : ℕ) (b : Bookkeeper) :
    (b.pushTransfer clientId ptr).heap = b.heap := rfl

@[simp] theorem pushTransfer_grpTransfers (clientId : String) (ptr : ℕ) (b : Bookkeeper) :
    (b.pushTransfer clientId ptr).grpTransfers = b.grpTransfers := rfl

/-- A new record, which no list holds yet; its pointer is the length of the heap
before. -/
def alloc (file : TransferMetadata) (b : Bookkeeper) : Bookkeeper :=
  { b with heap := b.heap ++ [file] }

@[simp] theorem alloc_heap (file : TransferMetadata) (b : Bookkeeper) :
    (b.alloc file).heap = b.heap ++ [file] := rfl

@[simp] theorem alloc_grpTransfers (file : TransferMetadata) (b : Bookkeeper) :
    (b.alloc file).grpTransfers = b.grpTransfers := rfl

@[simp] theorem deref_alloc (file : TransferMetadata) (b : Bookkeeper) :
    (b.alloc file).deref b.heap.length = file := by
  simp [deref]

/-- The pointer of the client behind which the loop finds the record. -/
def findKnown (clientId : String) (file : TransferMetadata) (b : Bookkeeper) : Option ℕ :=
  (getOrNew [] clientId b.transfers).find? fun tr => (b.deref tr).key = file.key

theorem findKnown_touch (client : String) (file : TransferMetadata) (b : Bookkeeper) :
    (b.touch client).findKnown client file = b.findKnown client file := by
  rw [findKnown, touch, getOrNew_assign, if_pos rfl]
  rfl

/-- `add_update_transfer`. -/
def addUpdateTransfer (cwd : String) (parse : String → Option Json) (decodedAt updatedAt : ℤ)
    (clientId data : String) (b : Bookkeeper) : Except Exn Bookkeeper := do
  let file ← TransferMetadata.ofString cwd parse decodedAt data
  let b := b.touch clientId
  match b.findKnown clientId file with
  | some tr =>
      match (b.deref tr).fromString cwd parse updatedAt data with
      | (m, none) => .ok { b with heap := b.heap.set tr m }
      | (_, some e) => .error e
  | none =>
      let ptr := b.heap.length
      .ok (((b.alloc file).linkFile file.groupId ptr).pushTransfer clientId ptr)

/-- `add_update_grp_transfer`: a group that is known keeps its transfers and its
expected files. -/
def addUpdateGrpTransfer (g : GroupMetadata ℕ) (b : Bookkeeper) : Bookkeeper :=
  match b.grpTransfers.lookup g.groupId with
  | some old =>
      let g := (g.setTransfersMeta old.transfersMeta).setExpectedFiles old.expectedFiles
      { b with grpTransfers := assign g.groupId g (remove g.groupId b.grpTransfers) }
  | none => { b with grpTransfers := assign g.groupId g b.grpTransfers }

/-- `m_clients_per_grp_transfer[groupId].insert(clientId)`. -/
def insertClient (groupId clientId : String) (b : Bookkeeper) : Bookkeeper :=
  { b with
    clientsPerGrpTransfer := assign groupId
      (insert clientId (getOrNew ∅ groupId b.clientsPerGrpTransfer)) b.clientsPerGrpTransfer }

/-- Whether a notification is for this bookkeeper. -/
def accepts (bookkeeperId : String) (notif : NotificationData) : Bool :=
  containsText notif.targetId bookkeeperId || notif.targetId = "all"

/-- `action_on_receive_notification`: the bookkeeper, and what is returned. -/
def actionOnReceiveNotification (cwd : String) (parse : String → Option Json) (r : Receipt)
    (b : Bookkeeper) : Except Exn (Bookkeeper × Bool) :=
  if accepts b.bookkeeperId r.notif = false then
    .ok (b, false)
  else
    match stringToNotification r.notif.notification with
    | none => .error .badOptionalAccess
    | some .transferMetadata =>
        if r.notif.data = "end" then
          -- an entry for a client without files
          .ok (b.touch r.notif.sourceId, true)
        else do
          let b ← b.addUpdateTransfer cwd parse r.decodedAt r.updatedAt r.notif.sourceId
            r.notif.data
          .ok (b, true)
    | some .transferError | some .groupMetadata => do
        let g ← GroupMetadata.ofString cwd parse r.notif.data
        .ok ((b.insertClient g.groupId r.notif.sourceId).addUpdateGrpTransfer g, true)
    | some _ => .ok (b, true)

/-- One notification: `none` when the handler throws. -/
def receive (cwd : String) (parse : String → Option Json) (b : Bookkeeper) (r : Receipt) :
    Option Bookkeeper :=
  match b.actionOnReceiveNotification cwd parse r with
  | .ok (b, _) => some b
  | .error _ => none

end Bookkeeper

end Transfer
end SNBModules
