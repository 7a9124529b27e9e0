import Mathlib.Data.Finset.Sort
import Mathlib.Data.String.Basic
import SNBModules.Transfer.BookkeeperStore
import SNBModules.Transfer.Client

/-!
# Requests of a bookkeeper for updates

Source: `bookkeeper.hpp`, `get_client_name_from_session_name`, and `bookkeeper.cpp`,
`request_update_metadata`; `transfer_client.cpp`, `generate_session_id`, and
`transfer_session.cpp`, `send_notification_to_targets`.

A bookkeeper knows for each group the sessions that announced it, and asks each of
them for an update when the group's status is one that changes by itself.  It sends
to the client whose id it reads off the session id: what stands before the first
underscore.  The two functions that build session ids put `_ses` behind the client
id, so the first underscore is theirs unless the client id has one.
-/

namespace SNBModules
namespace Transfer

open Lib

namespace Bookkeeper

/-- `get_client_name_from_session_name`. -/
def getClientNameFromSessionName (sessionName : String) : String :=
  String.ofList (sessionName.toList.takeWhile (· ≠ '_'))

example : getClientNameFromSessionName "client1_sestransfer1" = "client1" := by decide +kernel

/-- The statuses that a bookkeeper asks about. -/
def isDynamic (status : Status) : Bool :=
  status = .downloading || status = .checking || status = .uploading || status = .hashing

/-- `m_clients_per_grp_transfer[groupId]`, in the order of its set. -/
def sessionsOf (groupId : String) (b : Bookkeeper) : List String :=
  (getOrNew ∅ groupId b.clientsPerGrpTransfer).sort (· ≤ ·)

/-- `m_clients_per_grp_transfer[groupId]`: a group without a set gets an empty one. -/
def touchGroup (groupId : String) (b : Bookkeeper) : Bookkeeper :=
  { b with
    clientsPerGrpTransfer := assign groupId (getOrNew ∅ groupId b.clientsPerGrpTransfer)
      b.clientsPerGrpTransfer }

variable (ni : NotificationInterface) (env : Env)

/-- One turn of the inner loop of `request_update_metadata`. -/
def requestUpdate (bookkeeperId : String) (w : World) (session : String) : World :=
  (ni.sendNotification env .updateRequest bookkeeperId session
    (getClientNameFromSessionName session) "" (-1) w).1

/-- One turn of the outer loop. -/
def requestGroup (force : Bool) (q : World × Bookkeeper) (g : GroupMetadata ℕ) :
    World × Bookkeeper :=
  if isDynamic (q.2.groupStatus g) || force then
    ((q.2.sessionsOf g.groupId).foldl (requestUpdate ni env q.2.bookkeeperId) q.1,
      q.2.touchGroup g.groupId)
  else q

/-- `request_update_metadata`. -/
def requestUpdateMetadata (force : Bool) (b : Bookkeeper) (w : World) : World × Bookkeeper :=
  (b.grpTransfers.map Prod.snd).foldl (requestGroup ni env force) (w, b)

/-- The sessions that are asked, group by group. -/
def polledSessions (force : Bool) (b : Bookkeeper) : List String :=
  (b.grpTransfers.map Prod.snd).flatMap fun g =>
    if isDynamic (b.groupStatus g) || force then b.sessionsOf g.groupId else []

/-- What a session is asked, and the connection that is looked for. -/
def updateRequest (bookkeeperId session : String) : String × NotificationData :=
  (getClientNameFromSessionName session,
    ⟨bookkeeperId, session, notificationToString .updateRequest, ""⟩)

/-! ## What is sent -/

theorem posts_requestUpdates (bookkeeperId : String) (sessions : List String) (w : World) :
    ni.Posts w (sessions.map (updateRequest bookkeeperId))
      (sessions.foldl (requestUpdate ni env bookkeeperId) w) := by
  induction sessions generalizing w with
  | nil => exact .refl _ _
  | cons session sessions ih =>
      rw [List.foldl_cons, List.map_cons]
      exact (ni.posts_sendNotification env .updateRequest bookkeeperId session _ "" (-1) w).trans
        (ih _)

/-- A set that is made for a group is empty, so that no group has other sessions. -/
theorem sessionsOf_touchGroup (groupId groupId' : String) (b : Bookkeeper) :
    (b.touchGroup groupId).sessionsOf groupId' = b.sessionsOf groupId' := by
  rw [sessionsOf, touchGroup, getOrNew_assign]
  split_ifs with h
  · rw [h, sessionsOf]
  · rfl

/-- **A call asks the sessions of the groups that it polls,** each once for every one
of these groups. -/
theorem posts_requestUpdateMetadata (force : Bool) (b : Bookkeeper) (w : World) :
    ni.Posts w ((b.polledSessions force).map (updateRequest b.bookkeeperId))
      (b.requestUpdateMetadata ni env force w).1 := by
  rw [requestUpdateMetadata, polledSessions]
  suffices h : ∀ (l : List (GroupMetadata ℕ)) (b' : Bookkeeper) (w : World),
      b'.bookkeeperId = b.bookkeeperId → b'.heap = b.heap →
      (∀ groupId, b'.sessionsOf groupId = b.sessionsOf groupId) →
      ni.Posts w ((l.flatMap fun g => if isDynamic (b.groupStatus g) || force then
          b.sessionsOf g.groupId else []).map (updateRequest b.bookkeeperId))
        (l.foldl (requestGroup ni env force) (w, b')).1 from
    h _ b w rfl rfl fun _ => rfl
  intro l
  induction l with
  | nil => exact fun b' w _ _ _ => .refl _ _
  | cons g l ih =>
      intro b' w hid hheap hsessions
      have hstatus : b'.groupStatus g = b.groupStatus g := by
        rw [groupStatus, groupStatus]
        unfold deref
        rw [hheap]
      rw [List.foldl_cons, List.flatMap_cons, List.map_append, requestGroup]
      simp only [hstatus, hid, hsessions]
      by_cases hpoll : (isDynamic (b.groupStatus g) || force) = true
      · rw [if_pos hpoll, if_pos hpoll]
        refine (posts_requestUpdates ni env b.bookkeeperId (b.sessionsOf g.groupId) w).trans ?_
        refine ih (b'.touchGroup g.groupId) _ hid hheap fun groupId => ?_
        rw [sessionsOf_touchGroup, hsessions]
      · rw [if_neg hpoll, if_neg hpoll]
        exact ih b' w hid hheap hsessions

/-! ## Whom it is sent to -/

/-- What stands before the first underscore is what was put before one, when that has
none itself. -/
theorem takeWhile_append_eq_iff (client rest : List Char) :
    (client ++ '_' :: rest).takeWhile (· ≠ '_') = client ↔ '_' ∉ client := by
  induction client with
  | nil => simp
  | cons c client ih =>
      rw [List.cons_append, List.takeWhile_cons, List.mem_cons]
      by_cases hc : c = '_'
      · simp [hc]
      · simpa [hc, Ne.symm hc] using ih

/-- **The client name of a session id** is the client that it was built for exactly
when that client's id has no underscore. -/
theorem getClientName_eq_iff (client transferId : String) :
    getClientNameFromSessionName (client ++ "_ses" ++ transferId) = client ↔
      '_' ∉ client.toList := by
  have hlist : (client ++ "_ses" ++ transferId).toList =
      client.toList ++ '_' :: ("ses" ++ transferId).toList := by
    simp [String.toList_append]
  rw [getClientNameFromSessionName, hlist, ← takeWhile_append_eq_iff client.toList]
  constructor
  · intro h
    conv_rhs => rw [← h]
    rw [String.toList_ofList]
  · intro h
    rw [h, String.ofList_toList]

/-- The client that `generate_session_id` takes is read off its result: the own id
stands in for an empty one. -/
theorem getClientName_generateSessionId_iff {σ : Type} (c : TransferClient σ)
    (transferId client : String) :
    getClientNameFromSessionName (c.generateSessionId transferId client) = client ↔
      '_' ∉ client.toList ∧ (client = "" → ∀ a ∈ c.clientId.toList.head?, a = '_') := by
  rw [TransferClient.generateSessionId]
  by_cases hclient : client = ""
  · subst hclient
    rw [if_pos rfl, getClientNameFromSessionName, String.toList_append, String.toList_append]
    cases c.clientId.toList with
    | nil => simp
    | cons a l => simp [List.takeWhile_cons, apply_ite]
  · rw [if_neg hclient, getClientName_eq_iff]
    simp [hclient]

/-- **Update requests go to the owner of the session exactly when the owner's id has
no underscore:** for the ids that `generate_session_id` and
`send_notification_to_targets` build, and for every call of
`request_update_metadata`, where `owner` is the client that a session id was built
for. -/
theorem update_requests_iff {σ : Type} (ni : NotificationInterface) (env : Env) (force : Bool)
    (b : Bookkeeper) (w : World) (owner : String → String)
    (howner : ∀ session ∈ b.polledSessions force,
      ∃ transferId, session = owner session ++ "_ses" ++ transferId) :
    (∀ (c : TransferClient σ) (transferId client : String),
      getClientNameFromSessionName (c.generateSessionId transferId client) = client ↔
        '_' ∉ client.toList ∧ (client = "" → ∀ a ∈ c.clientId.toList.head?, a = '_')) ∧
    (∀ (s : TransferSession) (type : NotificationType) (data : String),
      ∃ sent, s.connections.Posts w sent (s.sendNotificationToTargets env type data w).1 ∧
        sent.map Prod.fst = s.targetClients ∧
        ∀ m ∈ sent, getClientNameFromSessionName m.2.targetId = m.1 ↔ '_' ∉ m.1.toList) ∧
    ∃ sent, ni.Posts w sent (b.requestUpdateMetadata ni env force w).1 ∧
      sent.map (fun m => m.2.targetId) = b.polledSessions force ∧
      (∀ m ∈ sent, m.2.notification = notificationToString .updateRequest) ∧
      ((∀ m ∈ sent, m.1 = owner m.2.targetId) ↔
        ∀ session ∈ b.polledSessions force, '_' ∉ (owner session).toList) := by
  refine ⟨getClientName_generateSessionId_iff, fun s type data => ?_, ?_⟩
  · refine ⟨_, s.posts_sendNotificationToTargets env type data w, ?_, ?_⟩
    · rw [List.map_map]
      exact List.map_id _
    · rintro m hm
      obtain ⟨client, -, rfl⟩ := List.mem_map.1 hm
      exact getClientName_eq_iff client s.transferOptions.groupId
  · refine ⟨_, posts_requestUpdateMetadata ni env force b w, ?_, ?_, ?_⟩
    · rw [List.map_map]
      exact List.map_id _
    · rintro m hm
      obtain ⟨session, -, rfl⟩ := List.mem_map.1 hm
      rfl
    · rw [List.forall_mem_map]
      refine forall₂_congr fun session hsession => ?_
      obtain ⟨transferId, hid⟩ := howner session hsession
      have hname := getClientName_eq_iff (owner session) transferId
      rwa [← hid] at hname

/-! ## One group -/

/-- A bookkeeper that knows one group, announced by one session. -/
def oneSession (client : String) : Bookkeeper :=
  { new "bookkeeper1" with
    grpTransfers := [("transfer0", { GroupMetadata.blank with groupId := "transfer0" })]
    clientsPerGrpTransfer := [("transfer0", {client ++ "_ses" ++ "transfer0"})] }

theorem polledSessions_oneSession (client : String) :
    (oneSession client).polledSessions true = [client ++ "_ses" ++ "transfer0"] := by
  simp [polledSessions, oneSession, sessionsOf, getOrNew, lookup_cons_ite]

/-- The connections to two clients. -/
def twoClients : NotificationInterface := ⟨[], ["snbmodules_client0", "snbmodules_client1"]⟩

theorem update_requests_iff_client1 : ∃ sent,
    twoClients.Posts ⟨0, 0, []⟩ sent ((oneSession "client1").requestUpdateMetadata twoClients
      ⟨fun _ => true, fun _ => 0⟩ true ⟨0, 0, []⟩).1 ∧
    sent ≠ [] ∧ ∀ m ∈ sent, m.1 = "client1" := by
  obtain ⟨-, -, sent, hposts, htargets, -, howner⟩ :=
    update_requests_iff (σ := Unit) twoClients ⟨fun _ => true, fun _ => 0⟩ true
      (oneSession "client1") ⟨0, 0, []⟩ (fun _ => "client1") (by
        rw [polledSessions_oneSession]
        exact List.forall_mem_singleton.2 ⟨"transfer0", rfl⟩)
  rw [polledSessions_oneSession] at htargets howner
  refine ⟨sent, hposts, ?_, howner.2 (by decide +kernel)⟩
  rintro rfl
  cases htargets

/-- The request to a client whose id has an underscore is sent to another one. -/
theorem request_to_another_client :
    getClientNameFromSessionName
      ((⟨.default, "client1", "", [], ∅, ⟨[], []⟩⟩ : TransferClient Unit).generateSessionId
        "transfer0" "snbmodules_client1") = "snbmodules" ∧
    twoClients.realConnId "snbmodules" = "snbmodules_client0" ∧
    ∃ sent, twoClients.Posts ⟨0, 0, []⟩ sent
        ((oneSession "snbmodules_client1").requestUpdateMetadata twoClients
          ⟨fun _ => true, fun _ => 0⟩ true ⟨0, 0, []⟩).1 ∧
      sent.map Prod.fst = ["snbmodules"] := by
  refine ⟨by decide +kernel, by decide +kernel, _, posts_requestUpdateMetadata _ _ _ _ _, ?_⟩
  rw [polledSessions_oneSession]
  decide +kernel

end Bookkeeper

end Transfer
end SNBModules
