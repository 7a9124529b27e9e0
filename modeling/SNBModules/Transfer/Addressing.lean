import Mathlib.Data.String.Basic
import SNBModules.Transfer.Client

/-!
# Addressing between clients

Source: `notification_interface.cpp`, `send_notification`; `transfer_client.cpp`,
`action_on_receive_notification`; `docs/Configuration.md`.

The connection of a client is documented as `<prefix>_<id>_notification_<suffix>`.
A send looks for a connection whose name contains the id of the client, in the
order of the names, and a client takes a notification whose target contains its
own id.  Ids inside other ids therefore meet each other's messages: a message is
put on the right connection, and taken by the right client alone, exactly when no
name in between and no other id fits (`addressed_iff`).
-/

namespace SNBModules
namespace Transfer

/-- In a list in strict order the first element that passes is the least. -/
theorem find?_eq_some_iff_of_pairwise {α : Type} [LinearOrder α] {l : List α} {p : α → Bool}
    {a : α} (hl : l.Pairwise (· < ·)) (ha : a ∈ l) (hpa : p a) :
    l.find? p = some a ↔ ∀ b ∈ l, p b → a ≤ b := by
  rw [List.find?_eq_some_iff_append]
  constructor
  · rintro ⟨-, as, bs, rfl, hbefore⟩ b hb hpb
    rw [List.pairwise_append, List.pairwise_cons] at hl
    obtain ⟨-, ⟨hafter, -⟩, -⟩ := hl
    rcases List.mem_append.1 hb with hb | hb
    · have hnot := hbefore b hb
      rw [hpb] at hnot
      cases hnot
    · rcases List.mem_cons.1 hb with rfl | hb
      · exact le_rfl
      · exact (hafter b hb).le
  · intro hleast
    obtain ⟨as, bs, rfl⟩ := List.append_of_mem ha
    refine ⟨hpa, as, bs, rfl, fun b hb => ?_⟩
    rw [List.pairwise_append] at hl
    have hlt : b < a := hl.2.2 b hb a List.mem_cons_self
    by_contra hpb
    have hpb : p b = true := by simpa using hpb
    exact absurd (hleast b (List.mem_append_left _ hb) hpb) (not_le.2 hlt)

/-- The clients of a deployment: their ids, and how their connections are named. -/
structure Deployment where
  ids : Finset String
  connPrefix : String
  suffix : String → String

namespace Deployment

variable (d : Deployment)

/-- The documented name of a client's connection. -/
def connName (id : String) : String :=
  d.connPrefix ++ "_" ++ id ++ "_notification_" ++ d.suffix id

/-- The connections of clients that an interface knows are those of the deployment. -/
structure Knows (ni : NotificationInterface) : Prop where
  sorted : ni.clientsConn.Pairwise (· < ·)
  mem : ∀ name, name ∈ ni.clientsConn ↔ ∃ id ∈ d.ids, name = d.connName id

/-- The session id of a transfer at a client. -/
def sessionId (id transferId : String) : String := id ++ "_ses" ++ transferId

/-- Every try of a send to `id` is on its connection, and of all clients it is the
only one that takes the notification. -/
def Addressed (ni : NotificationInterface) (env : Env) (type : NotificationType)
    (src id transferId data : String) (tries : ℤ) (w : World) : Prop :=
  (∀ attempts,
    (ni.sendNotification env type src (sessionId id transferId) id data tries w).1.sends =
      w.sends ++ [attempts] → ∀ a ∈ attempts, a.conn = d.connName id) ∧
    ∀ other ∈ d.ids, TransferClient.accepts other
      ⟨src, sessionId id transferId, notificationToString type, data⟩ = true ↔ other = id

/-- The name of a connection contains the id of its client. -/
theorem containsText_connName (id : String) : containsText (d.connName id) id = true := by
  simp only [containsText, connName, String.toList_append, decide_eq_true_eq, List.append_assoc]
  exact ⟨d.connPrefix.toList ++ "_".toList, "_notification_".toList ++ (d.suffix id).toList,
    by simp only [List.append_assoc]⟩

/-- **The connection that is found is the right one** when no name before it
contains the id. -/
theorem realConnId_eq_connName_iff {ni : NotificationInterface} (hni : d.Knows ni) {id : String}
    (hid : id ∈ d.ids) :
    ni.realConnId id = d.connName id ↔
      ∀ other ∈ d.ids, containsText (d.connName other) id → d.connName id ≤ d.connName other := by
  have hmem : d.connName id ∈ ni.clientsConn := (hni.mem _).2 ⟨id, hid, rfl⟩
  have hfind := find?_eq_some_iff_of_pairwise (p := fun conn => containsText conn id) hni.sorted
    hmem (d.containsText_connName id)
  have hsome : ∃ name, ni.clientsConn.find? (fun conn => containsText conn id) = some name := by
    rw [← Option.isSome_iff_exists, List.find?_isSome]
    exact ⟨_, hmem, d.containsText_connName id⟩
  obtain ⟨name, hname⟩ := hsome
  have hreal : ni.realConnId id = name := by simp [NotificationInterface.realConnId, hname]
  rw [hreal, ← Option.some_inj, ← hname, hfind]
  constructor
  · exact fun h other hother => h _ ((hni.mem _).2 ⟨other, hother, rfl⟩)
  · rintro h b hb
    obtain ⟨other, hother, rfl⟩ := (hni.mem b).1 hb
    exact h other hother

/-- A session id is not the word for all clients. -/
theorem accepts_sessionId (other src id transferId type data : String) :
    TransferClient.accepts other ⟨src, sessionId id transferId, type, data⟩ =
      containsText (sessionId id transferId) other := by
  have hne : sessionId id transferId ≠ "all" := by
    intro h
    have hmem : '_' ∈ (sessionId id transferId).toList := by simp [sessionId]
    rw [h] at hmem
    revert hmem
    decide
  simp [TransferClient.accepts, hne]

/-- **When a message reaches its client and no other:** no connection whose name
contains the id comes before the client's own, and no other id is part of the
session id. -/
theorem addressed_iff {ni : NotificationInterface} (hni : d.Knows ni) (env : Env)
    (type : NotificationType) (src : String) {id : String} (hid : id ∈ d.ids)
    (transferId data : String) (tries : ℤ) (w : World) :
    d.Addressed ni env type src id transferId data tries w ↔
      (∀ other ∈ d.ids, containsText (d.connName other) id →
        d.connName id ≤ d.connName other) ∧
      ∀ other ∈ d.ids, containsText (sessionId id transferId) other → other = id := by
  obtain ⟨attempts, hsends, hne, hsame, -⟩ := ni.sendNotification_sends env type src
    (sessionId id transferId) id data tries w
  have hself : containsText (sessionId id transferId) id = true := by
    simp only [containsText, sessionId, String.toList_append, decide_eq_true_eq, List.append_assoc]
    exact List.infix_append' [] id.toList _
  refine and_congr ?_ (forall₂_congr fun other hother => ?_)
  · rw [← d.realConnId_eq_connName_iff hni hid]
    constructor
    · intro h
      obtain ⟨a, ha⟩ := List.exists_mem_of_ne_nil _ hne
      rw [← (hsame a ha).1]
      exact h attempts hsends a ha
    · intro h attempts' hsends' a ha
      rw [hsends, List.append_cancel_left_eq, List.cons.injEq] at hsends'
      obtain ⟨rfl, -⟩ := hsends'
      rw [(hsame a ha).1, h]
  · rw [accepts_sessionId]
    constructor
    · exact fun h => h.1
    · refine fun h => ⟨h, ?_⟩
      rintro rfl
      exact hself

/-- The three clients of the documented example. -/
def example3 : Deployment where
  ids := {"client0", "client1", "client2"}
  connPrefix := "snbmodules"
  suffix id := if id = "client0" then "0x00000000" else if id = "client1" then "0x00000001"
    else "0x00000002"

/-- What a client of the example knows. -/
def example3Conns : NotificationInterface where
  bookkeepersConn := ["snbmodules_bookkeeper_notification_0x00000000"]
  clientsConn := ["snbmodules_client0_notification_0x00000000",
    "snbmodules_client1_notification_0x00000001", "snbmodules_client2_notification_0x00000002"]

/-- In the documented example every message reaches its client alone. -/
theorem addressed_iff_example3 :
    example3.Addressed example3Conns ⟨fun _ => true, fun _ => 0⟩ .startTransfer
      "client0_sestransfer0" "client1" "transfer0" "" (-1) ⟨0, 0, []⟩ := by
  have hknows : example3.Knows example3Conns := by
    refine ⟨by decide +kernel, fun name => ?_⟩
    have hnames : example3.ids.val.map example3.connName = example3Conns.clientsConn := by
      decide +kernel
    rw [← Multiset.mem_coe, ← hnames, Multiset.mem_map]
    exact exists_congr fun id => and_congr Iff.rfl eq_comm
  refine (example3.addressed_iff hknows _ _ _ (by decide +kernel) _ _ _ _).2 ⟨?_, ?_⟩
  · decide +kernel
  · decide +kernel

/-- Two clients, the id of one of them a prefix of the other's. -/
def example10 : Deployment where
  ids := {"client1", "client10"}
  connPrefix := "snbmodules"
  suffix id := if id = "client1" then "0x00000001" else "0x0000000a"

/-- What they know. -/
def example10Conns : NotificationInterface where
  bookkeepersConn := []
  clientsConn := ["snbmodules_client10_notification_0x0000000a",
    "snbmodules_client1_notification_0x00000001"]

/-- **Messages for `client1` go to `client10`,** and `client1` takes those that are
meant for `client10`. -/
theorem client1_not_addressed :
    example10.Knows example10Conns ∧
    (example10Conns.sendNotification ⟨fun _ => true, fun _ => 0⟩ .startTransfer
      "client0_sest" (sessionId "client1" "t") "client1" "" (-1) ⟨0, 0, []⟩).1.sends.map
        (fun attempts => attempts.map Attempt.conn) =
      [["snbmodules_client10_notification_0x0000000a"]] ∧
    TransferClient.accepts "client1"
      ⟨"client0_sest", sessionId "client10" "t", "START_TRANSFER", ""⟩ = true ∧
    ¬ example10.Addressed example10Conns ⟨fun _ => true, fun _ => 0⟩ .startTransfer
      "client0_sest" "client1" "t" "" (-1) ⟨0, 0, []⟩ ∧
    ¬ example10.Addressed example10Conns ⟨fun _ => true, fun _ => 0⟩ .startTransfer
      "client0_sest" "client10" "t" "" (-1) ⟨0, 0, []⟩ := by
  refine ⟨⟨by decide +kernel, fun name => ?_⟩, by decide +kernel, by decide +kernel,
    fun h => ?_, fun h => ?_⟩
  · have hnames : example10.ids.val.map example10.connName = example10Conns.clientsConn := by
      decide +kernel
    rw [← Multiset.mem_coe, ← hnames, Multiset.mem_map]
    exact exists_congr fun id => and_congr Iff.rfl eq_comm
  · have hconn := h.1 _ rfl _ List.mem_cons_self
    revert hconn
    decide +kernel
  · have hother := (h.2 "client1" (by decide +kernel)).1 (by decide +kernel)
    revert hother
    decide

end Deployment

end Transfer
end SNBModules
