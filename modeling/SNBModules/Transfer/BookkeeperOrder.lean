import Mathlib.Data.Multiset.MapFold
import SNBModules.Lib.Registry
import SNBModules.Transfer.Bookkeeper

/-!
# The order of notifications

Source: `bookkeeper.cpp`, `add_update_transfer` and `add_update_grp_transfer`,
with `GroupMetadata::add_file`.

A notification is an `Event` of a registry: it names a group, or reports on a
record.  `Rep` connects the bookkeeper, with its shared records and its lists of
pointers, to the registry of what it was told; `exec_receive` is the simulation.
The records are compared without their times, which a reading may take from the
bookkeeper's own clock.

A record enters the list of its group only on its first message, and only if the
group is known by then.  `agree_iff_groupsFirst` says for which orders that makes
no difference.
-/

namespace SNBModules
namespace Transfer

open Lib

namespace Bookkeeper

/-- A client, and what `operator==` compares of a record that it sends. -/
abbrev RecordId : Type := String × (Bool × List (List Char)) × IPFormat × IPFormat × String

/-- The group id. -/
def RecordId.group (x : RecordId) : String := x.2.2.2.2

section Messages

variable (cwd : String) (parse : String → Option Json)

/-- The record that a notification is about. -/
def recordNamed (n : NotificationData) : Option RecordId :=
  if n.notification = notificationToString .transferMetadata ∧ n.data ≠ "end" then
    match TransferMetadata.ofString cwd parse 0 n.data with
    | .ok file => some (n.sourceId, file.key)
    | .error _ => none
  else none

/-- The group that a notification is about. -/
def groupNamed (n : NotificationData) : Option String :=
  if n.notification = notificationToString .groupMetadata then
    match (GroupMetadata.ofString cwd parse n.data : Except Exn (GroupMetadata ℕ)) with
    | .ok g => some g.groupId
    | .error _ => none
  else none

/-- A notification of one of the two kinds, for this bookkeeper, whose data can be
read. -/
def WellFormed (bookkeeperId : String) (n : NotificationData) : Prop :=
  accepts bookkeeperId n = true ∧
    (n.notification = notificationToString .groupMetadata ∧ (groupNamed cwd parse n).isSome ∨
      n.notification = notificationToString .transferMetadata ∧
        (n.data = "end" ∨ (recordNamed cwd parse n).isSome))

/-- What a message leaves of a record, up to the times. -/
def reading (data : String) (m : TransferMetadata) : TransferMetadata :=
  (m.fromString cwd parse 0 data).1.withoutClock

/-- What a notification says. -/
def event (n : NotificationData) : Event RecordId TransferMetadata String :=
  match recordNamed cwd parse n with
  | some x => .report x (reading cwd parse n.data)
  | none =>
      match groupNamed cwd parse n with
      | some g => .announce g
      | none => .skip

end Messages

/-- A group id that records are linked to. -/
def linkable (g : String) : Bool := g ≠ ""

/-- The registry after some notifications. -/
def ledger (cwd : String) (parse : String → Option Json) (l : List NotificationData) :
    Registry RecordId TransferMetadata String :=
  Registry.run RecordId.group linkable TransferMetadata.blank (l.map (event cwd parse))

/-! ## Representation -/

/-- A record of the client. -/
def ofClient (client : String) (e : Entry RecordId TransferMetadata) : Bool := e.key.1 = client

/-- A record that is linked to the group. -/
def inGroup (g : String) (e : Entry RecordId TransferMetadata) : Bool :=
  e.linked && decide (e.key.group = g)

/-- The bookkeeper holds what the registry says: the records behind its pointers,
and in each list the pointers to the records that belong there. -/
structure Rep (r : Registry RecordId TransferMetadata String) (b : Bookkeeper) : Prop where
  records : b.heap.map TransferMetadata.withoutClock = r.entries.map Entry.value
  keys : ∀ e ∈ r.entries, e.value.key = e.key.2
  transfers : ∀ client, getOrNew [] client b.transfers = places (ofClient client) r.entries
  known : ∀ g, (b.grpTransfers.lookup g).isSome ↔ g ∈ r.known
  groups : ∀ g G, b.grpTransfers.lookup g = some G →
    G.groupId = g ∧ G.transfersMeta = places (inGroup g) r.entries

variable {cwd : String} {parse : String → Option Json}
  {r : Registry RecordId TransferMetadata String} {b : Bookkeeper}

theorem rep_new (bookkeeperId : String) : Rep Registry.empty (new bookkeeperId) where
  records := rfl
  keys e he := by simp [Registry.empty] at he
  transfers client := rfl
  known g := by simp [new, Registry.empty]
  groups g G h := by simp [new] at h

/-- The record behind the pointer to an entry. -/
theorem Rep.deref (h : Rep r b) {ptr : ℕ} {e : Entry RecordId TransferMetadata}
    (he : r.entries[ptr]? = some e) : (b.deref ptr).withoutClock = e.value := by
  have hrec : (b.heap.map TransferMetadata.withoutClock)[ptr]? = some e.value := by
    rw [h.records, List.getElem?_map, he, Option.map_some]
  rw [List.getElem?_map, Option.map_eq_some_iff] at hrec
  obtain ⟨m, hm, hvalue⟩ := hrec
  rw [Bookkeeper.deref, List.getD_eq_getElem?_getD, hm]
  exact hvalue

theorem Rep.length (h : Rep r b) : b.heap.length = r.entries.length := by
  have hlen := congrArg List.length h.records
  simpa using hlen

theorem Rep.deref_key (h : Rep r b) {ptr : ℕ} {e : Entry RecordId TransferMetadata}
    (he : r.entries[ptr]? = some e) : (b.deref ptr).key = e.key.2 := by
  rw [← TransferMetadata.key_withoutClock, h.deref he]
  exact h.keys e (List.mem_of_getElem? he)

/-! ## Groups -/

/-- **What a group message changes:** the group has the transfers of the one before
it with that id, if there is one. -/
theorem addUpdateGrpTransfer_spec (g : GroupMetadata ℕ) (b : Bookkeeper) :
    ((b.addUpdateGrpTransfer g).heap = b.heap ∧
      (b.addUpdateGrpTransfer g).transfers = b.transfers ∧
      (b.addUpdateGrpTransfer g).bookkeeperId = b.bookkeeperId) ∧
    ∀ k, ((b.addUpdateGrpTransfer g).grpTransfers.lookup k).map
        (fun G => (G.groupId, G.transfersMeta)) =
      if k = g.groupId then
        some (k, ((b.grpTransfers.lookup k).map GroupMetadata.transfersMeta).getD g.transfersMeta)
      else (b.grpTransfers.lookup k).map fun G => (G.groupId, G.transfersMeta) := by
  rw [addUpdateGrpTransfer]
  cases hold : b.grpTransfers.lookup g.groupId with
  | some old =>
      refine ⟨⟨rfl, rfl, rfl⟩, fun k => ?_⟩
      show ((assign g.groupId _ (remove g.groupId b.grpTransfers)).lookup k).map _ = _
      rw [lookup_assign, lookup_remove]
      split_ifs with hk
      · rw [hk, hold]
        rfl
      · rfl
  | none =>
      refine ⟨⟨rfl, rfl, rfl⟩, fun k => ?_⟩
      show ((assign g.groupId g b.grpTransfers).lookup k).map _ = _
      rw [lookup_assign]
      split_ifs with hk
      · rw [hk, hold]
        rfl
      · rfl

/-- **A group message announces its group,** and links nothing. -/
theorem Rep.announce (h : Rep r b) (g : GroupMetadata ℕ) (hnew : g.transfersMeta = [])
    (hlinked : ∀ e ∈ r.entries, e.linked = true → e.key.group ∈ r.known) :
    Rep (r.announce g.groupId) (b.addUpdateGrpTransfer g) := by
  obtain ⟨⟨hheap, htransfers, -⟩, hlookup⟩ := addUpdateGrpTransfer_spec g b
  constructor
  · rw [hheap]
    exact h.records
  · exact h.keys
  · rw [htransfers]
    exact h.transfers
  · intro k
    have hk := congrArg Option.isSome (hlookup k)
    rw [Option.isSome_map] at hk
    rw [hk]
    split_ifs with heq
    · simp [heq, Registry.announce]
    · rw [Option.isSome_map, h.known]
      simp [heq, Registry.announce]
  · intro k G hG
    have hk := hlookup k
    rw [hG, Option.map_some] at hk
    split_ifs at hk with heq
    · obtain ⟨hid, hmeta⟩ := Prod.mk.inj (Option.some.inj hk)
      refine ⟨hid, hmeta.trans ?_⟩
      show _ = places (inGroup k) r.entries
      cases hold : b.grpTransfers.lookup k with
      | some old => exact (h.groups k old hold).2
      | none =>
          -- a group that was not known has no record linked to it
          rw [Option.map_none, Option.getD_none, hnew, eq_comm, List.eq_nil_iff_forall_not_mem]
          intro ptr hptr
          obtain ⟨e, he, hin⟩ := mem_places.1 hptr
          simp only [inGroup, Bool.and_eq_true, decide_eq_true_eq] at hin
          have hmem := (h.known k).2 (hin.2 ▸ hlinked e (List.mem_of_getElem? he) hin.1)
          simp [hold] at hmem
    · obtain ⟨G', hG', heq'⟩ := Option.map_eq_some_iff.1 hk.symm
      obtain ⟨hid, hmeta⟩ := Prod.mk.inj heq'
      rw [← hid, ← hmeta]
      exact h.groups k G' hG'

/-! ## Records -/

/-- `operator[]` makes no difference to what is in the lists. -/
theorem Rep.touch (h : Rep r b) (client : String) : Rep r (b.touch client) where
  records := h.records
  keys := h.keys
  transfers client' := by
    rw [← h.transfers client', Bookkeeper.touch, getOrNew_assign]
    split_ifs with hc
    · rw [hc]
    · rfl
  known := h.known
  groups := h.groups

/-- **The loop finds the record of the registry.** -/
theorem Rep.findKnown_eq_some (h : Rep r b) {client : String} {file : TransferMetadata} {tr : ℕ}
    (htr : b.findKnown client file = some tr) :
    ∃ e, r.entries[tr]? = some e ∧ e.key = (client, file.key) := by
  have hmem := List.mem_of_find?_eq_some htr
  have hkey := List.find?_some htr
  rw [h.transfers] at hmem
  obtain ⟨e, he, hclient⟩ := mem_places.1 hmem
  refine ⟨e, he, Prod.ext ?_ ?_⟩
  · simpa [ofClient] using hclient
  · rw [← h.deref_key he]
    simpa using hkey

/-- It finds none where there is none. -/
theorem Rep.findKnown_eq_none (h : Rep r b) {client : String} {file : TransferMetadata}
    (htr : b.findKnown client file = none) : (client, file.key) ∉ r.keys := by
  intro hmem
  obtain ⟨e, he, hkey⟩ := List.mem_map.1 hmem
  obtain ⟨tr, htr'⟩ := List.mem_iff_getElem?.1 he
  have hin : tr ∈ getOrNew [] client b.transfers := by
    rw [h.transfers]
    exact mem_places.2 ⟨e, htr', by simp [ofClient, hkey]⟩
  have hne := List.find?_eq_none.1 htr tr hin
  rw [h.deref_key htr', hkey] at hne
  simp at hne

/-- **An update changes its record alone.** -/
theorem Rep.update (h : Rep r b) {tr : ℕ} {e : Entry RecordId TransferMetadata}
    (he : r.entries[tr]? = some e) {u : TransferMetadata → TransferMetadata} {m : TransferMetadata}
    (hm : m.withoutClock = u e.value) (hkey : m.key = e.key.2) :
    Rep (r.update e.key u) { b with heap := b.heap.set tr m } where
  records := by
    refine List.ext_getElem? fun i => ?_
    have hi : (b.heap.map TransferMetadata.withoutClock)[i]? =
        (r.entries.map Entry.value)[i]? := by rw [h.records]
    simp only [List.getElem?_map, List.getElem?_set, Registry.update] at hi ⊢
    split_ifs with htr hlen
    · subst htr
      simp [he, Entry.update, hm]
    · exact absurd (h.length ▸ (List.getElem?_eq_some_iff.1 he).1) (htr ▸ hlen)
    · rw [hi]
      cases hi' : r.entries[i]? with
      | none => rfl
      | some e' =>
          have hne : e'.key ≠ e.key := by
            intro heq
            have hlt : i < r.keys.length := by
              rw [Registry.keys, List.length_map]
              exact (List.getElem?_eq_some_iff.1 hi').1
            refine htr ((List.getElem?_inj hlt r.nodup).1 ?_).symm
            simp [Registry.keys, hi', he, heq]
          simp [Entry.update, hne]
  keys e' he' := by
    obtain ⟨e₀, he₀, rfl⟩ := List.mem_map.1 he'
    rw [Entry.update_key, Entry.update]
    split_ifs with heq
    · show (u e₀.value).key = _
      have hkeys : e₀ = e := List.inj_on_of_nodup_map r.nodup he₀ (List.mem_of_getElem? he) heq
      rw [hkeys, ← hm, TransferMetadata.key_withoutClock, hkey]
    · exact h.keys e₀ he₀
  transfers client := by
    rw [h.transfers, Registry.update, places_map]
    intro e
    simp [ofClient]
  known := h.known
  groups g G hG := by
    obtain ⟨hid, hmeta⟩ := h.groups g G hG
    refine ⟨hid, ?_⟩
    rw [hmeta, Registry.update, places_map]
    intro e
    simp [inGroup]

theorem linkFile_frame (groupId : String) (ptr : ℕ) (b : Bookkeeper) :
    (b.linkFile groupId ptr).transfers = b.transfers ∧
      (b.linkFile groupId ptr).bookkeeperId = b.bookkeeperId := by
  rw [linkFile]
  split_ifs
  · exact ⟨rfl, rfl⟩
  · cases b.grpTransfers.lookup groupId <;> exact ⟨rfl, rfl⟩

/-- **What linking changes:** the list of the group of the record, if there is one
with that id and the id is not empty. -/
theorem linkFile_spec (b : Bookkeeper) (ptr : ℕ) (hptr : ptr < b.heap.length)
    (hgroups : ∀ g G, b.grpTransfers.lookup g = some G → G.groupId = g ∧ ptr ∉ G.transfersMeta) :
    (b.linkFile (b.deref ptr).groupId ptr).heap = b.heap ∧
    ∀ g, ((b.linkFile (b.deref ptr).groupId ptr).grpTransfers.lookup g).map
        (fun G => (G.groupId, G.transfersMeta)) =
      (b.grpTransfers.lookup g).map fun G => (G.groupId, G.transfersMeta ++
        if linkable g = true ∧ (b.deref ptr).groupId = g then [ptr] else []) := by
  have hother : ∀ g, ¬ (linkable g = true ∧ (b.deref ptr).groupId = g) →
      (b.grpTransfers.lookup g).map (fun G => (G.groupId, G.transfersMeta)) =
      (b.grpTransfers.lookup g).map fun G => (G.groupId, G.transfersMeta ++
        if linkable g = true ∧ (b.deref ptr).groupId = g then [ptr] else []) := by
    intro g hg
    simp [hg]
  rw [linkFile]
  split_ifs with hempty
  · refine ⟨rfl, fun g => hother g ?_⟩
    rintro ⟨hlink, rfl⟩
    simp [linkable, hempty] at hlink
  · cases hG : b.grpTransfers.lookup (b.deref ptr).groupId with
    | none =>
        refine ⟨rfl, fun g => ?_⟩
        by_cases hg : linkable g = true ∧ (b.deref ptr).groupId = g
        · obtain ⟨-, rfl⟩ := hg
          show (b.grpTransfers.lookup _).map _ = _
          rw [hG]
          rfl
        · exact hother g hg
    | some G =>
        obtain ⟨hid, hnot⟩ := hgroups _ G hG
        obtain ⟨G', hadd, hid', hmeta⟩ := GroupMetadata.addFile_of_groupId hid.symm hnot
        simp only [hadd]
        refine ⟨?_, fun g => ?_⟩
        · refine List.ext_getElem? fun i => ?_
          rw [List.getElem?_set]
          split_ifs with hi
          · subst hi
            rw [Bookkeeper.deref, List.getD_eq_getElem?_getD, List.getElem?_eq_getElem hptr]
            rfl
          · rfl
        · rw [lookup_assign]
          by_cases hg : g = (b.deref ptr).groupId
          · subst hg
            simp [hG, hid', hmeta, linkable, hempty]
          · rw [if_neg hg]
            exact hother g fun h => hg h.2.symm

/-- **A new record is entered,** and linked when its group is known. -/
theorem Rep.enter (h : Rep r b) {client : String} {file : TransferMetadata}
    (hnew : (client, file.key) ∉ r.keys) :
    Rep (r.enter ⟨(client, file.key), file.withoutClock,
        r.links RecordId.group linkable (client, file.key)⟩ hnew)
      (((b.alloc file).linkFile file.groupId b.heap.length).pushTransfer client b.heap.length) := by
  have hspec := linkFile_spec (b.alloc file) b.heap.length (by simp) fun g G hG => by
      obtain ⟨hid, hmeta⟩ := h.groups g G hG
      refine ⟨hid, fun hmem => ?_⟩
      rw [hmeta] at hmem
      obtain ⟨e, he, -⟩ := mem_places.1 hmem
      have hlt := (List.getElem?_eq_some_iff.1 he).1
      have hlen := h.length
      omega
  rw [deref_alloc] at hspec
  obtain ⟨hheap, hlookup⟩ := hspec
  constructor
  · rw [pushTransfer_heap, hheap, alloc_heap, List.map_append, h.records]
    simp [Registry.enter]
  · intro e he
    rcases List.mem_append.1 he with he | he
    · exact h.keys e he
    · rw [List.mem_singleton.1 he]
      rfl
  · intro client'
    have htransfers : (b.alloc file).transfers = b.transfers := rfl
    rw [pushTransfer, getOrNew_assign, (linkFile_frame ..).1, htransfers, Registry.enter,
      places_concat, ← h.transfers client', h.length]
    by_cases hc : client' = client
    · simp [hc, ofClient]
    · simp [hc, ofClient, Ne.symm hc]
  · intro g
    have hg := congrArg Option.isSome (hlookup g)
    rw [Option.isSome_map, Option.isSome_map] at hg
    rw [pushTransfer_grpTransfers, hg]
    exact h.known g
  · intro g G' hG'
    have hg := hlookup g
    rw [pushTransfer_grpTransfers] at hG'
    rw [hG', Option.map_some, eq_comm, Option.map_eq_some_iff] at hg
    obtain ⟨G, hG, heq⟩ := hg
    obtain ⟨hid, hmeta⟩ := h.groups g G hG
    have hknown : g ∈ r.known := (h.known g).1 (by rw [← alloc_grpTransfers file b, hG]; rfl)
    obtain ⟨hid', hmeta'⟩ := Prod.mk.inj heq
    refine ⟨hid'.symm.trans hid, ?_⟩
    rw [← hmeta', hmeta, Registry.enter, places_concat, h.length]
    refine congrArg _ (if_congr ?_ rfl rfl)
    -- the group is known, so that the record is linked unless its id is empty
    show _ ↔
      (r.links RecordId.group linkable (client, file.key) && decide (file.groupId = g)) = true
    rw [Bool.and_eq_true, Registry.links_eq_true, decide_eq_true_iff]
    constructor
    · rintro ⟨hlink, rfl⟩
      exact ⟨⟨hlink, hknown⟩, rfl⟩
    · rintro ⟨⟨hlink, -⟩, rfl⟩
      exact ⟨hlink, rfl⟩

/-! ## Notifications -/

/-- What a transfer message leaves of a record, up to the times. -/
theorem reading_withoutClock {data : String} {m m' : TransferMetadata} {now : ℤ}
    (h : m.fromString cwd parse now data = (m', none)) :
    m'.withoutClock = reading cwd parse data m.withoutClock := by
  have halike := (TransferMetadata.fromString_withoutClock cwd parse data now 0 (m := m)
    (n := m.withoutClock) rfl).1
  rw [h] at halike
  exact halike

/-- **A transfer message reports on its record.** -/
theorem Rep.addUpdateTransfer (h : Rep r b) (client : String) {data : String}
    {file₀ : TransferMetadata} (hfile₀ : TransferMetadata.ofString cwd parse 0 data = .ok file₀)
    (decodedAt updatedAt : ℤ) :
    ∃ b', b.addUpdateTransfer cwd parse decodedAt updatedAt client data = .ok b' ∧
      b'.bookkeeperId = b.bookkeeperId ∧
      Rep (r.step RecordId.group linkable .blank
        (.report (client, file₀.key) (reading cwd parse data))) b' := by
  obtain ⟨file, hfile, halike⟩ := TransferMetadata.ofString_withoutClock decodedAt hfile₀
  have hkey : file₀.key = file.key := by
    rw [← TransferMetadata.key_withoutClock, ← halike, TransferMetadata.key_withoutClock]
  have h := h.touch client
  rw [Bookkeeper.addUpdateTransfer, hfile, hkey, Registry.step]
  cases htr : (b.touch client).findKnown client file with
  | some tr =>
      obtain ⟨e, he, hek⟩ := h.findKnown_eq_some htr
      have hderef : ((b.touch client).deref tr).key = file.key := by
        rw [h.deref_key he, hek]
      obtain ⟨m, hm, hmkey⟩ := TransferMetadata.fromString_again updatedAt hfile hderef
      refine ⟨{ b.touch client with heap := (b.touch client).heap.set tr m },
        by simp [bind, Except.bind, htr, hm], rfl, ?_⟩
      rw [dif_pos (hek ▸ List.mem_map_of_mem (List.mem_of_getElem? he))]
      have hrep := h.update he (u := reading cwd parse data) (m := m)
        (by rw [reading_withoutClock hm, h.deref he]) (by rw [hmkey, hek])
      rwa [hek] at hrep
  | none =>
      refine ⟨(((b.touch client).alloc file).linkFile file.groupId
        (b.touch client).heap.length).pushTransfer client (b.touch client).heap.length,
        by simp [bind, Except.bind, htr], ?_, ?_⟩
      · exact (linkFile_frame ..).2
      · have hnew := h.findKnown_eq_none htr
        rw [dif_neg hnew]
        have hvalue : file.withoutClock = reading cwd parse data .blank := by
          exact reading_withoutClock (TransferMetadata.ofString_eq_ok.1 hfile)
        rw [← hvalue]
        exact h.enter hnew

/-- **What a notification says, the bookkeeper takes down.** -/
theorem Rep.receive (h : Rep r b) (rc : Receipt)
    (hwf : WellFormed cwd parse b.bookkeeperId rc.notif)
    (hlinked : ∀ e ∈ r.entries, e.linked = true → e.key.group ∈ r.known) :
    ∃ b', b.receive cwd parse rc = some b' ∧ b'.bookkeeperId = b.bookkeeperId ∧
      Rep (r.step RecordId.group linkable .blank (event cwd parse rc.notif)) b' := by
  obtain ⟨haccepts, ⟨hkind, hread⟩ | ⟨hkind, hread⟩⟩ := hwf
  · have hrecord : recordNamed cwd parse rc.notif = none := by
      simp [recordNamed, hkind, notificationToString]
    cases hg : (GroupMetadata.ofString cwd parse rc.notif.data : Except Exn (GroupMetadata ℕ)) with
    | error e => simp [groupNamed, hkind, hg] at hread
    | ok g =>
        have hgroup : groupNamed cwd parse rc.notif = some g.groupId := by
          simp [groupNamed, hkind, hg]
        refine ⟨(b.insertClient g.groupId rc.notif.sourceId).addUpdateGrpTransfer g, ?_, ?_, ?_⟩
        · simp [Bookkeeper.receive, actionOnReceiveNotification, haccepts, hkind, hg, bind,
            Except.bind]
        · exact (addUpdateGrpTransfer_spec g _).1.2.2
        · rw [event, hrecord, hgroup]
          have hrep : Rep r (b.insertClient g.groupId rc.notif.sourceId) :=
            ⟨h.records, h.keys, h.transfers, h.known, h.groups⟩
          exact hrep.announce g (GroupMetadata.ofString_transfersMeta hg) hlinked
  · by_cases hend : rc.notif.data = "end"
    · refine ⟨b.touch rc.notif.sourceId, ?_, rfl, ?_⟩
      · simp [Bookkeeper.receive, actionOnReceiveNotification, haccepts, hkind, hend]
      · have hskip : event cwd parse rc.notif = .skip := by
          simp [event, recordNamed, groupNamed, hkind, hend, notificationToString]
        rw [hskip]
        exact h.touch _
    · cases hf : TransferMetadata.ofString cwd parse 0 rc.notif.data with
      | error e => simp [recordNamed, hkind, hend, hf] at hread
      | ok file =>
          have hrecord : recordNamed cwd parse rc.notif = some (rc.notif.sourceId, file.key) := by
            simp [recordNamed, hkind, hend, hf]
          obtain ⟨b', hb', hid, hrep⟩ :=
            h.addUpdateTransfer rc.notif.sourceId hf rc.decodedAt rc.updatedAt
          refine ⟨b', ?_, hid, ?_⟩
          · simp [Bookkeeper.receive, actionOnReceiveNotification, haccepts, hkind, hend, hb',
              bind, Except.bind]
          · rw [event, hrecord]
            exact hrep

/-- **What a run leaves** is what the notifications say, taken one by one. -/
theorem exec_receive (bookkeeperId : String) (l : List Receipt)
    (hwf : ∀ rc ∈ l, WellFormed cwd parse bookkeeperId rc.notif) :
    ∃ b, exec (Bookkeeper.receive cwd parse) (new bookkeeperId) l = some b ∧
      b.bookkeeperId = bookkeeperId ∧ Rep (ledger cwd parse (l.map Receipt.notif)) b := by
  induction l using List.reverseRecOn with
  | nil => exact ⟨_, rfl, rfl, rep_new bookkeeperId⟩
  | append_singleton l rc ih =>
      obtain ⟨b, hb, hid, hrep⟩ := ih fun rc hrc => hwf rc (List.mem_append_left _ hrc)
      have htells := Registry.tells_run RecordId.group linkable TransferMetadata.blank
        ((l.map Receipt.notif).map (event cwd parse))
      obtain ⟨b', hb', hid', hrep'⟩ := hrep.receive rc (hid ▸ hwf rc (by simp))
        fun e he hlinked => htells.group_known he hlinked
      refine ⟨b', exec_concat_eq_some.2 ⟨b, hb, hb'⟩, hid'.trans hid, ?_⟩
      rw [ledger, List.map_append, List.map_append, Registry.run, List.foldl_append]
      exact hrep'

/-! ## What is compared -/

/-- The records of a group, up to the times that are taken from the bookkeeper's own
clock; `none` for a group that is not known. -/
def groupRecords (g : String) (b : Bookkeeper) : Option (Multiset TransferMetadata) :=
  (b.grpTransfers.lookup g).map fun G =>
    ↑(G.transfersMeta.map fun ptr => (b.deref ptr).withoutClock)

/-- Every record of a client whose group is known is in the list of the group. -/
def Linked (b : Bookkeeper) : Prop :=
  ∀ client, ∀ ptr ∈ getOrNew [] client b.transfers, ∀ G,
    b.grpTransfers.lookup (b.deref ptr).groupId = some G → ptr ∈ G.transfersMeta

theorem Rep.groupRecords (h : Rep r b) (g : String) :
    b.groupRecords g = if g ∈ r.known then
      some ↑((r.entries.filter (inGroup g)).map Entry.value) else none := by
  rw [Bookkeeper.groupRecords]
  cases hG : b.grpTransfers.lookup g with
  | none =>
      rw [if_neg fun hg => by simpa [hG] using (h.known g).2 hg]
      rfl
  | some G =>
      rw [if_pos ((h.known g).1 (by rw [hG]; rfl)), Option.map_some, (h.groups g G hG).2,
        map_places fun _ _ => h.deref]

theorem Rep.linked_iff (h : Rep r b) : b.Linked ↔ r.AllLinked RecordId.group := by
  have hgroup : ∀ {ptr : ℕ} {e : Entry RecordId TransferMetadata}, r.entries[ptr]? = some e →
      (b.deref ptr).groupId = e.key.group :=
    fun he => congrArg (fun key => key.2.2.2) (h.deref_key he)
  constructor
  · intro hb e he hknown
    obtain ⟨ptr, hptr⟩ := List.mem_iff_getElem?.1 he
    obtain ⟨G, hG⟩ := Option.isSome_iff_exists.1 ((h.known _).2 hknown)
    have hin : ptr ∈ getOrNew [] e.key.1 b.transfers := by
      rw [h.transfers]
      exact mem_places.2 ⟨e, hptr, by simp [ofClient]⟩
    have hmem := hb e.key.1 ptr hin G (by rw [hgroup hptr, hG])
    rw [(h.groups _ G hG).2, mem_places] at hmem
    obtain ⟨e', he', hlinked⟩ := hmem
    obtain rfl : e = e' := Option.some.inj (hptr.symm.trans he')
    simpa [inGroup] using hlinked
  · intro hr client ptr hptr G hG
    rw [h.transfers, mem_places] at hptr
    obtain ⟨e, he, -⟩ := hptr
    rw [hgroup he] at hG
    have hlinked := hr e (List.mem_of_getElem? he) ((h.known _).1 (by rw [hG]; rfl))
    rw [(h.groups _ G hG).2]
    exact mem_places.2 ⟨e, he, by simp [inGroup, hlinked]⟩

section Orders

variable (cwd : String) (parse : String → Option Json)

/-- Two orders of the same notifications, in which those about one record of one
client stand in the same order. -/
def SameMessages (l₁ l₂ : List NotificationData) : Prop :=
  l₁.Perm l₂ ∧ ∀ x, l₁.filter (fun n => recordNamed cwd parse n = some x) =
    l₂.filter fun n => recordNamed cwd parse n = some x

/-- Before every notification about a record whose group is named at all, the group
was named; and its id is not empty. -/
def GroupsFirst (l : List NotificationData) : Prop :=
  ∀ pre n post x, l = pre ++ n :: post → recordNamed cwd parse n = some x →
    (∃ n' ∈ l, groupNamed cwd parse n' = some x.group) →
    x.group ≠ "" ∧ ∃ n' ∈ pre, groupNamed cwd parse n' = some x.group

/-- Both orders leave the same records in every group, and every record in the group
that it names. -/
def Agree (bookkeeperId : String) (l₁ l₂ : List Receipt) : Prop :=
  ∃ b₁ b₂, exec (receive cwd parse) (new bookkeeperId) l₁ = some b₁ ∧
    exec (receive cwd parse) (new bookkeeperId) l₂ = some b₂ ∧
    (∀ g, b₁.groupRecords g = b₂.groupRecords g) ∧ b₁.Linked ∧ b₂.Linked

end Orders

/-! ## Notifications as events -/

theorem event_eq_announce {n : NotificationData} {g : String} :
    event cwd parse n = .announce g ↔ groupNamed cwd parse n = some g := by
  have hkinds : groupNamed cwd parse n = some g → recordNamed cwd parse n = none := by
    intro h
    rw [groupNamed] at h
    split_ifs at h with hkind
    simp [recordNamed, hkind, notificationToString]
  rw [event]
  cases hx : recordNamed cwd parse n with
  | some x => simpa [hx] using hkinds
  | none => cases hg : groupNamed cwd parse n <;> simp

theorem event_eq_report {n : NotificationData} {x : RecordId}
    {u : TransferMetadata → TransferMetadata} :
    event cwd parse n = .report x u ↔
      recordNamed cwd parse n = some x ∧ u = reading cwd parse n.data := by
  rw [event]
  cases hx : recordNamed cwd parse n with
  | some y => simp [eq_comm]
  | none => cases hg : groupNamed cwd parse n <;> simp

theorem announce_mem {l : List NotificationData} {g : String} :
    .announce g ∈ l.map (event cwd parse) ↔ ∃ n ∈ l, groupNamed cwd parse n = some g := by
  simp only [List.mem_map, event_eq_announce]

theorem updates_map (x : RecordId) (l : List NotificationData) :
    updates x (l.map (event cwd parse)) =
      (l.filter fun n => recordNamed cwd parse n = some x).map fun n =>
        reading cwd parse n.data := by
  induction l with
  | nil => rfl
  | cons n l ih =>
      rw [updates] at ih ⊢
      rw [List.map_cons, List.filterMap_cons, ih, List.filter_cons]
      cases hx : recordNamed cwd parse n with
      | some y =>
          have hevent : event cwd parse n = .report y (reading cwd parse n.data) :=
            event_eq_report.2 ⟨hx, rfl⟩
          rw [hevent, Event.updateOf]
          by_cases hy : y = x <;> simp [hy]
      | none =>
          have hnone : (event cwd parse n).updateOf x = none := by
            cases hevent : event cwd parse n with
            | report y u => simp [event_eq_report.1 hevent] at hx
            | _ => rfl
          simp [hnone]

/-- Groups come first among the notifications when they do among the events. -/
theorem groupsFirst_iff {l : List NotificationData} :
    GroupsFirst cwd parse l ↔ ∀ x : RecordId, .announce x.group ∈ l.map (event cwd parse) →
      AnnouncedFirst RecordId.group linkable x (l.map (event cwd parse)) := by
  constructor
  · intro h x hann pre u post hl
    obtain ⟨pre', rest, rfl, rfl, hrest⟩ := List.map_eq_append_iff.1 hl
    obtain ⟨n, post', rfl, hn, rfl⟩ := List.map_eq_cons_iff.1 hrest
    obtain ⟨hne, hpre⟩ := h pre' n post' x rfl (event_eq_report.1 hn).1 (announce_mem.1 hann)
    exact ⟨by simpa [linkable] using hne, announce_mem.2 hpre⟩
  · rintro h pre n post x rfl hn hnamed
    obtain ⟨hlink, hpre⟩ := h x (announce_mem.2 hnamed) (pre.map (event cwd parse))
      (reading cwd parse n.data) (post.map (event cwd parse))
      (by rw [List.map_append, List.map_cons, event_eq_report.2 ⟨hn, rfl⟩])
    exact ⟨by simpa [linkable] using hlink, announce_mem.1 hpre⟩

/-! ## Result -/

/-- **Two orders of the same notifications agree** exactly when in both of them each
group is named before its records.  A record that comes too early stays out of its
group for good: a later update finds it and returns before it would be linked, and
a group that comes later does not look for it. -/
theorem agree_iff_groupsFirst (bookkeeperId : String) (l₁ l₂ : List Receipt)
    (hwf : ∀ rc ∈ l₁, WellFormed cwd parse bookkeeperId rc.notif)
    (hsame : SameMessages cwd parse (l₁.map Receipt.notif) (l₂.map Receipt.notif)) :
    Agree cwd parse bookkeeperId l₁ l₂ ↔
      GroupsFirst cwd parse (l₁.map Receipt.notif) ∧
      GroupsFirst cwd parse (l₂.map Receipt.notif) := by
  have hwf₂ : ∀ rc ∈ l₂, WellFormed cwd parse bookkeeperId rc.notif := by
    intro rc hrc
    obtain ⟨rc', hrc', heq⟩ := List.mem_map.1 (hsame.1.mem_iff.2 (List.mem_map_of_mem hrc))
    exact heq ▸ hwf rc' hrc'
  obtain ⟨b₁, hb₁, -, hrep₁⟩ := exec_receive bookkeeperId l₁ hwf
  obtain ⟨b₂, hb₂, -, hrep₂⟩ := exec_receive bookkeeperId l₂ hwf₂
  have htells := Registry.tells_run RecordId.group linkable TransferMetadata.blank
  have hfirst : ∀ {l : List NotificationData} {b : Bookkeeper}, Rep (ledger cwd parse l) b →
      (b.Linked ↔ GroupsFirst cwd parse l) := by
    intro l b hrep
    rw [hrep.linked_iff, groupsFirst_iff]
    exact (htells _).allLinked_iff
  constructor
  · rintro ⟨c₁, c₂, hc₁, hc₂, -, hlinked₁, hlinked₂⟩
    obtain rfl : b₁ = c₁ := Option.some.inj (hb₁.symm.trans hc₁)
    obtain rfl : b₂ = c₂ := Option.some.inj (hb₂.symm.trans hc₂)
    exact ⟨(hfirst hrep₁).1 hlinked₁, (hfirst hrep₂).1 hlinked₂⟩
  · rintro ⟨hfirst₁, hfirst₂⟩
    have hlinked₁ := (hfirst hrep₁).2 hfirst₁
    have hlinked₂ := (hfirst hrep₂).2 hfirst₂
    refine ⟨b₁, b₂, hb₁, hb₂, fun g => ?_, hlinked₁, hlinked₂⟩
    have hperm := (htells _).entries_perm (htells _) (hsame.1.map (event cwd parse))
      (fun x => by rw [updates_map, updates_map, hsame.2 x])
      (hrep₁.linked_iff.1 hlinked₁) (hrep₂.linked_iff.1 hlinked₂)
    have hknown : g ∈ (ledger cwd parse (l₁.map Receipt.notif)).known ↔
        g ∈ (ledger cwd parse (l₂.map Receipt.notif)).known := by
      rw [ledger, ledger, (htells _).known, (htells _).known]
      exact (hsame.1.map (event cwd parse)).mem_iff
    rw [hrep₁.groupRecords, hrep₂.groupRecords]
    refine if_congr hknown (congrArg some ?_) rfl
    exact Multiset.coe_eq_coe.2 ((hperm.filter (inGroup g)).map Entry.value)

/-! ### A record that comes before its group -/

/-- The text of a group of one file. -/
def groupText : String :=
  "\x7b\"files\":[\"/data/raw0\"],\"protocol\":\"SCP\",\"protocol_options\":\"null\"," ++
  "\"source_id\":\"c0_ses1\",\"source_ip\":\"10.0.0.1:5000\",\"transfer_id\":\"ses1\"\x7d"

/-- The text of its record. -/
def recordText : String :=
  "\x7b\"destination\":\"10.0.0.2:5000\",\"file_path\":\"/data/raw0\"," ++
  "\"group_id\":\"ses1\",\"source\":\"10.0.0.1:5000\"\x7d"

/-- The values of these texts. -/
def parseTexts (text : String) : Option Json :=
  if text = groupText then
    some (.object [("files", .array [.string "/data/raw0"]), ("protocol", .string "SCP"),
      ("protocol_options", .string "null"), ("source_id", .string "c0_ses1"),
      ("source_ip", .string "10.0.0.1:5000"), ("transfer_id", .string "ses1")])
  else if text = recordText then
    some (.object [("destination", .string "10.0.0.2:5000"), ("file_path", .string "/data/raw0"),
      ("group_id", .string "ses1"), ("source", .string "10.0.0.1:5000")])
  else if text = "null" then some .null
  else none

/-- The uploading session of the client announces the group. -/
def groupReceipt : Receipt :=
  ⟨⟨"c0_ses1", "bk0", notificationToString .groupMetadata, groupText⟩, 1, 1⟩

/-- And sends its record. -/
def recordReceipt : Receipt :=
  ⟨⟨"c0_ses1", "bk0", notificationToString .transferMetadata, recordText⟩, 2, 2⟩

theorem wellFormed_receipts : ∀ rc ∈ [groupReceipt, recordReceipt],
    WellFormed "/" parseTexts "bk0" rc.notif := by
  have hgroup : (groupNamed "/" parseTexts groupReceipt.notif).isSome := by decide +kernel
  have hrecord : (recordNamed "/" parseTexts recordReceipt.notif).isSome := by decide +kernel
  intro rc hrc
  rcases List.mem_pair.1 hrc with rfl | rfl
  · exact ⟨by decide +kernel, Or.inl ⟨rfl, hgroup⟩⟩
  · exact ⟨by decide +kernel, Or.inr ⟨rfl, Or.inr hrecord⟩⟩

theorem sameMessages_receipts :
    SameMessages "/" parseTexts ([groupReceipt, recordReceipt].map Receipt.notif)
      ([recordReceipt, groupReceipt].map Receipt.notif) := by
  refine ⟨List.Perm.swap _ _ _, fun x => ?_⟩
  have hgroup : recordNamed "/" parseTexts groupReceipt.notif = none := by decide +kernel
  simp [hgroup, List.filter_cons]

theorem agree_iff_groupsFirst_swapped :
    Agree "/" parseTexts "bk0" [groupReceipt, recordReceipt] [recordReceipt, groupReceipt] ↔
      GroupsFirst "/" parseTexts ([groupReceipt, recordReceipt].map Receipt.notif) ∧
      GroupsFirst "/" parseTexts ([recordReceipt, groupReceipt].map Receipt.notif) :=
  agree_iff_groupsFirst "bk0" [groupReceipt, recordReceipt] [recordReceipt, groupReceipt]
    wellFormed_receipts sameMessages_receipts

/-- **A record that comes before its group is never linked to it.** -/
theorem record_before_group_not_linked :
    ¬ ∀ (cwd : String) (parse : String → Option Json) (bookkeeperId : String)
      (l₁ l₂ : List Receipt),
      (∀ rc ∈ l₁, WellFormed cwd parse bookkeeperId rc.notif) →
      SameMessages cwd parse (l₁.map Receipt.notif) (l₂.map Receipt.notif) →
      Agree cwd parse bookkeeperId l₁ l₂ := by
  intro h
  obtain ⟨b₁, b₂, hb₁, hb₂, hsame, -⟩ := h "/" parseTexts "bk0" [groupReceipt, recordReceipt]
    [recordReceipt, groupReceipt] wellFormed_receipts sameMessages_receipts
  have h₁ : (exec (receive "/" parseTexts) (new "bk0") [groupReceipt, recordReceipt]).map
      (fun b => (b.groupRecords "ses1").map Multiset.card) = some (some 1) := by decide +kernel
  have h₂ : (exec (receive "/" parseTexts) (new "bk0") [recordReceipt, groupReceipt]).map
      (fun b => (b.groupRecords "ses1").map Multiset.card) = some (some 0) := by decide +kernel
  rw [hb₁, Option.map_some, hsame] at h₁
  rw [hb₂, Option.map_some, h₁] at h₂
  cases h₂

end Bookkeeper

end Transfer
end SNBModules
