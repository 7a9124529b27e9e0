import SNBModules.Transfer.BookkeeperOrder

/-!
# The store of the bookkeeper

Source: `bookkeeper.cpp`, `add_update_transfer` and `add_update_grp_transfer`.

The two functions change the maps that a bookkeeper holds, and are called with
records and groups that were read out of messages.  Whatever calls are made, the
store represents some registry (`represents_exec`), and what a registry is like
shows in the store: one record for each key of a client, each group under its own
id, and in the list of a group the records of its id that stand in the lists of
clients, each once (`store_invariant`).

A record is one object in both views, so an update of it changes the same entry of
both in the same way (`update_in_both_views`).
-/

namespace SNBModules
namespace Transfer

open Lib

namespace Bookkeeper

/-- A call of one of the two functions, with the text that its argument is read
from, and what the clock shows when it is. -/
inductive StoreCall where
  | transfer (clientId data : String) (decodedAt updatedAt : ℤ)
  | group (data : String)
  deriving DecidableEq, Repr

/-- One call: `none` when the text cannot be read. -/
def call (cwd : String) (parse : String → Option Json) (b : Bookkeeper) :
    StoreCall → Option Bookkeeper
  | .transfer clientId data decodedAt updatedAt =>
      (b.addUpdateTransfer cwd parse decodedAt updatedAt clientId data).toOption
  | .group data =>
      (GroupMetadata.ofString cwd parse data).toOption.map b.addUpdateGrpTransfer

/-! ## Views -/

/-- What `m_transfers` shows of a client: each record with the object that it is. -/
def clientView (clientId : String) (b : Bookkeeper) : List (ℕ × TransferMetadata) :=
  (getOrNew [] clientId b.transfers).map fun ptr => (ptr, b.deref ptr)

/-- What `m_grp_transfers` shows of a group. -/
def groupView (g : String) (b : Bookkeeper) : List (ℕ × TransferMetadata) :=
  match b.grpTransfers.lookup g with
  | some G => G.transfersMeta.map fun ptr => (ptr, b.deref ptr)
  | none => []

/-- `get_group_status` of a group of the bookkeeper. -/
def groupStatus (G : GroupMetadata ℕ) (b : Bookkeeper) : Status :=
  G.getGroupStatus fun ptr => (b.deref ptr).status

/-- The same object, after an update. -/
def putRecord (tr : ℕ) (m : TransferMetadata) (x : ℕ × TransferMetadata) : ℕ × TransferMetadata :=
  if x.1 = tr then (tr, m) else x

/-- What holds of the store between calls. -/
structure StoreInvariant (b : Bookkeeper) : Prop where
  distinct : ∀ client, (b.clientView client).Pairwise fun x y => x.2.key ≠ y.2.key
  ownId : ∀ g G, b.grpTransfers.lookup g = some G → G.groupId = g
  shared : ∀ g, ∀ x ∈ b.groupView g, ∃ client, x ∈ b.clientView client
  inGroup : ∀ g, ∀ x ∈ b.groupView g, x.2.groupId = g
  once : ∀ g, ((b.groupView g).map Prod.fst).Nodup
  status : ∀ g G, b.grpTransfers.lookup g = some G →
    (∀ x ∈ b.groupView g, x.2.status.ctorIdx ≤ (b.groupStatus G).ctorIdx) ∧
      (b.groupStatus G = .preparing ∨ ∃ x ∈ b.groupView g, b.groupStatus G = x.2.status)

/-! ## What the representation says of the views -/

variable {cwd : String} {parse : String → Option Json}
  {r : Registry RecordId TransferMetadata String} {b : Bookkeeper}

theorem mem_clientView {client : String} {x : ℕ × TransferMetadata} :
    x ∈ b.clientView client ↔ x.1 ∈ getOrNew [] client b.transfers ∧ x.2 = b.deref x.1 := by
  rw [clientView, List.mem_map]
  constructor
  · rintro ⟨ptr, hptr, rfl⟩
    exact ⟨hptr, rfl⟩
  · rintro ⟨hptr, hx⟩
    exact ⟨x.1, hptr, Prod.ext rfl hx.symm⟩

/-- The view of a group is the one of its pointers. -/
theorem groupView_of_lookup {g : String} {G : GroupMetadata ℕ}
    (hG : b.grpTransfers.lookup g = some G) :
    b.groupView g = G.transfersMeta.map fun ptr => (ptr, b.deref ptr) := by
  rw [groupView, hG]

/-- An entry of the view of a group is a record that is linked to it. -/
theorem Rep.mem_groupView (h : Rep r b) {g : String} {x : ℕ × TransferMetadata}
    (hx : x ∈ b.groupView g) :
    ∃ e, r.entries[x.1]? = some e ∧ inGroup g e = true ∧ x.2 = b.deref x.1 := by
  cases hG : b.grpTransfers.lookup g with
  | none => simp [groupView, hG] at hx
  | some G =>
      rw [groupView_of_lookup hG, (h.groups g G hG).2] at hx
      obtain ⟨ptr, hptr, rfl⟩ := List.mem_map.1 hx
      obtain ⟨e, he, hin⟩ := mem_places.1 hptr
      exact ⟨e, he, hin, rfl⟩

theorem nodup_places {α : Type} (p : α → Bool) (l : List α) : (places p l).Nodup :=
  List.nodup_range.filter _

/-- **A registry shows in the store.** -/
theorem Rep.storeInvariant (h : Rep r b) : b.StoreInvariant where
  distinct client := by
    rw [clientView, List.pairwise_map, h.transfers]
    refine (nodup_places _ _).imp_of_mem ?_
    intro p q hp hq hne hkey
    obtain ⟨e, he, hclient⟩ := mem_places.1 hp
    obtain ⟨e', he', hclient'⟩ := mem_places.1 hq
    rw [h.deref_key he, h.deref_key he'] at hkey
    simp only [ofClient, decide_eq_true_eq] at hclient hclient'
    have hsame : e.key = e'.key := Prod.ext (hclient.trans hclient'.symm) hkey
    -- the keys of the registry are distinct, so the places are one
    have hlt : p < r.keys.length := by
      rw [Registry.keys, List.length_map]
      exact (List.getElem?_eq_some_iff.1 he).1
    refine hne ((List.getElem?_inj hlt r.nodup).1 ?_)
    simp [Registry.keys, he, he', hsame]
  ownId g G hG := (h.groups g G hG).1
  shared g x hx := by
    obtain ⟨e, he, -, hderef⟩ := h.mem_groupView hx
    refine ⟨e.key.1, mem_clientView.2 ⟨?_, hderef⟩⟩
    rw [h.transfers]
    exact mem_places.2 ⟨e, he, by simp [ofClient]⟩
  inGroup g x hx := by
    obtain ⟨e, he, hin, hderef⟩ := h.mem_groupView hx
    simp only [Bookkeeper.inGroup, Bool.and_eq_true, decide_eq_true_eq] at hin
    have hgroup := congrArg (fun key => key.2.2.2) (h.deref_key he)
    rw [hderef]
    exact hgroup.trans hin.2
  once g := by
    cases hG : b.grpTransfers.lookup g with
    | none => simp [groupView, hG]
    | some G =>
        have hfst : (Prod.fst ∘ fun ptr => (ptr, b.deref ptr)) = id := rfl
        rw [groupView_of_lookup hG, (h.groups g G hG).2, List.map_map, hfst, List.map_id]
        exact nodup_places _ _
  status g G hG := by
    obtain ⟨-, hall, hfrom⟩ := GroupMetadata.foldl_status (fun ptr => (b.deref ptr).status)
      G.transfersMeta .preparing
    rw [groupView_of_lookup hG]
    refine ⟨?_, hfrom.imp id ?_⟩
    · intro x hx
      obtain ⟨ptr, hptr, rfl⟩ := List.mem_map.1 hx
      exact hall ptr hptr
    · rintro ⟨ptr, hptr, hstatus⟩
      exact ⟨_, List.mem_map_of_mem hptr, hstatus⟩

/-! ## Runs -/

/-- The store is what a registry was told by some events. -/
def Represents (b : Bookkeeper) : Prop :=
  ∃ l : List (Event RecordId TransferMetadata String),
    Rep (Registry.run RecordId.group linkable .blank l) b

/-- A call that returns tells the registry one more event. -/
theorem represents_call {b' : Bookkeeper} (h : b.Represents) (c : StoreCall)
    (hc : b.call cwd parse c = some b') : b'.Represents := by
  obtain ⟨l, hrep⟩ := h
  have hrun : ∀ a, Registry.run RecordId.group linkable .blank (l ++ [a]) =
      (Registry.run RecordId.group linkable .blank l).step RecordId.group linkable .blank a := by
    intro a
    rw [Registry.run, List.foldl_append]
    rfl
  cases c with
  | transfer clientId data decodedAt updatedAt =>
      rw [call] at hc
      cases hf : TransferMetadata.ofString cwd parse decodedAt data with
      | error e => simp [addUpdateTransfer, hf, bind, Except.bind, Except.toOption] at hc
      | ok file =>
          obtain ⟨file₀, hfile₀, -⟩ := TransferMetadata.ofString_withoutClock 0 hf
          obtain ⟨b'', hb'', -, hrep'⟩ :=
            hrep.addUpdateTransfer clientId hfile₀ decodedAt updatedAt
          rw [hb''] at hc
          obtain rfl : b'' = b' := Option.some.inj hc
          exact ⟨_, (hrun _).symm ▸ hrep'⟩
  | group data =>
      obtain ⟨g, hg, rfl⟩ := Option.map_eq_some_iff.1 hc
      cases hdata : (GroupMetadata.ofString cwd parse data : Except Exn (GroupMetadata ℕ)) with
      | error e => simp [hdata, Except.toOption] at hg
      | ok g' =>
          rw [hdata] at hg
          obtain rfl : g' = g := Option.some.inj hg
          have htells := Registry.tells_run RecordId.group linkable TransferMetadata.blank l
          have hrep' := hrep.announce g' (GroupMetadata.ofString_transfersMeta hdata)
            fun e he hlinked => htells.group_known he hlinked
          exact ⟨l ++ [.announce g'.groupId], (hrun _).symm ▸ hrep'⟩

/-- **Every run of calls leaves a store that represents a registry.** -/
theorem represents_exec {bookkeeperId : String} {calls : List StoreCall}
    (h : exec (call cwd parse) (new bookkeeperId) calls = some b) : b.Represents :=
  exec_invariant (fun _ c _ hb hc => represents_call hb c hc) ⟨[], rep_new bookkeeperId⟩ h

/-! ## Updates -/

theorem deref_setHeap (tr ptr : ℕ) (m : TransferMetadata) (b : Bookkeeper)
    (htr : tr < b.heap.length) :
    ({ b with heap := b.heap.set tr m } : Bookkeeper).deref ptr =
      if ptr = tr then m else b.deref ptr := by
  rw [deref, deref, List.getD_eq_getElem?_getD, List.getElem?_set, List.getD_eq_getElem?_getD]
  by_cases hptr : ptr = tr
  · subst hptr
    simp [htr]
  · simp [hptr, Ne.symm hptr]

/-- **An update of a known record is seen alike in both views:** each shows the same
object with the new values, and is otherwise as it was. -/
theorem Represents.update_in_both_views (h : b.Represents) {clientId data : String}
    {decodedAt : ℤ} (updatedAt : ℤ) {file : TransferMetadata} {tr : ℕ}
    (hfile : TransferMetadata.ofString cwd parse decodedAt data = .ok file)
    (htr : b.findKnown clientId file = some tr) :
    ∃ m b', (b.deref tr).fromString cwd parse updatedAt data = (m, none) ∧
      b.addUpdateTransfer cwd parse decodedAt updatedAt clientId data = .ok b' ∧
      (∀ client, b'.clientView client = (b.clientView client).map (putRecord tr m)) ∧
      ∀ g, b'.groupView g = (b.groupView g).map (putRecord tr m) := by
  obtain ⟨l, hrep⟩ := h
  obtain ⟨e, he, hek⟩ := hrep.findKnown_eq_some htr
  have hlt : tr < b.heap.length := hrep.length ▸ (List.getElem?_eq_some_iff.1 he).1
  have hkey : (b.deref tr).key = file.key := by rw [hrep.deref_key he, hek]
  obtain ⟨m, hm, -⟩ := TransferMetadata.fromString_again updatedAt hfile hkey
  obtain ⟨b', hb'⟩ : ∃ b' : Bookkeeper, b' = { b.touch clientId with heap := b.heap.set tr m } :=
    ⟨_, rfl⟩
  have hview : ∀ ptrs : List ℕ, ptrs.map (fun ptr => (ptr, b'.deref ptr)) =
      (ptrs.map fun ptr => (ptr, b.deref ptr)).map (putRecord tr m) := by
    intro ptrs
    rw [List.map_map]
    refine List.map_congr_left fun ptr _ => ?_
    have hderef := deref_setHeap tr ptr m (b.touch clientId) hlt
    rw [hb']
    refine Prod.ext ?_ (hderef.trans ?_)
    · by_cases hptr : ptr = tr <;> simp [putRecord, hptr]
    · by_cases hptr : ptr = tr
      · simp [putRecord, hptr]
      · simp only [Function.comp_apply, putRecord, if_neg hptr]
        rfl
  refine ⟨m, b', hm, ?_, fun client => ?_, fun g => ?_⟩
  · rw [addUpdateTransfer, hfile, hb']
    have hderef : (b.touch clientId).deref tr = b.deref tr := rfl
    simp only [bind, Except.bind, findKnown_touch, htr, hderef, hm]
    rfl
  · have hptrs : getOrNew [] client b'.transfers = getOrNew [] client b.transfers := by
      rw [hb', touch, getOrNew_assign]
      split_ifs with hc
      · rw [hc]
      · rfl
    rw [clientView, clientView, hptrs, hview]
  · have hgroups : b'.grpTransfers = b.grpTransfers := by rw [hb']; rfl
    cases hG : b.grpTransfers.lookup g with
    | none => simp [groupView, hgroups, hG]
    | some G => rw [groupView_of_lookup hG, groupView_of_lookup (hgroups ▸ hG), hview]

/-! ## Result -/

/-- **The store of the bookkeeper,** after any calls. -/
theorem store_invariant (cwd : String) (parse : String → Option Json) (bookkeeperId : String)
    (calls : List StoreCall) (b : Bookkeeper)
    (h : exec (call cwd parse) (new bookkeeperId) calls = some b) :
    b.StoreInvariant ∧
    ∀ clientId data decodedAt updatedAt file tr,
      TransferMetadata.ofString cwd parse decodedAt data = .ok file →
      b.findKnown clientId file = some tr →
      ∃ m b', (b.deref tr).fromString cwd parse updatedAt data = (m, none) ∧
        b.addUpdateTransfer cwd parse decodedAt updatedAt clientId data = .ok b' ∧
        (∀ client, b'.clientView client = (b.clientView client).map (putRecord tr m)) ∧
        ∀ g, b'.groupView g = (b.groupView g).map (putRecord tr m) := by
  have hrep := represents_exec h
  obtain ⟨l, hr⟩ := hrep
  exact ⟨hr.storeInvariant, fun _ _ _ updatedAt _ _ hfile htr =>
    Represents.update_in_both_views ⟨l, hr⟩ updatedAt hfile htr⟩

/-- The group of one file, its record, and an update of the record. -/
theorem store_invariant_updated :
    ((exec (call "/" parseTexts) (new "bk0") [.group groupText, .transfer "c0_ses1" recordText 2 2,
      .transfer "c0_ses1" recordText 3 3]).get (by decide +kernel)).StoreInvariant :=
  (store_invariant "/" parseTexts "bk0" [.group groupText, .transfer "c0_ses1" recordText 2 2,
    .transfer "c0_ses1" recordText 3 3] _ (Option.some_get _).symm).1

end Bookkeeper

end Transfer
end SNBModules
