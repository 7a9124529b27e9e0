import SNBModules.Transfer.BookkeeperStore
import SNBModules.Transfer.UpdateRequests

/-!
# A record that is taken down or not

Source: `bookkeeper.cpp`, `add_update_transfer`, with `from_string` of
`transfer_metadata.cpp`.

The text of a record is read twice, into a new record and, when the client has one
that is equal to it, into that one.  The second reading overwrites fields before it
is known that it comes to its end, so that a throw there would leave half of an
update behind.  `addUpdateTransferState` keeps the state that a throw leaves.

It throws at the first reading only: the known record has the paths and addresses
that the text names, so that the checks that let the text through once do so again
(`fromString_again`).
-/

namespace SNBModules
namespace Transfer

open Lib

namespace Bookkeeper

/-- `add_update_transfer`: the bookkeeper that is left, and what is thrown. -/
def addUpdateTransferState (cwd : String) (parse : String → Option Json)
    (decodedAt updatedAt : ℤ) (clientId data : String) (b : Bookkeeper) :
    Bookkeeper × Option Exn :=
  match TransferMetadata.ofString cwd parse decodedAt data with
  | .error e => (b, some e)
  | .ok file =>
      let b := b.touch clientId
      match b.findKnown clientId file with
      | some tr =>
          let (m, exn) := (b.deref tr).fromString cwd parse updatedAt data
          ({ b with heap := b.heap.set tr m }, exn)
      | none =>
          let ptr := b.heap.length
          (((b.alloc file).linkFile file.groupId ptr).pushTransfer clientId ptr, none)

variable (cwd : String) (parse : String → Option Json)

/-- With what a throw leaves set aside, it is the function of the model. -/
theorem addUpdateTransferState_eq (decodedAt updatedAt : ℤ) (clientId data : String)
    (b : Bookkeeper) :
    b.addUpdateTransfer cwd parse decodedAt updatedAt clientId data =
      match b.addUpdateTransferState cwd parse decodedAt updatedAt clientId data with
      | (b', none) => .ok b'
      | (_, some e) => .error e := by
  rw [addUpdateTransfer, addUpdateTransferState]
  cases TransferMetadata.ofString cwd parse decodedAt data with
  | error e => rfl
  | ok file =>
      simp only [bind, Except.bind]
      cases (b.touch clientId).findKnown clientId file with
      | none => rfl
      | some tr =>
          dsimp only
          generalize ((b.touch clientId).deref tr).fromString cwd parse updatedAt data = x
          rcases x with ⟨m, _ | e⟩ <;> rfl

/-! ## Reachable bookkeepers -/

/-- What is done to a bookkeeper. -/
inductive Operation where
  | receive (r : Receipt)
  | call (c : StoreCall)
  | requestUpdates (ni : NotificationInterface) (env : Env) (force : Bool) (w : World)

/-- One operation: `none` when it throws. -/
def operate (b : Bookkeeper) : Operation → Option Bookkeeper
  | .receive r => b.receive cwd parse r
  | .call c => b.call cwd parse c
  | .requestUpdates ni env force w => some (b.requestUpdateMetadata ni env force w).2

variable {cwd parse}

theorem Represents.congr {b b' : Bookkeeper} (h : b.Represents) (hheap : b'.heap = b.heap)
    (htransfers : b'.transfers = b.transfers) (hgroups : b'.grpTransfers = b.grpTransfers) :
    b'.Represents := by
  obtain ⟨l, hrep⟩ := h
  refine ⟨l, ?_, hrep.keys, ?_, ?_, ?_⟩
  · rw [hheap]
    exact hrep.records
  · rw [htransfers]
    exact hrep.transfers
  · rw [hgroups]
    exact hrep.known
  · rw [hgroups]
    exact hrep.groups

theorem Represents.touch {b : Bookkeeper} (h : b.Represents) (client : String) :
    (b.touch client).Represents := by
  obtain ⟨l, hrep⟩ := h
  exact ⟨l, hrep.touch client⟩

theorem Represents.addUpdateTransfer {b b' : Bookkeeper} (h : b.Represents)
    {decodedAt updatedAt : ℤ} {clientId data : String}
    (hadd : b.addUpdateTransfer cwd parse decodedAt updatedAt clientId data = .ok b') :
    b'.Represents := by
  have hcall : b.call cwd parse (.transfer clientId data decodedAt updatedAt) = some b' := by
    rw [call, hadd]
    rfl
  exact represents_call h _ hcall

/-- A notification is a call of one of the two functions, or touches no record. -/
theorem Represents.receive {b b' : Bookkeeper} (h : b.Represents) {r : Receipt}
    (hr : b.receive cwd parse r = some b') : b'.Represents := by
  have hgroup : ∀ x : Bookkeeper × Bool,
      (do
        let g ← GroupMetadata.ofString cwd parse r.notif.data
        Except.ok ((b.insertClient g.groupId r.notif.sourceId).addUpdateGrpTransfer g, true)) =
        .ok x → x.1.Represents := by
    intro x hx
    cases hg : (GroupMetadata.ofString cwd parse r.notif.data : Except Exn (GroupMetadata ℕ)) with
    | error e => simp [hg, bind, Except.bind] at hx
    | ok g =>
        simp only [hg, bind, Except.bind, Except.ok.injEq] at hx
        have hinsert : (b.insertClient g.groupId r.notif.sourceId).Represents :=
          h.congr rfl rfl rfl
        rw [← hx]
        have hcall : (b.insertClient g.groupId r.notif.sourceId).call cwd parse
            (.group r.notif.data) =
            some ((b.insertClient g.groupId r.notif.sourceId).addUpdateGrpTransfer g) := by
          rw [call, hg]
          rfl
        exact represents_call hinsert _ hcall
  rw [Bookkeeper.receive] at hr
  cases hact : b.actionOnReceiveNotification cwd parse r with
  | error e => simp [hact] at hr
  | ok x =>
      rw [hact] at hr
      obtain rfl : x.1 = b' := Option.some.inj hr
      rw [actionOnReceiveNotification] at hact
      by_cases haccepts : accepts b.bookkeeperId r.notif = false
      · rw [if_pos haccepts] at hact
        cases hact
        exact h
      rw [if_neg haccepts] at hact
      cases hkind : stringToNotification r.notif.notification with
      | none => simp [hkind] at hact
      | some kind =>
          simp only [hkind] at hact
          cases kind with
          | transferMetadata =>
              simp only at hact
              split_ifs at hact with hend
              · cases hact
                exact h.touch _
              · cases hadd : b.addUpdateTransfer cwd parse r.decodedAt r.updatedAt
                  r.notif.sourceId r.notif.data with
                | error e => simp [hadd, bind, Except.bind] at hact
                | ok b' =>
                    simp only [hadd, bind, Except.bind, Except.ok.injEq] at hact
                    rw [← hact]
                    exact h.addUpdateTransfer hadd
          | transferError => exact hgroup x hact
          | groupMetadata => exact hgroup x hact
          | _ =>
              cases hact
              exact h

/-- A request for updates changes nothing but the sets of clients. -/
theorem requestUpdateMetadata_frame (ni : NotificationInterface) (env : Env) (force : Bool)
    (b : Bookkeeper) (w : World) :
    (b.requestUpdateMetadata ni env force w).2.heap = b.heap ∧
      (b.requestUpdateMetadata ni env force w).2.transfers = b.transfers ∧
      (b.requestUpdateMetadata ni env force w).2.grpTransfers = b.grpTransfers := by
  rw [requestUpdateMetadata]
  generalize b.grpTransfers.map Prod.snd = l
  induction l generalizing b w with
  | nil => exact ⟨rfl, rfl, rfl⟩
  | cons g l ih =>
      rw [List.foldl_cons, requestGroup]
      split_ifs
      · exact ih (b.touchGroup g.groupId) _
      · exact ih b w

/-- **Whatever is done, the store represents a registry.** -/
theorem represents_operate {bookkeeperId : String} {ops : List Operation} {b : Bookkeeper}
    (h : exec (operate cwd parse) (new bookkeeperId) ops = some b) : b.Represents := by
  refine exec_invariant (fun b op b' hb hop => ?_) ⟨[], rep_new bookkeeperId⟩ h
  cases op with
  | receive r => exact hb.receive hop
  | call c => exact represents_call hb c hop
  | requestUpdates ni env force w =>
      obtain rfl := Option.some.inj hop
      obtain ⟨hheap, htransfers, hgroups⟩ := requestUpdateMetadata_frame ni env force b w
      exact hb.congr hheap htransfers hgroups

/-! ## What an update changes -/

/-- From `b` to `b'` the client's record that is equal to `file` was updated or
entered, and is the object `ptr` with the values `m`. -/
structure LocalUpdate (b b' : Bookkeeper) (clientId : String) (file : TransferMetadata) (ptr : ℕ)
    (m : TransferMetadata) : Prop where
  one : (b'.clientView clientId).filter (fun x => x.2.key = file.key) = [(ptr, m)]
  own : b'.clientView clientId = (b.clientView clientId).map (putRecord ptr m) ∨
    b'.clientView clientId = b.clientView clientId ++ [(ptr, m)]
  others : ∀ client, client ≠ clientId → b'.clientView client = b.clientView client
  group : b'.groupView file.groupId = (b.groupView file.groupId).map (putRecord ptr m) ∨
    b'.groupView file.groupId = b.groupView file.groupId ++ [(ptr, m)]
  otherGroups : ∀ g, g ≠ file.groupId →
    b'.grpTransfers.lookup g = b.grpTransfers.lookup g ∧ b'.groupView g = b.groupView g

/-- An element of a list whose elements have distinct keys is the only one with its
key. -/
theorem filter_key_eq_singleton {α β : Type} [DecidableEq β] (f : α → β) {l : List α} {x : α}
    (h : l.Pairwise fun y z => f y ≠ f z) (hx : x ∈ l) :
    l.filter (fun y => f y = f x) = [x] := by
  induction l with
  | nil => cases hx
  | cons a l ih =>
      rw [List.pairwise_cons] at h
      rcases List.mem_cons.1 hx with rfl | hx
      · have hrest : l.filter (fun y => f y = f x) = [] := by
          rw [List.filter_eq_nil_iff]
          intro y hy
          simpa using (h.1 y hy).symm
        simp [hrest]
      · rw [List.filter_cons_of_neg (by simpa using h.1 x hx), ih h.2 hx]

theorem StoreInvariant.one {b : Bookkeeper} (h : b.StoreInvariant) {clientId : String} {ptr : ℕ}
    {file m : TransferMetadata} (hmem : (ptr, m) ∈ b.clientView clientId)
    (hkey : m.key = file.key) :
    (b.clientView clientId).filter (fun x => x.2.key = file.key) = [(ptr, m)] := by
  rw [← hkey]
  exact filter_key_eq_singleton (fun x => x.2.key) (h.distinct clientId) hmem

theorem map_putRecord_of_ne {tr : ℕ} {m : TransferMetadata} {l : List (ℕ × TransferMetadata)}
    (h : ∀ x ∈ l, x.1 ≠ tr) : l.map (putRecord tr m) = l := by
  have hid : l.map (putRecord tr m) = l.map id :=
    List.map_congr_left fun x hx => if_neg (h x hx)
  rw [hid, List.map_id]

/-! ## A known record -/

/-- A record stands in the list of one client. -/
theorem Rep.client_unique {r : Registry RecordId TransferMetadata String} {b : Bookkeeper}
    (h : Rep r b) {c c' : String} {ptr : ℕ} (hc : ptr ∈ getOrNew [] c b.transfers)
    (hc' : ptr ∈ getOrNew [] c' b.transfers) : c = c' := by
  rw [h.transfers] at hc hc'
  obtain ⟨e, he, hclient⟩ := mem_places.1 hc
  obtain ⟨e', he', hclient'⟩ := mem_places.1 hc'
  obtain rfl : e = e' := Option.some.inj (he.symm.trans he')
  simp only [ofClient, decide_eq_true_eq] at hclient hclient'
  exact hclient.symm.trans hclient'

/-- **The update of a known record comes to its end,** and changes this record
alone. -/
theorem Represents.update_local {b : Bookkeeper} (h : b.Represents) {clientId data : String}
    {decodedAt : ℤ} (updatedAt : ℤ) {file : TransferMetadata} {tr : ℕ}
    (hfile : TransferMetadata.ofString cwd parse decodedAt data = .ok file)
    (htr : b.findKnown clientId file = some tr) :
    ∃ b' m, b.addUpdateTransferState cwd parse decodedAt updatedAt clientId data = (b', none) ∧
      LocalUpdate b b' clientId file tr m := by
  obtain ⟨m, b', hm, hadd, hclients, hgroups⟩ := h.update_in_both_views updatedAt hfile htr
  have hmem : tr ∈ getOrNew [] clientId b.transfers := List.mem_of_find?_eq_some htr
  have hkeytr : (b.deref tr).key = file.key := by simpa using List.find?_some htr
  have hkey : m.key = file.key := by
    obtain ⟨m', hm', hkey⟩ := TransferMetadata.fromString_again updatedAt hfile hkeytr
    rw [hm] at hm'
    cases hm'
    exact hkey
  have hstate : b.addUpdateTransferState cwd parse decodedAt updatedAt clientId data =
      ({ b.touch clientId with heap := b.heap.set tr m }, none) := by
    have hderef : (b.touch clientId).deref tr = b.deref tr := rfl
    simp only [addUpdateTransferState, hfile, findKnown_touch, htr, hderef, hm]
    rfl
  have hb' : b' = { b.touch clientId with heap := b.heap.set tr m } := by
    rw [addUpdateTransferState_eq, hstate] at hadd
    exact (Except.ok.inj hadd).symm
  have hrep' := h.addUpdateTransfer hadd
  have hinv : b.StoreInvariant := by
    obtain ⟨l, hrep⟩ := h
    exact hrep.storeInvariant
  have hview : (tr, m) ∈ b'.clientView clientId := by
    rw [hclients]
    exact List.mem_map.2 ⟨(tr, b.deref tr), mem_clientView.2 ⟨hmem, rfl⟩, if_pos rfl⟩
  refine ⟨b', m, hb' ▸ hstate, ?_, Or.inl (hclients clientId), ?_, Or.inl (hgroups _), ?_⟩
  · obtain ⟨l, hrep⟩ := hrep'
    exact hrep.storeInvariant.one hview hkey
  · intro client hclient
    rw [hclients]
    refine map_putRecord_of_ne fun x hx hxtr => hclient ?_
    obtain ⟨l, hrep⟩ := h
    exact hrep.client_unique (hxtr ▸ (mem_clientView.1 hx).1) hmem
  · intro g hg
    refine ⟨by rw [hb']; rfl, ?_⟩
    rw [hgroups]
    refine map_putRecord_of_ne fun x hx hxtr => hg ?_
    -- the record of the group is the one that the text names
    obtain ⟨client, hx'⟩ := hinv.shared g x hx
    have hgroup := hinv.inGroup g x hx
    rw [(mem_clientView.1 hx').2, hxtr] at hgroup
    exact hgroup.symm.trans (congrArg (fun key => key.2.2.2) hkeytr)

/-! ## A new record -/

theorem linkFile_lookup_of_ne {groupId g : String} (hg : g ≠ groupId) (ptr : ℕ) (b : Bookkeeper) :
    (b.linkFile groupId ptr).grpTransfers.lookup g = b.grpTransfers.lookup g := by
  rw [linkFile]
  split_ifs
  · rfl
  · cases b.grpTransfers.lookup groupId with
    | none => rfl
    | some G => exact (lookup_assign ..).trans (if_neg hg)

/-- The pointers that a bookkeeper holds are places of its heap. -/
theorem Rep.client_lt {r : Registry RecordId TransferMetadata String} {b : Bookkeeper}
    (h : Rep r b) {client : String} {ptr : ℕ} (hptr : ptr ∈ getOrNew [] client b.transfers) :
    ptr < b.heap.length := by
  rw [h.transfers] at hptr
  obtain ⟨e, he, -⟩ := mem_places.1 hptr
  rw [h.length]
  exact (List.getElem?_eq_some_iff.1 he).1

theorem Rep.group_lt {r : Registry RecordId TransferMetadata String} {b : Bookkeeper}
    (h : Rep r b) {g : String} {G : GroupMetadata ℕ} (hG : b.grpTransfers.lookup g = some G)
    {ptr : ℕ} (hptr : ptr ∈ G.transfersMeta) : ptr < b.heap.length := by
  rw [(h.groups g G hG).2] at hptr
  obtain ⟨e, he, -⟩ := mem_places.1 hptr
  rw [h.length]
  exact (List.getElem?_eq_some_iff.1 he).1

/-- Old pointers keep their records when one is added. -/
theorem map_deref_concat {b b' : Bookkeeper} {file : TransferMetadata}
    (hheap : b'.heap = b.heap ++ [file]) {ptrs : List ℕ} (h : ∀ ptr ∈ ptrs, ptr < b.heap.length) :
    ptrs.map (fun ptr => (ptr, b'.deref ptr)) = ptrs.map fun ptr => (ptr, b.deref ptr) := by
  refine List.map_congr_left fun ptr hptr => ?_
  rw [deref, deref, hheap, List.getD_eq_getElem?_getD, List.getD_eq_getElem?_getD,
    List.getElem?_append_left (h ptr hptr)]

/-- **A new record is entered into the list of its client,** and into the group that
it names when there is one. -/
theorem Represents.enter_local {b : Bookkeeper} (h : b.Represents) {clientId : String}
    {file : TransferMetadata} (hnew : b.findKnown clientId file = none) :
    LocalUpdate b
      (((b.alloc file).linkFile file.groupId b.heap.length).pushTransfer clientId b.heap.length)
      clientId file b.heap.length file := by
  obtain ⟨l, hrep⟩ := h
  have hinv := (hrep.enter (hrep.findKnown_eq_none hnew)).storeInvariant
  obtain ⟨hheap, hlookup⟩ := linkFile_spec (b.alloc file) b.heap.length (by simp) fun g G hG =>
    ⟨(hrep.groups g G hG).1, fun hmem => (hrep.group_lt hG hmem).false⟩
  have hother : ∀ g, g ≠ file.groupId →
      ((b.alloc file).linkFile file.groupId b.heap.length).grpTransfers.lookup g =
        b.grpTransfers.lookup g := fun g hg => linkFile_lookup_of_ne hg _ _
  have htransfers := (linkFile_frame file.groupId b.heap.length (b.alloc file)).1
  rw [deref_alloc] at hheap hlookup
  generalize (b.alloc file).linkFile file.groupId b.heap.length = b₁ at *
  have hptrs : ∀ client, getOrNew [] client (b₁.pushTransfer clientId b.heap.length).transfers =
      if client = clientId then getOrNew [] clientId b.transfers ++ [b.heap.length]
      else getOrNew [] client b.transfers := by
    intro client
    rw [pushTransfer, getOrNew_assign, htransfers]
    rfl
  rw [← pushTransfer_heap clientId b.heap.length b₁] at hheap
  simp only [← pushTransfer_grpTransfers clientId b.heap.length b₁] at hlookup hother
  generalize b₁.pushTransfer clientId b.heap.length = b' at *
  have hold : ∀ ptrs : List ℕ, (∀ ptr ∈ ptrs, ptr < b.heap.length) →
      ptrs.map (fun ptr => (ptr, b'.deref ptr)) = ptrs.map fun ptr => (ptr, b.deref ptr) :=
    fun ptrs => map_deref_concat hheap
  have hderef : b'.deref b.heap.length = file := by
    rw [deref, hheap]
    simp
  have hown : b'.clientView clientId = b.clientView clientId ++ [(b.heap.length, file)] := by
    rw [clientView, hptrs, if_pos rfl, List.map_append, hold _ fun ptr => hrep.client_lt,
      List.map_singleton, hderef, clientView]
  refine ⟨hinv.one (by simp [hown]) rfl, Or.inr hown, ?_, ?_, ?_⟩
  · intro client hclient
    rw [clientView, hptrs, if_neg hclient, hold _ fun ptr => hrep.client_lt, clientView]
  · have hgroup := hlookup file.groupId
    rw [alloc_grpTransfers] at hgroup
    cases hG : b.grpTransfers.lookup file.groupId with
    | none =>
        rw [hG, Option.map_none, Option.map_eq_none_iff] at hgroup
        left
        rw [groupView, groupView, hgroup, hG]
        rfl
    | some G =>
        rw [hG, Option.map_some, Option.map_eq_some_iff] at hgroup
        obtain ⟨G', hG', heq⟩ := hgroup
        rw [groupView_of_lookup hG, groupView_of_lookup hG', (Prod.mk.inj heq).2]
        have hlt : ∀ ptr ∈ G.transfersMeta, ptr < b.heap.length := fun ptr => hrep.group_lt hG
        split_ifs
        · right
          rw [List.map_append, hold _ hlt, List.map_singleton, hderef]
        · left
          rw [List.append_nil, hold _ hlt]
          refine (map_putRecord_of_ne fun x hx => ?_).symm
          obtain ⟨ptr, hptr, rfl⟩ := List.mem_map.1 hx
          exact (hlt ptr hptr).ne
  · intro g hg
    refine ⟨hother g hg, ?_⟩
    cases hG : b.grpTransfers.lookup g with
    | none =>
        rw [groupView, groupView, hother g hg, hG]
    | some G =>
        rw [groupView_of_lookup hG, groupView_of_lookup ((hother g hg).trans hG)]
        exact hold _ fun ptr => hrep.group_lt hG

/-! ## Result -/

theorem clientView_touch (client clientId : String) (b : Bookkeeper) :
    (b.touch clientId).clientView client = b.clientView client := by
  have hptrs : getOrNew [] client (b.touch clientId).transfers =
      getOrNew [] client b.transfers := by
    rw [touch, getOrNew_assign]
    split_ifs with hc
    · rw [hc]
    · rfl
  rw [clientView, hptrs]
  rfl

/-- An update of a bookkeeper with a list for the client is one of the bookkeeper
without. -/
theorem LocalUpdate.of_touch {b b' : Bookkeeper} {clientId c : String} {file m : TransferMetadata}
    {ptr : ℕ} (h : LocalUpdate (b.touch c) b' clientId file ptr m) :
    LocalUpdate b b' clientId file ptr m where
  one := h.one
  own := by
    rw [← clientView_touch clientId c b]
    exact h.own
  others client hclient := (h.others client hclient).trans (clientView_touch client c b)
  group := h.group
  otherGroups := h.otherGroups

/-- **An update is made or not,** after anything that was done to the bookkeeper: it
throws, when the text cannot be read, and has changed nothing, or it comes to its
end and has changed or entered one record. -/
theorem add_update_transfer_atomic (cwd : String) (parse : String → Option Json)
    (bookkeeperId : String) (ops : List Operation) (b : Bookkeeper)
    (h : exec (operate cwd parse) (new bookkeeperId) ops = some b)
    (clientId data : String) (decodedAt updatedAt : ℤ) :
    (∃ e, TransferMetadata.ofString cwd parse decodedAt data = .error e ∧
      b.addUpdateTransferState cwd parse decodedAt updatedAt clientId data = (b, some e)) ∨
    ∃ file b' ptr m, TransferMetadata.ofString cwd parse decodedAt data = .ok file ∧
      b.addUpdateTransferState cwd parse decodedAt updatedAt clientId data = (b', none) ∧
      LocalUpdate b b' clientId file ptr m := by
  have hrep := represents_operate h
  cases hfile : TransferMetadata.ofString cwd parse decodedAt data with
  | error e =>
      refine Or.inl ⟨e, rfl, ?_⟩
      rw [addUpdateTransferState, hfile]
  | ok file =>
      right
      cases htr : b.findKnown clientId file with
      | some tr =>
          obtain ⟨b', m, hstate, hlocal⟩ := hrep.update_local updatedAt hfile htr
          exact ⟨file, b', tr, m, rfl, hstate, hlocal⟩
      | none =>
          have htouch : (b.touch clientId).findKnown clientId file = none := by
            rw [findKnown_touch, htr]
          have hlocal := (hrep.touch clientId).enter_local htouch
          refine ⟨file, _, _, file, rfl, ?_, hlocal.of_touch⟩
          simp only [addUpdateTransferState, hfile, htouch]

/-- A bookkeeper with a group and its record. -/
def oneRecord : Option Bookkeeper :=
  exec (operate "/" parseTexts) (new "bk0")
    [.call (.group groupText), .receive recordReceipt]

theorem add_update_transfer_atomic_again : ∃ file b' ptr m,
    TransferMetadata.ofString "/" parseTexts 3 recordText = .ok file ∧
    (oneRecord.get (by decide +kernel)).addUpdateTransferState "/" parseTexts 3 3 "c0_ses1"
      recordText = (b', none) ∧
    LocalUpdate (oneRecord.get (by decide +kernel)) b' "c0_ses1" file ptr m := by
  have hread : (TransferMetadata.ofString "/" parseTexts 3 recordText).toOption.isSome = true := by
    decide +kernel
  rcases add_update_transfer_atomic "/" parseTexts "bk0"
      [.call (.group groupText), .receive recordReceipt] (oneRecord.get (by decide +kernel))
      (Option.some_get _).symm "c0_ses1" recordText 3 3 with ⟨e, he, -⟩ | h
  · rw [he] at hread
    cases hread
  · exact h

end Bookkeeper

end Transfer
end SNBModules
