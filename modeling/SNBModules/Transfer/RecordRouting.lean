import SNBModules.Lib.Accounting
import SNBModules.Transfer.ClientTotality

/-!
# The session that a record goes to

Source: `transfer_client.cpp`, `action_on_receive_notification`, the case of
`TRANSFER_METADATA`; `transfer_session.hpp`, `add_file`.

A record is added to the first session whose id contains the target of the
notification.  The commands look for the session whose id is the target
(`getSession`); with ids of which one is the beginning of another, the two are not
the same.
-/

namespace SNBModules
namespace Transfer

open Lib

variable {σ : Type} {p : Platform σ} {o : Outside σ}

namespace OpenSession

/-! ## A session that gets a record -/

/-- **What the session makes of a record that arrives:** it adds one that it takes, from
another address. -/
theorem added_iff {m : TransferMetadata} {s t : OpenSession σ} {w w' : World}
    (h : receiveFile p m s w = .ok (t, w')) :
    Added m s t ↔ takes s.session.transferOptions m = true := by
  constructor
  · intro hadded
    by_contra htakes
    rw [receiveFile_eq] at h
    split_ifs at h
    have hrefused : takes s.session.transferOptions { m with dest := s.session.ip } = false :=
      Bool.eq_false_iff.2 htakes
    obtain ⟨-, hrecords⟩ := addFile_of_not_takes hrefused h
    have hlength : t.session.files.length = s.session.files.length := by
      simpa [records] using congrArg List.length hrecords
    rw [hadded.length] at hlength
    exact absurd hlength (Nat.succ_ne_self _)
  · intro htakes
    have hsrc := ((isOk_receiveFile_iff m s w).1 (isOk_iff.2 ⟨_, h⟩)).1
    obtain ⟨t', w'', h', hadded⟩ := receiveFile_of_takes (p := p) hsrc htakes w
    rw [h] at h'
    cases h'
    exact hadded

end OpenSession

namespace Site

/-! ## The sessions of the client -/

/-- The record is added to the sessions with this id, and no other changes. -/
def GoesTo (id : String) (m : TransferMetadata) (s t : Site σ) : Prop :=
  List.Forall₂ (fun x y => if x.session.sessionId = id then OpenSession.Added m x y else y = x)
    s.client.sessions t.client.sessions

/-- What is asked of the session that the search by a part of the id finds: it has the id and
takes the record, or no session has the id and it leaves the record alone. -/
def RightSession (id : String) (m : TransferMetadata) (s : Site σ) (x : OpenSession σ) : Prop :=
  x.session.ip ≠ m.src ∧
  if x.session.sessionId = id then OpenSession.takes x.session.transferOptions m = true
  else (∀ y ∈ s.client.sessions, y.session.sessionId ≠ id) ∧
    OpenSession.takes x.session.transferOptions m = false ∧ x.session.files ≠ [] ∧
    x.NothingToReport

/-- The search finds the right session, if it finds one. -/
def Routes (id : String) (m : TransferMetadata) (s : Site σ) : Prop :=
  ∀ x, s.client.sessions.find? (fun t => containsText t.session.sessionId id) = some x →
    s.RightSession id m x

/-- Where the ids are distinct, one place has the id. -/
theorem place_unique {s : Site σ} (hids : s.client.sessionIds.Nodup) {i j : ℕ}
    {x y : OpenSession σ} (hi : s.client.sessions[i]? = some x)
    (hj : s.client.sessions[j]? = some y) (hid : x.session.sessionId = y.session.sessionId) :
    i = j := by
  have hlt : i < s.client.sessionIds.length := by
    rw [TransferClient.sessionIds, List.length_map]
    exact (List.getElem?_eq_some_iff.1 hi).1
  refine (List.getElem?_inj hlt hids).1 ?_
  simp [TransferClient.sessionIds, hi, hj, hid]

/-- **What an added session is to the others.** -/
theorem goesTo_set_iff {id : String} {m : TransferMetadata} {s t : Site σ} {i : ℕ}
    {x y : OpenSession σ} (hids : s.client.sessionIds.Nodup) (hi : s.client.sessions[i]? = some x)
    (ht : t.client.sessions = s.client.sessions.set i y) :
    GoesTo id m s t ↔
      if x.session.sessionId = id then OpenSession.Added m x y
      else y = x ∧ ∀ z ∈ s.client.sessions, z.session.sessionId ≠ id := by
  have hlt := (List.getElem?_eq_some_iff.1 hi).1
  have hother : ∀ j z, s.client.sessions[j]? = some z → j ≠ i →
      t.client.sessions[j]? = some z := by
    intro j z hz hj
    rw [ht, List.getElem?_set_ne hj.symm, hz]
  have hat : t.client.sessions[i]? = some y := by rw [ht, List.getElem?_set_self hlt]
  constructor
  · intro h
    have hxy := forall₂_getElem? h hi hat
    split_ifs with hid
    · simpa only [if_pos hid] using hxy
    · rw [if_neg hid] at hxy
      refine ⟨hxy, fun z hz hzid => ?_⟩
      obtain ⟨j, hj⟩ := List.mem_iff_getElem?.1 hz
      have hji : j ≠ i := by
        rintro rfl
        exact hid (Option.some.inj (hi.symm.trans hj) ▸ hzid)
      have hadded := forall₂_getElem? h hj (hother j z hj hji)
      rw [if_pos hzid] at hadded
      exact absurd hadded.length (Nat.succ_ne_self _).symm
  · intro h
    rw [GoesTo, ht]
    refine List.forall₂_iff_get.2 ⟨List.length_set.symm, fun j hj hj' => ?_⟩
    simp only [List.get_eq_getElem]
    have hjz : s.client.sessions[j]? = some s.client.sessions[j] := List.getElem?_eq_getElem hj
    by_cases hji : j = i
    · subst hji
      obtain rfl := Option.some.inj (hi.symm.trans hjz)
      rw [List.getElem_set_self]
      split_ifs with hid
      · simpa only [if_pos hid] using h
      · simpa only [if_neg hid] using (if_neg hid ▸ h).1
    · rw [List.getElem_set_ne (Ne.symm hji)]
      have hzid : s.client.sessions[j].session.sessionId ≠ id := by
        intro hzid
        split_ifs at h with hid
        · exact hji (place_unique hids hjz hi (hzid.trans hid.symm))
        · exact h.2 _ (List.getElem_mem hj) hzid
      rw [if_neg hzid]

/-- Where nothing changes, no session has the id. -/
theorem goesTo_self_iff {id : String} {m : TransferMetadata} {s t : Site σ}
    (ht : t.client.sessions = s.client.sessions) :
    GoesTo id m s t ↔ ∀ x ∈ s.client.sessions, x.session.sessionId ≠ id := by
  rw [GoesTo, ht, List.forall₂_same]
  refine forall₂_congr fun x _ => ?_
  split_ifs with hid
  · exact iff_of_false (fun h => absurd h.length (Nat.succ_ne_self _).symm) fun h => h hid
  · exact iff_of_true rfl hid

/-- **A record that has been read** goes to the session of its target exactly when the
search by a part of the id finds it. -/
theorem onTransferMetadata_goesTo_iff {targetId data : String} {s : Site σ}
    {m : TransferMetadata} (hids : s.client.sessionIds.Nodup)
    (hread : TransferMetadata.ofString p.cwd p.parse (s.world.now p.env) data = .ok m) :
    (∃ t, onTransferMetadata p targetId data s = .ok t ∧ GoesTo targetId m s t) ↔
      s.Routes targetId m := by
  rw [Routes]
  rcases findIdx?_cases (fun t : OpenSession σ => containsText t.session.sessionId targetId)
    s.client.sessions with ⟨hplace, hfind⟩ | ⟨i, x, hplace, hi, hfind⟩
  · rw [onTransferMetadata_of_none hread hplace]
    simp only [hfind, Except.ok.injEq, exists_eq_left']
    refine iff_of_true ((goesTo_self_iff rfl).2 fun x hx hid => ?_) fun x hnone => by cases hnone
    have hcontains := List.find?_eq_none.1 hfind x hx
    rw [hid, containsText_refl] at hcontains
    exact hcontains rfl
  · rw [onTransferMetadata_of_some hread hplace]
    have hok := OpenSession.isOk_receiveFile_iff (p := p) m x s.tick.world
    have hat : s.tick.atSession i (OpenSession.receiveFile p m) = (do
        let q ← OpenSession.receiveFile p m x s.tick.world
        .ok ⟨{ s.client with sessions := s.client.sessions.set i q.1 }, q.2⟩) := by
      have hi' : s.tick.client.sessions[i]? = some x := hi
      rw [atSession, hi']
      rfl
    simp only [hat, hfind, Option.some.injEq, forall_eq', RightSession]
    cases hreceive : OpenSession.receiveFile p m x s.tick.world with
    | error e =>
        rw [hreceive] at hok
        refine iff_of_false (fun h => by obtain ⟨t, ht, -⟩ := h; cases ht) fun h => ?_
        obtain ⟨hsrc, hx⟩ := h
        have hcan := hok.2 ⟨hsrc, fun htakes => by
          split_ifs at hx with hid
          · rw [hx] at htakes
            cases htakes
          · exact hx.2.2.1⟩
        cases hcan
    | ok q =>
        rw [hreceive] at hok
        obtain ⟨hsrc, hadd⟩ := hok.1 rfl
        simp only [bind, Except.bind, Except.ok.injEq, exists_eq_left']
        rw [goesTo_set_iff hids hi rfl, OpenSession.added_iff hreceive,
          OpenSession.receiveFile_eq_self_iff hreceive, and_iff_right hsrc]
        split_ifs with hid
        · exact Iff.rfl
        · constructor
          · rintro ⟨⟨htakes, hreport⟩, hnone⟩
            exact ⟨hnone, htakes, hadd htakes, hreport⟩
          · rintro ⟨hnone, htakes, -, hreport⟩
            exact ⟨⟨htakes, hreport⟩, hnone⟩

/-- **Metadata goes to the right session exactly when the search finds it:** whatever the
sessions with distinct ids are, and whatever the record. -/
theorem transferMetadata_routed_iff (p : Platform σ) (o : Outside σ) (folder : Entry)
    (n : NotificationData) (s : Site σ) (m : TransferMetadata)
    (hids : s.client.sessionIds.Nodup)
    (htype : n.notification = notificationToString .transferMetadata)
    (hread : TransferMetadata.ofString p.cwd p.parse (s.world.now p.env) n.data = .ok m) :
    ((∃ r, (s.actionOnReceiveNotification p o folder n).2 = .ok r) ∧
      GoesTo n.targetId m s (s.actionOnReceiveNotification p o folder n).1) ↔
    if TransferClient.accepts s.client.clientId n then s.Routes n.targetId m
    else ∀ x ∈ s.client.sessions, x.session.sessionId ≠ n.targetId := by
  rw [actionOnReceiveNotification]
  cases haccepts : TransferClient.accepts s.client.clientId n with
  | false => simp [goesTo_self_iff]
  | true =>
      rw [← onTransferMetadata_goesTo_iff hids hread, htype]
      simp only [Bool.true_eq_false, if_false, stringToNotification_notificationToString, handle]
      cases hrun : onTransferMetadata p n.targetId n.data s with
      | error e => simp [runSteps_cons_error hrun]
      | ok t => simp [runSteps_cons_ok hrun]

/-! ### Two transfers of one file -/

/-- A session of a client for the transfer, which expects one file. -/
def expecting (transferId : String) : OpenSession Unit :=
  ⟨⟨.downloader, "client1_ses" ++ transferId, ⟨"10.0.0.2", 5001⟩,
    { GroupMetadata.blank with groupId := transferId, expectedFiles := {"/data/f1"} },
    "/data/" ++ transferId, [], ⟨[], []⟩⟩, some ()⟩

/-- A client with the sessions of two transfers. -/
def twoTransfers (first second : String) : Site Unit :=
  let s := Site.plain "client1" ⟨"10.0.0.2", 5001⟩
  { s with client := { s.client with sessions := [expecting first, expecting second] } }

/-- The record of the file, for the first transfer. -/
def recordOfTransfer1 : NotificationData :=
  ⟨"client0_sestransfer1", "client1_sestransfer1", notificationToString .transferMetadata,
    "\x7b\"file_path\":\"/data/f1\",\"group_id\":\"transfer1\",\"source\":\"10.0.0.1:5000\"\x7d"⟩

theorem transferMetadata_routed_iff_transfer1 :
    ∃ m, TransferMetadata.ofString "/" JsonText.parse 0 recordOfTransfer1.data = .ok m ∧
      GoesTo "client1_sestransfer1" m (twoTransfers "transfer1" "transfer10")
        ((twoTransfers "transfer1" "transfer10").actionOnReceiveNotification .plain .plain
          (.other "/data") recordOfTransfer1).1 := by
  have hok : (TransferMetadata.ofString "/" JsonText.parse 0 recordOfTransfer1.data).toOption.map
      (fun m => (m.src, m.groupId)) = some (⟨"10.0.0.1", 5000⟩, "transfer1") := by decide +kernel
  obtain ⟨m, hm, hfields⟩ := Option.map_eq_some_iff.1 hok
  have hread := toOption_eq_some.1 hm
  obtain ⟨hsrc, hgroup⟩ := Prod.mk.inj hfields
  refine ⟨m, hread, ((transferMetadata_routed_iff .plain .plain (.other "/data")
    recordOfTransfer1 (twoTransfers "transfer1" "transfer10") m (by decide +kernel) rfl
    hread).2 ?_).2⟩
  rw [if_pos (by decide +kernel)]
  intro x hx
  obtain rfl : expecting "transfer1" = x := by
    have hfirst : (twoTransfers "transfer1" "transfer10").client.sessions.find?
        (fun t => containsText t.session.sessionId recordOfTransfer1.targetId) =
        some (expecting "transfer1") := by
      rw [twoTransfers, List.find?_cons_of_pos (by decide +kernel)]
    exact Option.some.inj (hfirst.symm.trans hx)
  refine ⟨by rw [hsrc]; decide, ?_⟩
  rw [if_pos (by decide +kernel), OpenSession.takes, hgroup]
  simp [expecting]

/-- The session of `transfer10` was made first: it gets the file. -/
theorem transfer10_gets_the_file :
    (twoTransfers "transfer10" "transfer1").client.sessionIds =
      ["client1_sestransfer10", "client1_sestransfer1"] ∧
    ((twoTransfers "transfer10" "transfer1").actionOnReceiveNotification .plain .plain
        (.other "/data") recordOfTransfer1).1.client.sessions.map
      (fun x => x.session.files.map fun m => (m.filePath, m.groupId)) =
      [[("/data/f1", "transfer10")], []] := by
  decide +kernel

end Site

end Transfer
end SNBModules
