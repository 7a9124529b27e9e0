import SNBModules.Transfer.SessionIds

/-!
# Removing a session

Source: `transfer_client.cpp`, `remove_session` and `get_session`.

`remove_session` finds the session and then goes through the sessions for the place to
erase.  But its test asks for the id of the session that was found, at each place
again, and compares it with the argument as it was given.  So it erases the first
session or none.
-/

namespace SNBModules
namespace Transfer

open Lib

variable {σ : Type}

namespace TransferClient

/-- `remove_session`.  The test of the loop is the same at every place `k`. -/
def removeSession (sessionId : String) (c : TransferClient σ) : TransferClient σ :=
  match (c.getSession sessionId).bind fun i => c.sessions[i]? with
  | none => c
  | some s =>
      match (List.range c.sessions.length).find? fun _ => s.session.sessionId = sessionId with
      | some k => { c with sessions := c.sessions.eraseIdx k }
      | none => c

/-- The session that `get_session` finds is gone, and nothing else. -/
def Removed (sessionId : String) (c c' : TransferClient σ) : Prop :=
  match c.getSession sessionId with
  | some i => c' = { c with sessions := c.sessions.eraseIdx i }
  | none => c' = c

variable {c : TransferClient σ} {sessionId : String}

/-- A session that is found has the id that was looked for. -/
theorem sessionIds_of_getSession {i : ℕ} (h : c.getSession sessionId = some i) :
    c.sessionIds[i]? = some (if containsText sessionId "ses" then sessionId
      else c.generateSessionId sessionId "") := by
  rw [getSession, List.findIdx?_eq_some_iff_getElem] at h
  obtain ⟨hi, hid, -⟩ := h
  rw [sessionIds, List.getElem?_map, List.getElem?_eq_getElem hi]
  simpa using hid

/-- The first session is found by its id if that looks like one. -/
theorem getSession_of_head? (hhead : c.sessionIds.head? = some sessionId)
    (hses : containsText sessionId "ses" = true) : c.getSession sessionId = some 0 := by
  obtain ⟨l, hl⟩ := List.head?_eq_some_iff.1 hhead
  obtain ⟨s, sessions, hsessions, hs, -⟩ := List.map_eq_cons_iff.1 hl
  rw [getSession, if_pos hses, hsessions, List.findIdx?_cons]
  simp [hs]

/-- A loop whose test does not depend on the place stops at the first place or nowhere. -/
theorem find?_range_const {n : ℕ} (hn : 0 < n) (b : Bool) :
    (List.range n).find? (fun _ => b) = if b then some 0 else none := by
  obtain ⟨n, rfl⟩ := Nat.exists_eq_succ_of_ne_zero (Nat.ne_of_gt hn)
  cases b <;> simp [List.range_succ_eq_map]

/-- A session is found, and erased or not: the first one is erased if the argument is the
whole id of the one found. -/
theorem removeSession_of_found {i : ℕ} (h : c.getSession sessionId = some i) :
    c.removeSession sessionId =
      if containsText sessionId "ses" then { c with sessions := c.sessions.eraseIdx 0 }
      else c := by
  have hid := sessionIds_of_getSession h
  rw [sessionIds, List.getElem?_map, Option.map_eq_some_iff] at hid
  obtain ⟨s, hs, hid⟩ := hid
  obtain ⟨hi, -⟩ := List.getElem?_eq_some_iff.1 hs
  have hfound : ((c.getSession sessionId).bind fun i => c.sessions[i]?) = some s := by
    rw [h]
    exact hs
  have htest : decide (s.session.sessionId = sessionId) = containsText sessionId "ses" := by
    rw [hid]
    cases hses : containsText sessionId "ses" with
    | true => simp
    | false =>
        refine decide_eq_false fun heq => ?_
        rw [if_neg Bool.false_ne_true] at heq
        have hses' := Site.containsText_ses c sessionId ""
        rw [heq, hses] at hses'
        cases hses'
  simp only [removeSession, hfound, find?_range_const (Nat.zero_lt_of_lt hi), htest]
  split_ifs <;> rfl

/-- Of distinct elements, the first is the only one without which the list is its tail. -/
theorem eraseIdx_eq_tail {α β : Type} {f : α → β} {l : List α} (h : (l.map f).Nodup) {i : ℕ}
    (hi : i < l.length) (heq : l.eraseIdx 0 = l.eraseIdx i) : i = 0 := by
  by_contra hne
  have hfirst := congrArg (fun l => (l.map f)[0]?) heq
  have hlt : 0 < (l.map f).length := by rw [List.length_map]; omega
  rw [List.getElem?_map, List.getElem?_map, List.getElem?_eraseIdx, List.getElem?_eraseIdx,
    if_neg (Nat.lt_irrefl 0), if_pos (Nat.pos_of_ne_zero hne), ← List.getElem?_map,
    ← List.getElem?_map] at hfirst
  exact absurd ((List.getElem?_inj hlt h).1 hfirst.symm) (by decide)

/-- **When the right session is removed:** exactly when none is found, or the argument is
the whole id of the first one. -/
theorem remove_session_iff (c : TransferClient σ) (sessionId : String)
    (hids : c.sessionIds.Nodup) :
    Removed sessionId c (c.removeSession sessionId) ↔
      c.getSession sessionId = none ∨
        c.sessionIds.head? = some sessionId ∧ containsText sessionId "ses" = true := by
  cases h : c.getSession sessionId with
  | none =>
      refine iff_of_true ?_ (Or.inl rfl)
      rw [Removed, h, removeSession, h]
      rfl
  | some i =>
      have hid := sessionIds_of_getSession h
      have hi : i < c.sessions.length := by
        have hlt := (List.getElem?_eq_some_iff.1 hid).1
        rwa [sessionIds, List.length_map] at hlt
      simp only [Removed, h, removeSession_of_found h, reduceCtorEq, false_or]
      constructor
      · intro hremoved
        split_ifs at hremoved with hses
        · have hzero := eraseIdx_eq_tail hids hi (congrArg TransferClient.sessions hremoved)
          rw [if_pos hses, hzero, ← List.head?_eq_getElem?] at hid
          exact ⟨hid, hses⟩
        · have hlength := congrArg (fun c => c.sessions.length) hremoved
          simp only [List.length_eraseIdx_of_lt hi] at hlength
          omega
      · rintro ⟨hhead, hses⟩
        obtain rfl : i = 0 := Option.some.inj (h.symm.trans (getSession_of_head? hhead hses))
        rw [if_pos hses]

/-- A session without files. -/
def sessionNamed (sessionId : String) : OpenSession Unit :=
  ⟨⟨.uploader, sessionId, ⟨"10.0.0.2", 5001⟩, GroupMetadata.blank, "/data", [], ⟨[], []⟩⟩, some ()⟩

/-- A client with sessions of these ids. -/
def clientOf (sessionIds : List String) : TransferClient Unit :=
  { (Site.plain "client1" ⟨"10.0.0.2", 5001⟩).client with
    sessions := sessionIds.map sessionNamed }

theorem remove_session_iff_first :
    Removed "client1_sesrun1" (clientOf ["client1_sesrun1", "client1_sesrun2"])
      ((clientOf ["client1_sesrun1", "client1_sesrun2"]).removeSession "client1_sesrun1") :=
  (remove_session_iff (clientOf ["client1_sesrun1", "client1_sesrun2"]) "client1_sesrun1"
    (by decide)).2 (Or.inr (by decide))

/-- **Another session goes:** the second one is to be removed, and the first one is; by its
transfer id, none is. -/
theorem other_session_removed :
    ((clientOf ["client1_sesrun1", "client1_sesrun2"]).removeSession
      "client1_sesrun2").sessionIds = ["client1_sesrun2"] ∧
    ((clientOf ["client1_sesrun1"]).getSession "run1" = some 0 ∧
      ((clientOf ["client1_sesrun1"]).removeSession "run1").sessionIds = ["client1_sesrun1"]) ∧
    ¬ Removed "client1_sesrun2" (clientOf ["client1_sesrun1", "client1_sesrun2"])
      ((clientOf ["client1_sesrun1", "client1_sesrun2"]).removeSession "client1_sesrun2") := by
  refine ⟨by decide, by decide, fun h => ?_⟩
  have hids : ((clientOf ["client1_sesrun1", "client1_sesrun2"]).removeSession
      "client1_sesrun2").sessionIds = ["client1_sesrun1"] := congrArg sessionIds h
  exact absurd hids (by decide)

end TransferClient

end Transfer
end SNBModules
