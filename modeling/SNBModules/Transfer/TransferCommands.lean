import SNBModules.Transfer.SessionIds

/-!
# Finding a transfer again

Source: `transfer_client.cpp`, `start_transfer`, `pause_transfer`, `resume_transfer`,
`cancel_transfer` and `get_session`, with `create_new_transfer` and
`generate_session_id`.

`get_session` takes the id of a transfer or that of a session, and tells them apart by
whether `ses` stands anywhere in the text.  The duplicate test of `create_new_transfer`
goes through the session id and always has it there; the four commands are given the
transfer id, which may have it or not.
-/

namespace SNBModules
namespace Transfer

open Lib

variable {σ : Type} {p : Platform σ} {o : Outside σ}

namespace Site

/-! ## The commands of the operator -/

/-- The commands to a transfer: to all files of the session that is found. -/
def transferCommand (p : Platform σ) (c : Command) (transferId : String) (s : Site σ) :
    Except Fault (Site σ) :=
  match s.client.getSession transferId with
  | some i => s.atSession i (OpenSession.commandAll p c)
  | none => .ok s

/-- `start_transfer`. -/
def startTransfer (p : Platform σ) : String → Site σ → Except Fault (Site σ) :=
  transferCommand p .start

/-- `pause_transfer`. -/
def pauseTransfer (p : Platform σ) : String → Site σ → Except Fault (Site σ) :=
  transferCommand p .pause

/-- `resume_transfer`. -/
def resumeTransfer (p : Platform σ) : String → Site σ → Except Fault (Site σ) :=
  transferCommand p .resume

/-- `cancel_transfer`. -/
def cancelTransfer (p : Platform σ) : String → Site σ → Except Fault (Site σ) :=
  transferCommand p .cancel

/-! ## The id of the client -/

/-- The id that stands in the ids of its own sessions. -/
def clientId (s : Site σ) : String := s.client.clientId

theorem clientId_of_becomes {s t : Site σ} (h : s.Becomes t) : t.clientId = s.clientId := by
  refine h.rel (R := fun s t => t.clientId = s.clientId) (fun _ => rfl)
    (fun _ _ _ h₁ h₂ => h₂.trans h₁) fun s t halters => ?_
  cases halters <;> rfl

/-! ## Later calls -/

/-- What is called on a client, with the commands of the operator. -/
inductive Request (σ : Type) where
  | call (c : Call σ)
  | command (c : Command) (transferId : String)

/-- The client after a request, if its behaviour is defined. -/
def request (p : Platform σ) (s : Site σ) : Request σ → Option (Site σ)
  | .call c => step p s c
  | .command c transferId => (s.transferCommand p c transferId).toOption

/-- **Every request is a chain of changes.** -/
theorem becomes_request {s t : Site σ} {r : Request σ} (h : request p s r = some t) :
    s.Becomes t := by
  cases r with
  | call c => exact becomes_step h
  | command c transferId =>
      exact becomes_onSession (OpenSession.keepsId_commandAll c) (toOption_eq_some.1 h)

/-- What a created transfer leaves, whatever is called later: the client has its id, and
the session stands at its place. -/
theorem kept_of_created {a : NewTransfer} {s t u : Site σ} {f : Option Fault}
    {l : List (Request σ)} (hcreate : s.createNewTransfer p o a = (t, f))
    (hcreated : s.client.sessions.length < t.client.sessions.length)
    (hu : exec (request p) t l = some u) :
    u.client.clientId = s.client.clientId ∧
      s.client.generateSessionId a.transferId "" ∉ s.ids ∧
      s.ids ++ [s.client.generateSessionId a.transferId ""] <+: u.ids := by
  have hmade := becomes_createNewTransfer (p := p) (o := o) a s
  have hids := ids_createNewTransfer (p := p) (o := o) a s
  rw [hcreate] at hmade hids
  have hlater : t.Becomes u :=
    exec_rel .refl (fun _ _ _ => .trans) (fun _ _ _ _ => becomes_request) hu
  have hprefix := ids_prefix_of_becomes hlater
  rcases hids with hids | ⟨hfree, hids⟩
  · have hlength := congrArg List.length hids
    simp only [ids, TransferClient.sessionIds, List.length_map] at hlength
    omega
  · rw [hids] at hprefix
    exact ⟨clientId_of_becomes (hmade.trans hlater), hfree, hprefix⟩

/-! ## Result -/

/-- A text with something before it is another text. -/
theorem ne_generateSessionId (c : TransferClient σ) (transferId : String) :
    transferId ≠ c.generateSessionId transferId "" := by
  intro h
  have hlength := congrArg (fun x => x.toList.length) h
  simp [TransferClient.generateSessionId, String.toList_append] at hlength
  omega

/-- **A created transfer is found by its id exactly when `ses` is not part of it:** after
any later calls, by `get_session` under the two ids, by the four commands, and by another
`create_new_transfer`. -/
theorem created_found_iff (p : Platform σ) (o : Outside σ) (a : NewTransfer) (s t u : Site σ)
    (f : Option Fault) (l : List (Request σ)) (hcreate : s.createNewTransfer p o a = (t, f))
    (hcreated : s.client.sessions.length < t.client.sessions.length)
    (hu : exec (request p) t l = some u) :
    (u.client.getSession a.transferId = some s.client.sessions.length ∧
      (u.startTransfer p a.transferId =
          u.atSession s.client.sessions.length (OpenSession.commandAll p .start) ∧
        u.pauseTransfer p a.transferId =
          u.atSession s.client.sessions.length (OpenSession.commandAll p .pause) ∧
        u.resumeTransfer p a.transferId =
          u.atSession s.client.sessions.length (OpenSession.commandAll p .resume) ∧
        u.cancelTransfer p a.transferId =
          u.atSession s.client.sessions.length (OpenSession.commandAll p .cancel)) ∧
      u.client.getSession (u.client.generateSessionId a.transferId "") =
        some s.client.sessions.length ∧
      ∀ (o' : Outside σ) (a' : NewTransfer), a'.transferId = a.transferId →
        u.createNewTransfer p o' a' = (u, none)) ↔
    containsText a.transferId "ses" = false := by
  obtain ⟨hclient, hfree, hkept⟩ := kept_of_created hcreate hcreated hu
  have hid : u.client.generateSessionId a.transferId "" =
      s.client.generateSessionId a.transferId "" := by
    simp [TransferClient.generateSessionId, hclient]
  rw [← hid] at hfree hkept
  have hget := getSession_of_prefix (containsText_ses u.client a.transferId "") hfree hkept
  have hlength : s.ids.length = s.client.sessions.length := List.length_map _
  rw [hlength] at hget
  constructor
  · rintro ⟨hfound, -⟩
    by_contra hses
    rw [Bool.not_eq_false] at hses
    rw [TransferClient.getSession, if_pos hses] at hfound
    rw [getSession_generateSessionId] at hget
    -- the session at this place would have both ids
    obtain ⟨hlt, hsame, -⟩ := List.findIdx?_eq_some_iff_getElem.1 hfound
    obtain ⟨_, hown, -⟩ := List.findIdx?_eq_some_iff_getElem.1 hget
    simp only [decide_eq_true_eq] at hsame hown
    exact ne_generateSessionId u.client a.transferId (hsame.symm.trans hown)
  · intro hses
    have hfound : u.client.getSession a.transferId = some s.client.sessions.length := by
      rw [getSession_generateSessionId] at hget
      rw [TransferClient.getSession, hses]
      exact hget
    have hcommand : ∀ c, u.transferCommand p c a.transferId =
        u.atSession s.client.sessions.length (OpenSession.commandAll p c) := by
      intro c
      rw [transferCommand, hfound]
    refine ⟨hfound, ⟨hcommand _, hcommand _, hcommand _, hcommand _⟩, hget, fun o' a' ha' => ?_⟩
    rw [createNewTransfer, ha', hget]
    rfl

/-- A transfer of one file. -/
def transferNamed (transferId : String) : NewTransfer :=
  ⟨transferId, "dummy", [], ["/data/run1.hdf5"], .null⟩

/-- A client that has created it. -/
def clientWith (transferId : String) : Site Unit :=
  ((Site.plain "client1" ⟨"10.0.0.2", 5001⟩).createNewTransfer .plain .plain
    (transferNamed transferId)).1

theorem created_found_iff_run1 : (clientWith "run1").client.getSession "run1" = some 0 :=
  ((created_found_iff .plain .plain (transferNamed "run1")
    (Site.plain "client1" ⟨"10.0.0.2", 5001⟩) (clientWith "run1") (clientWith "run1") _ [] rfl
    (by decide +kernel) rfl).2 (by decide +kernel)).1

/-- A transfer of a session of tests. -/
theorem test_session_not_found :
    (clientWith "test_session1").client.sessionIds = ["client1_sestest_session1"] ∧
    (clientWith "test_session1").client.getSession "test_session1" = none := by
  decide +kernel

end Site

end Transfer
end SNBModules
