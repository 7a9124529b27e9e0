import Mathlib.Logic.Relation
import SNBModules.Lib.Runs
import SNBModules.Transfer.ClientHandler

/-!
# What a call does to a client

Source: `transfer_client.cpp`, `create_new_transfer`, `scan_available_files` and
`action_on_receive_notification`.

Whatever is called, the client changes in steps of three kinds: a session is made
behind the others, a session is changed and keeps its id, or nothing changes but the
available files and the world outside (`Alters`).  A call is a chain of such steps
(`becomes_step`), also one that throws.
-/

namespace SNBModules
namespace Transfer

open Lib

variable {σ : Type} {p : Platform σ} {o : Outside σ}

/-! ## Sessions keep their ids -/

namespace OpenSession

/-- What a call leaves has the id that the session had. -/
def KeepsId (f : OpenSession σ → World → Except Fault (OpenSession σ × World)) : Prop :=
  ∀ s w t w', f s w = .ok (t, w') → t.session.sessionId = s.session.sessionId

theorem after_session {s : TransferSession} {h : Host (Handle σ)} {t : OpenSession σ} {w : World}
    (ht : after s h = .ok (t, w)) : t.session = s := by
  rw [after] at ht
  cases hh : h.interface with
  | crashed =>
      simp only [hh] at ht
      cases ht
  | _ =>
      simp only [hh] at ht
      cases ht
      rfl

theorem keepsId_commandAll (c : Command) : KeepsId (commandAll p c) := by
  intro s w t w' h
  have h : after _ _ = .ok (t, w') := h
  rw [after_session h]
  cases c with
  | start =>
      simp only [TransferSession.startAll]
      cases s.session.type <;> rfl
  | _ => rfl

theorem keepsId_commandAt (c : Command) (i : ℕ) : KeepsId (commandAt p c i) := by
  intro s w t w' h
  rw [commandAt] at h
  cases hi : s.session.files[i]? with
  | none =>
      simp only [hi] at h
      cases h
  | some m =>
      simp only [hi] at h
      rw [after_session h]
      rfl

theorem keepsId_command (c : Command) (data : String) : KeepsId (command p c data) := by
  intro s w t w' h
  rw [command] at h
  split_ifs at h
  · exact keepsId_commandAll c s w t w' h
  · obtain ⟨i, -, h⟩ := bind_eq_ok.1 h
    exact keepsId_commandAt c i s w t w' h

theorem keepsId_updateAt (i : ℕ) : KeepsId (updateAt p i) := by
  intro s w t w' h
  rw [updateAt] at h
  cases hi : s.session.files[i]? with
  | none =>
      simp only [hi] at h
      cases h
  | some m =>
      simp only [hi] at h
      cases h
      rfl

theorem keepsId_update (data : String) : KeepsId (update p data) := by
  intro s w t w' h
  rw [update] at h
  split_ifs at h
  · cases h
    rfl
  · obtain ⟨i, -, h⟩ := bind_eq_ok.1 h
    exact keepsId_updateAt i s w t w' h

theorem keepsId_addFile (m : TransferMetadata) : KeepsId (addFile p m) := by
  intro s w t w' h
  rw [addFile, bind_eq_ok] at h
  obtain ⟨q, -, h⟩ := h
  exact keepsId_updateAt q.2 ⟨{ s.session with transferOptions := q.1 }, s.interface⟩ w t w' h

theorem keepsId_receiveFile (m : TransferMetadata) : KeepsId (receiveFile p m) := by
  intro s w t w' h
  rw [receiveFile, bind_eq_ok] at h
  obtain ⟨m', -, h⟩ := h
  exact keepsId_addFile m' s w t w' h

end OpenSession

namespace Site

/-! ## Runs of calls -/

/-- What is called on a client; `o` is what the call finds outside. -/
inductive Call (σ : Type) where
  | createNewTransfer (o : Outside σ) (a : NewTransfer)
  | scanAvailableFiles (o : Outside σ) (nested : Bool) (folder : Entry) (previousScan : List String)
  | receive (o : Outside σ) (folder : Entry) (n : NotificationData)

/-- The call. -/
def call (p : Platform σ) (s : Site σ) : Call σ → Site σ × Option Fault
  | .createNewTransfer o a => s.createNewTransfer p o a
  | .scanAvailableFiles o nested folder previousScan =>
      let r := s.scanAvailableFiles p o nested folder previousScan
      (r.1.1, r.2)
  | .receive o folder n =>
      match s.actionOnReceiveNotification p o folder n with
      | (s, .ok _) => (s, none)
      | (s, .error f) => (s, some f)

/-- The client after a call; an exception is caught, and after undefined behaviour
there is none. -/
def step (p : Platform σ) (s : Site σ) (c : Call σ) : Option (Site σ) :=
  let r := call p s c
  if r.2 = some .undefined then none else some r.1

theorem fst_actionOnReceiveNotification (folder : Entry) (n : NotificationData) (s : Site σ) :
    (s.actionOnReceiveNotification p o folder n).1 =
      if TransferClient.accepts s.client.clientId n = false then s
      else ((stringToNotification n.notification).map
        fun type => (s.handle p o folder type n).1).getD s := by
  rw [actionOnReceiveNotification]
  split_ifs with haccepts
  · rfl
  · cases htype : stringToNotification n.notification with
    | none => rfl
    | some type =>
        simp only [Option.map_some, Option.getD_some]
        rcases s.handle p o folder type n with ⟨t, _ | f⟩ <;> rfl

theorem fst_call_receive (o : Outside σ) (folder : Entry) (n : NotificationData) (s : Site σ) :
    (call p s (.receive o folder n)).1 = (s.actionOnReceiveNotification p o folder n).1 := by
  rw [call]
  rcases s.actionOnReceiveNotification p o folder n with ⟨t, _ | _⟩ <;> rfl

/-! ## Chains of changes -/

/-- One change of a client. -/
inductive Alters (s : Site σ) : Site σ → Prop
  | rest (files : Finset String) (w : World) :
      Alters s ⟨{ s.client with availableFiles := files }, w⟩
  | made (session : OpenSession σ) (w : World) :
      Alters s ⟨{ s.client with sessions := s.client.sessions ++ [session] }, w⟩
  | changed {i : ℕ} {session session' : OpenSession σ} (w : World)
      (hi : s.client.sessions[i]? = some session)
      (hid : session'.session.sessionId = session.session.sessionId) :
      Alters s ⟨{ s.client with sessions := s.client.sessions.set i session' }, w⟩

/-- A chain of changes. -/
def Becomes : Site σ → Site σ → Prop := Relation.ReflTransGen Alters

theorem Becomes.refl (s : Site σ) : s.Becomes s := Relation.ReflTransGen.refl

theorem Becomes.trans {s t u : Site σ} (h₁ : s.Becomes t) (h₂ : t.Becomes u) : s.Becomes u :=
  Relation.ReflTransGen.trans h₁ h₂

theorem Alters.becomes {s t : Site σ} (h : s.Alters t) : s.Becomes t :=
  Relation.ReflTransGen.single h

/-- **What every change keeps, a chain keeps.** -/
theorem Becomes.rel {R : Site σ → Site σ → Prop} (hrefl : ∀ s, R s s)
    (htrans : ∀ s t u, R s t → R t u → R s u) (hone : ∀ s t, Alters s t → R s t) {s t : Site σ}
    (h : s.Becomes t) : R s t := by
  induction h with
  | refl => exact hrefl s
  | tail _ hlast ih => exact htrans _ _ _ ih (hone _ _ hlast)

theorem becomes_of_client {s t : Site σ} (h : t.client = s.client) : s.Becomes t := by
  obtain ⟨client, w⟩ := t
  obtain rfl : client = s.client := h
  exact (Alters.rest s.client.availableFiles w).becomes

theorem becomes_atSession {i : ℕ}
    {f : OpenSession σ → World → Except Fault (OpenSession σ × World)}
    (hf : OpenSession.KeepsId f) {s t : Site σ} (h : s.atSession i f = .ok t) : s.Becomes t := by
  rcases atSession_eq_ok h with rfl | ⟨session, session', w, hi, hcall, rfl⟩
  · exact .refl _
  · exact (Alters.changed w hi (hf _ _ _ _ hcall)).becomes

theorem becomes_createSession {options : GroupMetadata TransferMetadata} {type : SessionType}
    {id workDir : String} {ip : IPFormat} {destClients : List String} {s t : Site σ}
    (h : s.createSession p o options type id workDir ip destClients = .ok t) : s.Becomes t := by
  rw [createSession, bind_eq_ok] at h
  obtain ⟨q, -, h⟩ := h
  cases h
  exact (Alters.made _ _).becomes

theorem becomes_visit {v : Visit} {q q' : Site σ × List String} (h : visit p o v q = .ok q') :
    q.1.Becomes q'.1 := by
  rcases site_visit h with hsame | ⟨g, hg⟩ | ⟨m, i, hi⟩
  · exact becomes_of_client hsame
  · exact becomes_createSession hg
  · have htick : q.1.Becomes q.1.tick := becomes_of_client rfl
    exact htick.trans (becomes_atSession (OpenSession.keepsId_addFile m) hi)

theorem becomes_visits (l : List Visit) (q : Site σ × List String) :
    q.1.Becomes (runSteps (l.map (visit p o)) q).1.1 := by
  refine runSteps_reach (R := fun q q' : Site σ × List String => q.1.Becomes q'.1)
    (fun q => .refl q.1) (fun _ _ _ => .trans) (fun f hf q q' h => ?_) q
  obtain ⟨v, -, rfl⟩ := List.mem_map.1 hf
  exact becomes_visit h

theorem becomes_runSteps {l : List (Site σ → Except Fault (Site σ))}
    (hl : ∀ f ∈ l, ∀ s t, f s = .ok t → s.Becomes t) (s : Site σ) :
    s.Becomes (runSteps l s).1 :=
  runSteps_reach .refl (fun _ _ _ => .trans) hl s

theorem becomes_onSession {f : OpenSession σ → World → Except Fault (OpenSession σ × World)}
    (hf : OpenSession.KeepsId f) {targetId : String} {s t : Site σ}
    (h : onSession targetId f s = .ok t) : s.Becomes t := by
  rw [onSession] at h
  cases hget : s.client.getSession targetId with
  | none =>
      simp only [hget] at h
      cases h
      exact .refl _
  | some i =>
      simp only [hget] at h
      exact becomes_atSession hf h

theorem becomes_onTransferMetadata {targetId data : String} {s t : Site σ}
    (h : onTransferMetadata p targetId data s = .ok t) : s.Becomes t := by
  have htick : s.Becomes s.tick := becomes_of_client rfl
  obtain ⟨m, hm, -⟩ := bind_eq_ok.1 h
  cases hfor : s.sessionFor targetId with
  | none =>
      rw [onTransferMetadata_of_none (thrown_eq_ok.1 hm) hfor] at h
      cases h
      exact htick
  | some i =>
      rw [onTransferMetadata_of_some (thrown_eq_ok.1 hm) hfor] at h
      exact htick.trans (becomes_atSession (OpenSession.keepsId_receiveFile m) h)

theorem becomes_shareFile {dest f : String} {s t : Site σ} (h : shareFile p o dest f s = .ok t) :
    s.Becomes t := by
  rw [shareFile, bind_eq_ok] at h
  obtain ⟨m, -, h⟩ := h
  cases h
  exact (Alters.rest _ _).becomes

theorem becomes_onConnectionRequest (folder : Entry) (sourceId : String) (s : Site σ) :
    s.Becomes (s.onConnectionRequest p o folder sourceId).1 := by
  have hscan := becomes_visits (p := p) (o := o) (folder.visits true) (s, [])
  rw [onConnectionRequest, scanAvailableFiles]
  generalize runSteps ((folder.visits true).map (visit p o)) (s, []) = x at hscan ⊢
  rcases x with ⟨q, _ | f⟩
  · refine hscan.trans (becomes_runSteps (fun f hf s t h => ?_) q.1)
    rcases List.mem_append.1 hf with hf | hf
    · obtain ⟨path, -, rfl⟩ := List.mem_map.1 hf
      exact becomes_shareFile h
    · obtain rfl := List.mem_singleton.1 hf
      cases h
      exact becomes_of_client rfl
  · exact hscan

/-- A run of one step. -/
theorem becomes_runSteps_single {f : Site σ → Except Fault (Site σ)}
    (hf : ∀ s t, f s = .ok t → s.Becomes t) (s : Site σ) : s.Becomes (runSteps [f] s).1 :=
  becomes_runSteps (fun _ hg => List.mem_singleton.1 hg ▸ hf) s

theorem becomes_handle (folder : Entry) (type : NotificationType) (n : NotificationData)
    (s : Site σ) : s.Becomes (s.handle p o folder type n).1 := by
  cases type with
  | connectionRequest => exact becomes_onConnectionRequest folder n.sourceId s
  | newTransfer =>
      refine becomes_runSteps_single (fun s t h => ?_) s
      obtain ⟨g, -, hcreate⟩ := bind_eq_ok.1 h
      exact becomes_createSession hcreate
  | transferMetadata => exact becomes_runSteps_single (fun _ _ => becomes_onTransferMetadata) s
  | startTransfer | pauseTransfer | resumeTransfer | cancelTransfer =>
      exact becomes_runSteps_single
        (fun _ _ => becomes_onSession (OpenSession.keepsId_command _ _)) s
  | updateRequest =>
      exact becomes_runSteps_single (fun _ _ => becomes_onSession (OpenSession.keepsId_update _)) s
  | groupMetadata | transferError => exact .refl s

theorem sessionId_tellClients (c : TransferClient σ) (transferId : String) (l : List String)
    (q : World × TransferSession) :
    (l.foldl (tellClient p c transferId) q).2.sessionId = q.2.sessionId := by
  induction l generalizing q with
  | nil => rfl
  | cons client l ih => exact ih (tellClient p c transferId q client)

theorem becomes_tellClients (a : NewTransfer) (s : Site σ) : s.Becomes (s.tellClients p a) := by
  rw [tellClients]
  cases hlast : s.client.sessions.getLast? with
  | none => exact .refl s
  | some last =>
      obtain ⟨l, hl⟩ := List.getLast?_eq_some_iff.1 hlast
      have hid := sessionId_tellClients (p := p) s.client a.transferId a.destClients
        (s.world, last.session)
      dsimp only
      generalize a.destClients.foldl (tellClient p s.client a.transferId) (s.world, last.session) =
        q at hid ⊢
      have hi : s.client.sessions[l.length]? = some last := by simp [hl]
      have hset : s.client.sessions.set l.length ⟨q.2, last.interface⟩ =
          s.client.sessions.dropLast ++ [⟨q.2, last.interface⟩] := by simp [hl]
      have halters : s.Alters ⟨{ s.client with
          sessions := s.client.sessions.set l.length ⟨q.2, last.interface⟩ }, q.1⟩ :=
        .changed q.1 hi hid
      rw [hset] at halters
      exact halters.becomes

theorem becomes_launch (a : NewTransfer) (id : String) (g : GroupMetadata TransferMetadata)
    (s : Site σ) : s.Becomes (s.launch p o a id g).1 := by
  have htell := becomes_of_client (client_tellBookkeepers (p := p) id g s)
  rw [launch]
  generalize s.tellBookkeepers p id g = s' at htell ⊢
  cases hcreate : s'.createSession p o g .uploader id
    (appendPath s'.client.listeningDir a.transferId) s'.client.listeningIp a.destClients with
  | error f => exact htell
  | ok t => exact htell.trans ((becomes_createSession hcreate).trans (becomes_tellClients a t))

theorem becomes_createNewTransfer (a : NewTransfer) (s : Site σ) :
    s.Becomes (s.createNewTransfer p o a).1 := by
  rw [createNewTransfer]
  generalize s.client.generateSessionId a.transferId "" = id
  split_ifs
  · exact .refl s
  · cases stringToProtocols a.protocol with
    | none => exact .refl s
    | some protocol =>
        dsimp only
        cases s.transferGroup p o a id protocol with
        | error f => exact .refl s
        | ok g =>
            dsimp only
            split_ifs
            · exact .refl s
            · exact becomes_launch a id g s

/-- **Every call is a chain of changes.** -/
theorem becomes_step {s t : Site σ} {c : Call σ} (h : step p s c = some t) : s.Becomes t := by
  rw [step] at h
  split_ifs at h
  cases h
  cases c with
  | createNewTransfer o a => exact becomes_createNewTransfer a s
  | scanAvailableFiles o nested folder previousScan =>
      exact becomes_visits (folder.visits nested) (s, previousScan)
  | receive o folder n =>
      rw [fst_call_receive, fst_actionOnReceiveNotification]
      split_ifs
      · exact .refl s
      · cases stringToNotification n.notification with
        | none => exact .refl s
        | some type => exact becomes_handle folder type n s

end Site

end Transfer
end SNBModules
