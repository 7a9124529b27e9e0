import SNBModules.Transfer.NetworkAgreement

/-!
# Messages that bring messages

Source: `transfer_client.cpp`, `create_new_transfer` and `action_on_receive_notification`;
`transfer_session.cpp`, `send_notification_to_targets` and the group commands.

What a client reads makes it send to other clients in two cases only: it answers a
`CONNECTION_REQUEST`, and a session with targets passes a command on.  Only
`create_new_transfer` makes a session with targets.  So clients that have created nothing
read what waits for them and are done, whatever it is (`quiet_network`).

A client may be among the destinations of its own transfer.  The name that it then tells
itself is that of the session of the uploader, so a command that it has passed on comes back
and is passed on again, and so on for ever (`command_returns`).
-/

namespace SNBModules
namespace Transfer

open Lib

variable {σ ι : Type}

namespace Site

variable {p : Platform σ} {o : Outside σ} {setup : ι → Setup σ}

/-! ## Clients without targets -/

/-- No session of the client tells anybody. -/
def NoTargets (s : Site σ) : Prop := ∀ x ∈ s.client.sessions, x.session.targetClients = []

theorem quiet_refl (s : Site σ) : Quiet setup s s := quiet_of_client rfl rfl

/-- A single step, whether it throws or not. -/
theorem quiet_runSteps_single {f : Site σ → Except Fault (Site σ)} {s : Site σ}
    (hf : ∀ t, f s = .ok t → Quiet setup s t) : Quiet setup s (runSteps [f] s).1 := by
  cases h : f s with
  | ok t =>
      rw [runSteps_cons_ok h]
      exact hf t h
  | error e =>
      rw [runSteps_cons_error h]
      exact quiet_refl s

/-- **What a client without targets reads** makes it send nothing to a client, unless it is
a `CONNECTION_REQUEST`. -/
theorem quiet_handle {s : Site σ} (hs : s.NoTargets) (folder : Entry) {type : NotificationType}
    (htype : type ≠ .connectionRequest) (n : NotificationData) :
    Quiet setup s (s.handle p o folder type n).1 := by
  have hcommand : ∀ c, Quiet setup s
      (runSteps [onSession n.targetId (OpenSession.command p c n.data)] s).1 := fun c =>
    quiet_runSteps_single fun _ => quiet_onSession fun _ x _ hx =>
      OpenSession.reports_command (hs x (List.mem_of_getElem? hx)) c n.data
  cases type with
  | connectionRequest => exact absurd rfl htype
  | newTransfer => exact quiet_runSteps_single fun _ => quiet_onNewTransfer
  | transferMetadata => exact quiet_runSteps_single fun _ => quiet_onTransferMetadata
  | startTransfer => exact hcommand .start
  | pauseTransfer => exact hcommand .pause
  | resumeTransfer => exact hcommand .resume
  | cancelTransfer => exact hcommand .cancel
  | updateRequest =>
      exact quiet_runSteps_single fun _ => quiet_onSession fun _ x _ _ =>
        OpenSession.reports_update n.data x
  | groupMetadata | transferError => exact quiet_refl s

theorem quiet_readMessage {x : Setup σ} {n : NotificationData} {s t : Site σ} (hs : s.NoTargets)
    (hn : stringToNotification n.notification ≠ some .connectionRequest)
    (h : s.readMessage x n = some t) : Quiet setup s t := by
  have hread : t = (s.actionOnReceiveNotification x.platform x.outside x.folder n).1 := by
    rw [readMessage, step] at h
    split_ifs at h
    rw [← fst_call_receive (p := x.platform) x.outside x.folder n s]
    exact (Option.some.inj h).symm
  rw [hread, fst_actionOnReceiveNotification]
  split_ifs
  · exact quiet_refl s
  · cases htype : stringToNotification n.notification with
    | none => exact quiet_refl s
    | some type =>
        refine quiet_handle hs x.folder ?_ n
        rintro rfl
        exact hn htype

/-- **A network of clients that have created nothing:** whatever waits for them, valid or
not, a run of deliveries takes it message by message, and nothing is sent to a client. -/
theorem quiet_network [DecidableEq ι] {N N' : ι → Inbox (Site σ) NotificationData}
    (htargets : ∀ i, (N i).state.NoTargets) (hapart : ∀ i, (N i).state.Apart setup)
    (hwaiting : ∀ i, ∀ n ∈ (N i).waiting,
      stringToNotification n.notification ≠ some .connectionRequest) {l : List ι}
    (hrun : exec (clientNetwork setup).step N (l.map .deliver) = some N') (i : ι) :
    (N' i).waiting = (N i).waiting.drop (l.count i) ∧ l.count i ≤ (N i).waiting.length ∧
      (N' i).state.NoTargets ∧ (N' i).state.Apart setup := by
  have hmute : Protocol.Mute (clientNetwork setup)
      (fun s => s.NoTargets ∧ s.Apart setup)
      (fun n => stringToNotification n.notification ≠ some .connectionRequest) := by
    rintro j s n t out ⟨hs, ha⟩ hn hread
    obtain ⟨t', ht, hout⟩ := Option.map_eq_some_iff.1 hread
    cases hout
    have hquiet : Quiet setup s t := quiet_readMessage hs hn ht
    exact ⟨hquiet.2 ha, hquiet.1.noTargets hs, hquiet.1.apart ha⟩
  obtain ⟨⟨hs, ha⟩, hdrop, hle⟩ :=
    hmute.deliveries (fun i => ⟨htargets i, hapart i⟩) hwaiting hrun i
  exact ⟨hdrop, hle, hs, ha⟩

/-- A client that has created nothing, with the messages of a creation in its inbox. -/
def quietPair (i : Bool) : Inbox (Site Unit) NotificationData :=
  ⟨(pairNetwork i).state, if i then (pairLaunched true).waiting else []⟩

theorem quiet_network_pair :
    ∃ M, exec (clientNetwork pairSetup).step quietPair ([true, true].map .deliver) = some M ∧
      (M false).waiting = [] ∧ (M true).waiting = [] := by
  have hfacts : ((pairLaunched true).waiting.length = 2 ∧ (exec (clientNetwork pairSetup).step
      quietPair ([true, true].map .deliver)).isSome = true) ∧
      ((pairLaunched true).waiting.all fun n =>
        decide (stringToNotification n.notification ≠ some .connectionRequest)) = true := by
    decide +kernel
  obtain ⟨⟨hlength, hsome⟩, hcreation⟩ := hfacts
  obtain ⟨M, hM⟩ := Option.isSome_iff_exists.1 hsome
  have hnone : ∀ i, ∀ x, x ∉ (quietPair i).state.client.sessions := by
    intro i x hx
    cases i <;> cases hx
  have hwaiting : ∀ i, ∀ n ∈ (quietPair i).waiting,
      stringToNotification n.notification ≠ some .connectionRequest := by
    intro i n hn
    cases i with
    | false => cases hn
    | true => exact of_decide_eq_true (List.all_eq_true.1 hcreation n hn)
  have hapart : ∀ i, (quietPair i).state.Apart pairSetup :=
    fun i => ⟨apart_pair i, fun x hx => absurd hx (hnone i x)⟩
  have hquiet := quiet_network (N := quietPair) (fun i x hx => absurd hx (hnone i x)) hapart
    hwaiting hM
  exact ⟨M, hM, (hquiet false).1.trans rfl,
    (hquiet true).1.trans (List.drop_eq_nil_of_le hlength.le)⟩

/-! ## A client that tells itself -/

/-- The client has the session of the uploader, under the id that it would tell itself, and
is one of its own targets; each target is reached on the connection of the client with that
id, and on no other. -/
structure TellsItself (setup : ι → Setup σ) (clientId : ι → String) (up : ι)
    (targets : List String) (groupId : String) (s : Site σ) : Prop where
  clientId_eq : s.client.clientId = clientId up
  mem : clientId up ∈ targets
  nodup : targets.Nodup
  session : ∃ k x, s.client.getSession (clientId up ++ "_ses" ++ groupId) = some k ∧
    s.client.sessions[k]? = some x ∧ x.interface.isSome = true ∧ x.session.fileStates ≠ [] ∧
    x.session.type = .uploader ∧ x.session.targetClients = targets ∧
    x.session.transferOptions.groupId = groupId ∧
    Transfer.Apart setup x.session.connections ∧
    ∀ d ∈ targets, ∀ i, x.session.connections.realConnId d = (setup i).conn ↔ d = clientId i

section Storm

variable {clientId : ι → String} {up : ι} {targets : List String} {groupId : String}

/-- A sweep over what a sweep has left changes nothing: it ends at the first file. -/
theorem sweep_sweep {β : Type} {q : β → Bool} {k : β → β} (hk : ∀ b, q (k b) = false) (l : List β) :
    sweep q k (sweep q k l) = sweep q k l := by
  cases l with
  | nil => rfl
  | cons b l =>
      cases hb : q b with
      | true => simp [sweep_cons, hb, hk]
      | false => simp [sweep_cons, hb]

/-- **A command that comes back** is carried out, and sent to each of the targets again. -/
theorem TellsItself.read (hI : (setup up).platform.interface.Obedient) {s : Site σ}
    (h : TellsItself setup clientId up targets groupId s) (src : String) (c : Command) :
    ∃ t src', s.readMessage (setup up) (commandMessage src (clientId up) groupId c "") = some t ∧
      TellsItself setup clientId up targets groupId t ∧
      t.statesOf (clientId up ++ "_ses" ++ groupId) =
        (s.statesOf (clientId up ++ "_ses" ++ groupId)).map
          ((c.group .uploader).effect .uploader "") ∧
      (AllThrough setup s.world t.world → ∀ i,
        (clientNetwork setup).arrivals i (s.world.sentSince t.world) =
          if clientId i ∈ targets then [commandMessage src' (clientId i) groupId c ""] else []) := by
  obtain ⟨hclient, hmem, hnodup, k, x, hget, hk, hx, hne, htype, rfl, rfl, hapart, hconn⟩ := h
  obtain ⟨y, w, hat, hlike, hy, hstates, htells⟩ := atSession_command hI c "" hk hx hne
  obtain ⟨t, ht⟩ : ∃ t : Site σ, t = ⟨{ s.client with sessions := s.client.sessions.set k y }, w⟩ :=
    ⟨_, rfl⟩
  rw [← ht] at hat
  have hsession : onSession (clientId up ++ "_ses" ++ x.session.transferOptions.groupId)
      (OpenSession.command (setup up).platform c "") s = .ok t := by
    rw [onSession, hget]
    exact hat
  obtain ⟨g, hg, hgroup⟩ := hlike
  have hids := ids_onSession (OpenSession.keepsId_command c "") hsession
  have hget' : t.client.getSession (clientId up ++ "_ses" ++ x.session.transferOptions.groupId) =
      some k := by rw [getSession_congr (by rw [ht]) hids, hget]
  have hk' : t.client.sessions[k]? = some y := by
    rw [ht]
    exact List.getElem?_set_self (List.getElem?_eq_some_iff.1 hk).1
  rw [htype] at hstates
  rw [c.groupCommand_of_uploader htype, c.notice_group, GroupCommand.told, if_pos rfl] at htells
  refine ⟨t, x.session.sessionId, readMessage_command hclient hsession, ?_, ?_,
    fun hthrough i => ?_⟩
  · refine ⟨by rw [ht]; exact hclient, hmem, hnodup, k, y, hget', hk', hy, ?_, ?_, ?_, ?_, ?_, ?_⟩
    · rw [hstates]
      exact GroupCommand.effect_ne_nil hne
    all_goals rw [hg]
    · exact htype
    · exact hgroup
    · exact hapart
    · exact hconn
  · rw [statesOf, statesOf, found_of_getSession hget hk, found_of_getSession hget' hk',
      Option.map_some, Option.map_some, Option.map_some, hstates]
  · have htold : x.session.Tells (some c.notification) [""] s.world t.world := by
      rw [ht]
      exact htells
    refine arrivals_of_tells_of_iff hnodup (fun d hd => ?_) id hapart htold hthrough
    rw [hconn d hd i]
    exact ⟨fun h => ⟨h ▸ hd, h⟩, And.right⟩

/-- A command to all files, given again, changes nothing. -/
theorem effect_effect (g : GroupCommand) (type : SessionType) (l : List FileState) :
    g.effect type "" (g.effect type "" l) = g.effect type "" l :=
  sweep_sweep (k := g.mark type) (fun _ => g.allowed_target type) l

/-- What the client with the id has in its inbox after `n` rounds, on top of what it had. -/
def Rounds (clientId : ι → String) (targets : List String) (groupId : String) (c : Command) (n : ℕ)
    (i : ι) (l : List NotificationData) : Prop :=
  l.length = (if clientId i ∈ targets then n else 0) ∧
    ∀ m ∈ l, ∃ src, m = commandMessage src (clientId i) groupId c ""

theorem Rounds.append {c : Command} {n : ℕ} {i : ι} {l : List NotificationData} {src : String}
    (h : Rounds clientId targets groupId c n i l) :
    Rounds clientId targets groupId c (n + 1) i
      ((if clientId i ∈ targets then [commandMessage src (clientId i) groupId c ""] else []) ++ l) := by
  obtain ⟨hlength, hall⟩ := h
  constructor
  · rw [List.length_append, hlength]
    split_ifs
    · exact Nat.add_comm 1 n
    · rfl
  · intro m hm
    rcases List.mem_append.1 hm with hm | hm
    · split_ifs at hm
      · exact ⟨src, List.mem_singleton.1 hm⟩
      · cases hm
    · exact hall m hm

/-- The messages that the step sends to clients come through. -/
def Through [DecidableEq ι] (setup : ι → Setup σ) (up : ι)
    (N : ι → Inbox (Site σ) NotificationData) (e : NetEvent ι Order) : Prop :=
  ∀ N', (clientNetwork setup).step N e = some N' →
    AllThrough setup (N up).state.world (N' up).state.world

/-- **A command comes back for ever.**  A client that tells itself can read the command any
number of times.  Each time the command waits for it again, and one copy more for each of
the other targets, although the files stay as the first time has left them. -/
theorem command_returns [DecidableEq ι] (hI : (setup up).platform.interface.Obedient)
    {N : ι → Inbox (Site σ) NotificationData} {src : String} {c : Command}
    (hself : TellsItself setup clientId up targets groupId (N up).state)
    (hwaiting : (N up).waiting = [commandMessage src (clientId up) groupId c ""]) (n : ℕ)
    (hthrough : Guarded (clientNetwork setup).step (Through setup up) N
      (List.replicate n (.deliver up))) :
    ∃ M, exec (clientNetwork setup).step N (List.replicate n (.deliver up)) = some M ∧
      (∃ src', (M up).waiting = [commandMessage src' (clientId up) groupId c ""]) ∧
      (M up).state.statesOf (clientId up ++ "_ses" ++ groupId) =
        ((N up).state.statesOf (clientId up ++ "_ses" ++ groupId)).map
          (if n = 0 then id else (c.group .uploader).effect .uploader "") ∧
      ∀ i, i ≠ up → (M i).state = (N i).state ∧
        ∃ l, (M i).waiting = (N i).waiting ++ l ∧ Rounds clientId targets groupId c n i l := by
  induction n generalizing N src with
  | zero =>
      refine ⟨N, rfl, ⟨src, hwaiting⟩, ?_, fun i _ => ⟨rfl, [], (List.append_nil _).symm, ?_⟩⟩
      · rw [if_pos rfl, Option.map_id, id]
      · exact ⟨by rw [ite_self]; rfl, fun m hm => by cases hm⟩
  | succ n ih =>
      obtain ⟨t, src₁, hread, hself₁, hstates, harrive⟩ := hself.read hI src c
      have hstep : (clientNetwork setup).step N (.deliver up) =
          some ((clientNetwork setup).put N up t [] ((N up).state.world.sentSince t.world)) := by
        rw [Protocol.step, hwaiting]
        simp only [clientNetwork, hread, Option.map_some]
      rw [List.replicate_succ] at hthrough
      have harrived := harrive (by simpa [Protocol.put] using hthrough.1 _ hstep)
      obtain ⟨N₁, hN₁⟩ : ∃ N₁, N₁ = (clientNetwork setup).put N up t []
          ((N up).state.world.sentSince t.world) := ⟨_, rfl⟩
      rw [← hN₁] at hstep
      have hup : N₁ up = ⟨t, [commandMessage src₁ (clientId up) groupId c ""]⟩ := by
        rw [hN₁, Protocol.put, if_pos rfl, harrived up, if_pos hself.mem, List.nil_append]
      have hother : ∀ i, i ≠ up → N₁ i = ⟨(N i).state, (N i).waiting ++
          if clientId i ∈ targets then [commandMessage src₁ (clientId i) groupId c ""] else []⟩ := by
        intro i hi
        rw [hN₁, Protocol.put, if_neg hi, harrived i]
      obtain ⟨M, hM, hagain, hfiles, hrest⟩ :=
        ih (by rw [hup]; exact hself₁) (by rw [hup]) (hthrough.2 _ hstep)
      refine ⟨M, ?_, hagain, ?_, fun i hi => ?_⟩
      · rw [List.replicate_succ]
        exact exec_cons_eq_some.2 ⟨N₁, hstep, hM⟩
      · rw [hfiles, hup, hstates, Option.map_map, if_neg (Nat.succ_ne_zero n)]
        congr 1
        split_ifs
        · rfl
        · exact funext (effect_effect _ _)
      · obtain ⟨hstate, l, hl, hrounds⟩ := hrest i hi
        rw [hother i hi] at hstate hl
        exact ⟨hstate, _, by rw [hl, List.append_assoc], hrounds.append⟩

end Storm

/-! ### A transfer to oneself -/

/-- A transfer that has its creator among its destinations. -/
def transferToSelf : NewTransfer :=
  ⟨"run1", "dummy", ["client1", "client2"], ["/data/run1.hdf5"], .null⟩

/-- The transfer is created, the creator reads what it has told itself, and the transfer is
started. -/
def stormRun : List (NetEvent Bool Order) :=
  [.order false (.create transferToSelf), .deliver false, .deliver false,
    .order false (.command .start "run1" "")]

/-- The session of the creator tells the creator, and the other client. -/
def stormSession (s : Site Unit) : Bool :=
  match s.client.sessions with
  | [] => false
  | x :: _ =>
      decide (s.client.getSession "client1_sesrun1" = some 0) && x.interface.isSome &&
        decide (x.session.fileStates ≠ [] ∧ x.session.type = .uploader ∧
          x.session.targetClients = ["client1", "client2"] ∧
          x.session.transferOptions.groupId = "run1") &&
        decide (∀ bk ∈ x.session.connections.bookkeepersConn, ∀ i,
          x.session.connections.realConnId bk ≠ (pairSetup i).conn) &&
        decide (∀ d ∈ ["client1", "client2"], ∀ i,
          x.session.connections.realConnId d = (pairSetup i).conn ↔ d = (pairSetup i).conn)

theorem tellsItself_of_stormSession {s : Site Unit} (hid : s.client.clientId = "client1")
    (h : stormSession s = true) :
    TellsItself pairSetup (fun i => (pairSetup i).conn) false ["client1", "client2"] "run1" s := by
  rw [stormSession] at h
  cases hsessions : s.client.sessions with
  | nil => rw [hsessions] at h; cases h
  | cons x l =>
      rw [hsessions] at h
      simp only [Bool.and_eq_true, decide_eq_true_eq] at h
      obtain ⟨⟨⟨⟨hget, hx⟩, hne, htype, htargets, hgroup⟩, hapart⟩, hconn⟩ := h
      exact ⟨hid, by decide, by decide, 0, x, hget, by rw [hsessions]; rfl, hx, hne, htype,
        htargets, hgroup, hapart, hconn⟩

theorem command_returns_self :
    ∃ N M, exec (clientNetwork pairSetup).step pairNetwork stormRun = some N ∧
      exec (clientNetwork pairSetup).step N (List.replicate 2 (.deliver false)) = some M ∧
      (∃ src, (M false).waiting = [commandMessage src "client1" "run1" .start ""]) ∧
      ∃ l, (M true).waiting = (N true).waiting ++ l ∧ l.length = 2 := by
  have hfacts : ((exec (clientNetwork pairSetup).step pairNetwork stormRun).any fun N =>
      decide ((N false).state.client.clientId = "client1") && stormSession (N false).state &&
        decide ((N false).waiting =
          [commandMessage "client1_sesrun1" "client1" "run1" .start ""]) &&
        decide (Always (clientNetwork pairSetup).step (fun N => ∀ attempts ∈
          (N false).state.world.sends, attempts.any Attempt.ok = true) N
            (List.replicate 2 (.deliver false)))) = true := by
    decide +kernel
  obtain ⟨N, hN, hfacts⟩ := (Option.any_eq_true _ _).1 hfacts
  simp only [Bool.and_eq_true, decide_eq_true_eq] at hfacts
  obtain ⟨⟨⟨hid, hsession⟩, hwaiting⟩, halways⟩ := hfacts
  have hguarded : Guarded (clientNetwork pairSetup).step (Through pairSetup false) N
      (List.replicate 2 (.deliver false)) := by
    refine halways.guarded ?_
    intro N e h N' hN' attempts hmem _
    exact h N' hN' attempts (List.mem_of_mem_drop hmem)
  obtain ⟨M, hM, hagain, -, hothers⟩ := command_returns TransferInterface.dummy_obedient
    (tellsItself_of_stormSession hid hsession) hwaiting 2 hguarded
  obtain ⟨-, l, hl, hlength, -⟩ := hothers true (by decide)
  exact ⟨N, M, hN, hM, hagain, l, hl, hlength.trans (if_pos (by decide))⟩

end Site

end Transfer
end SNBModules
