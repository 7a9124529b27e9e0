import SNBModules.Lib.Network
import SNBModules.Transfer.CommandEffect
import SNBModules.Transfer.Handshake

/-!
# Clients in a network

Source: `notification_interface.cpp`, `send_notification` and `listen_for_notification`;
`transfer_client.cpp`, `create_new_transfer`, the commands and
`action_on_receive_notification`.

Every client listens on a connection of its own, and reads what came on it in its order.
What a call sends is what its world has recorded; a call of `send_notification` ends with
the try that goes through, so it brings one message, or none (`World.sentSince`).

Most of what a client does sends messages to bookkeepers alone.  If no bookkeeper is
reached on the connection of a client (`Apart`), such a call sends nothing to a client
(`silent_of_tellsBookkeepers`).
-/

namespace SNBModules
namespace Transfer

open Lib

variable {σ ι : Type}

/-! ## The network -/

/-- What has come through since the world was `w`: the connection and the message. -/
def World.sentSince (w w' : World) : List (String × NotificationData) :=
  (w'.sends.drop w.sends.length).filterMap fun attempts =>
    (attempts.find? Attempt.ok).map fun a => (a.conn, a.notif)

/-- What a client runs with, and the connection that it listens on. -/
structure Setup (σ : Type) where
  platform : Platform σ
  outside : Outside σ
  folder : Entry
  conn : String

/-- What a client is told to do from outside: to create a transfer, or a command to a
transfer, with the path of a file if it is for one. -/
inductive Order where
  | create (a : NewTransfer)
  | command (c : Command) (transferId data : String)

namespace Site

/-- The client after an order. -/
def order (x : Setup σ) (s : Site σ) : Order → Option (Site σ)
  | .create a => step x.platform s (.createNewTransfer x.outside a)
  | .command c transferId data =>
      (s.onSession transferId (OpenSession.command x.platform c data)).toOption

/-- The client after it has read a message. -/
def readMessage (x : Setup σ) (n : NotificationData) (s : Site σ) : Option (Site σ) :=
  step x.platform s (.receive x.outside x.folder n)

end Site

/-- The clients of a network. -/
def clientNetwork (setup : ι → Setup σ) :
    Protocol ι (Site σ) String NotificationData Order where
  conn i := (setup i).conn
  act i a s := (s.order (setup i) a).map fun t => (t, s.world.sentSince t.world)
  read i n s := (s.readMessage (setup i) n).map fun t => (t, s.world.sentSince t.world)

/-! ## What is sent -/

/-- Every call that tried the connection has come through. -/
def Through (conn : String) (w w' : World) : Prop :=
  ∀ attempts ∈ w'.sends.drop w.sends.length,
    (∃ a ∈ attempts, a.conn = conn) → attempts.any Attempt.ok = true

/-- Every call that tried the connection of a client has come through. -/
def AllThrough (setup : ι → Setup σ) (w w' : World) : Prop :=
  ∀ attempts ∈ w'.sends.drop w.sends.length,
    (∃ a ∈ attempts, ∃ i, a.conn = (setup i).conn) → attempts.any Attempt.ok = true

/-- What has come through on a connection. -/
def World.cameOn (conn : String) (w w' : World) : List NotificationData :=
  ((w.sentSince w').filter fun m => m.1 = conn).map Prod.snd

/-- No bookkeeper is reached on the connection of a client. -/
def Apart (setup : ι → Setup σ) (ni : NotificationInterface) : Prop :=
  ∀ bk ∈ ni.bookkeepersConn, ∀ i, ni.realConnId bk ≠ (setup i).conn

section Sent

variable {setup : ι → Setup σ} {ni : NotificationInterface} {w w' : World}

theorem drop_of_append {w w' : World} {calls : List (List Attempt)}
    (h : w'.sends = w.sends ++ calls) : w'.sends.drop w.sends.length = calls := by
  rw [h, List.drop_left]

/-- A message that has come through is one of those that were sent. -/
theorem mem_sentSince {l : List (String × NotificationData)} (hposts : ni.Posts w l w')
    {m : String × NotificationData} (hm : m ∈ w.sentSince w') :
    ∃ m' ∈ l, m = (ni.realConnId m'.1, m'.2) := by
  obtain ⟨calls, hsends, hcalls⟩ := hposts
  rw [World.sentSince, drop_of_append hsends, List.mem_filterMap] at hm
  obtain ⟨attempts, hmem, hm⟩ := hm
  obtain ⟨a, ha, rfl⟩ := Option.map_eq_some_iff.1 hm
  obtain ⟨m', hm', -, hall⟩ := forall₂_exists_left hcalls.flip hmem
  obtain ⟨hconn, hnotif⟩ := hall a (List.mem_of_find?_eq_some ha)
  exact ⟨m', hm', by rw [hconn, hnotif]⟩

/-- **Messages to bookkeepers** come to no client. -/
theorem silent_of_tellsBookkeepers (hapart : Apart setup ni)
    (h : Site.TellsBookkeepers ni w w') :
    (clientNetwork setup).Silent (w.sentSince w') := by
  obtain ⟨l, hposts, hall⟩ := h
  intro j
  rw [Protocol.arrivals, List.map_eq_nil_iff, List.filter_eq_nil_iff]
  intro m hm
  obtain ⟨m', hm', rfl⟩ := mem_sentSince hposts hm
  rw [decide_eq_true_iff]
  exact hapart m'.1 (hall m' hm') j

/-- **What comes through on a connection** of messages that all came through: those that were
sent on it. -/
theorem cameOn_of_posts {conn : String} {l : List (String × NotificationData)}
    (hposts : ni.Posts w l w') (hthrough : Through conn w w') :
    w.cameOn conn w' = (l.filter fun m => ni.realConnId m.1 = conn).map Prod.snd := by
  obtain ⟨calls, hsends, hcalls⟩ := hposts
  rw [Through, drop_of_append hsends] at hthrough
  rw [World.cameOn, World.sentSince, drop_of_append hsends]
  clear hsends
  induction hcalls with
  | nil => rfl
  | @cons attempts m calls l hcall hcalls ih =>
      obtain ⟨hne, hall⟩ := hcall
      have hrest := ih fun b hb => hthrough b (List.mem_cons_of_mem _ hb)
      rw [List.filterMap_cons]
      cases hfind : attempts.find? Attempt.ok with
      | some a =>
          obtain ⟨hconn, hnotif⟩ := hall a (List.mem_of_find?_eq_some hfind)
          simp only [Option.map_some, hconn, hnotif, List.filter_cons]
          by_cases hi : ni.realConnId m.1 = conn
          · simpa [hi] using hrest
          · simpa [hi] using hrest
      | none =>
          -- the call came through nowhere, so it was not for the connection
          have hlost : attempts.any Attempt.ok = false := by
            rw [List.any_eq_false]
            exact fun a ha => List.find?_eq_none.1 hfind a ha
          have hi : ni.realConnId m.1 ≠ conn := by
            intro hi
            obtain ⟨a, ha⟩ := List.exists_mem_of_ne_nil attempts hne
            have hok := hthrough attempts List.mem_cons_self ⟨a, ha, (hall a ha).1.trans hi⟩
            rw [hlost] at hok
            cases hok
          simpa [hi] using hrest

/-- What comes to a client, if all of it has come through. -/
theorem arrivals_of_posts {l : List (String × NotificationData)} (hposts : ni.Posts w l w')
    (hthrough : AllThrough setup w w') (i : ι) :
    (clientNetwork setup).arrivals i (w.sentSince w') =
      (l.filter fun m => ni.realConnId m.1 = (setup i).conn).map Prod.snd := by
  refine cameOn_of_posts hposts fun attempts hattempts htried => ?_
  obtain ⟨a, ha, hconn⟩ := htried
  exact hthrough attempts hattempts ⟨a, ha, i, hconn⟩

end Sent

/-! ## What a session sends -/

/-- What a session without targets sends in an operation goes to bookkeepers. -/
theorem tells_fileOperation {s : TransferSession} (hs : s.targetClients = []) (env : Env)
    (dump : Json → String) (allowed : Status → Bool) (target : Status)
    (op : σ → TransferMetadata → σ × TransferMetadata × Bool) (notice : Option NotificationType)
    (isMultiple : Bool) (h : Host σ) (m : TransferMetadata) :
    Site.TellsBookkeepers s.connections h.world
      (s.fileOperation env dump allowed target op notice isMultiple h m).1.world := by
  have hnobody : ∀ type data w, (s.sendNotificationToTargets env type data w).1 = w := by
    intro type data w
    rw [TransferSession.sendNotificationToTargets, hs]
    rfl
  by_cases hm : allowed m.status = true
  · rw [TransferSession.fileOperation, if_pos hm]
    dsimp only
    generalize op h.interface (m.setStatus (h.world.now env) target) = q
    -- the clock is read once more when the interface has failed
    have htick : (if q.2.2 then h.world.tick else h.world.tick.tick).sends = h.world.sends := by
      split_ifs <;> rfl
    cases isMultiple with
    | true =>
        rw [if_pos rfl]
        exact (Site.TellsBookkeepers.refl s.connections h.world).congr rfl htick
    | false =>
        rw [if_neg Bool.false_ne_true]
        refine (Site.tellsBookkeepers_updateMetadata s env dump _ _).congr ?_ rfl
        cases notice with
        | none => exact htick.symm
        | some type => exact (congrArg World.sends (hnobody type _ _)).trans htick |>.symm
  · rw [fileOperation_of_refused s env dump hm]
    exact .refl _ _

/-- What a session without targets sends in a group command goes to bookkeepers. -/
theorem tells_run {s : TransferSession} (hs : s.targetClients = []) (g : GroupCommand)
    (interface : TransferInterface σ) (env : Env) (dump : Json → String) (h : Host σ) :
    Site.TellsBookkeepers s.connections h.world (g.run s interface env dump h).1.world ∧
      ∃ files, (g.run s interface env dump h).2.1 = s.withFiles files := by
  have hnobody : ∀ type (h : Host σ), s.tellTargets env type h = h := by
    intro type h
    rw [TransferSession.tellTargets, TransferSession.sendNotificationToTargets, hs]
    rfl
  have hloop : ∀ op : Bool → Host σ → TransferMetadata → Host σ × TransferMetadata × Bool,
      (∀ h m, Site.TellsBookkeepers s.connections h.world (op true h m).1.world) →
      Site.TellsBookkeepers s.connections h.world
          (s.reportAll env dump (andEach (op true) true h s.files)).1.world ∧
        ∃ files, (s.reportAll env dump (andEach (op true) true h s.files)).2.1 =
          s.withFiles files := by
    intro op hop
    obtain ⟨-, -, htells, hfiles⟩ := reportAll_spec s env dump (andEach (op true) true h s.files)
    refine ⟨Site.TellsBookkeepers.trans ?_ htells, hfiles⟩
    exact andEach_rel (R := fun h _ h' => Site.TellsBookkeepers s.connections h.world h'.world)
      (fun _ => .refl _ _) (fun _ _ _ _ => .trans) hop h s.files
  cases g with
  | pause =>
      rw [GroupCommand.run, TransferSession.pauseAll, hnobody]
      exact hloop _ fun h m => tells_fileOperation hs env dump _ _ _ _ true h m
  | resume =>
      simp only [GroupCommand.run, TransferSession.resumeAll, hnobody]
      exact hloop _ fun h m => tells_fileOperation hs env dump _ _ _ _ true h m
  | cancel =>
      simp only [GroupCommand.run, TransferSession.cancelAll, hnobody]
      exact hloop _ fun h m => tells_fileOperation hs env dump _ _ _ _ true h m
  | upload =>
      simp only [GroupCommand.run, TransferSession.uploadAll, hnobody]
      exact hloop _ fun h m => tells_fileOperation hs env dump _ _ _ _ true h m
  | download dest =>
      exact hloop _ fun h m => tells_fileOperation hs env dump _ _ _ _ true h m

namespace OpenSession

variable {p : Platform σ}

/-- A call that reports to bookkeepers and tells nobody else. -/
def Reports (f : OpenSession σ → World → Except Fault (OpenSession σ × World))
    (s : OpenSession σ) : Prop :=
  ∀ w t w', f s w = .ok (t, w') →
    s.Like t ∧ Site.TellsBookkeepers s.session.connections w w'

theorem after_eq_ok {s : TransferSession} {h : Host (Handle σ)} {t : OpenSession σ} {w : World}
    (ht : after s h = .ok (t, w)) : t.session = s ∧ w = h.world := by
  refine ⟨after_session ht, ?_⟩
  rw [after] at ht
  cases hh : h.interface with
  | crashed =>
      simp only [hh] at ht
      cases ht
  | _ =>
      simp only [hh] at ht
      cases ht
      rfl

theorem reports_command {s : OpenSession σ} (hs : s.session.targetClients = []) (c : Command)
    (data : String) : Reports (command p c data) s := by
  intro w t w' h
  rw [command] at h
  split_ifs at h with hdata
  · rw [commandAll_eq] at h
    obtain ⟨hsession, rfl⟩ := after_eq_ok h
    obtain ⟨htells, files, hfiles⟩ := tells_run hs (groupCommand c s.session)
      p.interface.throughHandle p.env p.dump ⟨w, s.handle⟩
    exact ⟨⟨s.session.transferOptions.setTransfersMeta files, hsession.trans hfiles, rfl⟩, htells⟩
  · obtain ⟨i, -, h⟩ := bind_eq_ok.1 h
    cases hi : s.session.files[i]? with
    | none =>
        simp only [commandAt, hi] at h
        cases h
    | some m =>
        rw [commandAt_eq c hi] at h
        obtain ⟨hsession, rfl⟩ := after_eq_ok h
        refine ⟨⟨_, hsession, rfl⟩, ?_⟩
        exact tells_fileOperation hs p.env p.dump _ _ _ _ false ⟨w, s.handle⟩ m

theorem reports_updateAt (i : ℕ) (s : OpenSession σ) : Reports (updateAt p i) s := by
  intro w t w' h
  rw [updateAt] at h
  cases hi : s.session.files[i]? with
  | none =>
      simp only [hi] at h
      cases h
  | some m =>
      simp only [hi] at h
      cases h
      exact ⟨s.like_withFiles _ _, Site.tellsBookkeepers_updateMetadata s.session p.env p.dump w m⟩

theorem reports_update (data : String) (s : OpenSession σ) : Reports (update p data) s := by
  intro w t w' h
  rw [update] at h
  split_ifs at h
  · cases h
    exact ⟨s.like_withFiles _ _, Site.tellsBookkeepers_updateMetadatas s.session p.env p.dump w⟩
  · obtain ⟨i, -, h⟩ := bind_eq_ok.1 h
    exact reports_updateAt i s w t w' h

theorem reports_addFile (m : TransferMetadata) (s : OpenSession σ) : Reports (addFile p m) s := by
  intro w t w' h
  rw [addFile, bind_eq_ok] at h
  obtain ⟨q, hq, h⟩ := h
  obtain ⟨hlike, htells⟩ := reports_updateAt q.2 _ w t w' h
  refine ⟨Like.trans ⟨q.1, rfl, ?_⟩ hlike, htells⟩
  rw [GroupMetadata.addNewFile] at hq
  split_ifs at hq <;> cases hq <;> rfl

theorem reports_receiveFile (m : TransferMetadata) (s : OpenSession σ) :
    Reports (receiveFile p m) s := by
  intro w t w' h
  rw [receiveFile, bind_eq_ok] at h
  obtain ⟨m', -, h⟩ := h
  exact reports_addFile m' s w t w' h

end OpenSession

/-! ## What a client sends -/

namespace Site

variable {p : Platform σ} {o : Outside σ} {setup : ι → Setup σ}

/-- No bookkeeper of the client or of a session is reached on the connection of a client. -/
def Apart (setup : ι → Setup σ) (s : Site σ) : Prop :=
  Transfer.Apart setup s.client.connections ∧
    ∀ x ∈ s.client.sessions, Transfer.Apart setup x.session.connections

/-- The sessions are as before but for their records, and there may be more, which tell
nobody. -/
structure Grows (s t : Site σ) : Prop where
  client_eq : t.client = { s.client with sessions := t.client.sessions }
  sessions_eq : ∃ old new, t.client.sessions = old ++ new ∧
    List.Forall₂ OpenSession.Like s.client.sessions old ∧
    ∀ x ∈ new, x.session.targetClients = [] ∧ x.session.connections = s.client.connections

/-- A call that sends nothing to a client. -/
def Quiet (setup : ι → Setup σ) (s t : Site σ) : Prop :=
  s.Grows t ∧ (s.Apart setup → (clientNetwork setup).Silent (s.world.sentSince t.world))

theorem forall₂_like_refl (l : List (OpenSession σ)) : List.Forall₂ OpenSession.Like l l :=
  List.forall₂_same.2 fun x _ => .refl x

theorem sentSince_of_sends {w w' : World} (h : w'.sends = w.sends) : w.sentSince w' = [] := by
  simp [World.sentSince, h]

/-- A call that has changed the clock at most. -/
theorem quiet_of_client {s t : Site σ} (hclient : t.client = s.client)
    (hsends : t.world.sends = s.world.sends) : Quiet setup s t := by
  refine ⟨⟨by rw [hclient], s.client.sessions, [], ?_, forall₂_like_refl _, ?_⟩, fun _ j => ?_⟩
  · rw [hclient, List.append_nil]
  · intro x hx
    cases hx
  · rw [sentSince_of_sends hsends]
    rfl

/-- Apart from bookkeepers before, apart after. -/
theorem Grows.apart {s t : Site σ} (h : s.Grows t) (hs : s.Apart setup) : t.Apart setup := by
  obtain ⟨hclient, old, new, hsessions, hold, hnew⟩ := h
  refine ⟨by rw [hclient]; exact hs.1, fun x hx => ?_⟩
  rw [hsessions] at hx
  rcases List.mem_append.1 hx with hx | hx
  · obtain ⟨y, hy, g, hg, -⟩ := forall₂_exists_left hold hx
    rw [hg]
    exact hs.2 y hy
  · rw [(hnew x hx).2]
    exact hs.1

/-- Sessions without targets stay so. -/
theorem Grows.noTargets {s t : Site σ} (h : s.Grows t)
    (hs : ∀ x ∈ s.client.sessions, x.session.targetClients = []) :
    ∀ x ∈ t.client.sessions, x.session.targetClients = [] := by
  obtain ⟨-, old, new, hsessions, hold, hnew⟩ := h
  intro x hx
  rw [hsessions] at hx
  rcases List.mem_append.1 hx with hx | hx
  · obtain ⟨y, hy, g, hg, -⟩ := forall₂_exists_left hold hx
    rw [hg]
    exact hs y hy
  · exact (hnew x hx).1

/-- A session that is there is still there, like it was. -/
theorem Grows.like {s t : Site σ} (h : s.Grows t) {i : ℕ} {x : OpenSession σ}
    (hi : s.client.sessions[i]? = some x) : ∃ y, t.client.sessions[i]? = some y ∧ x.Like y := by
  obtain ⟨-, old, new, hsessions, hold, -⟩ := h
  obtain ⟨hlt, rfl⟩ := List.getElem?_eq_some_iff.1 hi
  have hlt' : i < old.length := hold.length_eq ▸ hlt
  refine ⟨old[i], ?_, hold.get hlt hlt'⟩
  rw [hsessions, List.getElem?_append_left hlt', List.getElem?_eq_getElem hlt']

/-- **A call of a session** that reports to bookkeepers alone. -/
theorem atSession_quiet {i : ℕ} {f : OpenSession σ → World → Except Fault (OpenSession σ × World)}
    {s t : Site σ} (hf : ∀ x, s.client.sessions[i]? = some x → OpenSession.Reports f x)
    (h : s.atSession i f = .ok t) : Quiet setup s t := by
  rcases atSession_eq_ok h with rfl | ⟨x, x', w, hi, hx, rfl⟩
  · exact quiet_of_client rfl rfl
  · obtain ⟨hlike, htells⟩ := hf x hi _ _ _ hx
    refine ⟨⟨rfl, s.client.sessions.set i x', [], (List.append_nil _).symm, ?_, ?_⟩, fun hs => ?_⟩
    · refine List.forall₂_iff_get.2 ⟨by simp, fun j hj hj' => ?_⟩
      simp only [List.get_eq_getElem, List.getElem_set]
      split_ifs with hij
      · subst hij
        obtain ⟨_, rfl⟩ := List.getElem?_eq_some_iff.1 hi
        exact hlike
      · exact .refl _
    · intro y hy
      cases hy
    · exact silent_of_tellsBookkeepers (hs.2 x (List.mem_of_getElem? hi)) htells

/-- What the clock shows plays no part. -/
theorem Quiet.of_tick {s t : Site σ} (h : Quiet setup s.tick t) : Quiet setup s t :=
  ⟨⟨h.1.client_eq, h.1.sessions_eq⟩, h.2⟩

theorem quiet_onNewTransfer {targetId data : String} {s t : Site σ}
    (h : onNewTransfer p o targetId data s = .ok t) : Quiet setup s t := by
  obtain ⟨g, -, h⟩ := bind_eq_ok.1 h
  cases hsetup : (s.newSession g (s.typeFor g.expectedFiles) targetId
      (appendPath s.client.listeningDir g.groupId) .default).setup p.cwd o with
  | error f =>
      rw [createSession, construct_of_setup_error hsetup] at h
      cases h
  | ok q =>
      obtain ⟨t', files, hcreate, hclient, -, htells, -⟩ := createSession_of_setup_ok hsetup []
      obtain rfl := Except.ok.inj (h.symm.trans hcreate)
      refine ⟨⟨by rw [hclient], s.client.sessions, _, by rw [hclient], forall₂_like_refl _,
        fun x hx => ?_⟩, fun hs => silent_of_tellsBookkeepers hs.1 htells⟩
      rw [List.mem_singleton.1 hx]
      exact ⟨rfl, rfl⟩

theorem quiet_onTransferMetadata {targetId data : String} {s t : Site σ}
    (h : onTransferMetadata p targetId data s = .ok t) : Quiet setup s t := by
  obtain ⟨m, -, h⟩ := bind_eq_ok.1 h
  refine Quiet.of_tick ?_
  dsimp only at h
  cases hi : s.tick.sessionFor targetId with
  | none =>
      simp only [hi] at h
      cases h
      exact quiet_of_client rfl rfl
  | some i =>
      simp only [hi] at h
      exact atSession_quiet (fun x _ => OpenSession.reports_receiveFile m x) h

theorem quiet_onSession {targetId : String}
    {f : OpenSession σ → World → Except Fault (OpenSession σ × World)} {s t : Site σ}
    (hf : ∀ i x, s.client.getSession targetId = some i → s.client.sessions[i]? = some x →
      OpenSession.Reports f x)
    (h : onSession targetId f s = .ok t) : Quiet setup s t := by
  rw [onSession] at h
  cases hi : s.client.getSession targetId with
  | none =>
      simp only [hi] at h
      cases h
      exact quiet_of_client rfl rfl
  | some i =>
      simp only [hi] at h
      exact atSession_quiet (hf i · hi) h

end Site

end Transfer
end SNBModules
