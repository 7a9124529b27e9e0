import SNBModules.Transfer.ReportedCalls

/-!
# A bookkeeper that follows a session

Source: `transfer_session.cpp`, the constructor; `bookkeeper.cpp`,
`action_on_receive_notification`.

The constructor of a session reports all of its records, and every call after it reports what it
has changed.  As long as the sends come through, a bookkeeper that reads them shows one record
for each file of the session, in their order, which follows it (`bookkeeper_follows_session`).
-/

namespace SNBModules
namespace Transfer

open Lib TransferSession

variable {σ : Type}

/-! ## The constructor -/

section Construct

variable {cwd : String} {parse : String → Option Json} {bookkeeperId bk : String}
  {p : Platform σ} {o : Outside σ} {s : TransferSession} {x : OpenSession σ} {w w' : World}

theorem evolves_withTorrents {port : String} {t : TransferSession}
    (h : s.withTorrents o port = .ok t) :
    ∃ files, t = s.withFiles files ∧ List.Forall₂ TransferMetadata.Evolves s.files files := by
  rw [withTorrents] at h
  cases htype : s.type with
  | downloader =>
      simp only [htype] at h
      cases h
      exact ⟨s.files, (withFiles_self s).symm, List.forall₂_same.2 fun m _ => .refl m⟩
  | uploader =>
      simp only [htype, bind_eq_ok] at h
      obtain ⟨-, -, files, hfiles, h⟩ := h
      cases h
      refine ⟨files, rfl, (forall₂_mapM hfiles).imp fun m m' hm => ?_⟩
      obtain ⟨uri, -, hm⟩ := bind_eq_ok.1 hm
      cases hm
      exact TransferMetadata.evolves_apply 0 (.magnetLink _) m

/-- The constructor sets magnet links at most, and goes on to its end when it has made an
interface. -/
theorem evolves_makeInterface {more : Bool} (h : s.makeInterface cwd o = .ok (x, more)) :
    (∃ files, x.session = s.withFiles files ∧
      List.Forall₂ TransferMetadata.Evolves s.files files) ∧
    (x.interface ≠ none → more = true) := by
  have hself : ∃ files, s = s.withFiles files ∧
      List.Forall₂ TransferMetadata.Evolves s.files files :=
    ⟨s.files, (withFiles_self s).symm, List.forall₂_same.2 fun m _ => .refl m⟩
  rw [makeInterface] at h
  cases hprotocol : s.transferOptions.protocol with
  | none =>
      simp only [hprotocol] at h
      cases h
      exact ⟨hself, fun _ => rfl⟩
  | some protocol =>
      simp only [hprotocol] at h
      cases protocol with
      | bittorrent =>
          cases hport : s.transferOptions.protocolOptions.member? "port" with
          | none =>
              simp only [hport] at h
              cases h
              exact ⟨hself, fun hne => absurd rfl hne⟩
          | some port =>
              simp only [hport, bind_eq_ok] at h
              obtain ⟨_, -, _, -, _, -, s', hs', h⟩ := h
              cases h
              exact ⟨evolves_withTorrents (thrown_eq_ok.1 hs'), fun _ => rfl⟩
      | rclone =>
          simp only [bind_eq_ok] at h
          obtain ⟨parameters, -, h⟩ := h
          split_ifs at h
          obtain ⟨_, -, h⟩ := bind_eq_ok.1 h
          cases h
          exact ⟨hself, fun _ => rfl⟩
      | scp =>
          cases huser : s.transferOptions.protocolOptions.member? "user" with
          | none =>
              simp only [huser] at h
              cases h
              exact ⟨hself, fun _ => rfl⟩
          | some user =>
              simp only [huser, bind_eq_ok] at h
              obtain ⟨_, -, _, -, h⟩ := h
              cases h
              exact ⟨hself, fun _ => rfl⟩
      | dummy =>
          cases h
          exact ⟨hself, fun _ => rfl⟩

/-- **The constructor reports all records,** as if they had come to a session without any. -/
theorem reported_construct (hbk : Bookkeeper.Reads p.dump parse bk bookkeeperId)
    (hs : s.Followed bk) (hnew : ∀ m ∈ s.files, m.modifiedFields = Finset.univ)
    (h : s.construct p.cwd o p.env p.dump w = .ok (x, w')) (hlive : x.interface ≠ none)
    (hrep : ∀ m ∈ x.session.files, m.Representable) (cwd : String) :
    Reported cwd parse bookkeeperId bk ⟨s.withFiles [], none⟩ x w w' ∧
      (Through (s.connections.realConnId bk) w w' →
        ∀ m ∈ x.session.files, m.modifiedFields = ∅) := by
  simp only [construct, bind_eq_ok] at h
  obtain ⟨-, -, ⟨t, more⟩, hmake, h⟩ := h
  obtain ⟨⟨files, ht, hfiles⟩, hmore⟩ := evolves_makeInterface hmake
  have htrue : more = true := hmore fun hnone => hlive <| by
    cases more <;> cases h <;> exact hnone
  subst htrue
  cases h
  rw [ht] at hrep ⊢
  have hsends := sends_mono_updateMetadatas (s.withFiles files) p.env p.dump w
  refine ⟨⟨⟨_, rfl, rfl⟩, hsends, fun _ hthrough => ?_⟩, fun hthrough => ?_⟩
  · obtain ⟨hbrings, hsession⟩ :=
      brings_updateMetadatas (s := s.withFiles files) hs.bookkeepers hthrough
    have hsend := TransferMetadata.sendable_of_evolves hfiles hs.files
    have hall : ∀ m ∈ files, m.modifiedFields = Finset.univ ∧ m.Representable ∧ m.Sendable := by
      intro m hm
      obtain ⟨m', hm', hevolves⟩ := forall₂_exists_left hfiles hm
      have hmem : m.withoutFlags ∈
          ((s.withFiles files).updateMetadatasToBookkeeper p.env p.dump w).2.1.files := by
        rw [hsession]
        exact List.mem_map_of_mem hm
      have hrep' : m.withoutFlags.Representable := hrep _ hmem
      exact ⟨Finset.univ_subset_iff.1 (hnew m' hm' ▸ hevolves.flags), hrep', hsend m hm⟩
    obtain ⟨hread, hgroup⟩ := reads_reportAll hbk hs (fun m hm => (hall m hm).2) cwd
    refine ⟨?_, List.nil_prefix, _, hbrings, hread, fun hnodup before hshown => ?_⟩
    · rw [hsession]
      refine hs.withFiles fun m' hm' => ?_
      obtain ⟨m, hm, rfl⟩ := List.mem_map.1 hm'
      exact (hsend m hm).congr rfl
    · rw [hsession] at hnodup ⊢
      have hnodup' : (files.map TransferMetadata.key).Nodup := by
        rw [keys] at hnodup
        exact (congrArg List.Nodup List.map_map).mp hnodup
      have hentered := (hshown.skip hgroup).enterAll hbk hnodup' hall
      rwa [List.append_assoc] at hentered
  · exact unflagged_updateMetadatas (x := ⟨s, none⟩) ⟨hs.bookkeepers, hs.targets⟩ (.refl _ _ w)
      hthrough

end Construct

/-! ## The bookkeeper -/

theorem TransferMetadata.Follows.eq_of_unflagged {r m : TransferMetadata} (h : r.Follows m)
    (hm : m.modifiedFields = ∅) : r.withoutClock.withoutFlags = m.withoutClock.withoutFlags := by
  have hvalue (x : Field) (hx : x ∉ clockFields) : r.value x = m.value x :=
    h.value_eq x hx (hm ▸ Finset.notMem_empty x)
  have hidentity := h.identity_eq
  simp only [identity, Prod.mk.injEq] at hidentity
  obtain ⟨hpath, hsrc, hdest, hgroup⟩ := hidentity
  have hstatus : r.status = m.status := by
    have htext := congrArg stringToStatus (Scalar.text.inj (hvalue .status (by decide)))
    rw [stringToStatus_statusToString, stringToStatus_statusToString] at htext
    exact Option.some.inj htext
  have hhash : r.hash = m.hash := Scalar.text.inj (hvalue .hash (by decide))
  have hlink : r.magnetLink = m.magnetLink := Scalar.text.inj (hvalue .magnetLink (by decide))
  have herror : r.errorCode = m.errorCode := Scalar.text.inj (hvalue .errorCode (by decide))
  have hsize : r.bytesSize = m.bytesSize :=
    Int.ofNat.inj (Scalar.number.inj (hvalue .size (by decide)))
  have hbytes : r.bytesTransferred = m.bytesTransferred :=
    Int.ofNat.inj (Scalar.number.inj (hvalue .bytesTransferred (by decide)))
  have hspeed : r.transmissionSpeed = m.transmissionSpeed :=
    Scalar.number.inj (hvalue .transmissionSpeed (by decide))
  simp only [withoutClock, withoutFlags, hpath, hsrc, hdest, hgroup, hsize, hbytes, hspeed,
    hstatus, hhash, hlink, herror]

theorem TransferMetadata.eq_of_follows {l l' : List TransferMetadata}
    (h : List.Forall₂ Follows l l') (hl : ∀ m ∈ l', m.modifiedFields = ∅) :
    l.map (fun m => m.withoutClock.withoutFlags) =
      l'.map fun m => m.withoutClock.withoutFlags := by
  induction h with
  | nil => rfl
  | cons hm _ ih =>
      obtain ⟨hflags, hl⟩ := List.forall_mem_cons.1 hl
      rw [List.map_cons, List.map_cons, hm.eq_of_unflagged hflags, ih hl]

/-- **A bookkeeper follows a session.**  A session whose interface changes records through their
setters is constructed and then commanded, updated and given records in any order, with changes
of the interface anywhere in between, and what it sends to its bookkeeper comes through.  A
bookkeeper that did not know the session and reads all of it, with messages of others anywhere in
between, shows one record for each file of the session in the end, in their order; it has what the
session has but for the times and what is still flagged, and if the last thing was a report of
all, but for the times. -/
theorem bookkeeper_follows_session {p : Platform σ} {o : Outside σ} {parse : String → Option Json}
    {bk : String} {b : Bookkeeper} (hbk : Bookkeeper.Reads p.dump parse bk b.bookkeeperId)
    (hI : p.interface.UsesSetters) {s : TransferSession} (hs : s.Followed bk)
    (hnew : ∀ m ∈ s.files, m.modifiedFields = Finset.univ) {w w₁ w' : World} {x y : OpenSession σ}
    (hx : s.construct p.cwd o p.env p.dump w = .ok (x, w₁)) (hlive : x.interface ≠ none)
    (hrep : ∀ m ∈ x.session.files, m.Representable) {l : List SessionAction}
    (hl : ∀ a ∈ l, a.Fresh) (hy : exec (OpenSession.step p) (x, w₁) l = some (y, w'))
    (hkeys : y.session.keys.Nodup) (hthrough : Through (s.connections.realConnId bk) w w')
    (hb : b.Represents) (hunknown : getOrNew [] s.sessionId b.transfers = []) (cwd : String)
    {receipts : List Receipt}
    (hreceived : (receipts.filter fun rc => rc.notif.sourceId = s.sessionId).map Receipt.notif =
      w.cameOn (s.connections.realConnId bk) w')
    (hothers : ∀ rc ∈ receipts, rc.notif.sourceId ≠ s.sessionId →
      Bookkeeper.WellFormed cwd parse b.bookkeeperId rc.notif) :
    ∃ b', exec (Bookkeeper.receive cwd parse) b receipts = some b' ∧
      List.Forall₂ TransferMetadata.Follows
        ((b'.clientView s.sessionId).map fun x => x.2.withoutClock) y.session.files ∧
      ((∀ a ∈ l.getLast?, a.reportsAll = true) →
        (b'.clientView s.sessionId).map (fun x => x.2.withoutClock.withoutFlags) =
          y.session.files.map fun m => m.withoutClock.withoutFlags) := by
  obtain ⟨hconstruct, hunflagged⟩ := reported_construct hbk hs hnew hx hlive hrep cwd
  have hwatched : x.session.Watched bk :=
    hconstruct.like.watched (x := ⟨s.withFiles [], none⟩) ⟨hs.bookkeepers, hs.targets⟩
  have hrun : Reported cwd parse b.bookkeeperId bk x y w₁ w' := reported_exec hbk hI hwatched hl hy
  have hempty : (s.withFiles []).Followed bk := hs.withFiles fun m hm => absurd hm List.not_mem_nil
  obtain ⟨-, -, msgs, hbrings, hread, hshown⟩ :=
    (hconstruct.trans hrun).conveys hempty hthrough
  have hcame : w.cameOn (s.connections.realConnId bk) w' = msgs := hbrings.cameOn hthrough
  have hview : Bookkeeper.Shown cwd parse s.sessionId msgs y.session.files :=
    hshown hkeys [] .nil
  have hwf : ∀ rc ∈ receipts, Bookkeeper.WellFormed cwd parse b.bookkeeperId rc.notif := by
    intro rc hrc
    by_cases hsource : rc.notif.sourceId = s.sessionId
    · refine hread rc.notif ?_
      rw [← hcame, ← hreceived]
      exact List.mem_map_of_mem (List.mem_filter.2 ⟨hrc, decide_eq_true hsource⟩)
    · exact hothers rc hrc hsource
  obtain ⟨b', hb', hrecords⟩ := Bookkeeper.exec_receive_client hb hunknown hwf
  rw [hreceived, hcame] at hrecords
  have hfollows : List.Forall₂ TransferMetadata.Follows
      ((b'.clientView s.sessionId).map fun x => x.2.withoutClock) y.session.files := by
    rw [hrecords, List.forall₂_map_left_iff]
    exact List.Forall₂.imp (fun _ _ h => h.2) hview
  refine ⟨b', hb', hfollows, fun hlast => ?_⟩
  obtain ⟨hfirst, hlater⟩ := hthrough.split hconstruct.sends hrun.sends
  have hsame : s.connections = x.session.connections := hconstruct.like.connections_eq.1.symm
  rw [hsame] at hlater
  have hnothing := unflagged_exec hbk hI hwatched hl hy hlast hlater (hunflagged hfirst)
  have hequal := TransferMetadata.eq_of_follows hfollows hnothing
  rwa [List.map_map] at hequal

/-- An uploader with a new record and a bookkeeper. -/
def followedSession : TransferSession :=
  uploadSession [{ recordOn "/test.txt" .waiting with modifiedFields := Finset.univ }]

/-- The session after its constructor. -/
def followedStart : OpenSession Unit × World :=
  let q := followedSession.updateMetadatasToBookkeeper Platform.plain.env JsonText.dump ⟨0, 0, []⟩
  (⟨q.2.1, some ()⟩, q.1)

/-- The upload is started, makes progress and is paused. -/
def followedRun : List SessionAction :=
  [.command .start "", .change 0 (.bytesTransferred 40), .command .pause "/test.txt",
    .change 0 (.transmissionSpeed 0), .update ""]

/-- What the bookkeeper is sent up to there. -/
def followedMessages (w : World) : List NotificationData :=
  World.cameOn (followedSession.connections.realConnId "snbmodules_bookkeeper") ⟨0, 0, []⟩ w

theorem bookkeeper_follows_session_upload :
    ∃ (y : OpenSession Unit) (w : World) (b' : Bookkeeper),
      exec (OpenSession.step .plain) followedStart followedRun = some (y, w) ∧
      exec (Bookkeeper.receive "/" JsonText.parse) (.new "bookkeeper")
        ((followedMessages w).map fun n => ⟨n, 0, 0⟩) = some b' ∧
      (b'.clientView "client1_sesgroup1").map (fun x => x.2.withoutClock.withoutFlags) =
        y.session.files.map fun m => m.withoutClock.withoutFlags := by
  have hall : (exec (OpenSession.step .plain) followedStart followedRun).any (fun q =>
      decide q.1.session.keys.Nodup && q.2.sends.all (fun attempts => attempts.any Attempt.ok) &&
        (followedMessages q.2).all fun n => n.sourceId = "client1_sesgroup1") = true := by
    decide +kernel
  obtain ⟨⟨y, w⟩, hy, hfacts⟩ := (Option.any_eq_true _ _).1 hall
  simp only [Bool.and_eq_true, decide_eq_true_eq, List.all_eq_true] at hfacts
  obtain ⟨⟨hkeys, hsent⟩, hsource⟩ := hfacts
  have hreads : Bookkeeper.Reads JsonText.dump JsonText.parse "snbmodules_bookkeeper"
      "bookkeeper" := ⟨JsonText.parse_dump, by decide +kernel, by decide⟩
  have hip : (⟨"127.0.0.1", 42100⟩ : IPFormat).WellFormed :=
    IPFormat.new_wellFormed (show IPFormat.new "127.0.0.1" 42100 = .ok _ by decide +kernel)
  have hs : followedSession.Followed "snbmodules_bookkeeper" := by
    refine ⟨⟨rfl, by decide⟩, Option.some_ne_none _, hip, hip, fun m hm => ?_⟩
    obtain rfl := List.mem_singleton.1 hm
    exact ⟨by decide, hip, IPFormat.default_wellFormed, by decide, by decide⟩
  have hreceived : (((followedMessages w).map fun n => (⟨n, 0, 0⟩ : Receipt)).filter fun rc =>
      rc.notif.sourceId = followedSession.sessionId).map Receipt.notif = followedMessages w := by
    rw [List.filter_eq_self.2 fun rc hrc => ?_, List.map_map]
    · exact List.map_id _
    · obtain ⟨n, hn, rfl⟩ := List.mem_map.1 hrc
      exact decide_eq_true (hsource n hn)
  have hstart : followedSession.construct "/" .plain Platform.plain.env JsonText.dump ⟨0, 0, []⟩ =
      .ok followedStart := rfl
  have hothers : ∀ rc ∈ (followedMessages w).map fun n => (⟨n, 0, 0⟩ : Receipt),
      rc.notif.sourceId ≠ followedSession.sessionId →
      Bookkeeper.WellFormed "/" JsonText.parse "bookkeeper" rc.notif := by
    intro rc hrc hne
    obtain ⟨n, hn, rfl⟩ := List.mem_map.1 hrc
    exact absurd (hsource n hn) hne
  obtain ⟨b', hb', -, hview⟩ := bookkeeper_follows_session (p := .plain) (o := .plain)
    (b := .new "bookkeeper") hreads (fun c x m => by cases c <;> exact .refl m) hs
    (fun m hm => by obtain rfl := List.mem_singleton.1 hm; rfl) hstart (Option.some_ne_none _)
    (by decide +kernel)
    (l := followedRun) (by simp [followedRun, SessionAction.Fresh]) hy hkeys
    (fun attempts hmem _ => hsent attempts (List.mem_of_mem_drop hmem))
    ⟨[], Bookkeeper.rep_new "bookkeeper"⟩ rfl "/" hreceived hothers
  exact ⟨y, w, b', hy, hb', hview (by decide)⟩

end Transfer
end SNBModules
