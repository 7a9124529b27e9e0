import Mathlib.Data.Finset.Lattice.Basic
import SNBModules.Lib.Runs
import SNBModules.Transfer.GroupCommands

/-!
# Updates of the bookkeepers

Source: `transfer_session.cpp`, `update_metadatas_to_bookkeeper` and
`update_metadata_to_bookkeeper`, with `export_to_string_partial` and the setters
of `transfer_metadata.hpp`.

A partial export carries the fields that are flagged, and clears the flags.  It
is made once for each bookkeeper and before it is known whether the send goes
through, so that only the first bookkeeper of the list gets the fields, and
nobody does when that send fails.

`Tracked` puts beside a record what each connection has not been sent yet.  The
record is driven by the code of the session; what is tracked is read off it and
never read by it (`updateAllTracked_records`).
-/

namespace SNBModules
namespace Transfer

open Lib

/-! ## Changes of a record -/

/-- The calls that change an exported field. -/
inductive Change where
  | hash (hash : String)
  | size (size : ℕ)
  | bytesTransferred (bytesTransferred : ℕ)
  | progress (purcent : ℤ)
  | status (status : Status)
  | magnetLink (magnetLink : String)
  | errorCode (errorCode : String)
  | transmissionSpeed (transmissionSpeed : ℤ)
  | duration (duration : ℤ)
  | startTime (startTime : ℤ)
  | endTime (endTime : ℤ)
  deriving DecidableEq, Repr

/-- The call itself, with the clock at `now`; one that throws changes nothing. -/
def Change.apply (now : ℤ) (m : TransferMetadata) : Change → TransferMetadata
  | .hash x => m.setHash x
  | .size n => m.setSize n
  | .bytesTransferred n => m.setBytesTransferred n
  | .progress purcent =>
      match m.setProgress purcent with
      | .ok m' => m'
      | .error _ => m
  | .status x => m.setStatus now x
  | .magnetLink x => m.setMagnetLink x
  | .errorCode x => m.setErrorCode x
  | .transmissionSpeed n => m.setTransmissionSpeed n
  | .duration n => m.setDuration n
  | .startTime n => m.setStartTime n
  | .endTime n => m.setEndTime n

namespace TransferMetadata

/-- The fields whose values differ. -/
def changedFields (m m' : TransferMetadata) : Finset Field :=
  Finset.univ.filter fun x => m.value x ≠ m'.value x

@[simp] theorem mem_changedFields {m m' : TransferMetadata} {x : Field} :
    x ∈ changedFields m m' ↔ m.value x ≠ m'.value x := by
  simp [changedFields]

/-- Whether `set_status` gives a time a new value. -/
def writesTime (now : ℤ) (status : Status) (m : TransferMetadata) : Field → Bool
  | .startTime => (status = .downloading ∨ status = .uploading) ∧ m.startTime ≠ now
  | .endTime => (status = .finished ∨ status = .error) ∧ m.endTime ≠ now
  | .duration =>
      (status = .finished ∨ status = .error ∨ status = .paused) ∧ m.startTime ≠ now
  | _ => false

/-- **What `set_status` changes beside the status** are the times that it writes. -/
theorem mem_changedFields_setStatus (now : ℤ) (status : Status) (m : TransferMetadata) {x : Field}
    (hx : x ≠ .status) :
    x ∈ changedFields m (m.setStatus now status) ↔ m.writesTime now status x = true := by
  have hsub : m.duration = m.duration + (now - m.startTime) ↔ m.startTime = now := by omega
  rw [mem_changedFields]
  cases x with
  | status => exact absurd rfl hx
  | duration => cases status <;> simp [value, setStatus, flag, writesTime, hsub]
  | _ => cases status <;> simp [value, setStatus, flag, writesTime]

end TransferMetadata

/-- The changed fields that a call does not flag. -/
def Change.silent (now : ℤ) (m : TransferMetadata) : Change → Finset Field
  | .status x => Finset.univ.filter fun f => m.writesTime now x f
  | _ => ∅

/-- No flag goes away with a change. -/
theorem Change.modifiedFields_subset (now : ℤ) (m : TransferMetadata) (c : Change) :
    m.modifiedFields ⊆ (c.apply now m).modifiedFields := by
  cases c with
  | progress purcent =>
      simp only [apply, TransferMetadata.setProgress]
      split_ifs
      · exact Finset.Subset.refl _
      · exact Finset.subset_insert _ _
  | status x =>
      rw [apply, TransferMetadata.setStatus_modifiedFields]
      exact Finset.subset_insert _ _
  | _ => exact Finset.subset_insert _ _

/-- A setter of one field changes no value that it does not flag. -/
theorem changedFields_flag {m m' : TransferMetadata} {y : Field}
    (h : ∀ x, x ≠ y → m.value x = m'.value x) : m.changedFields (m'.flag y) ⊆ {y} := by
  intro x hx
  by_contra hxy
  rw [Finset.mem_singleton] at hxy
  have hvalue : (m'.flag y).value x = m'.value x := by cases x <;> rfl
  exact TransferMetadata.mem_changedFields.1 hx ((h x hxy).trans hvalue.symm)

/-- A changed field is flagged, or is a time that `set_status` has written. -/
theorem Change.changedFields_subset (now : ℤ) (m : TransferMetadata) (c : Change) :
    m.changedFields (c.apply now m) ⊆ (c.apply now m).modifiedFields ∪ c.silent now m := by
  have hset : ∀ (m' : TransferMetadata) (y : Field), (∀ x, x ≠ y → m.value x = m'.value x) →
      m.changedFields (m'.flag y) ⊆ (m'.flag y).modifiedFields := by
    intro m' y h x hx
    rw [Finset.mem_singleton.1 (changedFields_flag h hx)]
    exact Finset.mem_insert_self _ _
  cases c with
  | status x =>
      intro f hf
      rw [Finset.mem_union]
      by_cases hs : f = .status
      · left
        rw [apply, TransferMetadata.setStatus_modifiedFields, hs]
        exact Finset.mem_insert_self _ _
      · right
        have hw := (TransferMetadata.mem_changedFields_setStatus now x m hs).1 hf
        exact Finset.mem_filter.2 ⟨Finset.mem_univ f, hw⟩
  | progress purcent =>
      refine Finset.Subset.trans ?_ Finset.subset_union_left
      simp only [apply, TransferMetadata.setProgress]
      split_ifs
      · intro f hf
        exact absurd rfl (TransferMetadata.mem_changedFields.1 hf)
      · refine hset _ _ fun f hf => ?_
        cases f <;> first | rfl | exact absurd rfl hf
  | _ =>
      refine Finset.Subset.trans (hset _ _ fun f hf => ?_) Finset.subset_union_left
      cases f <;> first | rfl | exact absurd rfl hf

/-! ## Tracked records -/

/-- A record, and for each connection the fields that have changed since the last
message that carried them and went through on it. -/
structure Tracked where
  record : TransferMetadata
  unsent : String → Finset Field

namespace Tracked

/-- A change, tracked: what has changed, nobody has been sent. -/
def change (now : ℤ) (c : Change) (t : Tracked) : Tracked :=
  ⟨c.apply now t.record, fun conn => t.unsent conn ∪ t.record.changedFields (c.apply now t.record)⟩

/-- What a bookkeeper has not been sent yet, the next export carries. -/
def Kept (bks : List String) (t : Tracked) : Prop :=
  ∀ b ∈ bks, t.unsent b ⊆ t.record.modifiedFields

/-- There is nothing that a bookkeeper has not been sent. -/
def Settled (bks : List String) (t : Tracked) : Prop := ∀ b ∈ bks, t.unsent b = ∅

instance (bks : List String) (t : Tracked) : Decidable (t.Kept bks) :=
  inferInstanceAs (Decidable (∀ b ∈ bks, t.unsent b ⊆ t.record.modifiedFields))

instance (bks : List String) (t : Tracked) : Decidable (t.Settled bks) :=
  inferInstanceAs (Decidable (∀ b ∈ bks, t.unsent b = ∅))

theorem Settled.kept {bks : List String} {t : Tracked} (h : t.Settled bks) : t.Kept bks := by
  intro b hb
  rw [h b hb]
  exact Finset.empty_subset _

/-- **A change that flags what it changes keeps everything.** -/
theorem Kept.change {bks : List String} {t : Tracked} (h : t.Kept bks) {now : ℤ} {c : Change}
    (hc : bks ≠ [] → c.silent now t.record ⊆ t.record.modifiedFields) :
    (t.change now c).Kept bks := by
  intro b hb
  have hflags := c.modifiedFields_subset now t.record
  refine Finset.union_subset ((h b hb).trans hflags) ?_
  refine (c.changedFields_subset now t.record).trans (Finset.union_subset (Finset.Subset.refl _) ?_)
  exact (hc (List.ne_nil_of_mem hb)).trans hflags

end Tracked

namespace TransferSession

variable (s : TransferSession) (env : Env) (dump : Json → String)

/-- One turn of the loop over the bookkeepers, tracked: the message carries the
flagged fields of the record, over the connection that the name resolves to. -/
def sendTracked (p : World × Tracked) (bk : String) : (World × Tracked) × Bool :=
  let q := s.sendMetadata env dump (p.1, p.2.record) bk
  let conn := s.connections.realConnId bk
  let unsent := if q.2 then
      Function.update p.2.unsent conn (p.2.unsent conn \ p.2.record.modifiedFields)
    else p.2.unsent
  ((q.1.1, ⟨q.1.2, unsent⟩), q.2)

/-- `update_metadata_to_bookkeeper`, tracked. -/
def updateTracked (w : World) (t : Tracked) : World × Tracked × Bool :=
  let p := andLoop (s.sendTracked env dump) true (w, t) s.bookkeepersConn
  (p.1.1, p.1.2, p.2)

/-- `update_metadatas_to_bookkeeper`, tracked. -/
def updateAllTracked (w : World) (l : List Tracked) : World × List Tracked × Bool :=
  let p := andLoop ((s.withFiles (l.map Tracked.record)).sendGroup env dump) true w
    s.bookkeepersConn
  andEach (s.updateTracked env dump) p.2 p.1 l

/-- The tracked update of a record is the update of the record. -/
theorem updateTracked_record (w : World) (t : Tracked) :
    s.updateMetadataToBookkeeper env dump w t.record =
      ((s.updateTracked env dump w t).1, (s.updateTracked env dump w t).2.1.record,
        (s.updateTracked env dump w t).2.2) := by
  have h := andLoop_view (f := s.sendTracked env dump) (k := s.sendMetadata env dump)
    (fun p => (p.1, p.2.record)) (fun _ _ => rfl) true (w, t) s.bookkeepersConn
  rw [updateMetadataToBookkeeper, h]
  rfl

/-- **The tracked update is the update of the code:** the same messages, the same
records and the same result. -/
theorem updateAllTracked_records (w : World) (l : List Tracked) :
    (s.withFiles (l.map Tracked.record)).updateMetadatasToBookkeeper env dump w =
      ((s.updateAllTracked env dump w l).1,
        s.withFiles ((s.updateAllTracked env dump w l).2.1.map Tracked.record),
        (s.updateAllTracked env dump w l).2.2) := by
  have h := andEach_map Tracked.record (s.updateTracked_record env dump)
  generalize hs : s.withFiles (l.map Tracked.record) = s₁
  have hupdate :
      s₁.updateMetadataToBookkeeper env dump = s.updateMetadataToBookkeeper env dump := by
    rw [← hs]
    rfl
  have hfiles : s₁.files = l.map Tracked.record := by
    rw [← hs]
    rfl
  rw [updateMetadatasToBookkeeper, hupdate, hfiles]
  simp only [h, updateAllTracked, hs]
  rw [← hs]
  rfl

/-! ## What the loops send -/

/-- A send to `b`. -/
def SentTo (b : String) (attempts : List Attempt) : Prop := ∃ a ∈ attempts, a.notif.targetId = b

/-- Every send to `b` went through. -/
def Reached (sends : List (List Attempt)) (b : String) : Prop :=
  ∀ attempts ∈ sends, SentTo b attempts → attempts.any Attempt.ok = true

instance (b : String) (attempts : List Attempt) : Decidable (SentTo b attempts) :=
  inferInstanceAs (Decidable (∃ a ∈ attempts, a.notif.targetId = b))

instance (sends : List (List Attempt)) (b : String) : Decidable (Reached sends b) :=
  inferInstanceAs (Decidable
    (∀ attempts ∈ sends, SentTo b attempts → attempts.any Attempt.ok = true))

/-- From `w` to `w'` something was sent to the bookkeepers, and one of them was
not reached if the result is `false`. -/
def Sends (bks : List String) (w : World) (r : Bool) (w' : World) : Prop :=
  ∃ sends, w'.sends = w.sends ++ sends ∧ (r = false → ∃ b ∈ bks, ¬ Reached sends b)

theorem Sends.refl (bks : List String) (w : World) : Sends bks w true w :=
  ⟨[], by simp, by simp⟩

theorem Sends.trans {bks : List String} {w w₁ w₂ : World} {r : Bool} (h₁ : Sends bks w true w₁)
    (h₂ : Sends bks w₁ r w₂) : Sends bks w r w₂ := by
  obtain ⟨sends₁, hw₁, -⟩ := h₁
  obtain ⟨sends₂, hw₂, hfail⟩ := h₂
  refine ⟨sends₁ ++ sends₂, by rw [hw₂, hw₁, List.append_assoc], fun hr => ?_⟩
  obtain ⟨b, hb, hnot⟩ := hfail hr
  exact ⟨b, hb, fun h => hnot fun attempts ha => h attempts (List.mem_append_right _ ha)⟩

/-- One call of `send_notification` to a bookkeeper. -/
theorem sends_sendNotification {bks : List String} {bk : String} (hbk : bk ∈ bks)
    (ni : NotificationInterface) (type : NotificationType) (src data : String) (w : World) :
    Sends bks w (ni.sendNotification env type src bk bk data (-1) w).2
      (ni.sendNotification env type src bk bk data (-1) w).1 := by
  obtain ⟨attempts, hw, hne, hsame, hany⟩ :=
    ni.sendNotification_sends env type src bk bk data (-1) w
  refine ⟨[attempts], hw, fun hr => ⟨bk, hbk, fun hreached => ?_⟩⟩
  obtain ⟨a, ha⟩ := List.exists_mem_of_ne_nil _ hne
  have hto : SentTo bk attempts := ⟨a, ha, by rw [(hsame a ha).2]⟩
  have hok := hreached attempts List.mem_cons_self hto
  rw [hany, hr] at hok
  cases hok

theorem sends_updateTracked (w : World) (t : Tracked) :
    Sends s.bookkeepersConn w (s.updateTracked env dump w t).2.2
      (s.updateTracked env dump w t).1 :=
  andLoop_rel (f := s.sendTracked env dump) (R := fun p r q => Sends s.bookkeepersConn p.1 r q.1)
    (fun p => Sends.refl _ p.1) (fun _ _ _ _ h₁ h₂ => Sends.trans h₁ h₂)
    (fun _ _ hbk => sends_sendNotification env hbk _ _ _ _ _) (w, t)

theorem sends_updateAllTracked (w : World) (l : List Tracked) :
    Sends s.bookkeepersConn w (s.updateAllTracked env dump w l).2.2
      (s.updateAllTracked env dump w l).1 := by
  have hgroup := andLoop_rel (f := (s.withFiles (l.map Tracked.record)).sendGroup env dump)
    (R := Sends s.bookkeepersConn) (l := s.bookkeepersConn) (Sends.refl _)
    (fun _ _ _ _ h₁ h₂ => h₁.trans h₂)
    (fun _ _ hbk => sends_sendNotification env hbk _ _ _ _ _) w
  rw [updateAllTracked]
  cases hr : (andLoop ((s.withFiles (l.map Tracked.record)).sendGroup env dump) true w
    s.bookkeepersConn).2 with
  | true =>
      rw [hr] at hgroup
      have hfiles := andEach_rel (f := s.updateTracked env dump) (R := Sends s.bookkeepersConn)
        (Sends.refl _) (fun _ _ _ _ h₁ h₂ => h₁.trans h₂) (s.sends_updateTracked env dump)
      exact hgroup.trans (hfiles _ l)
  | false =>
      rw [hr] at hgroup
      simpa [hr] using hgroup

/-! ## When an update delivers everything -/

/-- An update of the record that starts in `w` loses nothing: a bookkeeper that
lacks a field is the only one, its name stands for its own connection, and the
message goes through. -/
def Ready (w : World) (t : Tracked) : Prop :=
  ∀ b ∈ s.bookkeepersConn, t.unsent b ≠ ∅ →
    (∀ b' ∈ s.bookkeepersConn, b' = b) ∧ s.connections.realConnId b = b ∧ env.Delivers w

instance (w : World) (t : Tracked) : Decidable (s.Ready env w t) :=
  inferInstanceAs (Decidable (∀ b ∈ s.bookkeepersConn, t.unsent b ≠ ∅ →
    (∀ b' ∈ s.bookkeepersConn, b' = b) ∧ s.connections.realConnId b = b ∧ env.Delivers w))

/-- A send takes fields away from what is left to send, and adds none. -/
theorem sendTracked_unsent_subset (p : World × Tracked) (bk b : String) :
    (s.sendTracked env dump p bk).1.2.unsent b ⊆ p.2.unsent b := by
  simp only [sendTracked]
  split_ifs
  · by_cases hb : b = s.connections.realConnId bk
    · subst hb
      rw [Function.update_self]
      exact Finset.sdiff_subset
    · rw [Function.update_of_ne hb]
  · exact Finset.Subset.refl _

/-- The sends after the first leave what is settled. -/
theorem andLoop_sendTracked_settled {bks : List String} {p : World × Tracked}
    (h : p.2.Settled bks) (r : Bool) (l : List String) :
    (andLoop (s.sendTracked env dump) r p l).1.2.Settled bks := by
  have hsub : ∀ b, (andLoop (s.sendTracked env dump) r p l).1.2.unsent b ⊆ p.2.unsent b := by
    cases r with
    | false => simp
    | true =>
        exact andLoop_rel (R := fun p _ q => ∀ b, q.2.unsent b ⊆ p.2.unsent b)
          (fun _ _ => Finset.Subset.refl _) (fun _ _ _ _ h₁ h₂ b => (h₂ b).trans (h₁ b))
          (fun p bk _ => s.sendTracked_unsent_subset env dump p bk) p
  intro b hb
  exact Finset.subset_empty.1 (h b hb ▸ hsub b)

/-- **The first send settles a record that is ready.** -/
theorem sendTracked_settled {w : World} {t : Tracked} (hkept : t.Kept s.bookkeepersConn)
    (hready : s.Ready env w t) {bk : String} (hbk : bk ∈ s.bookkeepersConn) :
    (s.sendTracked env dump (w, t) bk).1.2.Settled s.bookkeepersConn := by
  intro b hb
  by_cases hunsent : t.unsent b = ∅
  · exact Finset.subset_empty.1 (hunsent ▸ s.sendTracked_unsent_subset env dump (w, t) bk b)
  · obtain ⟨honly, hreal, hdelivers⟩ := hready b hb hunsent
    have hbkb := honly bk hbk
    subst hbkb
    have hok : (s.sendMetadata env dump (w, t.record) bk).2 = true :=
      (s.connections.sendNotification_snd env _ _ _ _ _ w).2 hdelivers
    simp only [sendTracked, hok, if_true, hreal, Function.update_self]
    exact Finset.sdiff_eq_empty_iff_subset.2 (hkept bk hb)

/-- **An update of a record that is ready leaves nothing unsent.** -/
theorem updateTracked_settled {w : World} {t : Tracked} (hkept : t.Kept s.bookkeepersConn)
    (hready : s.Ready env w t) :
    (s.updateTracked env dump w t).2.1.Settled s.bookkeepersConn := by
  rw [updateTracked]
  cases hbks : s.bookkeepersConn with
  | nil =>
      intro b hb
      cases hb
  | cons bk rest =>
      have hfirst := s.sendTracked_settled env dump hkept hready (hbks ▸ List.mem_cons_self)
      rw [hbks] at hfirst
      exact s.andLoop_sendTracked_settled env dump hfirst _ rest

/-- **An update of all the records that are ready** leaves nothing unsent of those
that it comes to; it comes to all of them unless it fails. -/
theorem mem_updateAllTracked {w : World} {l : List Tracked}
    (hkept : ∀ t ∈ l, t.Kept s.bookkeepersConn)
    (hok : Along (s.updateTracked env dump) (s.Ready env)
      (andLoop ((s.withFiles (l.map Tracked.record)).sendGroup env dump) true w
        s.bookkeepersConn).2
      (andLoop ((s.withFiles (l.map Tracked.record)).sendGroup env dump) true w
        s.bookkeepersConn).1 l)
    {t : Tracked} (ht : t ∈ (s.updateAllTracked env dump w l).2.1) :
    t.Settled s.bookkeepersConn ∨ (s.updateAllTracked env dump w l).2.2 = false ∧ t ∈ l := by
  simp only [updateAllTracked] at ht ⊢
  cases hr : (andLoop ((s.withFiles (l.map Tracked.record)).sendGroup env dump) true w
    s.bookkeepersConn).2 with
  | true =>
      rw [hr] at ht hok
      obtain ⟨t₀, ht₀, hdone | ⟨hfail, rfl⟩⟩ :=
        mem_andEach (R := fun t t' => t.Kept s.bookkeepersConn → t'.Settled s.bookkeepersConn)
          (fun _ _ hready hk => s.updateTracked_settled env dump hk hready) hok ht
      · exact Or.inl (hdone (hkept t₀ ht₀))
      · exact Or.inr ⟨hfail, ht₀⟩
  | false =>
      rw [hr, andEach_false] at ht
      exact Or.inr ⟨by rw [andEach_false], ht⟩

end TransferSession

/-! ## Runs -/

/-- The records of a session with what is tracked of them, the world, and the
last update: the records that it was to cover, as it left them, and its sends. -/
structure Tracking where
  files : List Tracked
  world : World
  covered : List Tracked
  sends : List (List Attempt)

/-- A change of the `i`-th record, and the two updates. -/
inductive UpdateAction where
  | change (i : ℕ) (c : Change)
  | updateAll
  | update (i : ℕ)
  deriving DecidableEq, Repr

namespace TransferSession

variable (s : TransferSession) (env : Env) (dump : Json → String)

/-- The session starts with nothing sent of what is flagged. -/
def startTracking (w : World) : Tracking :=
  ⟨s.files.map fun m => ⟨m, fun _ => m.modifiedFields⟩, w, [], []⟩

/-- One action; it is possible when the record that it names is there. -/
def stepTracking (st : Tracking) : UpdateAction → Option Tracking
  | .change i c =>
      st.files[i]?.map fun t =>
        ⟨st.files.set i (t.change (st.world.now env) c), st.world.tick, [], []⟩
  | .updateAll =>
      let q := s.updateAllTracked env dump st.world st.files
      some ⟨q.2.1, q.1, q.2.1, q.1.sends.drop st.world.sends.length⟩
  | .update i =>
      st.files[i]?.map fun t =>
        let q := s.updateTracked env dump st.world t
        ⟨st.files.set i q.2.1, q.1, [q.2.1], q.1.sends.drop st.world.sends.length⟩

/-- **No update is lost.**  A bookkeeper that every send of the last update
reached has been sent every changed field of the records that the update covers;
and what a bookkeeper has not been sent, the next export carries. -/
def NoLostUpdate (st : Tracking) : Prop :=
  (∀ b ∈ s.bookkeepersConn, Reached st.sends b → ∀ t ∈ st.covered, t.unsent b = ∅) ∧
    ∀ t ∈ st.files, t.Kept s.bookkeepersConn

/-- What an action has to meet: a change flags every field that it changes; an
update finds a bookkeeper that lacks a field alone, under its own name, and
reaches it. -/
def SafeUpdate (st : Tracking) : UpdateAction → Prop
  | .change i c => ∀ t ∈ st.files[i]?, s.bookkeepersConn ≠ [] →
      c.silent (st.world.now env) t.record ⊆ t.record.modifiedFields
  | .updateAll =>
      (∀ t ∈ st.files, ∀ b ∈ s.bookkeepersConn, t.unsent b ≠ ∅ → ∀ b' ∈ s.bookkeepersConn, b' = b) ∧
        Along (s.updateTracked env dump) (s.Ready env)
          (andLoop ((s.withFiles (st.files.map Tracked.record)).sendGroup env dump) true st.world
            s.bookkeepersConn).2
          (andLoop ((s.withFiles (st.files.map Tracked.record)).sendGroup env dump) true st.world
            s.bookkeepersConn).1 st.files
  | .update i => ∀ t ∈ st.files[i]?, s.Ready env st.world t

instance decidableNoLostUpdate (st : Tracking) : Decidable (s.NoLostUpdate st) :=
  inferInstanceAs (Decidable
    ((∀ b ∈ s.bookkeepersConn, Reached st.sends b → ∀ t ∈ st.covered, t.unsent b = ∅) ∧
      ∀ t ∈ st.files, t.Kept s.bookkeepersConn))

instance decidableSafeUpdate (st : Tracking) :
    ∀ a : UpdateAction, Decidable (s.SafeUpdate env dump st a)
  | .change i c => inferInstanceAs (Decidable (∀ t ∈ st.files[i]?, s.bookkeepersConn ≠ [] →
      c.silent (st.world.now env) t.record ⊆ t.record.modifiedFields))
  | .updateAll => inferInstanceAs (Decidable
      ((∀ t ∈ st.files, ∀ b ∈ s.bookkeepersConn, t.unsent b ≠ ∅ →
          ∀ b' ∈ s.bookkeepersConn, b' = b) ∧
        Along (s.updateTracked env dump) (s.Ready env)
          (andLoop ((s.withFiles (st.files.map Tracked.record)).sendGroup env dump) true st.world
            s.bookkeepersConn).2
          (andLoop ((s.withFiles (st.files.map Tracked.record)).sendGroup env dump) true st.world
            s.bookkeepersConn).1 st.files))
  | .update i => inferInstanceAs (Decidable (∀ t ∈ st.files[i]?, s.Ready env st.world t))

variable {s env dump}

theorem noLostUpdate_start (w : World) : s.NoLostUpdate (s.startTracking w) := by
  constructor
  · intro b _ _ t ht
    cases ht
  · intro t ht b _
    obtain ⟨m, -, rfl⟩ := List.mem_map.1 ht
    exact Finset.Subset.refl _

/-- One record of a list is replaced by one that keeps everything. -/
theorem kept_set {bks : List String} {l : List Tracked} (h : ∀ t ∈ l, t.Kept bks) {t' : Tracked}
    (ht' : t'.Kept bks) (i : ℕ) : ∀ t ∈ l.set i t', t.Kept bks := by
  intro t ht
  rcases List.mem_or_eq_of_mem_set ht with ht | rfl
  · exact h t ht
  · exact ht'

/-- **One step:** no action that meets the condition loses an update. -/
theorem noLostUpdate_step {st st' : Tracking} {a : UpdateAction} (h : s.NoLostUpdate st)
    (ha : s.SafeUpdate env dump st a) (hstep : s.stepTracking env dump st a = some st') :
    s.NoLostUpdate st' := by
  cases a with
  | change i c =>
      obtain ⟨t, ht, rfl⟩ := Option.map_eq_some_iff.1 hstep
      have hmem := List.mem_of_getElem? ht
      constructor
      · intro b _ _ t' ht'
        cases ht'
      · exact kept_set h.2 ((h.2 t hmem).change (ha t ht)) i
  | update i =>
      obtain ⟨t, ht, rfl⟩ := Option.map_eq_some_iff.1 hstep
      have hsettled := s.updateTracked_settled env dump (h.2 t (List.mem_of_getElem? ht)) (ha t ht)
      refine ⟨fun b hb _ t' ht' => ?_, kept_set h.2 hsettled.kept i⟩
      rw [List.mem_singleton.1 ht']
      exact hsettled b hb
  | updateAll =>
      obtain rfl := Option.some.inj hstep
      obtain ⟨hsingle, hok⟩ := ha
      have hcome := fun t ht => s.mem_updateAllTracked env dump (t := t) h.2 hok ht
      constructor
      · intro b hb hreached t ht
        rcases hcome t ht with hsettled | ⟨hfail, hold⟩
        · exact hsettled b hb
        · -- the update failed before the record: at the only bookkeeper there is
          by_contra hunsent
          obtain ⟨sends, hsends, hnot⟩ := s.sends_updateAllTracked env dump st.world st.files
          obtain ⟨b', hb', hnot⟩ := hnot hfail
          rw [hsingle t hold b hb hunsent b' hb'] at hnot
          rw [hsends, List.drop_left] at hreached
          exact hnot hreached
      · intro t ht
        rcases hcome t ht with hsettled | ⟨-, hold⟩
        · exact hsettled.kept
        · exact h.2 t hold

/-- **No lost update.**  Along every run of changes and updates whose steps all
meet the condition, no update is lost. -/
theorem no_lost_update (s : TransferSession) (env : Env) (dump : Json → String) (w : World)
    (actions : List UpdateAction)
    (h : Guarded (s.stepTracking env dump) (s.SafeUpdate env dump) (s.startTracking w) actions) :
    Always (s.stepTracking env dump) s.NoLostUpdate (s.startTracking w) actions :=
  always_of_guarded (fun _ _ _ => noLostUpdate_step) (noLostUpdate_start w) h

/-! ## Two set-ups -/

/-- A session over one new record, every field of which is flagged. -/
def freshSession (bookkeepers : List String) : TransferSession :=
  { uploadSession [{ recordOn "/test.txt" .waiting with modifiedFields := Finset.univ }] with
    connections := ⟨bookkeepers, ["snbmodules_client1"]⟩ }

/-- The first try of every send fails and the second goes through. -/
def lossyEnv : Env := ⟨fun n => n % 2 = 1, fun n => n + 1⟩

/-- One bookkeeper: a first update, two changes, and an update of the file. -/
theorem no_lost_update_single :
    Always ((freshSession ["snbmodules_bookkeeper"]).stepTracking lossyEnv fun _ => "json")
      (freshSession ["snbmodules_bookkeeper"]).NoLostUpdate
      ((freshSession ["snbmodules_bookkeeper"]).startTracking ⟨0, 0, []⟩)
      [.updateAll, .change 0 (.bytesTransferred 10), .change 0 (.status .checking), .update 0] :=
  no_lost_update (freshSession ["snbmodules_bookkeeper"]) lossyEnv (fun _ => "json") ⟨0, 0, []⟩
    [.updateAll, .change 0 (.bytesTransferred 10), .change 0 (.status .checking), .update 0]
    (by decide +kernel)

/-- **The second of two bookkeepers is sent nothing:** with every send going
through, the export for the first one has cleared the flags. -/
theorem second_bookkeeper_misses_update :
    ¬ Always
      ((freshSession ["snbmodules_bookkeeper1", "snbmodules_bookkeeper2"]).stepTracking calmEnv
        fun _ => "json")
      (freshSession ["snbmodules_bookkeeper1", "snbmodules_bookkeeper2"]).NoLostUpdate
      ((freshSession ["snbmodules_bookkeeper1", "snbmodules_bookkeeper2"]).startTracking ⟨0, 0, []⟩)
      [.updateAll] := by
  decide +kernel

end TransferSession

end Transfer
end SNBModules
