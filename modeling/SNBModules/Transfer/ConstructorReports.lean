import SNBModules.Transfer.SessionSetup

/-!
# What the constructor of a session reports

Source: `transfer_session.cpp`, `update_metadatas_to_bookkeeper` and
`update_metadata_to_bookkeeper`; `notification_interface.cpp`, `send_notification`.

The constructor ends with an update of its bookkeepers: a message about the group to
each, then one about each record to each.  Both loops fold `result = result && …`, so
that the first send that fails is the last one.  And the first export of a record
clears its flags, so that what the other bookkeepers are sent has none of its fields.
So the first bookkeeper alone is sent whole records, and as many as the sends get
through to (`posts_updateMetadatas`).
-/

namespace SNBModules
namespace Transfer

open Lib

/-! ## Sends in a row -/

namespace Env

/-- The number of tries of a send from the `n`-th `try_send` on, when `more` of them
may follow the first. -/
def tryCount (env : Env) : ℕ → ℕ → ℕ
  | 0, _ => 1
  | more + 1, n => if env.accepts n then 1 else env.tryCount more (n + 1) + 1

/-- The `try_send` after a send that starts at the `n`-th. -/
def afterSend (env : Env) (n : ℕ) : ℕ := n + env.tryCount (maxTries - 1).toNat n

/-- The `try_send` after `k` sends. -/
def afterSends (env : Env) : ℕ → ℕ → ℕ
  | 0, n => n
  | k + 1, n => env.afterSends k (env.afterSend n)

/-- The next `k` sends come through, each within its tries. -/
def SendsThrough (env : Env) : ℕ → ℕ → Prop
  | 0, _ => True
  | k + 1, n =>
      (∃ j ≤ (maxTries - 1).toNat, env.accepts (n + j) = true) ∧
        env.SendsThrough k (env.afterSend n)

instance decidableSendsThrough (env : Env) : ∀ k n, Decidable (env.SendsThrough k n)
  | 0, _ => inferInstanceAs (Decidable True)
  | k + 1, n =>
      haveI := decidableSendsThrough env k (env.afterSend n)
      inferInstanceAs (Decidable ((∃ j ≤ (maxTries - 1).toNat, env.accepts (n + j) = true) ∧
        env.SendsThrough k (env.afterSend n)))

variable {env : Env}

theorem sendsThrough_add (k j n : ℕ) :
    env.SendsThrough (k + j) n ↔
      env.SendsThrough k n ∧ env.SendsThrough j (env.afterSends k n) := by
  induction k generalizing n with
  | zero => simp [SendsThrough, afterSends]
  | succ k ih => rw [Nat.succ_add, SendsThrough, SendsThrough, ih, and_assoc, afterSends]

end Env

section Loops

variable {env : Env} {σ α : Type}

/-- A loop of sends succeeds when all of them come through. -/
theorem andLoop_sends (tried : σ → ℕ) {f : σ → α → σ × Bool}
    (htried : ∀ s a, tried (f s a).1 = env.afterSend (tried s))
    (hsent : ∀ s a, (f s a).2 = true ↔
      ∃ j ≤ (maxTries - 1).toNat, env.accepts (tried s + j) = true) (s : σ) (l : List α) :
    ((andLoop f true s l).2 = true ↔ env.SendsThrough l.length (tried s)) ∧
      ((andLoop f true s l).2 = true →
        tried (andLoop f true s l).1 = env.afterSends l.length (tried s)) := by
  induction l generalizing s with
  | nil => exact ⟨by simp [Env.SendsThrough], fun _ => rfl⟩
  | cons a l ih =>
      rw [andLoop_cons, List.length_cons, Env.SendsThrough, Env.afterSends, ← hsent, ← htried s a]
      cases hr : (f s a).2 with
      | true => simpa using ih (f s a).1
      | false => simp

end Loops

namespace NotificationInterface

variable {ni : NotificationInterface}

theorem sendTries_length (ni : NotificationInterface) (env : Env) (notif : NotificationData)
    (more : ℕ) (idConn : String) (n : ℕ) :
    (ni.sendTries env notif more idConn n).1.length = env.tryCount more n := by
  induction more generalizing idConn n with
  | zero => rfl
  | succ more ih =>
      rw [sendTries, Env.tryCount]
      split_ifs
      · rfl
      · rw [List.length_cons, ih]

/-- A send takes the tries that the environment makes it take. -/
theorem sendNotification_tried (ni : NotificationInterface) (env : Env) (type : NotificationType)
    (src dst idConn data : String) (w : World) :
    (ni.sendNotification env type src dst idConn data (-1) w).1.tried = env.afterSend w.tried :=
  congrArg (w.tried + ·) (ni.sendTries_length env _ _ idConn w.tried)

/-- Of the same calls the messages are the same. -/
theorem Posts.notifs_eq {w w' : World} {l l' : List (String × NotificationData)}
    (h : ni.Posts w l w') (h' : ni.Posts w l' w') : l.map Prod.snd = l'.map Prod.snd := by
  obtain ⟨calls, hsends, hcalls⟩ := h
  obtain ⟨calls', hsends', hcalls'⟩ := h'
  obtain rfl : calls = calls' := List.append_cancel_left (hsends.symm.trans hsends')
  clear hsends hsends'
  induction hcalls generalizing l' with
  | nil =>
      cases hcalls'
      rfl
  | cons hm _ ih =>
      obtain ⟨m', l', hm', hrest, rfl⟩ := List.forall₂_cons_left_iff.1 hcalls'
      obtain ⟨a, ha⟩ := List.exists_mem_of_ne_nil _ hm.1
      rw [List.map_cons, List.map_cons, ih hrest, ← (hm.2 a ha).2, (hm'.2 a ha).2]

end NotificationInterface

/-! ## The updates of a session -/

/-- The message that tells a bookkeeper all about a record. -/
def recordMessage (dump : Json → String) (sessionName bk : String) (m : TransferMetadata) :
    String × NotificationData :=
  (bk, ⟨sessionName, bk, notificationToString .transferMetadata, dump (m.exportJson true)⟩)

namespace TransferMetadata

/-- A record that is flagged throughout is exported whole. -/
theorem exportJson_of_flagged {m : TransferMetadata} (h : m.modifiedFields = Finset.univ) :
    m.exportJson false = m.exportJson true := by
  simp [exportJson, h]

/-- An export without flags has none of the fields, a whole one has all. -/
theorem exportJson_ne {m m' : TransferMetadata} (h : m.modifiedFields = ∅) :
    m.exportJson false ≠ m'.exportJson true := by
  intro heq
  have hnone := m.exportJson_member? false .hash
  have hsome := m'.exportJson_member? true .hash
  rw [← heq, hnone, h] at hsome
  simp at hsome

end TransferMetadata

/-- The text of an exported record tells what was exported. -/
def Distinguishes (dump : Json → String) : Prop :=
  ∀ (m m' : TransferMetadata) (all all' : Bool),
    dump (m.exportJson all) = dump (m'.exportJson all') → m.exportJson all = m'.exportJson all'

namespace TransferSession

/-- A message of the session with the whole of one of the records. -/
def isWhole (dump : Json → String) (sessionName : String) (files : List TransferMetadata)
    (x : String × NotificationData) : Bool :=
  x.2.sourceId = sessionName ∧ x.2.notification = notificationToString .transferMetadata ∧
    x.2.data ∈ files.map fun m => dump (m.exportJson true)

section Updates

variable {s : TransferSession} {env : Env} {dump : Json → String} {b : String}
  {bks : List String} {all : List TransferMetadata}

/-- One export is one send. -/
theorem sendMetadata_sends (s : TransferSession) (env : Env) (dump : Json → String)
    (q : World × TransferMetadata) (bk : String) :
    (s.sendMetadata env dump q bk).1.1.tried = env.afterSend q.1.tried ∧
      ((s.sendMetadata env dump q bk).2 = true ↔
        ∃ j ≤ (maxTries - 1).toNat, env.accepts (q.1.tried + j) = true) :=
  ⟨s.connections.sendNotification_tried env _ _ _ _ _ _,
    s.connections.sendNotification_snd env _ _ _ _ _ _⟩

/-- An update of a record takes as many sends as there are bookkeepers. -/
theorem updateMetadata_sends (s : TransferSession) (env : Env) (dump : Json → String) (w : World)
    (m : TransferMetadata) :
    ((s.updateMetadataToBookkeeper env dump w m).2.2 = true ↔
      env.SendsThrough s.bookkeepersConn.length w.tried) ∧
    ((s.updateMetadataToBookkeeper env dump w m).2.2 = true →
      (s.updateMetadataToBookkeeper env dump w m).1.tried =
        env.afterSends s.bookkeepersConn.length w.tried) :=
  andLoop_sends (fun q : World × TransferMetadata => q.1.tried)
    (fun q bk => (s.sendMetadata_sends env dump q bk).1)
    (fun q bk => (s.sendMetadata_sends env dump q bk).2) (w, m) s.bookkeepersConn

/-- A message to a bookkeeper that is not the first has no field of the record. -/
theorem posts_withoutFlags (all : List TransferMetadata) (hdump : Distinguishes dump)
    (s : TransferSession) (env : Env) (w : World) {m : TransferMetadata}
    (hm : m.modifiedFields = ∅) (bks : List String) :
    ∃ l, s.connections.Posts w l (andLoop (s.sendMetadata env dump) true (w, m) bks).1.1 ∧
      l.filter (isWhole dump s.sessionId all) = [] := by
  refine andLoop_rel (f := s.sendMetadata env dump)
    (R := fun q _ q' => q.2.modifiedFields = ∅ → q'.2.modifiedFields = ∅ ∧
      ∃ l, s.connections.Posts q.1 l q'.1 ∧
        l.filter (isWhole dump s.sessionId all) = [])
    (fun q hq => ⟨hq, [], .refl _ _, rfl⟩) (fun q q₁ q' _ h₁ h₂ hq => ?_) (fun q bk _ hq => ?_)
    (w, m) hm |>.2
  · obtain ⟨hq₁, l₁, hposts₁, hl₁⟩ := h₁ hq
    obtain ⟨hq', l₂, hposts₂, hl₂⟩ := h₂ hq₁
    exact ⟨hq', l₁ ++ l₂, hposts₁.trans hposts₂, by rw [List.filter_append, hl₁, hl₂]; rfl⟩
  · refine ⟨rfl, _, s.connections.posts_sendNotification env _ _ _ _ _ _ _, ?_⟩
    rw [List.filter_eq_nil_iff]
    intro x hx hwhole
    rw [List.mem_singleton.1 hx] at hwhole
    obtain ⟨-, -, hdata⟩ := of_decide_eq_true hwhole
    obtain ⟨m', -, heq⟩ := List.mem_map.1 hdata
    exact TransferMetadata.exportJson_ne hq (hdump _ _ _ _ heq).symm

/-- **An update of a record that is flagged throughout:** the first bookkeeper alone is
sent the whole of it. -/
theorem posts_updateMetadata (hdump : Distinguishes dump) (hbks : s.bookkeepersConn = b :: bks)
    (env : Env) (w : World) {m : TransferMetadata} (hm : m.modifiedFields = Finset.univ)
    (hall : m ∈ all) :
    ∃ l, s.connections.Posts w l (s.updateMetadataToBookkeeper env dump w m).1 ∧
      l.filter (isWhole dump s.sessionId all) =
        [recordMessage dump s.sessionId b m] := by
  have hfirst := s.connections.posts_sendNotification env .transferMetadata s.sessionId b b
    (dump (m.exportJson false)) (-1) w
  have hwhole : isWhole dump s.sessionId all (recordMessage dump s.sessionId b m) = true :=
    decide_eq_true ⟨rfl, rfl, List.mem_map_of_mem hall⟩
  have hmessage : (b, (⟨s.sessionId, b, notificationToString .transferMetadata,
      dump (m.exportJson false)⟩ : NotificationData)) = recordMessage dump s.sessionId b m := by
    rw [recordMessage, TransferMetadata.exportJson_of_flagged hm]
  rw [hmessage] at hfirst
  rw [updateMetadataToBookkeeper, hbks, andLoop_cons]
  cases hr : (s.sendMetadata env dump (w, m) b).2 with
  | false =>
      rw [andLoop_false]
      exact ⟨_, hfirst, by rw [List.filter_cons_of_pos hwhole]; rfl⟩
  | true =>
      obtain ⟨l, hposts, hnone⟩ := posts_withoutFlags all hdump s env
        (s.sendMetadata env dump (w, m) b).1.1 (m := (s.sendMetadata env dump (w, m) b).1.2) rfl bks
      exact ⟨_, hfirst.trans hposts, by rw [List.singleton_append, List.filter_cons_of_pos hwhole,
        hnone]⟩

/-- **The loop over the records** gets through to a part of them, and to all when the
sends for all but the last one come through. -/
theorem posts_updateEach (hdump : Distinguishes dump) (hbks : s.bookkeepersConn = b :: bks)
    (env : Env) {files : List TransferMetadata} (hflags : ∀ m ∈ files,
      m.modifiedFields = Finset.univ) (hall : files ⊆ all) (w : World) :
    ∃ l reached,
      s.connections.Posts w l (andEach (s.updateMetadataToBookkeeper env dump) true w files).1 ∧
      l.filter (isWhole dump s.sessionId all) =
        reached.map (recordMessage dump s.sessionId b) ∧
      reached <+: files ∧
      (reached = files ↔
        env.SendsThrough (s.bookkeepersConn.length * (files.length - 1)) w.tried) := by
  induction files generalizing w with
  | nil => exact ⟨[], [], .refl _ _, rfl, List.prefix_refl _, by simp [Env.SendsThrough]⟩
  | cons m files ih =>
      obtain ⟨hm, hrest⟩ := List.forall_mem_cons.1 hflags
      obtain ⟨hmem, hsub⟩ := List.cons_subset.1 hall
      obtain ⟨l₁, hposts₁, hl₁⟩ := posts_updateMetadata hdump hbks env w hm hmem
      obtain ⟨hiff, htried⟩ := s.updateMetadata_sends env dump w m
      have hlength : s.bookkeepersConn.length * ((m :: files).length - 1) =
          s.bookkeepersConn.length * files.length := rfl
      rw [andEach_cons, hlength]
      cases hr : (s.updateMetadataToBookkeeper env dump w m).2.2 with
      | false =>
          rw [andEach_false]
          refine ⟨l₁, [m], hposts₁, hl₁, List.prefix_append [m] files, ?_⟩
          -- the send that failed is not the last one, unless there is one record only
          cases files with
          | nil => simp [Env.SendsThrough]
          | cons m' files =>
              refine iff_of_false (fun h => ?_) (fun h => ?_)
              · exact absurd (congrArg List.length h) (by simp)
              · rw [List.length_cons, Nat.mul_succ, Nat.add_comm, Env.sendsThrough_add, ← hiff,
                  hr] at h
                exact Bool.false_ne_true h.1
      | true =>
          obtain ⟨l₂, reached, hposts₂, hl₂, hprefix, hreached⟩ :=
            ih hrest hsub (s.updateMetadataToBookkeeper env dump w m).1
          refine ⟨l₁ ++ l₂, m :: reached, hposts₁.trans hposts₂, ?_,
            List.cons_prefix_cons.2 ⟨rfl, hprefix⟩, ?_⟩
          · rw [List.filter_append, hl₁, hl₂]
            rfl
          · rw [List.cons_inj_right, hreached, htried hr]
            cases files with
            | nil => simp [Env.SendsThrough]
            | cons m' files =>
                have hthrough : env.SendsThrough s.bookkeepersConn.length w.tried := hiff.1 hr
                have hsplit : s.bookkeepersConn.length * (m' :: files).length =
                    s.bookkeepersConn.length + s.bookkeepersConn.length * files.length := by
                  rw [List.length_cons, Nat.mul_succ, Nat.add_comm]
                rw [hsplit, Env.sendsThrough_add]
                exact ⟨fun h => ⟨hthrough, h⟩, fun h => h.2⟩

/-- **What the update of all records sends whole:** to the first bookkeeper a part of
the records, and all of them when the sends before the last record's come through. -/
theorem posts_updateMetadatas (hdump : Distinguishes dump) (hbks : s.bookkeepersConn = b :: bks)
    (env : Env) (hflags : ∀ m ∈ s.files, m.modifiedFields = Finset.univ) (hfiles : s.files ≠ [])
    (w : World) :
    ∃ l reached, s.connections.Posts w l (s.updateMetadatasToBookkeeper env dump w).1 ∧
      l.filter (isWhole dump s.sessionId s.files) =
        reached.map (recordMessage dump s.sessionId b) ∧
      reached <+: s.files ∧
      (reached = s.files ↔
        env.SendsThrough (s.bookkeepersConn.length * s.files.length) w.tried) := by
  have hgroup : ∃ l, s.connections.Posts w l
        (andLoop (s.sendGroup env dump) true w s.bookkeepersConn).1 ∧
      l.filter (isWhole dump s.sessionId s.files) = [] := by
    refine andLoop_rel (f := s.sendGroup env dump)
      (R := fun w _ w' => ∃ l, s.connections.Posts w l w' ∧
        l.filter (isWhole dump s.sessionId s.files) = [])
      (fun w => ⟨[], .refl _ _, rfl⟩) (fun w w₁ w' _ h₁ h₂ => ?_) (fun w bk _ => ?_) w
    · obtain ⟨l₁, hposts₁, hl₁⟩ := h₁
      obtain ⟨l₂, hposts₂, hl₂⟩ := h₂
      exact ⟨l₁ ++ l₂, hposts₁.trans hposts₂, by rw [List.filter_append, hl₁, hl₂]; rfl⟩
    · refine ⟨_, s.connections.posts_sendNotification env _ _ _ _ _ _ _, ?_⟩
      rw [List.filter_eq_nil_iff]
      intro x hx hwhole
      rw [List.mem_singleton.1 hx] at hwhole
      have hkind : notificationToString .groupMetadata = notificationToString .transferMetadata :=
        (of_decide_eq_true hwhole).2.1
      exact absurd hkind (by decide)
  obtain ⟨hiff, htried⟩ := andLoop_sends World.tried (f := s.sendGroup env dump)
    (fun w bk => s.connections.sendNotification_tried env _ _ _ _ _ w)
    (fun w bk => s.connections.sendNotification_snd env _ _ _ _ _ w) w s.bookkeepersConn
  obtain ⟨l₁, hposts₁, hl₁⟩ := hgroup
  have hsplit : s.bookkeepersConn.length * s.files.length =
      s.bookkeepersConn.length + s.bookkeepersConn.length * (s.files.length - 1) := by
    obtain ⟨n, hn⟩ := Nat.exists_eq_succ_of_ne_zero (List.length_eq_zero_iff.not.2 hfiles)
    rw [hn, Nat.mul_succ, Nat.succ_sub_one, Nat.add_comm]
  rw [updateMetadatasToBookkeeper, hsplit, Env.sendsThrough_add, ← hiff]
  dsimp only
  cases hr : (andLoop (s.sendGroup env dump) true w s.bookkeepersConn).2 with
  | false =>
      rw [andEach_false]
      refine ⟨l₁, [], hposts₁, hl₁, List.nil_prefix, ?_⟩
      exact iff_of_false (fun h => hfiles h.symm) (fun h => Bool.false_ne_true h.1)
  | true =>
      obtain ⟨l₂, reached, hposts₂, hl₂, hprefix, hreached⟩ := posts_updateEach hdump hbks env
        hflags (List.Subset.refl _) (andLoop (s.sendGroup env dump) true w s.bookkeepersConn).1
      refine ⟨l₁ ++ l₂, reached, hposts₁.trans hposts₂, ?_, hprefix, ?_⟩
      · rw [List.filter_append, hl₁, hl₂]
        rfl
      · rw [hreached, htried hr]
        exact ⟨fun h => ⟨rfl, h⟩, fun h => h.2⟩

end Updates

end TransferSession

end Transfer
end SNBModules
