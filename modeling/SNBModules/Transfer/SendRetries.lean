import SNBModules.Transfer.Notification

/-!
# The retries of a send

Source: `notification_interface.cpp`, `send_notification`.

The function calls itself for every retry, with one try less and with the name of
the connection that it found.  A retry that would start with `-1` tries would get
the default number again; none does, since the function gives up at one try
(`sendNotificationCall` terminates).  `sendTries` and `sendNotification` of
`SNBModules.Transfer.Notification` are this recursion (`sendNotificationCall_eq`).
-/

namespace SNBModules
namespace Transfer

namespace NotificationInterface

/-- The number of tries that a call has, `m_max_tries` for `-1`. -/
def triesOf (tries : ℤ) : ℤ := if tries = -1 then maxTries else tries

theorem triesOf_sub_one {tries : ℤ} (h : ¬ triesOf tries ≤ 1) :
    triesOf (triesOf tries - 1) = triesOf tries - 1 := by
  rw [triesOf, if_neg (by omega)]

/-- A call of `send_notification` and the calls that it makes of itself, from the
`n`-th `try_send` on: the attempts, and what is returned. -/
def sendNotificationCall (ni : NotificationInterface) (env : Env) (type : NotificationType)
    (src dst idConn data : String) (tries : ℤ) (n : ℕ) : List Attempt × Bool :=
  let realConnId := ni.realConnId idConn
  let notifData : NotificationData := ⟨src, dst, notificationToString type, data⟩
  let result := env.accepts n
  if result = false then
    if triesOf tries ≤ 1 then ([⟨realConnId, notifData, result⟩], false)
    else
      let rest :=
        ni.sendNotificationCall env type src dst realConnId data (triesOf tries - 1) (n + 1)
      (⟨realConnId, notifData, result⟩ :: rest.1, rest.2)
  else ([⟨realConnId, notifData, result⟩], result)
termination_by (triesOf tries).toNat
decreasing_by
  rename_i hmore
  rw [triesOf_sub_one hmore]
  omega

section Attempts

variable (ni : NotificationInterface) (env : Env) (type : NotificationType)
  (src dst idConn data : String)

/-- **The recursion over the tries left is one over a counter.** -/
theorem sendNotificationCall_eq (tries : ℤ) (n : ℕ) :
    ni.sendNotificationCall env type src dst idConn data tries n =
      ni.sendTries env ⟨src, dst, notificationToString type, data⟩ (triesOf tries - 1).toNat
        idConn n := by
  induction hmore : (triesOf tries - 1).toNat generalizing idConn tries n with
  | zero =>
      have hlast : triesOf tries ≤ 1 := by omega
      rw [sendNotificationCall, sendTries]
      cases hok : env.accepts n <;> simp [hlast]
  | succ more ih =>
      have hretry : ¬ triesOf tries ≤ 1 := by omega
      have hrest : (triesOf (triesOf tries - 1) - 1).toNat = more := by
        rw [triesOf_sub_one hretry]
        omega
      rw [sendNotificationCall, sendTries]
      cases hok : env.accepts n
      · simp [hretry, ih (ni.realConnId idConn) _ (n + 1) hrest]
      · simp

/-- `send_notification` makes the attempts of the recursion. -/
theorem sendNotification_eq_call (tries : ℤ) (w : World) :
    ni.sendNotification env type src dst idConn data tries w =
      let r := ni.sendNotificationCall env type src dst idConn data tries w.tried
      ({ w with tried := w.tried + r.1.length, sends := w.sends ++ [r.1] }, r.2) := by
  simp only [sendNotificationCall_eq]
  rfl

/-! ## The attempts of a call -/

/-- Each attempt has the outcome of its `try_send`; all but the last one failed, and
the last one went through unless no try was left. -/
theorem sendTries_outcomes (notif : NotificationData) (more : ℕ) (n : ℕ) :
    let attempts := (ni.sendTries env notif more idConn n).1
    attempts.length ≤ more + 1 ∧
    (∀ k a, attempts[k]? = some a → a.ok = env.accepts (n + k)) ∧
    (∀ a ∈ attempts.dropLast, a.ok = false) ∧
    (attempts.any Attempt.ok = false → attempts.length = more + 1) := by
  induction more generalizing idConn n with
  | zero =>
      refine ⟨Nat.le_refl 1, fun k a hk => ?_, by simp [sendTries], fun _ => rfl⟩
      cases k with
      | zero =>
          obtain rfl := Option.some.inj hk
          rfl
      | succ k => cases hk
  | succ more ih =>
      rw [sendTries]
      cases hok : env.accepts n with
      | true =>
          refine ⟨by simp, fun k a hk => ?_, by simp, by simp⟩
          cases k with
          | zero =>
              obtain rfl := Option.some.inj hk
              exact hok.symm
          | succ k => cases hk
      | false =>
          obtain ⟨hlength, houtcomes, hfailed, hall⟩ := ih (ni.realConnId idConn) (n + 1)
          obtain ⟨hne, -, -⟩ := ni.sendTries_fst env notif more (ni.realConnId idConn) (n + 1)
          simp only [Bool.false_eq_true, if_false]
          refine ⟨Nat.succ_le_succ hlength, fun k a hk => ?_, fun a ha => ?_, fun hany => ?_⟩
          · cases k with
            | zero =>
                obtain rfl := Option.some.inj hk
                exact hok.symm
            | succ k =>
                rw [houtcomes k a hk]
                congr 1
                omega
          · rw [List.dropLast_cons_of_ne_nil hne] at ha
            rcases List.mem_cons.1 ha with rfl | ha
            · rfl
            · exact hfailed a ha
          · rw [List.length_cons, hall (by simpa using hany)]

end Attempts

/-- **The retries of `send_notification`.**  For any connections, arguments and
outcomes of the `try_send`s, the call returns after at most `max 1 n` attempts for
`n` tries; each attempt is made with the next `try_send`, with the same message on
the same connection; the first success is the last attempt; only a call that has
used its tries up gives up; and it returns whether an attempt has succeeded. -/
theorem send_retries (ni : NotificationInterface) (env : Env) (type : NotificationType)
    (src dst idConn data : String) (tries : ℤ) (n : ℕ) :
    let r := ni.sendNotificationCall env type src dst idConn data tries n
    1 ≤ r.1.length ∧ r.1.length ≤ max 1 (triesOf tries).toNat ∧
    (∀ a ∈ r.1, a.conn = ni.realConnId idConn ∧
      a.notif = ⟨src, dst, notificationToString type, data⟩) ∧
    (∀ k a, r.1[k]? = some a → a.ok = env.accepts (n + k)) ∧
    (∀ a ∈ r.1.dropLast, a.ok = false) ∧
    (r.2 = false → r.1.length = max 1 (triesOf tries).toNat) ∧
    (r.2 = true ↔ ∃ a ∈ r.1, a.ok = true) := by
  rw [sendNotificationCall_eq]
  obtain ⟨hne, hsame, hany⟩ := ni.sendTries_fst env
    ⟨src, dst, notificationToString type, data⟩ (triesOf tries - 1).toNat idConn n
  obtain ⟨hlength, houtcomes, hfailed, hall⟩ := ni.sendTries_outcomes env idConn
    ⟨src, dst, notificationToString type, data⟩ (triesOf tries - 1).toNat n
  have hmax : (triesOf tries - 1).toNat + 1 = max 1 (triesOf tries).toNat := by omega
  rw [hmax] at hlength hall
  refine ⟨List.length_pos_iff.2 hne, hlength, hsame, houtcomes, hfailed, fun hfalse => ?_, ?_⟩
  · exact hall (hany.trans hfalse)
  · rw [← hany, List.any_eq_true]

end NotificationInterface

end Transfer
end SNBModules
