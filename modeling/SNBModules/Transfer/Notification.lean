import Mathlib.Data.List.Infix
import SNBModules.Transfer.Types

/-!
# Sending notifications

Source: `notification_interface.hpp` and `notification_interface.cpp`.

`send_notification` looks for a connection whose name contains the one it is
given, the connections of clients last, and tries to send up to a number of
times; every retry looks the connection up again, from the name found before.

What is outside the program is an `Env`: whether the `n`-th `try_send` goes
through, and what the `n`-th reading of the system clock is.  A `World` counts
both and keeps what was sent.
-/

namespace SNBModules
namespace Transfer

/-- `text.find(part) != npos`. -/
def containsText (text part : String) : Bool := part.toList <:+: text.toList

/-- The connections of a `NotificationInterface`; the clients are in the order of
their `std::set`. -/
structure NotificationInterface where
  bookkeepersConn : List String
  clientsConn : List String
  deriving DecidableEq, Repr

/-- The outcome of every `try_send` and every reading of the clock. -/
structure Env where
  accepts : ℕ → Bool
  clock : ℕ → ℤ

/-- One `try_send`: the connection, the message, and whether it went through. -/
structure Attempt where
  conn : String
  notif : NotificationData
  ok : Bool
  deriving DecidableEq, Repr

/-- How often the environment was asked, and the attempts of every call of
`send_notification`. -/
structure World where
  tried : ℕ
  ticks : ℕ
  sends : List (List Attempt)
  deriving DecidableEq, Repr

/-- `m_max_tries`. -/
def maxTries : ℤ := 3

namespace NotificationInterface

/-- The connection that `send_notification` sends on. -/
def realConnId (ni : NotificationInterface) (idConn : String) : String :=
  let realConnId := (ni.bookkeepersConn.find? fun conn => containsText conn idConn).getD idConn
  (ni.clientsConn.find? fun conn => containsText conn idConn).getD realConnId

/-- The tries of `send_notification` from the `n`-th `try_send` on, when `more`
of them may follow the first. -/
def sendTries (ni : NotificationInterface) (env : Env) (notif : NotificationData) :
    ℕ → String → ℕ → List Attempt × Bool
  | 0, idConn, n => ([⟨ni.realConnId idConn, notif, env.accepts n⟩], env.accepts n)
  | more + 1, idConn, n =>
      if env.accepts n then
        ([⟨ni.realConnId idConn, notif, true⟩], true)
      else
        let rest := ni.sendTries env notif more (ni.realConnId idConn) (n + 1)
        (⟨ni.realConnId idConn, notif, false⟩ :: rest.1, rest.2)

/-- `send_notification`; `tries` is `-1` where the source leaves it out. -/
def sendNotification (ni : NotificationInterface) (env : Env) (type : NotificationType)
    (src dst idConn data : String) (tries : ℤ) (w : World) : World × Bool :=
  let tries := if tries = -1 then maxTries else tries
  let notif := ⟨src, dst, notificationToString type, data⟩
  let result := ni.sendTries env notif (tries - 1).toNat idConn w.tried
  ({ w with tried := w.tried + result.1.length, sends := w.sends ++ [result.1] }, result.2)

end NotificationInterface

/-- `system_clock::now()`. -/
def World.now (env : Env) (w : World) : ℤ := env.clock w.ticks

/-- After a reading of the clock. -/
def World.tick (w : World) : World := { w with ticks := w.ticks + 1 }

/-- One of the tries of a send that starts now goes through. -/
def Env.Delivers (env : Env) (w : World) : Prop :=
  ∃ k ≤ (maxTries - 1).toNat, env.accepts (w.tried + k) = true

instance (env : Env) (w : World) : Decidable (env.Delivers w) :=
  inferInstanceAs (Decidable (∃ k ≤ (maxTries - 1).toNat, env.accepts (w.tried + k) = true))

/-! ## The connection that is found -/

theorem containsText_refl (text : String) : containsText text text = true := by
  simp [containsText]

theorem containsText_trans {a b c : String} (hab : containsText a b) (hbc : containsText b c) :
    containsText a c := by
  simp only [containsText, decide_eq_true_eq] at *
  exact hbc.trans hab

/-- The first element to pass a test is the first to pass any narrower test that
it passes. -/
theorem find?_eq_some_of_imp {α : Type} {p q : α → Bool} {l : List α} {a : α}
    (h : l.find? p = some a) (hqp : ∀ x, q x → p x) (ha : q a) : l.find? q = some a := by
  obtain ⟨hp, as, bs, rfl, hbefore⟩ := List.find?_eq_some_iff_append.1 h
  refine List.find?_eq_some_iff_append.2 ⟨ha, as, bs, rfl, fun x hx => ?_⟩
  have hnp : p x = false := by simpa using hbefore x hx
  cases hq : q x with
  | false => rfl
  | true => rw [hqp x hq] at hnp; cases hnp

theorem find?_eq_none_of_imp {α : Type} {p q : α → Bool} {l : List α}
    (h : l.find? p = none) (hqp : ∀ x, q x → p x) : l.find? q = none := by
  rw [List.find?_eq_none] at *
  exact fun x hx hq => h x hx (hqp x hq)

namespace NotificationInterface

variable {ni : NotificationInterface} {env : Env}

/-- **A retry uses the same connection:** the name that was found is found again. -/
theorem realConnId_realConnId (ni : NotificationInterface) (idConn : String) :
    ni.realConnId (ni.realConnId idConn) = ni.realConnId idConn := by
  cases hc : ni.clientsConn.find? fun conn => containsText conn idConn with
  | some c =>
      have hreal : ni.realConnId idConn = c := by simp [realConnId, hc]
      have hcid := List.find?_some (p := fun conn => containsText conn idConn) hc
      have hagain := find?_eq_some_of_imp (q := fun conn => containsText conn c) hc
        (fun x hx => containsText_trans hx hcid) (containsText_refl c)
      rw [hreal, realConnId, hagain]
      rfl
  | none =>
      cases hb : ni.bookkeepersConn.find? fun conn => containsText conn idConn with
      | some b =>
          have hreal : ni.realConnId idConn = b := by simp [realConnId, hc, hb]
          have hbid := List.find?_some (p := fun conn => containsText conn idConn) hb
          have hagain := find?_eq_some_of_imp (q := fun conn => containsText conn b) hb
            (fun x hx => containsText_trans hx hbid) (containsText_refl b)
          have hnone := find?_eq_none_of_imp (q := fun conn => containsText conn b) hc
            fun x hx => containsText_trans hx hbid
          rw [hreal, realConnId, hagain, hnone]
          rfl
      | none =>
          have hreal : ni.realConnId idConn = idConn := by simp [realConnId, hc, hb]
          rw [hreal, hreal]

/-! ## The tries -/

/-- A send goes through when one of its tries does. -/
theorem sendTries_snd (ni : NotificationInterface) (env : Env) (notif : NotificationData)
    (more : ℕ) (idConn : String) (n : ℕ) :
    (ni.sendTries env notif more idConn n).2 = true ↔ ∃ k ≤ more, env.accepts (n + k) = true := by
  induction more generalizing idConn n with
  | zero => simp [sendTries]
  | succ more ih =>
      rw [sendTries]
      split_ifs with h
      · simp only [true_iff]
        exact ⟨0, Nat.zero_le _, h⟩
      · rw [ih]
        constructor
        · rintro ⟨k, hk, hok⟩
          exact ⟨k + 1, by omega, by rw [show n + (k + 1) = n + 1 + k by omega]; exact hok⟩
        · rintro ⟨k, hk, hok⟩
          cases k with
          | zero => exact absurd hok h
          | succ k => exact ⟨k, by omega, by rw [show n + 1 + k = n + (k + 1) by omega]; exact hok⟩

/-- **What one send does:** every try carries the same message on the same
connection, and the send has gone through when one of them has. -/
theorem sendTries_fst (ni : NotificationInterface) (env : Env) (notif : NotificationData)
    (more : ℕ) (idConn : String) (n : ℕ) :
    (ni.sendTries env notif more idConn n).1 ≠ [] ∧
    (∀ a ∈ (ni.sendTries env notif more idConn n).1,
      a.conn = ni.realConnId idConn ∧ a.notif = notif) ∧
    (ni.sendTries env notif more idConn n).1.any Attempt.ok =
      (ni.sendTries env notif more idConn n).2 := by
  induction more generalizing idConn n with
  | zero => simp [sendTries]
  | succ more ih =>
      rw [sendTries]
      split_ifs with h
      · simp
      · obtain ⟨-, hsame, hany⟩ := ih (ni.realConnId idConn) (n + 1)
        rw [realConnId_realConnId] at hsame
        refine ⟨by simp, fun a ha => ?_, by simpa using hany⟩
        rcases List.mem_cons.1 ha with rfl | ha
        · exact ⟨rfl, rfl⟩
        · exact hsame a ha

/-- A send with the usual number of tries goes through when one of the next three
`try_send` does. -/
theorem sendNotification_snd (ni : NotificationInterface) (env : Env) (type : NotificationType)
    (src dst idConn data : String) (w : World) :
    (ni.sendNotification env type src dst idConn data (-1) w).2 = true ↔ env.Delivers w :=
  sendTries_snd ni env _ _ idConn w.tried

/-- What a send adds to the record of the sends. -/
theorem sendNotification_sends (ni : NotificationInterface) (env : Env) (type : NotificationType)
    (src dst idConn data : String) (tries : ℤ) (w : World) :
    ∃ attempts : List Attempt,
      (ni.sendNotification env type src dst idConn data tries w).1.sends = w.sends ++ [attempts] ∧
      attempts ≠ [] ∧
      (∀ a ∈ attempts, a.conn = ni.realConnId idConn ∧
        a.notif = ⟨src, dst, notificationToString type, data⟩) ∧
      attempts.any Attempt.ok =
        (ni.sendNotification env type src dst idConn data tries w).2 :=
  ⟨_, rfl, sendTries_fst ni env _ _ idConn w.tried⟩

/-! ## Calls in a row -/

/-- From one world to the other `send_notification` was called for these connections
and messages, in this order.  Every call made at least one try. -/
def Posts (ni : NotificationInterface) (w : World) (l : List (String × NotificationData))
    (w' : World) : Prop :=
  ∃ calls, w'.sends = w.sends ++ calls ∧
    List.Forall₂ (fun attempts m => attempts ≠ [] ∧
      ∀ a ∈ attempts, a.conn = ni.realConnId m.1 ∧ a.notif = m.2) calls l

theorem Posts.refl (ni : NotificationInterface) (w : World) : ni.Posts w [] w :=
  ⟨[], (List.append_nil _).symm, List.Forall₂.nil⟩

theorem Posts.trans {w w₁ w₂ : World} {l₁ l₂ : List (String × NotificationData)}
    (h₁ : ni.Posts w l₁ w₁) (h₂ : ni.Posts w₁ l₂ w₂) : ni.Posts w (l₁ ++ l₂) w₂ := by
  obtain ⟨calls₁, hsends₁, hcalls₁⟩ := h₁
  obtain ⟨calls₂, hsends₂, hcalls₂⟩ := h₂
  refine ⟨calls₁ ++ calls₂, ?_, List.rel_append hcalls₁ hcalls₂⟩
  rw [hsends₂, hsends₁, List.append_assoc]

theorem posts_sendNotification (ni : NotificationInterface) (env : Env) (type : NotificationType)
    (src dst idConn data : String) (tries : ℤ) (w : World) :
    ni.Posts w [(idConn, ⟨src, dst, notificationToString type, data⟩)]
      (ni.sendNotification env type src dst idConn data tries w).1 := by
  obtain ⟨attempts, hsends, hne, hsame, -⟩ :=
    ni.sendNotification_sends env type src dst idConn data tries w
  exact ⟨[attempts], hsends, List.Forall₂.cons ⟨hne, hsame⟩ List.Forall₂.nil⟩

end NotificationInterface

end Transfer
end SNBModules
