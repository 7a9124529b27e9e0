import Mathlib.Algebra.BigOperators.Group.List.Basic
import Mathlib.Algebra.GroupWithZero.Nat
import Mathlib.Data.List.Forall2
import Mathlib.Data.List.Nodup
import Mathlib.Data.List.Perm.Basic

/-!
# Accounting for a list of agents

A system of any number of agents keeps them in a list: one changes its state,
one leaves.  What the list holds together is then followed up to order or by
counting.  Where two lists run in parallel, an agent in one and what is known of
it in the other, `List.Forall₂` relates them place by place.
-/

namespace SNBModules
namespace Lib

variable {α β : Type*}

/-- One agent changes its state: what it was and what it becomes, counted. -/
theorem count_set_add [DecidableEq α] {l : List α} {i : ℕ} {a : α} (h : l[i]? = some a) (b c : α) :
    (l.set i b).count c + [a].count c = l.count c + [b].count c := by
  obtain ⟨hi, rfl⟩ := List.getElem?_eq_some_iff.1 h
  have h₁ := (List.set_perm_cons_eraseIdx hi b).count_eq c
  have h₂ := (List.getElem_cons_eraseIdx_perm hi).count_eq c
  rw [List.count_cons] at h₁ h₂
  rw [List.count_singleton, List.count_singleton]
  omega

/-- Taking one agent away, up to order. -/
theorem flatMap_eraseIdx_perm (f : α → List β) {l : List α} {i : ℕ} {a : α} (h : l[i]? = some a) :
    (f a ++ (l.eraseIdx i).flatMap f).Perm (l.flatMap f) := by
  obtain ⟨hi, rfl⟩ := List.getElem?_eq_some_iff.1 h
  simpa using (List.getElem_cons_eraseIdx_perm hi).flatMap_right f

/-- Taking one agent away, counted. -/
theorem count_map_eraseIdx [DecidableEq β] (f : α → β) {l : List α} {i : ℕ} {a : α}
    (h : l[i]? = some a) (b : β) :
    ((l.eraseIdx i).map f).count b + [f a].count b = (l.map f).count b := by
  obtain ⟨hi, rfl⟩ := List.getElem?_eq_some_iff.1 h
  have hp := ((List.getElem_cons_eraseIdx_perm hi).map f).count_eq b
  rw [List.map_cons, List.count_cons] at hp
  rw [List.count_singleton]
  exact hp

/-- Taking one agent away, measured. -/
theorem sum_map_eraseIdx (f : α → ℕ) {l : List α} {i : ℕ} {a : α} (h : l[i]? = some a) :
    ((l.eraseIdx i).map f).sum + f a = (l.map f).sum := by
  obtain ⟨hi, rfl⟩ := List.getElem?_eq_some_iff.1 h
  have hp := ((List.getElem_cons_eraseIdx_perm hi).map f).sum_eq
  rw [List.map_cons, List.sum_cons] at hp
  omega

/-- One agent changes its state, measured. -/
theorem sum_map_set (f : α → ℕ) {l : List α} {i : ℕ} {a : α} (h : l[i]? = some a) (b : α) :
    ((l.set i b).map f).sum + f a = (l.map f).sum + f b := by
  have hi := (List.getElem?_eq_some_iff.1 h).1
  have hp := ((List.set_perm_cons_eraseIdx hi b).map f).sum_eq
  have he := sum_map_eraseIdx f h
  rw [List.map_cons, List.sum_cons] at hp
  omega

/-- What the agents hold together without repetition, one agent holds. -/
theorem countP_mem_eq_one [DecidableEq β] (f : α → List β) {l : List α} {b : β}
    (hnd : (l.flatMap f).Nodup) (hb : b ∈ l.flatMap f) : l.countP (fun a => b ∈ f a) = 1 := by
  induction l with
  | nil => exact absurd hb List.not_mem_nil
  | cons a l ih =>
      obtain ⟨-, hnd, hdisj⟩ := List.nodup_append.1 hnd
      by_cases ha : b ∈ f a
      · have hrest : l.countP (fun a => b ∈ f a) = 0 := by
          refine List.countP_eq_zero.2 fun c hc hbc => ?_
          exact hdisj b ha b (List.mem_flatMap.2 ⟨c, hc, of_decide_eq_true hbc⟩) rfl
        rw [List.countP_cons_of_pos (by simpa using ha), hrest]
      · rw [List.countP_cons_of_neg (by simpa using ha)]
        exact ih hnd ((List.mem_append.1 hb).resolve_left ha)

/-! ### Two lists in parallel -/

section Parallel

variable {R : α → β → Prop} {l : List α} {m : List β}

/-- What an element of the second list belongs to. -/
theorem forall₂_exists_left (h : List.Forall₂ R l m) {b : β} (hb : b ∈ m) : ∃ a ∈ l, R a b := by
  induction h with
  | nil => cases hb
  | @cons a b' l m hab _ ih =>
      rcases List.mem_cons.1 hb with rfl | hb
      · exact ⟨a, List.mem_cons_self, hab⟩
      · obtain ⟨a', ha', hR⟩ := ih hb
        exact ⟨a', List.mem_cons_of_mem _ ha', hR⟩

/-- What stands at one place is related. -/
theorem forall₂_getElem? (h : List.Forall₂ R l m) {i : ℕ} {a : α} {b : β} (ha : l[i]? = some a)
    (hb : m[i]? = some b) : R a b := by
  obtain ⟨hi, rfl⟩ := List.getElem?_eq_some_iff.1 ha
  obtain ⟨hi', rfl⟩ := List.getElem?_eq_some_iff.1 hb
  exact h.get hi hi'

/-- One agent leaves, in both lists. -/
theorem forall₂_eraseIdx (h : List.Forall₂ R l m) (i : ℕ) :
    List.Forall₂ R (l.eraseIdx i) (m.eraseIdx i) := by
  induction h generalizing i with
  | nil => exact List.Forall₂.nil
  | cons hab h ih =>
      cases i with
      | zero => exact h
      | succ i => exact List.Forall₂.cons hab (ih i)

/-- What is known of one agent changes. -/
theorem forall₂_set_right (h : List.Forall₂ R l m) {i : ℕ} {b : β}
    (hb : ∀ a, l[i]? = some a → R a b) : List.Forall₂ R l (m.set i b) := by
  induction h generalizing i with
  | nil => exact List.Forall₂.nil
  | cons hab h ih =>
      cases i with
      | zero => exact List.Forall₂.cons (hb _ rfl) h
      | succ i => exact List.Forall₂.cons hab (ih hb)

/-- An agent and what is known of it change together. -/
theorem forall₂_set (h : List.Forall₂ R l m) (i : ℕ) {a : α} {b : β} (hab : R a b) :
    List.Forall₂ R (l.set i a) (m.set i b) := by
  induction h generalizing i with
  | nil => exact List.Forall₂.nil
  | cons hc h ih =>
      cases i with
      | zero => exact List.Forall₂.cons hab h
      | succ i => exact List.Forall₂.cons hc (ih i)

/-- The relation of the agents that are there can be weakened. -/
theorem forall₂_imp_of_mem {S : α → β → Prop} (h : List.Forall₂ R l m)
    (hRS : ∀ a ∈ l, ∀ b, R a b → S a b) : List.Forall₂ S l m := by
  induction h with
  | nil => exact List.Forall₂.nil
  | cons hab h ih =>
      exact List.Forall₂.cons (hRS _ List.mem_cons_self _ hab)
        (ih fun a ha => hRS a (List.mem_cons_of_mem _ ha))

end Parallel

end Lib
end SNBModules
