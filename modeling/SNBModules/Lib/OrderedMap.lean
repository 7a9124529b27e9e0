import Mathlib.Data.List.Basic
import Mathlib.Order.Lattice
import Mathlib.Tactic.SplitIfs

/-!
# Ordered maps

A `std::map` as the list of its members in the order of their keys, read with
`List.lookup`.  `assign` inserts or replaces a member, `getOrNew` is the
`operator[]` that makes a member where there is none, `remove` erases one.  A
lookup sees each of them at its own key alone, and they keep the keys in order
(`KeysOrdered`), so that a lookup finds every member.
-/

namespace SNBModules
namespace Lib

variable {κ α : Type*} [DecidableEq κ]

/-- Insert or replace a member. -/
def assign [LT κ] [DecidableLT κ] (k : κ) (v : α) : List (κ × α) → List (κ × α)
  | [] => [(k, v)]
  | (k', v') :: l =>
      if k = k' then (k, v) :: l
      else if k < k' then (k, v) :: (k', v') :: l
      else (k', v') :: assign k v l

/-- Erase a member. -/
def remove (k : κ) (l : List (κ × α)) : List (κ × α) := l.filter fun m => m.1 ≠ k

/-- The value at a key, or the one that a new member has. -/
def getOrNew (new : α) (k : κ) (l : List (κ × α)) : α := (l.lookup k).getD new

theorem lookup_cons_ite (k k' : κ) (v : α) (l : List (κ × α)) :
    ((k, v) :: l).lookup k' = if k' = k then some v else l.lookup k' := by
  by_cases h : k' = k
  · simp [h]
  · rw [List.lookup_cons, beq_false_of_ne h, if_neg h]

/-- A member that was assigned is read back, and no other changes. -/
@[simp] theorem lookup_assign [LT κ] [DecidableLT κ] (k k' : κ) (v : α) (l : List (κ × α)) :
    (assign k v l).lookup k' = if k' = k then some v else l.lookup k' := by
  induction l with
  | nil => exact lookup_cons_ite k k' v []
  | cons m l ih =>
      obtain ⟨k₀, v₀⟩ := m
      rw [assign, lookup_cons_ite]
      split_ifs <;> grind [lookup_cons_ite]

/-- The same of the `operator[]`. -/
theorem getOrNew_assign [LT κ] [DecidableLT κ] (new : α) (k k' : κ) (v : α) (l : List (κ × α)) :
    getOrNew new k' (assign k v l) = if k' = k then v else getOrNew new k' l := by
  rw [getOrNew, getOrNew, lookup_assign]
  split_ifs <;> rfl

/-- A member that was erased is gone, and no other changes. -/
@[simp] theorem lookup_remove (k k' : κ) (l : List (κ × α)) :
    (remove k l).lookup k' = if k' = k then none else l.lookup k' := by
  induction l with
  | nil => simp [remove]
  | cons m l ih =>
      obtain ⟨k₀, v₀⟩ := m
      have ih : (l.filter fun m => m.1 ≠ k).lookup k' = if k' = k then none else l.lookup k' := ih
      rw [remove, List.filter_cons, lookup_cons_ite]
      split_ifs <;> grind [lookup_cons_ite]

/-- What is looked up is a member. -/
theorem mem_of_lookup {k : κ} {v : α} {l : List (κ × α)} (h : l.lookup k = some v) :
    (k, v) ∈ l := by
  obtain ⟨pre, post, rfl, -⟩ := List.lookup_eq_some_iff.1 h
  exact List.mem_append_right pre List.mem_cons_self

/-- The members after an assignment. -/
theorem mem_assign [LT κ] [DecidableLT κ] {k : κ} {v : α} {l : List (κ × α)} {e : κ × α}
    (h : e ∈ assign k v l) : e = (k, v) ∨ e ∈ l := by
  induction l with
  | nil => exact Or.inl (List.mem_singleton.1 h)
  | cons m l ih =>
      obtain ⟨k₀, v₀⟩ := m
      rw [assign] at h
      split_ifs at h <;> grind

/-- The members after one was erased. -/
theorem mem_remove {k : κ} {l : List (κ × α)} {e : κ × α} :
    e ∈ remove k l ↔ e ∈ l ∧ e.1 ≠ k := by
  simp [remove]

/-! ### The order of the keys -/

section Ordered

variable {ι : Type*} [LinearOrder ι] {l : List (ι × α)}

/-- The keys are in strictly increasing order, so each stands once. -/
def KeysOrdered (l : List (ι × α)) : Prop := (l.map Prod.fst).Pairwise (· < ·)

theorem keysOrdered_nil : KeysOrdered ([] : List (ι × α)) := List.Pairwise.nil

/-- A member is what its key is looked up as. -/
theorem KeysOrdered.lookup_of_mem (h : KeysOrdered l) {e : ι × α} (he : e ∈ l) :
    l.lookup e.1 = some e.2 := by
  induction l with
  | nil => cases he
  | cons m l ih =>
      obtain ⟨hhead, htail⟩ := List.pairwise_cons.1 h
      rw [lookup_cons_ite]
      rcases List.mem_cons.1 he with rfl | he
      · exact if_pos rfl
      · rw [if_neg (hhead e.1 (List.mem_map_of_mem he)).ne']
        exact ih htail he

/-- An assignment keeps the order. -/
theorem KeysOrdered.assign (h : KeysOrdered l) (k : ι) (v : α) : KeysOrdered (assign k v l) := by
  induction l with
  | nil => exact List.pairwise_singleton _ _
  | cons m l ih =>
      obtain ⟨k₀, v₀⟩ := m
      obtain ⟨hhead, htail⟩ := List.pairwise_cons.1 h
      rw [Lib.assign]
      split_ifs with heq hlt
      · exact List.pairwise_cons.2 ⟨fun k' hk' => heq ▸ hhead k' hk', htail⟩
      · refine List.pairwise_cons.2 ⟨fun k' hk' => ?_, h⟩
        rcases List.mem_cons.1 hk' with rfl | hk'
        · exact hlt
        · exact hlt.trans (hhead k' hk')
      · refine List.pairwise_cons.2 ⟨fun k' hk' => ?_, ih htail⟩
        obtain ⟨e, he, rfl⟩ := List.mem_map.1 hk'
        rcases mem_assign he with rfl | he
        · exact lt_of_le_of_ne (not_lt.1 hlt) (Ne.symm heq)
        · exact hhead e.1 (List.mem_map_of_mem he)

/-- So does an erasure. -/
theorem KeysOrdered.remove (h : KeysOrdered l) (k : ι) : KeysOrdered (remove k l) :=
  h.sublist (List.filter_sublist.map Prod.fst)

/-- The first member with a greater key is the one behind. -/
theorem KeysOrdered.find?_next {pre post : List (ι × α)} {e : ι × α}
    (h : KeysOrdered (pre ++ e :: post)) :
    ((pre ++ e :: post).find? fun e' => e.1 < e'.1) = post.head? := by
  rw [KeysOrdered, List.map_append, List.map_cons, List.pairwise_append] at h
  obtain ⟨-, hsuffix, hpre⟩ := h
  have hpost := (List.pairwise_cons.1 hsuffix).1
  have hnone : pre.find? (fun e' => e.1 < e'.1) = none := by
    refine List.find?_eq_none.2 fun e' he' hlt => ?_
    exact lt_asymm (of_decide_eq_true hlt)
      (hpre e'.1 (List.mem_map_of_mem he') e.1 List.mem_cons_self)
  rw [List.find?_append, hnone, Option.none_or, List.find?_cons_of_neg (by simp)]
  cases post with
  | nil => rfl
  | cons e' post =>
      exact List.find?_cons_of_pos (decide_eq_true (hpost e'.1 List.mem_cons_self))

end Ordered

end Lib
end SNBModules
