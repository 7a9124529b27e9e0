import Mathlib.Data.List.Nodup

/-!
# A first-in first-out store that hands each element out once

Elements arrive in order.  A reader claims an element that nobody has claimed
yet; a collector releases the oldest element still held, once it has been
claimed and provided that a newer one stays behind.  The structure carries what
these three operations keep: no element is claimed twice, everything released
was claimed before, and a store that has received something still holds its
newest element.
-/

namespace SNBModules
namespace Lib

variable {α : Type*}

/-- The store: what arrived, in order of arrival, what has been claimed, and
how many of the oldest elements have been released. -/
structure OnceStore (α : Type*) where
  stored : List α
  claimed : List α
  released : ℕ
  stored_nodup : stored.Nodup
  claimed_nodup : claimed.Nodup
  claimed_subset : claimed ⊆ stored
  released_subset : stored.take released ⊆ claimed
  newest_held : released = 0 ∨ released < stored.length

namespace OnceStore

/-- These elements have arrived and nothing else has happened. -/
def ofList (stored : List α) (h : stored.Nodup) : OnceStore α where
  stored := stored
  claimed := []
  released := 0
  stored_nodup := h
  claimed_nodup := List.nodup_nil
  claimed_subset := List.nil_subset _
  released_subset := by rw [List.take_zero]; exact List.nil_subset _
  newest_held := Or.inl rfl

/-- The elements still held, oldest first. -/
def held (d : OnceStore α) : List α := d.stored.drop d.released

theorem take_append_held (d : OnceStore α) : d.stored.take d.released ++ d.held = d.stored :=
  List.take_append_drop _ _

theorem released_le (d : OnceStore α) : d.released ≤ d.stored.length := by
  rcases d.newest_held with h | h <;> omega

theorem held_subset (d : OnceStore α) : d.held ⊆ d.stored := List.drop_subset _ _

/-- A store that received something holds something. -/
theorem held_ne_nil (d : OnceStore α) (h : d.stored ≠ []) : d.held ≠ [] := by
  have hlen := List.length_pos_of_ne_nil h
  simp only [held, ne_eq, List.drop_eq_nil_iff, Nat.not_le]
  rcases d.newest_held with h | h <;> omega

/-- The newest element is never released. -/
theorem getLast?_held (d : OnceStore α) : d.held.getLast? = d.stored.getLast? := by
  by_cases h : d.stored = []
  · simp [held, h]
  · have hlt := List.length_pos_of_ne_nil (d.held_ne_nil h)
    rw [held, List.length_drop] at hlt
    rw [held, List.getLast?_drop, if_neg (by omega)]

/-- What was stored and is not held any more has been claimed. -/
theorem claimed_of_not_held (d : OnceStore α) {a : α} (ha : a ∈ d.stored) (hn : a ∉ d.held) :
    a ∈ d.claimed := by
  rw [← d.take_append_held] at ha
  rcases List.mem_append.1 ha with h | h
  · exact d.released_subset h
  · exact absurd h hn

/-- A new element arrives. -/
def store (d : OnceStore α) (a : α) (ha : a ∉ d.stored) : OnceStore α where
  stored := d.stored ++ [a]
  claimed := d.claimed
  released := d.released
  stored_nodup := List.nodup_append.2 ⟨d.stored_nodup, List.nodup_singleton a,
    fun b hb c hc h => ha (List.mem_singleton.1 hc ▸ h ▸ hb)⟩
  claimed_nodup := d.claimed_nodup
  claimed_subset := fun _ hb => List.mem_append_left _ (d.claimed_subset hb)
  released_subset := by
    rw [List.take_append_of_le_length d.released_le]
    exact d.released_subset
  newest_held := by
    have := d.released_le
    rw [List.length_append, List.length_singleton]
    exact Or.inr (by omega)

theorem held_store (d : OnceStore α) (a : α) (ha : a ∉ d.stored) :
    (d.store a ha).held = d.held ++ [a] :=
  List.drop_append_of_le_length d.released_le

/-- A reader claims an element that is in the store and unclaimed. -/
def claim (d : OnceStore α) (a : α) (ha : a ∈ d.stored) (hn : a ∉ d.claimed) : OnceStore α where
  stored := d.stored
  claimed := a :: d.claimed
  released := d.released
  stored_nodup := d.stored_nodup
  claimed_nodup := List.nodup_cons.2 ⟨hn, d.claimed_nodup⟩
  claimed_subset := List.cons_subset.2 ⟨ha, d.claimed_subset⟩
  released_subset := fun _ hb => List.mem_cons_of_mem _ (d.released_subset hb)
  newest_held := d.newest_held

/-- The collector releases the oldest element held, which was claimed and is
not the newest one. -/
def release (d : OnceStore α) {a b : α} {rest : List α} (h : d.held = a :: b :: rest)
    (ha : a ∈ d.claimed) : OnceStore α where
  stored := d.stored
  claimed := d.claimed
  released := d.released + 1
  stored_nodup := d.stored_nodup
  claimed_nodup := d.claimed_nodup
  claimed_subset := d.claimed_subset
  released_subset := by
    have hget : d.stored[d.released]? = some a := by
      have := congrArg List.head? h
      rwa [held, List.head?_drop] at this
    rw [List.take_add_one, hget]
    intro c hc
    rcases List.mem_append.1 hc with hc | hc
    · exact d.released_subset hc
    · obtain rfl : c = a := by simpa using hc
      exact ha
  newest_held := by
    have := congrArg List.length h
    simp only [held, List.length_drop, List.length_cons] at this
    exact Or.inr (by omega)

theorem held_release (d : OnceStore α) {a b : α} {rest : List α} (h : d.held = a :: b :: rest)
    (ha : a ∈ d.claimed) : (d.release h ha).held = b :: rest := by
  change d.stored.drop (d.released + 1) = b :: rest
  rw [← List.drop_drop]
  exact congrArg (List.drop 1) h

end OnceStore

end Lib
end SNBModules
