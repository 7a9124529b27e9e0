import Mathlib.Data.List.Basic
import Mathlib.Order.Lattice

/-!
# Windows of a sorted list

A list is sorted by a key `f`.  `lowerBound` is the place of the first element
whose key is not below a bound, or the end; `window` are the elements from the
lower bound of `lo` on, as far as that of `hi`.  They are the elements with a key
in the half-open interval from `lo` to `hi` (`mem_window`), in the order of the
list.
-/

namespace SNBModules
namespace Lib

variable {α β : Type*} [LinearOrder β]

/-- The place of the first element that is not below `x`. -/
def lowerBound (f : α → β) (l : List α) (x : β) : ℕ := l.findIdx fun a => x ≤ f a

/-- The elements between two lower bounds. -/
def window (f : α → β) (l : List α) (lo hi : β) : List α :=
  (l.take (lowerBound f l hi)).drop (lowerBound f l lo)

/-- The list is sorted by the key. -/
def SortedBy (f : α → β) (l : List α) : Prop := l.Pairwise fun a b => f a ≤ f b

instance (f : α → β) (l : List α) : Decidable (SortedBy f l) :=
  inferInstanceAs (Decidable (l.Pairwise fun a b => f a ≤ f b))

variable {f : α → β} {l : List α} {x lo hi : β}

/-- Before the lower bound stand the elements below the bound. -/
theorem lt_lowerBound_iff (h : SortedBy f l) {k : ℕ} (hk : k < l.length) :
    k < lowerBound f l x ↔ f l[k] < x := by
  constructor
  · intro hlt
    have hfalse := List.not_of_lt_findIdx hlt
    simpa using hfalse
  · intro hlt
    by_contra hle
    have hlow : lowerBound f l x < l.length := Nat.lt_of_le_of_lt (Nat.le_of_not_lt hle) hk
    have hfound := List.findIdx_getElem (w := hlow)
    have hx : x ≤ f l[lowerBound f l x] := of_decide_eq_true hfound
    rcases Nat.eq_or_lt_of_le (Nat.le_of_not_lt hle) with heq | hlt'
    · exact absurd hlt (not_lt.2 (by simpa [heq] using hx))
    · have hsorted := List.pairwise_iff_getElem.1 h _ _ hlow hk hlt'
      exact absurd hlt (not_lt.2 (hx.trans hsorted))

/-- **The window holds the elements of the half-open interval.** -/
theorem mem_window (h : SortedBy f l) {a : α} :
    a ∈ window f l lo hi ↔ a ∈ l ∧ lo ≤ f a ∧ f a < hi := by
  rw [window, List.mem_drop_iff_getElem]
  constructor
  · rintro ⟨i, hi', rfl⟩
    rw [List.length_take] at hi'
    have hlen : lowerBound f l lo + i < l.length := by omega
    rw [List.getElem_take]
    refine ⟨List.getElem_mem _, ?_, (lt_lowerBound_iff h hlen).1 (by omega)⟩
    by_contra hlt
    have hlow := (lt_lowerBound_iff h hlen).2 (not_le.1 hlt)
    omega
  · rintro ⟨ha, hlo, hhi⟩
    obtain ⟨k, hk, rfl⟩ := List.getElem_of_mem ha
    have hkhi := (lt_lowerBound_iff h hk).2 hhi
    have hklo : lowerBound f l lo ≤ k := by
      by_contra hlt
      exact absurd ((lt_lowerBound_iff h hk).1 (Nat.lt_of_not_le hlt)) (not_lt.2 hlo)
    refine ⟨k - lowerBound f l lo, by rw [List.length_take]; omega, ?_⟩
    rw [List.getElem_take]
    congr 1
    omega

theorem window_sublist (f : α → β) (l : List α) (lo hi : β) : (window f l lo hi).Sublist l :=
  (List.drop_sublist _ _).trans (List.take_sublist _ _)

end Lib
end SNBModules
