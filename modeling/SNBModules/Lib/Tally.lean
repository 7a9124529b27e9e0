import Mathlib.Algebra.BigOperators.Group.List.Basic
import Mathlib.Algebra.GroupWithZero.Nat
import Mathlib.Algebra.Order.BigOperators.Group.List
import Mathlib.Algebra.Order.Group.Nat
import Mathlib.Logic.Function.Basic

/-!
# Counters that are read and cleared while they count

Any number of threads increment counters, and a monitor reports them: one after the other, in a
fixed order, it exchanges each with zero and adds up what it has got.

Nothing that was counted is lost (`total_exchange`), but a report is not a snapshot, and what
holds between the counters at every moment need not hold between the numbers of a report.  One
direction survives: where the counter `a` never exceeds the counters `B` together and is
exchanged before them, the reports together have no more of `a` than of `B` (`Reports.le`).
That is lost when the counts begin anew during a report, which may have `a` and not yet `B`; when
they only do so between reports it holds of all reports that there ever were (`reported_le`).
-/

namespace SNBModules
namespace Lib

/-- Counters, what the monitor had got from each when the counts last began anew and what it has
got since, and those it still has to exchange in the report that it is in. -/
structure Tally (K : Type*) where
  current : K → ℕ
  earlier : K → ℕ
  got : K → ℕ
  pending : List K

namespace Tally

variable {K : Type*}

/-- No count, no report. -/
def zero : Tally K := ⟨fun _ => 0, fun _ => 0, fun _ => 0, []⟩

/-- What the monitor has got from a counter in all its reports. -/
def reported (t : Tally K) (k : K) : ℕ := t.earlier k + t.got k

/-- All that was counted since the counts began anew. -/
def total (t : Tally K) (k : K) : ℕ := t.got k + t.current k

/-- A report begins. -/
def report (order : List K) (t : Tally K) : Option (Tally K) :=
  if t.pending = [] then some { t with pending := order } else none

/-- The counts begin anew; a report may be under way, and what it has got stays with it. -/
def clear (t : Tally K) : Tally K :=
  { t with current := fun _ => 0, earlier := t.reported, got := fun _ => 0 }

@[simp] theorem total_zero (k : K) : (zero : Tally K).total k = 0 := rfl

@[simp] theorem total_clear (t : Tally K) (k : K) : t.clear.total k = 0 := rfl

@[simp] theorem reported_clear (t : Tally K) (k : K) : t.clear.reported k = t.reported k := rfl

theorem report_eq_some {t u : Tally K} {order : List K} (h : t.report order = some u) :
    t.pending = [] ∧ u = { t with pending := order } := by
  obtain ⟨hpending, h⟩ := Option.ite_none_right_eq_some.1 h
  exact ⟨hpending, (Option.some.inj h).symm⟩

variable [DecidableEq K]

/-- One increment. -/
def bump (t : Tally K) (k : K) : Tally K :=
  { t with current := Function.update t.current k (t.current k + 1) }

/-- The next exchange of a report. -/
def exchange (t : Tally K) : Option (Tally K) :=
  match t.pending with
  | [] => none
  | k :: rest =>
      some { t with
        current := Function.update t.current k 0
        got := Function.update t.got k (t.got k + t.current k)
        pending := rest }

/-! ### What a turn does -/

variable {t u : Tally K}

theorem total_bump (t : Tally K) (k j : K) :
    (t.bump k).total j = t.total j + if j = k then 1 else 0 := by
  simp only [total, bump]
  by_cases h : j = k
  · subst h
    rw [Function.update_self, if_pos rfl, Nat.add_assoc]
  · rw [Function.update_of_ne h, if_neg h, Nat.add_zero]

theorem exchange_eq_some (h : t.exchange = some u) :
    ∃ k rest, t.pending = k :: rest ∧ u.pending = rest ∧
      u.current = Function.update t.current k 0 ∧ u.earlier = t.earlier ∧
      u.got = Function.update t.got k (t.got k + t.current k) := by
  unfold exchange at h
  split at h
  · cases h
  · rename_i k rest hpending
    obtain rfl := Option.some.inj h
    exact ⟨k, rest, hpending, rfl, rfl, rfl, rfl⟩

/-- An exchange loses nothing. -/
theorem total_exchange (h : t.exchange = some u) (j : K) : u.total j = t.total j := by
  obtain ⟨k, rest, -, -, hcurrent, -, hgot⟩ := exchange_eq_some h
  unfold total
  rw [hcurrent, hgot]
  by_cases hj : j = k
  · subst hj
    rw [Function.update_self, Function.update_self, Nat.add_zero]
  · rw [Function.update_of_ne hj, Function.update_of_ne hj]

/-! ### What the reports show -/

/-- What the reports since the counts began anew have of a counter, with the one that is under
way. -/
def seen (t : Tally K) (k : K) : ℕ := t.got k + if k ∈ t.pending then t.current k else 0

theorem seen_of_mem {k : K} (h : k ∈ t.pending) : t.seen k = t.total k := by
  rw [seen, if_pos h, total]

theorem got_le_seen (t : Tally K) (k : K) : t.got k ≤ t.seen k :=
  Nat.le_add_right _ _

theorem current_le_bump (t : Tally K) (k j : K) : t.current j ≤ (t.bump k).current j := by
  simp only [bump]
  by_cases h : j = k
  · subst h
    rw [Function.update_self]
    exact Nat.le_succ _
  · rw [Function.update_of_ne h]

theorem seen_bump (t : Tally K) (k j : K) : t.seen j ≤ (t.bump k).seen j := by
  refine Nat.add_le_add_left ?_ (t.got j)
  by_cases h : j ∈ t.pending
  · rw [if_pos h, if_pos (show j ∈ (t.bump k).pending from h)]
    exact t.current_le_bump k j
  · rw [if_neg h]
    exact Nat.zero_le _

/-- An exchange moves what a report sees of a counter from one place to another. -/
theorem seen_exchange (h : t.exchange = some u) (j : K) : u.seen j = t.seen j := by
  obtain ⟨k, rest, hpending, hrest, hcurrent, -, hgot⟩ := exchange_eq_some h
  unfold seen
  rw [hcurrent, hgot, hrest, hpending]
  by_cases hj : j = k
  · subst hj
    rw [Function.update_self, Function.update_self, ite_self, if_pos List.mem_cons_self,
      Nat.add_zero]
  · rw [Function.update_of_ne hj, Function.update_of_ne hj]
    simp only [List.mem_cons, hj, false_or]

/-- The report under way goes by `order`, and since the counts began anew what the reports have
of `a` is covered by what they see of `B`. -/
structure Reports (order : List K) (a : K) (B : List K) (t : Tally K) : Prop where
  suffix : t.pending <:+ order
  le_seen : t.got a ≤ (B.map t.seen).sum

namespace Reports

variable {order : List K} {a : K} {B : List K}

theorem zero : Reports order a B zero :=
  ⟨List.nil_suffix, Nat.zero_le _⟩

theorem clear (h : Reports order a B t) : Reports order a B t.clear :=
  ⟨h.suffix, Nat.zero_le _⟩

theorem bump (h : Reports order a B t) (k : K) : Reports order a B (t.bump k) :=
  ⟨h.suffix, h.le_seen.trans (List.sum_le_sum fun j _ => t.seen_bump k j)⟩

theorem report (h : Reports order a B t) (hu : t.report order = some u) :
    Reports order a B u := by
  obtain ⟨hpending, rfl⟩ := report_eq_some hu
  refine ⟨List.suffix_refl _, h.le_seen.trans (List.sum_le_sum fun j _ => ?_)⟩
  rw [seen, hpending, if_neg List.not_mem_nil]
  exact got_le_seen { t with pending := order } j

/-- The exchange of `a` finds all of `B` still to come, so it is the totals that are compared. -/
theorem exchange (h : Reports order a B t) (hbefore : ∀ rest, a :: rest <:+ order → B ⊆ rest)
    (hle : t.total a ≤ (B.map t.total).sum) (hu : t.exchange = some u) :
    Reports order a B u := by
  obtain ⟨k, rest, hpending, hrest, -, -, hgot⟩ := exchange_eq_some hu
  have hseen : u.seen = t.seen := funext (seen_exchange hu)
  refine ⟨?_, ?_⟩
  · rw [hrest]
    exact (List.suffix_cons k rest).trans (hpending ▸ h.suffix)
  · rw [hseen, hgot]
    by_cases ha : a = k
    · subst ha
      rw [Function.update_self]
      refine hle.trans (le_of_eq (congrArg List.sum (List.map_congr_left fun j hj => ?_)))
      have hmem : j ∈ t.pending := by
        rw [hpending]
        exact List.mem_cons_of_mem _ (hbefore rest (hpending ▸ h.suffix) hj)
      exact (seen_of_mem hmem).symm
    · rw [Function.update_of_ne ha]
      exact h.le_seen

/-- Between reports. -/
theorem le (h : Reports order a B t) (hpending : t.pending = []) :
    t.got a ≤ (B.map t.got).sum := by
  refine h.le_seen.trans (le_of_eq (congrArg List.sum (List.map_congr_left fun j _ => ?_)))
  rw [seen, hpending, if_neg List.not_mem_nil, Nat.add_zero]

end Reports

/-- When the counts last began anew, the reports had no more of `a` than of `B`. -/
def Covered (a : K) (B : List K) (t : Tally K) : Prop := t.earlier a ≤ (B.map t.earlier).sum

/-- All reports together, between two of them. -/
theorem reported_le {order : List K} {a : K} {B : List K} (h : Reports order a B t)
    (hcovered : Covered a B t) (hpending : t.pending = []) :
    t.reported a ≤ (B.map t.reported).sum := by
  have hsum : (B.map t.reported).sum = (B.map t.earlier).sum + (B.map t.got).sum :=
    List.sum_map_add
  rw [hsum]
  exact Nat.add_le_add hcovered (h.le hpending)

/-- The counts begin anew between two reports. -/
theorem Covered.clear {order : List K} {a : K} {B : List K} (hcovered : Covered a B t)
    (h : Reports order a B t) (hpending : t.pending = []) : Covered a B t.clear :=
  reported_le h hcovered hpending

end Tally

end Lib
end SNBModules
