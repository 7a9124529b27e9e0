import SNBModules.Lib.Runs

/-!
# Progress on a stream of inputs

When the choices of the environment come one after the other without end, a
machine of `SNBModules.Lib.Runs` gets somewhere if it does so on every stream in
which a condition on the inputs comes back again and again.  `LeadsTo` says
that, and its rules build a long way from short ones: a step that is possible on
every input, one that waits for an input, and the way through one state after
another.
-/

namespace SNBModules
namespace Lib

variable {σ α : Type*} {step : σ → α → Option σ} {c : α → Prop} {s t u : σ}

/-- The condition holds of infinitely many inputs. -/
def Recurs (c : α → Prop) (a : ℕ → α) : Prop := ∀ n, ∃ m, n ≤ m ∧ c (a m)

theorem Recurs.drop {a : ℕ → α} (h : Recurs c a) (n : ℕ) : Recurs c fun i => a (n + i) := by
  intro k
  obtain ⟨m, hm, hc⟩ := h (n + k)
  obtain ⟨d, rfl⟩ := Nat.exists_eq_add_of_le hm
  refine ⟨k + d, Nat.le_add_right k d, ?_⟩
  have heq : n + (k + d) = n + k + d := (Nat.add_assoc n k d).symm
  show c (a (n + (k + d)))
  rwa [heq]

/-- On every stream in which the condition recurs the machine gets from `s` to
`t`. -/
def LeadsTo (step : σ → α → Option σ) (c : α → Prop) (s t : σ) : Prop :=
  ∀ a, Recurs c a → ∃ n, exec step s ((List.range n).map a) = some t

namespace LeadsTo

theorem refl (s : σ) : LeadsTo step c s s := fun _ _ => ⟨0, rfl⟩

theorem trans (h : LeadsTo step c s t) (h' : LeadsTo step c t u) : LeadsTo step c s u := by
  intro a ha
  obtain ⟨n, hn⟩ := h a ha
  obtain ⟨m, hm⟩ := h' _ (ha.drop n)
  refine ⟨n + m, ?_⟩
  rw [List.range_add, List.map_append, exec_append, hn, Option.bind_some, List.map_map]
  exact hm

/-- A step that every input allows. -/
theorem of_step (h : ∀ x, step s x = some t) : LeadsTo step c s t :=
  fun a _ => ⟨1, exec_singleton s (a 0) ▸ h (a 0)⟩

/-- A state that is kept on every input but those it waits for. -/
theorem wait (hstay : ∀ x, ¬ c x → step s x = some s) (hgo : ∀ x, c x → step s x = some t) :
    LeadsTo step c s t := by
  intro a ha
  obtain ⟨m, -, hm⟩ := ha 0
  induction m generalizing a with
  | zero => exact ⟨1, exec_singleton s (a 0) ▸ hgo _ hm⟩
  | succ m ih =>
      by_cases h0 : c (a 0)
      · exact ⟨1, exec_singleton s (a 0) ▸ hgo _ h0⟩
      · obtain ⟨n, hn⟩ := ih (fun i => a (1 + i)) (ha.drop 1) (Nat.add_comm m 1 ▸ hm)
        refine ⟨1 + n, ?_⟩
        rw [List.range_add, List.map_append, exec_append]
        have hfirst : exec step s ((List.range 1).map a) = some s :=
          (exec_singleton s (a 0)).trans (hstay _ h0)
        rw [hfirst, Option.bind_some, List.map_map]
        exact hn

end LeadsTo

end Lib
end SNBModules
