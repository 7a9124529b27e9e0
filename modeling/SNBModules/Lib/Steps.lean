import Mathlib.Data.List.Forall2

/-!
# Updates in steps that may throw

An object that is updated field by field, where each step may throw, is left
with the steps before the one that threw.  `runSteps` is such an update: the
state that it leaves, and what was thrown, if anything.

Three questions about it are answered from its steps.  `runSteps_rel`: two runs
side by side keep a relation and throw alike.  `runSteps_frame`: a part of
the state that no step touches is as it was.  `Assigns` says that a part of the
state is set to a fixed value or not touched, which makes a second run on
another state agree with the first one (`runSteps_agree`).
-/

namespace SNBModules
namespace Lib

variable {σ ε α : Type*}

/-- Run the steps until one throws. -/
def runSteps : List (σ → Except ε σ) → σ → σ × Option ε
  | [], s => (s, none)
  | f :: l, s =>
      match f s with
      | .ok t => runSteps l t
      | .error e => (s, some e)

@[simp] theorem runSteps_nil (s : σ) : runSteps ([] : List (σ → Except ε σ)) s = (s, none) := rfl

theorem runSteps_cons_ok {f : σ → Except ε σ} {l : List (σ → Except ε σ)} {s t : σ}
    (h : f s = .ok t) : runSteps (f :: l) s = runSteps l t := by
  rw [runSteps, h]

theorem runSteps_cons_error {f : σ → Except ε σ} {l : List (σ → Except ε σ)} {s : σ} {e : ε}
    (h : f s = .error e) : runSteps (f :: l) s = (s, some e) := by
  rw [runSteps, h]

/-- A run that throws nothing is a run of its first step and of the others. -/
theorem runSteps_cons_eq_none {f : σ → Except ε σ} {l : List (σ → Except ε σ)} {s u : σ} :
    runSteps (f :: l) s = (u, none) ↔ ∃ t, f s = .ok t ∧ runSteps l t = (u, none) := by
  cases h : f s with
  | ok t => simp [runSteps_cons_ok h]
  | error e => simp [runSteps_cons_error h]

/-- The steps after a run that threw nothing. -/
theorem runSteps_append_ok {l : List (σ → Except ε σ)} {s t : σ} (h : runSteps l s = (t, none))
    (m : List (σ → Except ε σ)) : runSteps (l ++ m) s = runSteps m t := by
  induction l generalizing s with
  | nil =>
      cases h
      rfl
  | cons f l ih =>
      obtain ⟨u, hu, h⟩ := runSteps_cons_eq_none.1 h
      rw [List.cons_append, runSteps_cons_ok hu, ih h]

/-- The steps after one that threw are not run. -/
theorem runSteps_append_error {l : List (σ → Except ε σ)} {s t : σ} {e : ε}
    (h : runSteps l s = (t, some e)) (m : List (σ → Except ε σ)) :
    runSteps (l ++ m) s = (t, some e) := by
  induction l generalizing s with
  | nil => cases h
  | cons f l ih =>
      rw [List.cons_append]
      cases hf : f s with
      | ok u =>
          rw [runSteps_cons_ok hf] at h ⊢
          exact ih h
      | error e' =>
          rw [runSteps_cons_error hf] at h ⊢
          exact h

/-- A run that throws nothing, cut in two. -/
theorem runSteps_append_eq_none {l m : List (σ → Except ε σ)} {s u : σ} :
    runSteps (l ++ m) s = (u, none) ↔
      ∃ t, runSteps l s = (t, none) ∧ runSteps m t = (u, none) := by
  induction l generalizing s with
  | nil => simp
  | cons f l ih =>
      simp only [List.cons_append, runSteps_cons_eq_none, ih]
      constructor
      · rintro ⟨t, ht, v, hv, hu⟩
        exact ⟨v, ⟨t, ht, hv⟩, hu⟩
      · rintro ⟨v, ⟨t, ht, hv⟩, hu⟩
        exact ⟨t, ht, v, hv, hu⟩

/-- **Two runs side by side.**  When each step of one run and its counterpart in
the other take related states to related states, or throw the same thing, so do
the runs. -/
theorem runSteps_rel {R : σ → σ → Prop} {l m : List (σ → Except ε σ)}
    (hl : List.Forall₂ (fun f g => ∀ s t, R s t →
      (∃ s' t', f s = .ok s' ∧ g t = .ok t' ∧ R s' t') ∨ ∃ e, f s = .error e ∧ g t = .error e) l m)
    {s t : σ} (h : R s t) :
    R (runSteps l s).1 (runSteps m t).1 ∧ (runSteps l s).2 = (runSteps m t).2 := by
  induction hl generalizing s t with
  | nil => exact ⟨h, rfl⟩
  | cons hfg _ ih =>
      rcases hfg s t h with ⟨s', t', hs, ht, h'⟩ | ⟨e, hs, ht⟩
      · rw [runSteps_cons_ok hs, runSteps_cons_ok ht]
        exact ih h'
      · rw [runSteps_cons_error hs, runSteps_cons_error ht]
        exact ⟨h, rfl⟩

/-- **What the steps do one by one, a run does,** if it can be done in parts. -/
theorem runSteps_reach {R : σ → σ → Prop} (hrefl : ∀ s, R s s)
    (htrans : ∀ s t u, R s t → R t u → R s u) {l : List (σ → Except ε σ)}
    (hl : ∀ f ∈ l, ∀ s t, f s = .ok t → R s t) (s : σ) : R s (runSteps l s).1 := by
  induction l generalizing s with
  | nil => exact hrefl s
  | cons f l ih =>
      cases h : f s with
      | ok t =>
          rw [runSteps_cons_ok h]
          exact htrans s t _ (hl f List.mem_cons_self s t h)
            (ih (fun f' hf => hl f' (List.mem_cons_of_mem _ hf)) t)
      | error e =>
          rw [runSteps_cons_error h]
          exact hrefl s

/-- What no step touches is as it was. -/
theorem runSteps_frame {g : σ → α} {l : List (σ → Except ε σ)}
    (hl : ∀ f ∈ l, ∀ s t, f s = .ok t → g t = g s) (s : σ) : g (runSteps l s).1 = g s :=
  runSteps_reach (R := fun s t => g t = g s) (fun _ => rfl) (fun _ _ _ h₁ h₂ => h₂.trans h₁) hl s

/-- A composition that throws nothing is a composition of two calls that throw
nothing. -/
theorem bind_eq_ok.{u, v} {ε : Type u} {α β : Type v} {x : Except ε α} {f : α → Except ε β}
    {b : β} :
    x >>= f = .ok b ↔ ∃ a, x = .ok a ∧ f a = .ok b := by
  cases x <;> simp [bind, Except.bind]

theorem toOption_eq_some.{u, v} {ε : Type u} {α : Type v} {x : Except ε α} {a : α} :
    x.toOption = some a ↔ x = .ok a := by
  cases x <;> simp [Except.toOption]

theorem isOk_iff.{u, v} {ε : Type u} {α : Type v} {x : Except ε α} :
    x.isOk = true ↔ ∃ a, x = .ok a := by
  cases x <;> simp [Except.isOk, Except.toBool]

/-- A composition gets through when its first call does, and its second one then does. -/
theorem isOk_bind_iff.{u, v} {ε : Type u} {α β : Type v} {x : Except ε α} {f : α → Except ε β} :
    (x >>= f).isOk = true ↔ ∃ a, x = .ok a ∧ (f a).isOk = true := by
  cases x <;> simp [bind, Except.bind, Except.isOk, Except.toBool]

/-- The same of steps that are composed with `>>=`. -/
theorem bind_frame {g : σ → α} {x : Except ε σ} {f : σ → Except ε σ} {v : α}
    (hx : ∀ s, x = .ok s → g s = v) (hf : ∀ s t, f s = .ok t → g t = g s) :
    ∀ t, x >>= f = .ok t → g t = v := by
  intro t ht
  cases x with
  | error e => cases ht
  | ok s => rw [hf s t ht, hx s rfl]

/-- What a traversal leaves, its calls have returned. -/
theorem forall₂_mapM.{u, v} {ε : Type u} {α : Type v} {β : Type v} {f : α → Except ε β}
    {l : List α} {m : List β} (h : l.mapM f = .ok m) :
    List.Forall₂ (fun a b => f a = .ok b) l m := by
  induction l generalizing m with
  | nil =>
      cases h
      exact .nil
  | cons a l ih =>
      rw [List.mapM_cons] at h
      obtain ⟨b, hb, h⟩ := bind_eq_ok.1 h
      obtain ⟨m', hm, h⟩ := bind_eq_ok.1 h
      cases h
      exact .cons hb (ih hm)

/-- The part `g` of the state is set to one value whatever the state was, or is
not touched. -/
def Assigns (g : σ → α) (f : σ → Except ε σ) : Prop :=
  (∃ v, ∀ s t, f s = .ok t → g t = v) ∨ ∀ s t, f s = .ok t → g t = g s

/-- A run assigns what its steps assign. -/
theorem assigns_runSteps {g : σ → α} {l : List (σ → Except ε σ)} (hl : ∀ f ∈ l, Assigns g f) :
    (∃ v, ∀ s t, runSteps l s = (t, none) → g t = v) ∨
      ∀ s t, runSteps l s = (t, none) → g t = g s := by
  induction l with
  | nil =>
      right
      intro s t h
      cases h
      rfl
  | cons f l ih =>
      rcases ih fun f' hf => hl f' (List.mem_cons_of_mem _ hf) with ⟨v, hv⟩ | hkeep
      · refine Or.inl ⟨v, fun s t h => ?_⟩
        obtain ⟨m, -, hm⟩ := runSteps_cons_eq_none.1 h
        exact hv m t hm
      · rcases hl f List.mem_cons_self with ⟨v, hv⟩ | hf
        · refine Or.inl ⟨v, fun s t h => ?_⟩
          obtain ⟨m, hfm, hm⟩ := runSteps_cons_eq_none.1 h
          rw [hkeep m t hm, hv s m hfm]
        · refine Or.inr fun s t h => ?_
          obtain ⟨m, hfm, hm⟩ := runSteps_cons_eq_none.1 h
          rw [hkeep m t hm, hf s m hfm]

/-- **A second run agrees with the first.**  A state that has the value of `g`
that one run ended with keeps it in another run of the same steps. -/
theorem runSteps_agree {g : σ → α} {l : List (σ → Except ε σ)} (hl : ∀ f ∈ l, Assigns g f)
    {s₁ t₁ s₂ t₂ : σ} (h₁ : runSteps l s₁ = (t₁, none)) (h₂ : runSteps l s₂ = (t₂, none))
    (h : g s₂ = g t₁) : g t₂ = g t₁ := by
  rcases assigns_runSteps hl with ⟨v, hv⟩ | hkeep
  · rw [hv _ _ h₁, hv _ _ h₂]
  · rw [hkeep _ _ h₂, h]

end Lib
end SNBModules
