import Mathlib.Data.List.Basic
import Mathlib.Data.Option.Basic
import SNBModules.Lib.Steps

/-!
# Finite runs of a partial step function

A machine here is a step function `σ → α → Option σ`: the label carries every
choice of the environment, and `none` means that the step is not possible in
the state.  `exec` runs a list of labels.

Two predicates speak about a whole run.  `Always` holds of a run when a
property holds in its first state and in every state it passes through.
`Guarded` holds when every step of the run is taken in a state that meets a
side condition.  `always_of_guarded` is the induction that most results about a
machine need, once; `always_iff_guarded` turns it into an equivalence when a
step outside the side condition breaks the property at once.
-/

namespace SNBModules
namespace Lib

variable {σ α : Type*} {step : σ → α → Option σ}

/-- Run a list of labels from a state. -/
def exec (step : σ → α → Option σ) : σ → List α → Option σ
  | s, [] => some s
  | s, a :: l => (step s a).bind fun t => exec step t l

/-- `P` holds in every state of the run of `l` from `s`, the first included. -/
def Always (step : σ → α → Option σ) (P : σ → Prop) : σ → List α → Prop
  | s, [] => P s
  | s, a :: l => P s ∧ ∀ t, step s a = some t → Always step P t l

/-- Every step of the run of `l` from `s` is taken in a state that meets `ok`. -/
def Guarded (step : σ → α → Option σ) (ok : σ → α → Prop) : σ → List α → Prop
  | _, [] => True
  | s, a :: l => ok s a ∧ ∀ t, step s a = some t → Guarded step ok t l

instance decidableAlways {P : σ → Prop} [DecidablePred P] :
    ∀ (s : σ) (l : List α), Decidable (Always step P s l)
  | s, [] => inferInstanceAs (Decidable (P s))
  | s, a :: l =>
      haveI : DecidablePred fun t => Always step P t l := fun t => decidableAlways t l
      inferInstanceAs (Decidable (P s ∧ ∀ t ∈ step s a, Always step P t l))

instance decidableGuarded {ok : σ → α → Prop} [∀ s a, Decidable (ok s a)] :
    ∀ (s : σ) (l : List α), Decidable (Guarded step ok s l)
  | _, [] => inferInstanceAs (Decidable True)
  | s, a :: l =>
      haveI : DecidablePred fun t => Guarded step ok t l := fun t => decidableGuarded t l
      inferInstanceAs (Decidable (ok s a ∧ ∀ t ∈ step s a, Guarded step ok t l))

@[simp] theorem exec_nil (s : σ) : exec step s [] = some s := rfl

@[simp] theorem exec_singleton (s : σ) (a : α) : exec step s [a] = step s a := by
  simp [exec]

theorem exec_cons_eq_some {s u : σ} {a : α} {l : List α} :
    exec step s (a :: l) = some u ↔ ∃ t, step s a = some t ∧ exec step t l = some u := by
  simp [exec, Option.bind_eq_some_iff]

theorem exec_append (s : σ) (l m : List α) :
    exec step s (l ++ m) = (exec step s l).bind fun t => exec step t m := by
  induction l generalizing s with
  | nil => rfl
  | cons a l ih =>
      cases h : step s a with
      | none => simp [exec, h]
      | some t => simpa [exec, h] using ih t

/-- The last step of a run, exposed. -/
theorem exec_concat_eq_some {s u : σ} {a : α} {l : List α} :
    exec step s (l ++ [a]) = some u ↔ ∃ t, exec step s l = some t ∧ step t a = some u := by
  rw [exec_append, Option.bind_eq_some_iff]
  simp [exec]

/-- A property of the first state holds at the start of a run that always has it. -/
theorem Always.head {P : σ → Prop} {s : σ} {l : List α} (h : Always step P s l) : P s := by
  cases l with
  | nil => exact h
  | cons a l => exact h.1

/-- A property that always holds on a run holds in the state the run ends in. -/
theorem Always.last {P : σ → Prop} {s u : σ} {l : List α} (h : Always step P s l)
    (hu : exec step s l = some u) : P u := by
  induction l generalizing s with
  | nil => obtain rfl := Option.some.inj hu; exact h
  | cons a l ih =>
      obtain ⟨t, ht, hu⟩ := exec_cons_eq_some.1 hu
      exact ih (h.2 t ht) hu

/-- What no step brings about holds on a whole run when it holds at its end. -/
theorem always_of_last {P : σ → Prop} (hback : ∀ s a t, step s a = some t → P t → P s)
    {s u : σ} {l : List α} (hu : exec step s l = some u) (h : P u) : Always step P s l := by
  induction l generalizing s with
  | nil => obtain rfl := Option.some.inj hu; exact h
  | cons a l ih =>
      obtain ⟨t, ht, hu⟩ := exec_cons_eq_some.1 hu
      have hrest := ih hu
      refine ⟨hback s a t ht hrest.head, fun t' ht' => ?_⟩
      obtain rfl := Option.some.inj (ht.symm.trans ht')
      exact hrest

/-- What always holds on a run is what holds after each part of it. -/
theorem always_iff_initial {P : σ → Prop} {s : σ} {l : List α} :
    Always step P s l ↔ ∀ pre post t, l = pre ++ post → exec step s pre = some t → P t := by
  induction l generalizing s with
  | nil =>
      refine ⟨fun h pre post t hl ht => ?_, fun h => h [] [] s rfl rfl⟩
      obtain ⟨rfl, rfl⟩ := List.append_eq_nil_iff.1 hl.symm
      obtain rfl := Option.some.inj ht
      exact h
  | cons a l ih =>
      constructor
      · intro h pre post t hl ht
        cases pre with
        | nil =>
            obtain rfl := Option.some.inj ht
            exact h.1
        | cons b pre =>
            obtain ⟨rfl, rfl⟩ := List.cons.inj hl
            obtain ⟨u, hu, ht⟩ := exec_cons_eq_some.1 ht
            exact ih.1 (h.2 u hu) pre post t rfl ht
      · intro h
        refine ⟨h [] (a :: l) s rfl rfl, fun u hu => ih.2 fun pre post t hl ht => ?_⟩
        exact h (a :: pre) post t (congrArg (a :: ·) hl) (exec_cons_eq_some.2 ⟨u, hu, ht⟩)

/-- What holds at every state of a run can be weakened. -/
theorem Always.mono {P Q : σ → Prop} (hPQ : ∀ s, P s → Q s) {s : σ} {l : List α}
    (h : Always step P s l) : Always step Q s l := by
  induction l generalizing s with
  | nil => exact hPQ _ h
  | cons a l ih => exact ⟨hPQ _ h.1, fun t ht => ih (h.2 t ht)⟩

/-- **Invariant induction under a side condition.**  What every step that meets
`ok` preserves holds along every run whose steps all meet `ok`. -/
theorem always_of_guarded {I : σ → Prop} {ok : σ → α → Prop}
    (hstep : ∀ s a t, I s → ok s a → step s a = some t → I t) {s : σ} {l : List α}
    (hs : I s) (hl : Guarded step ok s l) : Always step I s l := by
  induction l generalizing s with
  | nil => exact hs
  | cons a l ih => exact ⟨hs, fun t ht => ih (hstep s a t hs hl.1 ht) (hl.2 t ht)⟩

/-- A side condition on the labels alone. -/
theorem guarded_of_forall_mem {ok : α → Prop} {l : List α} (h : ∀ a ∈ l, ok a) (s : σ) :
    Guarded step (fun _ a => ok a) s l := by
  induction l generalizing s with
  | nil => trivial
  | cons a l ih =>
      exact ⟨h a List.mem_cons_self, fun t _ => ih (fun b hb => h b (List.mem_cons_of_mem _ hb)) t⟩

/-- Steps that meet a side condition because of what they lead to. -/
theorem Always.guarded {P : σ → Prop} {ok : σ → α → Prop}
    (h : ∀ s a, (∀ t, step s a = some t → P t) → ok s a) {s : σ} {l : List α}
    (hl : Always step P s l) : Guarded step ok s l := by
  induction l generalizing s with
  | nil => trivial
  | cons a l ih => exact ⟨h s a fun t ht => (hl.2 t ht).head, fun t ht => ih (hl.2 t ht)⟩

/-- The side condition at a step of the run. -/
theorem Guarded.mid {ok : σ → α → Prop} {s t : σ} {pre post : List α} {a : α}
    (h : Guarded step ok s (pre ++ a :: post)) (ht : exec step s pre = some t) : ok t a := by
  induction pre generalizing s with
  | nil => obtain rfl := Option.some.inj ht; exact h.1
  | cons b pre ih =>
      obtain ⟨u, hu, ht⟩ := exec_cons_eq_some.1 ht
      exact ih (h.2 u hu) ht

/-- Every run meets the side condition that asks for nothing. -/
theorem guarded_true (s : σ) (l : List α) : Guarded step (fun _ _ => True) s l := by
  induction l generalizing s with
  | nil => trivial
  | cons a l ih => exact ⟨trivial, fun t _ => ih t⟩

/-- Side conditions that are the same at each step are the same of a run. -/
theorem guarded_congr {ok ok' : σ → α → Prop} (h : ∀ s a, ok s a ↔ ok' s a) (s : σ) (l : List α) :
    Guarded step ok s l ↔ Guarded step ok' s l := by
  induction l generalizing s with
  | nil => exact Iff.rfl
  | cons a l ih => exact and_congr (h s a) (forall_congr' fun t => imp_congr_right fun _ => ih t)

/-- A side condition that holds in the states of an invariant, which the steps that
meet another one keep. -/
theorem Guarded.imp_of_invariant {I : σ → Prop} {ok ok' : σ → α → Prop}
    (hstep : ∀ s a t, I s → ok s a → step s a = some t → I t)
    (h : ∀ s a, I s → ok s a → ok' s a) {s : σ} (hs : I s) {l : List α}
    (hl : Guarded step ok s l) : Guarded step ok' s l := by
  induction l generalizing s with
  | nil => trivial
  | cons a l ih => exact ⟨h s a hs hl.1, fun t ht => ih (hstep s a t hs hl.1 ht) (hl.2 t ht)⟩

/-- Side conditions that are the same of the steps from the states of an invariant,
which the steps that meet one of them keep, are the same of a run that gets to its
end. -/
theorem guarded_iff_of_invariant {I : σ → Prop} {ok ok' : σ → α → Prop}
    (hstep : ∀ s a t, I s → ok s a → step s a = some t → I t)
    (h : ∀ s a t, I s → step s a = some t → (ok s a ↔ ok' s a)) {s u : σ} {l : List α}
    (hs : I s) (hu : exec step s l = some u) : Guarded step ok s l ↔ Guarded step ok' s l := by
  induction l generalizing s with
  | nil => exact Iff.rfl
  | cons a l ih =>
      obtain ⟨t, ht, hu⟩ := exec_cons_eq_some.1 hu
      have hnext : ∀ t', step s a = some t' → t' = t := fun t' ht' =>
        Option.some.inj (ht'.symm.trans ht)
      refine ⟨fun hl => ?_, fun hl => ?_⟩
      · refine ⟨(h s a t hs ht).1 hl.1, fun t' ht' => ?_⟩
        obtain rfl := hnext t' ht'
        exact (ih (hstep s a t' hs hl.1 ht) hu).1 (hl.2 t' ht')
      · have hok := (h s a t hs ht).2 hl.1
        refine ⟨hok, fun t' ht' => ?_⟩
        obtain rfl := hnext t' ht'
        exact (ih (hstep s a t' hs hok ht) hu).2 (hl.2 t' ht')

/-- Updates in steps that throw nothing are a run. -/
theorem runSteps_map_eq_none {ε : Type*} {f : α → σ → Except ε σ} {s u : σ} {l : List α} :
    runSteps (l.map f) s = (u, none) ↔ exec (fun s a => (f a s).toOption) s l = some u := by
  induction l generalizing s with
  | nil => simp
  | cons a l ih =>
      rw [List.map_cons, exec]
      cases h : f a s with
      | error e => simp [runSteps_cons_error h, Except.toOption]
      | ok t => simp [runSteps_cons_ok h, Except.toOption, ih]

/-- **Invariant induction.**  What every step preserves holds in every state of
every run. -/
theorem always_of_step {I : σ → Prop} (hstep : ∀ s a t, I s → step s a = some t → I t)
    {s : σ} (hs : I s) (l : List α) : Always step I s l :=
  always_of_guarded (fun s a t h _ => hstep s a t h) hs (guarded_true s l)

/-- The invariant holds where the run ends. -/
theorem exec_invariant {I : σ → Prop} (hstep : ∀ s a t, I s → step s a = some t → I t)
    {s u : σ} (hs : I s) {l : List α} (hu : exec step s l = some u) : I u :=
  (always_of_step hstep hs l).last hu

/-- **What every step does to the state, a run does,** if it can be done in parts. -/
theorem exec_rel {R : σ → σ → Prop} (hrefl : ∀ s, R s s) (htrans : ∀ s t u, R s t → R t u → R s u)
    {l : List α} (hstep : ∀ a ∈ l, ∀ s t, step s a = some t → R s t) {s u : σ}
    (hu : exec step s l = some u) : R s u := by
  induction l generalizing s with
  | nil =>
      obtain rfl := Option.some.inj hu
      exact hrefl s
  | cons a l ih =>
      obtain ⟨t, ht, hu⟩ := exec_cons_eq_some.1 hu
      have hrest := ih (fun b hb => hstep b (List.mem_cons_of_mem _ hb)) hu
      exact htrans s t u (hstep a List.mem_cons_self s t ht) hrest

/-- There is a run from one state to the other. -/
def Reaches (step : σ → α → Option σ) (s t : σ) : Prop := ∃ l, exec step s l = some t

theorem Reaches.refl (s : σ) : Reaches step s s := ⟨[], rfl⟩

theorem Reaches.trans {s t u : σ} (h : Reaches step s t) (h' : Reaches step t u) :
    Reaches step s u := by
  obtain ⟨l, hl⟩ := h
  obtain ⟨m, hm⟩ := h'
  exact ⟨l ++ m, by rw [exec_append, hl, Option.bind_some, hm]⟩

theorem Reaches.single {s t : σ} {a : α} (h : step s a = some t) : Reaches step s t :=
  ⟨[a], by rw [exec_singleton, h]⟩

/-- **Forward simulation.**  If a run of one machine does what a step of another does,
between related states, then a run of it does what a run of the other does. -/
theorem exec_simulates {σ' α' : Type*} {step' : σ' → α' → Option σ'} {R : σ → σ' → Prop}
    (hstep : ∀ s a t s', R s s' → step s a = some t → ∃ t', Reaches step' s' t' ∧ R t t')
    {s u : σ} {s' : σ'} {l : List α} (hs : R s s') (hu : exec step s l = some u) :
    ∃ u', Reaches step' s' u' ∧ R u u' := by
  induction l generalizing s s' with
  | nil =>
      obtain rfl := Option.some.inj hu
      exact ⟨s', Reaches.refl s', hs⟩
  | cons a l ih =>
      obtain ⟨t, ht, hu⟩ := exec_cons_eq_some.1 hu
      obtain ⟨t', ht', hR⟩ := hstep s a t s' hs ht
      obtain ⟨u', hu', hR'⟩ := ih hR hu
      exact ⟨u', ht'.trans hu', hR'⟩

/-- A property that a run ends with and did not start with, one of its steps
brought about. -/
theorem exists_step_of_change {P : σ → Prop} {s u : σ} {l : List α} (hrun : exec step s l = some u)
    (hs : ¬ P s) (hu : P u) :
    ∃ pre a post t t', l = pre ++ a :: post ∧ exec step s pre = some t ∧ step t a = some t' ∧
      ¬ P t ∧ P t' := by
  induction l generalizing s with
  | nil => exact absurd (Option.some.inj hrun ▸ hu) hs
  | cons a l ih =>
      obtain ⟨t, ht, hrun⟩ := exec_cons_eq_some.1 hrun
      by_cases hP : P t
      · exact ⟨[], a, l, s, t, rfl, rfl, ht, hs, hP⟩
      · obtain ⟨pre, b, post, v, w, rfl, hpre, hstep, hv, hw⟩ := ih hrun hP
        exact ⟨a :: pre, b, post, v, w, rfl, exec_cons_eq_some.2 ⟨t, ht, hpre⟩, hstep, hv, hw⟩

/-- A run is possible when every step from an invariant state is. -/
theorem exec_isSome {I : σ → Prop}
    (hstep : ∀ s a, I s → ∃ t, step s a = some t ∧ I t) {s : σ} (hs : I s) (l : List α) :
    ∃ u, exec step s l = some u ∧ I u := by
  induction l generalizing s with
  | nil => exact ⟨s, rfl, hs⟩
  | cons a l ih =>
      obtain ⟨t, ht, hinv⟩ := hstep s a hs
      obtain ⟨u, hu, hinv⟩ := ih hinv
      exact ⟨u, exec_cons_eq_some.2 ⟨t, ht, hu⟩, hinv⟩

/-- A run that enters a doomed state and ends outside the doomed states has lost
the property on the way, when a doomed state is only left by losing it. -/
theorem not_always_of_doomed {P D : σ → Prop}
    (hstep : ∀ s a t, D s → step s a = some t → D t ∨ ¬ P t) {s u : σ} {l : List α}
    (hs : D s) (hu : exec step s l = some u) (hend : ¬ D u) : ¬ Always step P s l := by
  induction l generalizing s with
  | nil => exact absurd (Option.some.inj hu ▸ hs) hend
  | cons a l ih =>
      intro h
      obtain ⟨t, ht, hu⟩ := exec_cons_eq_some.1 hu
      rcases hstep s a t hs ht with hd | hP
      · exact ih hd hu (h.2 t ht)
      · exact hP (h.2 t ht).head

/-- **A side condition that is exact.**  When `I` carries `P`, survives the
steps that meet `ok`, and every possible step that does not meet `ok` leads out
of `P` or to a doomed state, a run that does not end in one stays in `P` exactly
when all its steps meet `ok`. -/
theorem always_iff_guarded_of_doomed {I P D : σ → Prop} {ok : σ → α → Prop}
    (hP : ∀ s, I s → P s)
    (hstep : ∀ s a t, I s → ok s a → step s a = some t → I t)
    (hbad : ∀ s a t, I s → ¬ ok s a → step s a = some t → D t ∨ ¬ P t)
    (hdoomed : ∀ s a t, D s → step s a = some t → D t ∨ ¬ P t)
    {s u : σ} {l : List α} (hs : I s) (hu : exec step s l = some u) (hend : ¬ D u) :
    Always step P s l ↔ Guarded step ok s l := by
  constructor
  · intro h
    induction l generalizing s with
    | nil => trivial
    | cons a l ih =>
        obtain ⟨t, ht, hu⟩ := exec_cons_eq_some.1 hu
        have hok : ok s a := by
          by_contra hn
          rcases hbad s a t hs hn ht with hd | hnP
          · exact not_always_of_doomed hdoomed hd hu hend (h.2 t ht)
          · exact hnP (h.2 t ht).head
        refine ⟨hok, fun t' ht' => ?_⟩
        obtain rfl : t = t' := Option.some.inj (ht.symm.trans ht')
        exact ih (hstep s a t hs hok ht) hu (h.2 t ht)
  · exact fun h => (always_of_guarded hstep hs h).mono hP

/-- The case in which every step that does not meet `ok` leads out of `P` at
once. -/
theorem always_iff_guarded {I P : σ → Prop} {ok : σ → α → Prop}
    (hP : ∀ s, I s → P s)
    (hstep : ∀ s a t, I s → ok s a → step s a = some t → I t)
    (hbad : ∀ s a t, I s → ¬ ok s a → step s a = some t → ¬ P t)
    {s u : σ} {l : List α} (hs : I s) (hu : exec step s l = some u) :
    Always step P s l ↔ Guarded step ok s l :=
  always_iff_guarded_of_doomed (D := fun _ => False) hP hstep
    (fun s a t hi hok ht => Or.inr (hbad s a t hi hok ht)) (fun _ _ _ hd => hd.elim) hs hu id

end Lib
end SNBModules
