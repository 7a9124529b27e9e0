import Mathlib.Data.List.Forall2

/-!
# Loops that fold `result = result && f(x)`

A loop of this shape calls its operation on the elements in order until a call
returns `false`, and calls it no more after that.  `andLoop` is the loop whose
operation changes a state only; `andEach` is the one whose operation may change
the element too, so that the list of elements comes back with the state.

`andLoop_rel` and `andEach_rel` compose what single calls do into what the loop
does.  `mem_andEach` says what becomes of the elements, when every call that is
made meets a side condition (`Along`).  `andEach_forall₂_iff` is exact for an
operation that accepts or refuses an element by a test on it: every accepted
element is reached if and only if no refused one stands before it.  `andEach_sweep`
says what such a loop leaves.
-/

namespace SNBModules
namespace Lib

variable {σ α β : Type*}

/-- `for (x : l) result = result && f(x)`, where `f` changes the state. -/
def andLoop (f : σ → α → σ × Bool) : Bool → σ → List α → σ × Bool
  | r, s, [] => (s, r)
  | true, s, a :: l => andLoop f (f s a).2 (f s a).1 l
  | false, s, _ :: l => andLoop f false s l

/-- `for (x : l) result = result && f(x)`, where `f` changes the state and the
element. -/
def andEach (f : σ → α → σ × α × Bool) : Bool → σ → List α → σ × List α × Bool
  | r, s, [] => (s, [], r)
  | true, s, a :: l =>
      let p := f s a
      let q := andEach f p.2.2 p.1 l
      (q.1, p.2.1 :: q.2.1, q.2.2)
  | false, s, a :: l =>
      let q := andEach f false s l
      (q.1, a :: q.2.1, q.2.2)

/-- Every call that the loop makes is made where `ok` holds. -/
def Along (f : σ → α → σ × α × Bool) (ok : σ → α → Prop) : Bool → σ → List α → Prop
  | true, s, a :: l => ok s a ∧ Along f ok (f s a).2.2 (f s a).1 l
  | _, _, _ => True

instance decidableAlong {f : σ → α → σ × α × Bool} {ok : σ → α → Prop}
    [∀ s a, Decidable (ok s a)] :
    ∀ (r : Bool) (s : σ) (l : List α), Decidable (Along f ok r s l)
  | true, s, a :: l =>
      haveI : Decidable (Along f ok (f s a).2.2 (f s a).1 l) := decidableAlong _ _ l
      inferInstanceAs (Decidable (ok s a ∧ Along f ok (f s a).2.2 (f s a).1 l))
  | true, _, [] => inferInstanceAs (Decidable True)
  | false, _, [] => inferInstanceAs (Decidable True)
  | false, _, _ :: _ => inferInstanceAs (Decidable True)

/-! ## The loop over a state -/

section Loop

variable {f : σ → α → σ × Bool}

@[simp] theorem andLoop_nil (r : Bool) (s : σ) : andLoop f r s [] = (s, r) := by
  cases r <;> rfl

@[simp] theorem andLoop_cons (s : σ) (a : α) (l : List α) :
    andLoop f true s (a :: l) = andLoop f (f s a).2 (f s a).1 l := rfl

/-- After a call has returned `false`, nothing is called. -/
@[simp] theorem andLoop_false (s : σ) (l : List α) : andLoop f false s l = (s, false) := by
  induction l with
  | nil => rfl
  | cons a l ih => exact ih

/-- A loop commutes with a view of its state that the operation respects. -/
theorem andLoop_view {τ : Type*} {k : τ → α → τ × Bool} (g : σ → τ)
    (hop : ∀ s a, k (g s) a = (g (f s a).1, (f s a).2)) (r : Bool) (s : σ) (l : List α) :
    andLoop k r (g s) l = (g (andLoop f r s l).1, (andLoop f r s l).2) := by
  induction l generalizing r s with
  | nil => simp
  | cons a l ih =>
      cases r with
      | false => simp
      | true => rw [andLoop_cons, andLoop_cons, hop, ih]

/-- **What the calls of a loop do, composed.**  A relation that holds of doing
nothing, holds of each call, and goes on as long as calls succeed, holds of the
loop. -/
theorem andLoop_rel {R : σ → Bool → σ → Prop} (hrefl : ∀ s, R s true s)
    (htrans : ∀ s t u r, R s true t → R t r u → R s r u) {l : List α}
    (hop : ∀ s, ∀ a ∈ l, R s (f s a).2 (f s a).1) (s : σ) :
    R s (andLoop f true s l).2 (andLoop f true s l).1 := by
  induction l generalizing s with
  | nil => exact hrefl s
  | cons a l ih =>
      have hhead := hop s a List.mem_cons_self
      have htail := ih fun t b hb => hop t b (List.mem_cons_of_mem _ hb)
      rw [andLoop_cons]
      cases hr : (f s a).2 with
      | true => exact htrans _ _ _ _ (hr ▸ hhead) (htail _)
      | false => simpa [hr] using hhead

end Loop

/-! ## The loop over elements -/

section Each

variable {f : σ → α → σ × α × Bool}

@[simp] theorem andEach_nil (r : Bool) (s : σ) : andEach f r s [] = (s, [], r) := by
  cases r <;> rfl

theorem andEach_cons (s : σ) (a : α) (l : List α) :
    andEach f true s (a :: l) =
      ((andEach f (f s a).2.2 (f s a).1 l).1,
        (f s a).2.1 :: (andEach f (f s a).2.2 (f s a).1 l).2.1,
        (andEach f (f s a).2.2 (f s a).1 l).2.2) := rfl

/-- After a call has returned `false`, no element changes. -/
@[simp] theorem andEach_false (s : σ) (l : List α) : andEach f false s l = (s, l, false) := by
  induction l with
  | nil => rfl
  | cons a l ih => rw [andEach, ih]

/-- What the calls of a loop over elements do to the state, composed. -/
theorem andEach_rel {R : σ → Bool → σ → Prop} (hrefl : ∀ s, R s true s)
    (htrans : ∀ s t u r, R s true t → R t r u → R s r u)
    (hop : ∀ s a, R s (f s a).2.2 (f s a).1) (s : σ) (l : List α) :
    R s (andEach f true s l).2.2 (andEach f true s l).1 := by
  induction l generalizing s with
  | nil => exact hrefl s
  | cons a l ih =>
      have hhead := hop s a
      rw [andEach_cons]
      cases hr : (f s a).2.2 with
      | true => exact htrans _ _ _ _ (hr ▸ hhead) (ih _)
      | false => simpa [hr] using hhead

/-- A loop commutes with a view of its elements that the operation respects. -/
theorem andEach_map {k : σ → β → σ × β × Bool} (g : α → β)
    (hop : ∀ s a, k s (g a) = ((f s a).1, g (f s a).2.1, (f s a).2.2)) (r : Bool) (s : σ)
    (l : List α) :
    andEach k r s (l.map g) =
      ((andEach f r s l).1, (andEach f r s l).2.1.map g, (andEach f r s l).2.2) := by
  induction l generalizing r s with
  | nil => simp
  | cons a l ih =>
      cases r with
      | false => simp
      | true =>
          rw [List.map_cons, andEach_cons, andEach_cons, hop, ih]
          rfl

/-- What no call changes about its element, the loop does not change. -/
theorem andEach_view {g : α → β} (hop : ∀ s a, g (f s a).2.1 = g a) (r : Bool) (s : σ)
    (l : List α) : (andEach f r s l).2.1.map g = l.map g := by
  induction l generalizing r s with
  | nil => simp
  | cons a l ih =>
      cases r with
      | false => simp
      | true => rw [andEach_cons, List.map_cons, List.map_cons, hop, ih]

/-- What the loop makes of each element: what a call makes of it, or nothing. -/
theorem forall₂_andEach {R : α → α → Prop} (hrefl : ∀ a, R a a) (hop : ∀ s a, R a (f s a).2.1)
    (r : Bool) (s : σ) (l : List α) : List.Forall₂ R l (andEach f r s l).2.1 := by
  induction l generalizing r s with
  | nil => simp
  | cons a l ih =>
      cases r with
      | false =>
          rw [andEach_false]
          exact List.forall₂_same.2 fun b _ => hrefl b
      | true => exact List.Forall₂.cons (hop s a) (ih _ _)

/-- **Where the elements that a loop leaves come from.**  When every call is made
where `ok` holds, each of them is what its call made of an element, or the loop
has failed before and it is an element as it was. -/
theorem mem_andEach {ok : σ → α → Prop} {R : α → α → Prop}
    (hop : ∀ s a, ok s a → R a (f s a).2.1) {s : σ} {l : List α} (hok : Along f ok true s l)
    {b : α} (hb : b ∈ (andEach f true s l).2.1) :
    ∃ a ∈ l, R a b ∨ (andEach f true s l).2.2 = false ∧ b = a := by
  induction l generalizing s with
  | nil => simp at hb
  | cons a l ih =>
      obtain ⟨ha, hok⟩ := hok
      rw [andEach_cons] at hb ⊢
      rcases List.mem_cons.1 hb with rfl | hb
      · exact ⟨a, List.mem_cons_self, Or.inl (hop s a ha)⟩
      · cases hr : (f s a).2.2 with
        | true =>
            rw [hr] at hb hok
            obtain ⟨c, hc, h⟩ := ih hok hb
            exact ⟨c, List.mem_cons_of_mem _ hc, h⟩
        | false =>
            rw [hr, andEach_false] at hb
            exact ⟨b, List.mem_cons_of_mem _ hb, Or.inr ⟨by rw [andEach_false], rfl⟩⟩

/-- **A refused element ends the loop.**  Let `f` accept or refuse an element
by the test `p`.  Then every accepted element is `Reached` and every refused one
`Kept` exactly when no refused element stands before an accepted one. -/
theorem andEach_forall₂_iff {p : α → Prop} {Reached Kept : α → α → Prop}
    (haccept : ∀ s a, p a → (f s a).2.2 = true ∧ Reached a (f s a).2.1)
    (hrefuse : ∀ s a, ¬ p a → (f s a).2.2 = false ∧ Kept a (f s a).2.1)
    (hkept : ∀ a, Kept a a) (hnew : ∀ a, p a → ¬ Reached a a) (s : σ) (l : List α) :
    List.Forall₂ (fun a b => (p a → Reached a b) ∧ (¬ p a → Kept a b)) l
        (andEach f true s l).2.1 ↔
      l.Pairwise fun a b => p b → p a := by
  induction l generalizing s with
  | nil => simp
  | cons a l ih =>
      rw [andEach_cons, List.forall₂_cons, List.pairwise_cons]
      by_cases ha : p a
      · obtain ⟨hr, hreached⟩ := haccept s a ha
        rw [hr, ih]
        exact ⟨fun h => ⟨fun _ _ _ => ha, h.2⟩,
          fun h => ⟨⟨fun _ => hreached, fun hn => absurd ha hn⟩, h.2⟩⟩
      · obtain ⟨hr, hkeep⟩ := hrefuse s a ha
        rw [hr, andEach_false, List.forall₂_same]
        constructor
        · intro h
          have hnone : ∀ b ∈ l, ¬ p b := fun b hb hp => hnew b hp ((h.2 b hb).1 hp)
          exact ⟨fun b hb hp => absurd hp (hnone b hb),
            List.pairwise_of_forall_mem_list fun b _ c hc hp => absurd hp (hnone c hc)⟩
        · intro h
          have hnone : ∀ b ∈ l, ¬ p b := fun b hb hp => ha (h.1 b hb hp)
          exact ⟨⟨fun hp => absurd hp ha, fun _ => hkeep⟩,
            fun b hb => ⟨fun hp => absurd hp (hnone b hb), fun _ => hkept b⟩⟩

/-- The elements before the first that fails the test `p`, changed by `k`, and the
others as they were. -/
def sweep (p : β → Bool) (k : β → β) (l : List β) : List β :=
  (l.takeWhile p).map k ++ l.dropWhile p

theorem sweep_cons (p : β → Bool) (k : β → β) (b : β) (l : List β) :
    sweep p k (b :: l) = if p b then k b :: sweep p k l else b :: l := by
  cases h : p b <;> simp [sweep, h]

/-- A sweep commutes with a map that respects the test and the change. -/
theorem sweep_map {γ : Type*} {p : β → Bool} {k : β → β} {p' : γ → Bool} {k' : γ → γ} {g : β → γ}
    (hp : ∀ b, p' (g b) = p b) (hk : ∀ b, p b = true → k' (g b) = g (k b)) (l : List β) :
    sweep p' k' (l.map g) = (sweep p k l).map g := by
  induction l with
  | nil => rfl
  | cons b l ih =>
      rw [List.map_cons, sweep_cons, sweep_cons, hp, ih]
      split_ifs with hb
      · rw [List.map_cons, hk b hb]
      · rfl

/-- What the change leaves alone, a sweep leaves alone. -/
theorem sweep_view {γ : Type*} (p : β → Bool) {k : β → β} {g : β → γ} (hk : ∀ b, g (k b) = g b)
    (l : List β) : (sweep p k l).map g = l.map g := by
  induction l with
  | nil => rfl
  | cons b l ih =>
      rw [sweep_cons]
      split_ifs
      · rw [List.map_cons, List.map_cons, hk, ih]
      · rfl

/-- **What a loop leaves** whose operation accepts an element by a test on a view of it:
seen through the view, it is a sweep.  What the accepting calls keep of the state, the
loop keeps. -/
theorem andEach_sweep {I : σ → Prop} {g : α → β} {p : β → Bool} {k : β → β}
    (haccept : ∀ s a, I s → p (g a) = true →
      I (f s a).1 ∧ g (f s a).2.1 = k (g a) ∧ (f s a).2.2 = true)
    (hrefuse : ∀ s a, p (g a) = false → f s a = (s, a, false)) {s : σ} (hs : I s) (l : List α) :
    (andEach f true s l).2.1.map g = sweep p k (l.map g) ∧ I (andEach f true s l).1 := by
  induction l generalizing s with
  | nil => exact ⟨rfl, hs⟩
  | cons a l ih =>
      rw [andEach_cons, List.map_cons, List.map_cons, sweep_cons]
      cases ha : p (g a) with
      | true =>
          obtain ⟨hI, hg, hr⟩ := haccept s a hs ha
          obtain ⟨hl, hI'⟩ := ih hI
          rw [hr, hl, hg, if_pos rfl]
          exact ⟨rfl, hI'⟩
      | false =>
          rw [hrefuse s a ha, andEach_false, if_neg Bool.false_ne_true]
          exact ⟨rfl, hs⟩

end Each

end Lib
end SNBModules
