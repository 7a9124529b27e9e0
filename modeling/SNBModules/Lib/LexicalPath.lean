import Mathlib.Data.List.Chain

/-!
# Paths as lists of components

A path is the list of its components, the pieces between the separators.  It is
walked with a stack of names, the innermost first: an empty component and `dot`
stay where they are, `dot dot` leaves the innermost name, and any other component
enters one (`walk`).

`dropDots` is what becomes of the components when every `dot` that a separator
follows is taken out of the text together with the separator: a component that
ends in `dot` loses it and runs into the next one.  The walk is the same if these
components are nothing but `dot` (`walk_dropDots`), and only then if no empty
component follows one of them and the path ends in a name
(`wholeDots_of_walk_prepend`).
-/

namespace SNBModules
namespace Lib

variable {α : Type*} {dot : α}

/-- A component that leads into a name. -/
def IsName (dot : α) (c : List α) : Prop := c ≠ [] ∧ c ≠ [dot] ∧ c ≠ [dot, dot]

theorem IsName.append {c : List α} (h : IsName dot c) (x : List α) : IsName dot (x ++ c) := by
  obtain ⟨hne, hdot, hdots⟩ := h
  refine ⟨by simp [hne], fun hx => ?_, fun hx => ?_⟩
  · rcases List.append_eq_singleton_iff.1 hx with ⟨-, hc⟩ | ⟨-, hc⟩
    · exact hdot hc
    · exact hne hc
  · rcases List.append_eq_cons_iff.1 hx with ⟨-, hc⟩ | ⟨x', -, hx'⟩
    · exact hdots hc
    · rcases List.append_eq_singleton_iff.1 hx'.symm with ⟨-, hc⟩ | ⟨-, hc⟩
      · exact hdot hc
      · exact hne hc

/-- A component that does not end in a dot leads into a name, unless it is empty. -/
theorem isName_of_getLast?_ne {c : List α} (hne : c ≠ []) (h : c.getLast? ≠ some dot) :
    IsName dot c :=
  ⟨hne, fun hc => h (by simp [hc]), fun hc => h (by simp [hc])⟩

/-- A dot that a separator follows is a component of its own. -/
def WholeDots (dot : α) (l : List (List α)) : Prop :=
  ∀ c ∈ l.dropLast, c.getLast? = some dot → c = [dot]

theorem wholeDots_cons_cons (c d : List α) (l : List (List α)) :
    WholeDots dot (c :: d :: l) ↔
      (c.getLast? = some dot → c = [dot]) ∧ WholeDots dot (d :: l) := by
  simp [WholeDots]

/-- No empty component follows a dot. -/
def NoEmptyAfterDot (dot : α) (l : List (List α)) : Prop :=
  l.IsChain fun c d => c.getLast? = some dot → d ≠ []

/-- The first component with a text in front of it. -/
def prepend (x : List α) (l : List (List α)) : List (List α) := l.modifyHead (x ++ ·)

@[simp] theorem prepend_empty (l : List (List α)) : prepend [] l = l := by
  cases l <;> rfl

@[simp] theorem prepend_cons (x c : List α) (l : List (List α)) :
    prepend x (c :: l) = (x ++ c) :: l := rfl

theorem prepend_prepend (x y : List α) (l : List (List α)) :
    prepend x (prepend y l) = prepend (x ++ y) l := by
  cases l <;> simp [prepend]

variable [DecidableEq α]

instance (c : List α) : Decidable (IsName dot c) :=
  inferInstanceAs (Decidable (c ≠ [] ∧ c ≠ [dot] ∧ c ≠ [dot, dot]))

/-! ## Walking -/

/-- Where one component leads. -/
def enter (dot : α) (s : List (List α)) (c : List α) : List (List α) :=
  if c = [] ∨ c = [dot] then s
  else if c = [dot, dot] then s.tail
  else c :: s

/-- Where a path leads. -/
def walk (dot : α) (s l : List (List α)) : List (List α) := l.foldl (enter dot) s

@[simp] theorem walk_nil (s : List (List α)) : walk dot s [] = s := rfl

@[simp] theorem walk_cons (s : List (List α)) (c : List α) (l : List (List α)) :
    walk dot s (c :: l) = walk dot (enter dot s c) l := rfl

theorem walk_append (s l l' : List (List α)) :
    walk dot s (l ++ l') = walk dot (walk dot s l) l' := List.foldl_append

@[simp] theorem enter_empty (s : List (List α)) : enter dot s [] = s := by simp [enter]

@[simp] theorem enter_dot (s : List (List α)) : enter dot s [dot] = s := by simp [enter]

theorem enter_of_isName {c : List α} (h : IsName dot c) (s : List (List α)) :
    enter dot s c = c :: s := by
  simp [enter, h.1, h.2.1, h.2.2]

/-- A name that is entered is in front. -/
theorem enter_append_inj {c x : List α} (hc : IsName dot c) {s s' : List (List α)}
    (h : enter dot s (x ++ c) = enter dot s' c) : x = [] ∧ s = s' := by
  rw [enter_of_isName (hc.append x), enter_of_isName hc] at h
  obtain ⟨hfirst, hrest⟩ := List.cons.inj h
  exact ⟨by simpa using hfirst, hrest⟩

/-! ## Dropping the dots -/

/-- The components without the dots that a separator follows. -/
def dropDots (dot : α) : List (List α) → List (List α)
  | c :: d :: l =>
      if c.getLast? = some dot then prepend c.dropLast (dropDots dot (d :: l))
      else c :: dropDots dot (d :: l)
  | l => l

instance (l : List (List α)) : Decidable (WholeDots dot l) :=
  inferInstanceAs (Decidable (∀ c ∈ l.dropLast, c.getLast? = some dot → c = [dot]))

theorem dropDots_cons_cons (c d : List α) (l : List (List α)) :
    dropDots dot (c :: d :: l) =
      if c.getLast? = some dot then prepend c.dropLast (dropDots dot (d :: l))
      else c :: dropDots dot (d :: l) := rfl

/-- An element in front of the first component. -/
theorem dropDots_cons_head {a : α} {d : List α} {l : List (List α)}
    (h : a ≠ dot ∨ d ≠ [] ∨ l = []) :
    dropDots dot ((a :: d) :: l) = prepend [a] (dropDots dot (d :: l)) := by
  cases l with
  | nil => rfl
  | cons e l =>
      rw [dropDots_cons_cons, dropDots_cons_cons]
      cases d with
      | nil =>
          have ha : a ≠ dot := by simpa using h
          simp [ha]
      | cons b d =>
          rw [List.getLast?_cons_cons, List.dropLast_cons_cons]
          split_ifs
          · rw [prepend_prepend]
            rfl
          · rfl

/-- The first component becomes empty if nothing but dots stand in front of an empty one. -/
theorem head?_dropDots_iff {l : List (List α)} (h : WholeDots dot l) :
    (dropDots dot l).head? = some [] ↔ (l.dropWhile (· = [dot])).head? = some [] := by
  induction l using dropDots.induct dot with
  | case1 c d l hdot ih =>
      rw [wholeDots_cons_cons] at h
      obtain rfl := h.1 hdot
      rw [dropDots_cons_cons, if_pos hdot]
      simpa using ih h.2
  | case2 c d l hdot ih =>
      have hc : c ≠ [dot] := fun hc => hdot (by simp [hc])
      simp [dropDots_cons_cons, hdot, hc]
  | case3 l hl =>
      rcases l with _ | ⟨c, _ | ⟨d, l⟩⟩
      · rfl
      · by_cases hc : c = [dot] <;> simp [dropDots, hc]
      · exact absurd rfl (hl c d l)

/-- **Dots that are components of their own:** the walk is the same without them. -/
theorem walk_dropDots {l : List (List α)} (h : WholeDots dot l) (s : List (List α)) :
    walk dot s (dropDots dot l) = walk dot s l := by
  induction l using dropDots.induct dot generalizing s with
  | case1 c d l hdot ih =>
      rw [wholeDots_cons_cons] at h
      obtain rfl := h.1 hdot
      rw [dropDots_cons_cons, if_pos hdot, walk_cons s [dot], enter_dot]
      simpa using ih h.2 s
  | case2 c d l hdot ih =>
      rw [wholeDots_cons_cons] at h
      rw [dropDots_cons_cons, if_neg hdot, walk_cons, walk_cons s c]
      exact ih h.2 _
  | case3 l hl => rw [dropDots.eq_2 dot l hl]

/-- **Dots that are not:** the walk is another one.  Here `x` is what is left of the
components before. -/
theorem wholeDots_of_walk_prepend {l : List (List α)} (hnext : NoEmptyAfterDot dot l)
    {last : List α} (hlast : l.getLast? = some last) (hname : IsName dot last) {x : List α}
    (hx : x ≠ [] → l.head? ≠ some []) {s s' : List (List α)}
    (h : walk dot s (prepend x (dropDots dot l)) = walk dot s' l) :
    x = [] ∧ WholeDots dot l ∧ s = s' := by
  induction l using dropDots.induct dot generalizing x s s' with
  | case1 c d l hdot ih =>
      -- what is left of `c` comes in front of the next component, which is not empty
      rw [NoEmptyAfterDot, List.isChain_cons_cons] at hnext
      rw [List.getLast?_cons_cons] at hlast
      rw [dropDots_cons_cons, if_pos hdot, prepend_prepend, walk_cons s' c] at h
      obtain ⟨hleft, hwhole, hs⟩ := ih hnext.2 hlast (fun _ => by simpa using hnext.1 hdot) h
      obtain ⟨hx', hc⟩ := List.append_eq_nil_iff.1 hleft
      obtain ⟨c', rfl⟩ := List.getLast?_eq_some_iff.1 hdot
      obtain rfl : c' = [] := by simpa using hc
      refine ⟨hx', (wholeDots_cons_cons _ d l).2 ⟨fun _ => rfl, hwhole⟩, ?_⟩
      simpa using hs
  | case2 c d l hdot ih =>
      rw [NoEmptyAfterDot, List.isChain_cons_cons] at hnext
      rw [List.getLast?_cons_cons] at hlast
      rw [dropDots_cons_cons, if_neg hdot, prepend_cons, walk_cons, walk_cons s' c] at h
      obtain ⟨-, hwhole, hs⟩ := ih hnext.2 hlast (fun hne => absurd rfl hne) (by simpa using h)
      have hwhole' := (wholeDots_cons_cons c d l).2 ⟨fun hc => absurd hc hdot, hwhole⟩
      rcases eq_or_ne c [] with rfl | hc
      · have hx' : x = [] := by simpa using hx
        exact ⟨hx', hwhole', by simpa [hx'] using hs⟩
      · obtain ⟨hx', hs'⟩ := enter_append_inj (isName_of_getLast?_ne hc hdot) hs
        exact ⟨hx', hwhole', hs'⟩
  | case3 l hl =>
      obtain ⟨c, rfl⟩ : ∃ c, l = [c] := by
        rcases l with _ | ⟨c, _ | ⟨d, l⟩⟩
        · cases hlast
        · exact ⟨c, rfl⟩
        · exact absurd rfl (hl c d l)
      obtain rfl : c = last := by simpa using hlast
      obtain ⟨hx', hs⟩ := enter_append_inj hname h
      exact ⟨hx', by simp [WholeDots], hs⟩

/-- A first component that is not empty does not become so. -/
theorem head?_dropDots_ne {l : List (List α)} (hnext : NoEmptyAfterDot dot l)
    (h : l.head? ≠ some []) : (dropDots dot l).head? ≠ some [] := by
  induction l using dropDots.induct dot with
  | case1 c d l hdot ih =>
      rw [NoEmptyAfterDot, List.isChain_cons_cons] at hnext
      rw [dropDots_cons_cons, if_pos hdot]
      intro hempty
      obtain ⟨l', hl'⟩ := List.head?_eq_some_iff.1 hempty
      cases hdrop : dropDots dot (d :: l) with
      | nil => simp [hdrop, prepend] at hl'
      | cons e l'' =>
          have he : e = [] := by
            rw [hdrop, prepend_cons] at hl'
            exact (List.append_eq_nil_iff.1 (List.cons.inj hl').1).2
          exact ih hnext.2 (by simpa using hnext.1 hdot) (by rw [hdrop, he]; rfl)
  | case2 c d l hdot ih => simpa [dropDots_cons_cons, hdot] using h
  | case3 l hl => rwa [dropDots.eq_2 dot l hl]

end Lib
end SNBModules
