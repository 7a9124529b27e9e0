import SNBModules.Transfer.RoundTrip

/-!
# Taking `./` out of a path

Source: the loop of `transfer_metadata.hpp`, `set_file_path` and the constructor;
`group_metadata.hpp`, `add_expected_file`; and `transfer_client.hpp`,
`set_listening_dir`.

The loop searches on from where it has removed something.  A `.` before the cut and
a `/` after it make a `./` that it does not see: `..//` becomes `./`.  These are the
only ones that are left (`strip_fixed_point_iff`).
-/

namespace SNBModules
namespace Transfer

/-! ## The loop -/

/-- `find` of `./`: the first place where it stands. -/
def findDotSlash : List Char → Option ℕ
  | '.' :: '/' :: _ => some 0
  | _ :: l => (findDotSlash l).map (· + 1)
  | [] => none

/-- The loop, from the place `pos` on. -/
def stripLoop : ℕ → List Char → ℕ → Option (List Char)
  | 0, _, _ => none
  | turns + 1, s, pos =>
      match findDotSlash (s.drop pos) with
      | none => some s
      | some i => stripLoop turns (s.take (pos + i) ++ s.drop (pos + i + 2)) (pos + i)

/-- What the loop makes of a path, if it ends; each turn but the last shortens it. -/
def strip (s : List Char) : Option (List Char) := stripLoop (s.length + 1) s 0

/-- What is found is the first `./`, and what is not has none. -/
theorem findDotSlash_cases (s : List Char) :
    (findDotSlash s = none ∧ removeDotSlash s = s) ∨
      ∃ a b, s = a ++ '.' :: '/' :: b ∧ findDotSlash s = some a.length ∧
        removeDotSlash s = a ++ removeDotSlash b := by
  induction s using removeDotSlash.induct with
  | case1 l => exact Or.inr ⟨[], l, rfl, rfl, rfl⟩
  | case2 c l hnot ih =>
      rw [findDotSlash.eq_2 c l hnot, removeDotSlash.eq_2 c l hnot]
      rcases ih with ⟨hnone, hsame⟩ | ⟨a, b, rfl, hfind, hremove⟩
      · left
        simp [hnone, hsame]
      · right
        exact ⟨c :: a, b, rfl, by simp [hfind], by simp [hremove]⟩
  | case3 => exact Or.inl ⟨rfl, rfl⟩

/-- The part before `pos` stays, and the rest is gone through. -/
theorem stripLoop_eq {turns : ℕ} (a b : List Char) (h : b.length < turns) :
    stripLoop turns (a ++ b) a.length = some (a ++ removeDotSlash b) := by
  induction turns generalizing a b with
  | zero => exact absurd h (Nat.not_lt_zero _)
  | succ turns ih =>
      rw [stripLoop, List.drop_left]
      rcases findDotSlash_cases b with ⟨hnone, hsame⟩ | ⟨a', b', rfl, hfind, hremove⟩
      · simp [hnone, hsame]
      · have htake : (a ++ (a' ++ '.' :: '/' :: b')).take (a.length + a'.length) = a ++ a' := by
          rw [← List.append_assoc, ← List.length_append, List.take_left]
        have hdrop : (a ++ (a' ++ '.' :: '/' :: b')).drop (a.length + a'.length + 2) = b' := by
          rw [← List.append_assoc, ← List.length_append, ← List.drop_drop, List.drop_left]
          rfl
        have hnext := ih (a ++ a') b' (by
          simp only [List.length_append, List.length_cons] at h
          omega)
        rw [List.length_append] at hnext
        simp only [hfind, htake, hdrop, hnext, hremove]
        rw [List.append_assoc]

/-- **The loop ends,** with every `./` of the path taken out of it. -/
theorem strip_eq (s : List Char) : strip s = some (removeDotSlash s) :=
  stripLoop_eq [] s (Nat.lt_succ_self _)

/-! ## What is left -/

/-- `./` some number of times. -/
def dotSlashes : ℕ → List Char
  | 0 => []
  | n + 1 => '.' :: '/' :: dotSlashes n

/-- Without its `./` a path starts with `/` if one comes after nothing but these. -/
theorem head?_removeDotSlash (s : List Char) :
    (removeDotSlash s).head? = some '/' ↔ ∃ n, dotSlashes n ++ ['/'] <+: s := by
  induction s using removeDotSlash.induct with
  | case1 l ih =>
      rw [removeDotSlash, ih]
      constructor
      · rintro ⟨n, hn⟩
        exact ⟨n + 1, by simpa [dotSlashes] using hn⟩
      · rintro ⟨n, hn⟩
        cases n with
        | zero => simp [dotSlashes] at hn
        | succ n => exact ⟨n, by simpa [dotSlashes] using hn⟩
  | case2 c l hnot ih =>
      rw [removeDotSlash.eq_2 c l hnot, List.head?_cons, Option.some.injEq]
      constructor
      · rintro rfl
        exact ⟨0, by simp [dotSlashes]⟩
      · rintro ⟨n, hn⟩
        cases n with
        | zero => simpa [dotSlashes, eq_comm] using hn
        | succ n =>
            rw [dotSlashes, List.cons_append, List.cons_append, List.cons_prefix_cons] at hn
            obtain ⟨rfl, r, hr⟩ := hn
            exact absurd hr.symm (hnot _ rfl)
  | case3 =>
      refine iff_of_false (by simp [removeDotSlash]) ?_
      rintro ⟨n, hn⟩
      cases n <;> simp [dotSlashes] at hn

/-- A dot, at least one `./`, and a separator: what makes a `./` where it is cut. -/
def Rejoins (s : List Char) : Prop := ∃ n, '.' :: (dotSlashes (n + 1) ++ ['/']) <:+: s

/-- **What is left:** exactly the `./` that are made where something is cut out. -/
theorem infix_removeDotSlash (s : List Char) :
    ['.', '/'] <:+: removeDotSlash s ↔ Rejoins s := by
  induction s using removeDotSlash.induct with
  | case1 l ih =>
      -- no such place starts in the `./` that goes away
      rw [removeDotSlash, ih]
      refine exists_congr fun n => ?_
      rw [List.infix_cons_iff, List.infix_cons_iff]
      simp [dotSlashes]
  | case2 c l hnot ih =>
      have hslash : ['/'] <+: removeDotSlash l ↔ ∃ n, dotSlashes n ++ ['/'] <+: l := by
        rw [← head?_removeDotSlash]
        cases removeDotSlash l <;> simp [eq_comm]
      have hhere : (∃ n, '.' :: (dotSlashes (n + 1) ++ ['/']) <+: c :: l) ↔
          '.' = c ∧ ∃ n, dotSlashes n ++ ['/'] <+: l := by
        simp only [List.cons_prefix_cons, exists_and_left]
        refine and_congr_right fun hc => ?_
        constructor
        · rintro ⟨n, hn⟩
          exact ⟨n + 1, hn⟩
        · rintro ⟨n, hn⟩
          cases n with
          | zero =>
              obtain ⟨r, hr⟩ := hn
              exact absurd hr.symm (hnot r hc.symm)
          | succ n => exact ⟨n, hn⟩
      rw [removeDotSlash.eq_2 c l hnot, List.infix_cons_iff, List.cons_prefix_cons, ih, hslash,
        ← hhere, Rejoins, Rejoins, ← exists_or]
      exact exists_congr fun n => List.infix_cons_iff.symm
  | case3 =>
      refine iff_of_false (by simp [removeDotSlash]) ?_
      rintro ⟨n, hn⟩
      simp at hn

theorem length_removeDotSlash_le (s : List Char) : (removeDotSlash s).length ≤ s.length := by
  induction s using removeDotSlash.induct with
  | case1 l ih =>
      rw [removeDotSlash, List.length_cons, List.length_cons]
      omega
  | case2 c l hnot ih =>
      rw [removeDotSlash.eq_2 c l hnot, List.length_cons, List.length_cons]
      omega
  | case3 => exact Nat.le_refl _

/-- A path is kept as it is only when there is nothing to take out. -/
theorem removeDotSlash_eq_self_iff (s : List Char) :
    removeDotSlash s = s ↔ ¬ ['.', '/'] <:+: s := by
  refine ⟨fun hsame => ?_, removeDotSlash_of_not_infix⟩
  induction s using removeDotSlash.induct with
  | case1 l ih =>
      have hle := length_removeDotSlash_le l
      have hlength := congrArg List.length hsame
      rw [removeDotSlash, List.length_cons, List.length_cons] at hlength
      omega
  | case2 c l hnot ih =>
      rw [removeDotSlash.eq_2 c l hnot] at hsame
      rw [List.infix_cons_iff, List.cons_prefix_cons, not_or]
      refine ⟨?_, ih (List.cons.inj hsame).2⟩
      rintro ⟨rfl, r, hr⟩
      exact hnot r rfl hr.symm
  | case3 => simp

/-- **When stripping is done in one go:** the loop always ends, and its result has no `./`
and stays the same when it is stripped again exactly when no `.`, with `./` after it, is
followed by `/`. -/
theorem strip_fixed_point_iff (s : List Char) :
    ∃ t, strip s = some t ∧
      ((¬ ['.', '/'] <:+: t ∧ strip t = some t) ↔ ¬ Rejoins s) := by
  refine ⟨removeDotSlash s, strip_eq s, ?_⟩
  rw [strip_eq, Option.some.injEq, removeDotSlash_eq_self_iff, and_self, infix_removeDotSlash]

/-- **Not all are removed:** `..//x` becomes `./x`, and that `x`. -/
theorem strip_twice :
    strip ['.', '.', '/', '/', 'x'] = some ['.', '/', 'x'] ∧
      ['.', '/'] <:+: ['.', '/', 'x'] ∧ strip ['.', '/', 'x'] = some ['x'] := by
  decide

end Transfer
end SNBModules
