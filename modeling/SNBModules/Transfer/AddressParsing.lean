import Mathlib.Data.List.TakeWhile
import SNBModules.Transfer.Address

/-!
# Reading addresses

Source: `ip_format.hpp`, with what it uses of the standard library.

What `stoi` reads (`stoi_eq_ok_iff`), what `strtok_r` leaves of a text
(`mem_colonTokens_cString`), and with them what `set_port` and `set_ip` take.
-/

namespace SNBModules
namespace Transfer

open Lib

/-! ## Numbers -/

/-- A text that starts with a number: after blanks and a sign, at least one digit. -/
def NumberText (t : List Char) (n : ℤ) : Prop :=
  ∃ blanks sign digits rest,
    t = blanks ++ (sign ++ (digits ++ rest)) ∧ (∀ c ∈ blanks, isSpace c = true) ∧
      (sign = [] ∨ sign = ['+'] ∨ sign = ['-']) ∧
      digits ≠ [] ∧ (∀ c ∈ digits, c.isDigit = true) ∧ (∀ c ∈ rest.head?, c.isDigit = false) ∧
      n = if sign = ['-'] then -(Nat.ofDigitChars 10 digits 0 : ℤ)
        else Nat.ofDigitChars 10 digits 0

/-- The value that `stoi` adds up. -/
theorem foldl_digits (l : List Char) (k : ℕ) :
    l.foldl (fun (n : ℤ) c => 10 * n + (c.toNat - '0'.toNat : ℕ)) (k : ℤ) =
      (Nat.ofDigitChars 10 l k : ℤ) := by
  induction l generalizing k with
  | nil => simp
  | cons c l ih =>
      rw [List.foldl_cons, Nat.ofDigitChars_cons, ← ih]
      push_cast
      rfl

theorem takeWhile_append_of_head {p : Char → Bool} {l r : List Char} (hl : ∀ c ∈ l, p c = true)
    (hr : ∀ c ∈ r.head?, p c = false) :
    (l ++ r).takeWhile p = l ∧ (l ++ r).dropWhile p = r := by
  rw [List.takeWhile_append_of_pos hl, List.dropWhile_append_of_pos hl]
  cases r with
  | nil => simp
  | cons c r => simp [hr c rfl]

/-- What is left after a sign. -/
def afterSign : List Char → List Char
  | '-' :: l => l
  | '+' :: l => l
  | l => l

theorem afterSign_cases (s : List Char) :
    ∃ sign, (sign = [] ∨ sign = ['+'] ∨ sign = ['-']) ∧ s = sign ++ afterSign s ∧
      (s.head? = some '-' ↔ sign = ['-']) := by
  rw [afterSign.eq_def]
  split
  · exact ⟨['-'], by simp⟩
  · exact ⟨['+'], by simp⟩
  · rename_i hminus hplus
    refine ⟨[], by simp, rfl, iff_of_false (fun hhead => ?_) (by simp)⟩
    obtain ⟨l, rfl⟩ := List.head?_eq_some_iff.1 hhead
    exact hminus l rfl

theorem afterSign_append {sign s : List Char} (hsign : sign = [] ∨ sign = ['+'] ∨ sign = ['-'])
    (hs : ∀ c ∈ s.head?, c ≠ '-' ∧ c ≠ '+') : afterSign (sign ++ s) = s := by
  rcases hsign with rfl | rfl | rfl
  · cases s with
    | nil => rfl
    | cons c s =>
        obtain ⟨hminus, hplus⟩ := hs c rfl
        exact afterSign.eq_3 _ (fun l h => hminus (List.cons.inj h).1)
          fun l h => hplus (List.cons.inj h).1
  · rfl
  · rfl

/-- `stoi`, with the sum as the number that the digits stand for. -/
theorem stoi_eq (t : List Char) :
    stoi t =
      let s := t.dropWhile isSpace
      let digits := (afterSign s).takeWhile Char.isDigit
      let n : ℤ := if s.head? = some '-' then -(Nat.ofDigitChars 10 digits 0 : ℤ)
        else Nat.ofDigitChars 10 digits 0
      if digits = [] then .error (.invalidArgument "stoi")
      else if n < -2 ^ 31 ∨ 2 ^ 31 ≤ n then .error (.outOfRange "stoi")
      else .ok n := by
  simp only [← foldl_digits]
  rfl

/-- A digit is no blank and no sign. -/
theorem isDigit_ne {c : Char} (h : c.isDigit = true) : isSpace c = false ∧ c ≠ '-' ∧ c ≠ '+' := by
  refine ⟨?_, ?_, ?_⟩
  · simp only [Char.isDigit, isSpace, Bool.and_eq_true, decide_eq_true_eq] at h ⊢
    have hlow : ' '.val < c.val := UInt32.lt_of_lt_of_le (by decide) h.1
    refine Bool.eq_false_iff.2 fun hspace => ?_
    simp only [Bool.or_eq_true, Bool.and_eq_true, decide_eq_true_eq] at hspace
    rcases hspace with rfl | ⟨-, hle⟩
    · exact absurd hlow (by decide)
    · exact absurd (UInt32.lt_of_lt_of_le hlow hle) (by decide)
  · rintro rfl
    simp at h
  · rintro rfl
    simp at h

/-- A number is read, unless it is too large. -/
theorem stoi_of_numberText {t : List Char} {n : ℤ} (h : NumberText t n) :
    stoi t = if n < -2 ^ 31 ∨ 2 ^ 31 ≤ n then .error (.outOfRange "stoi") else .ok n := by
  obtain ⟨blanks, sign, digits, rest, rfl, hblanks, hsign, hne, hdigits, hrest, rfl⟩ := h
  obtain ⟨d, l, rfl⟩ := List.exists_cons_of_ne_nil hne
  obtain ⟨hspace, hminus, hplus⟩ := isDigit_ne (hdigits d List.mem_cons_self)
  have hhead : ∀ c ∈ (sign ++ (d :: l ++ rest)).head?, isSpace c = false := by
    intro c hc
    rcases hsign with rfl | rfl | rfl <;> cases hc
    · exact hspace
    · decide
    · decide
  have hsign' : (sign ++ (d :: l ++ rest)).head? = some '-' ↔ sign = ['-'] := by
    rcases hsign with rfl | rfl | rfl <;> simp [hminus]
  obtain ⟨-, hdrop⟩ := takeWhile_append_of_head hblanks hhead
  obtain ⟨htake, -⟩ := takeWhile_append_of_head hdigits hrest
  have hafter := afterSign_append (s := d :: l ++ rest) hsign (by simp [hminus, hplus])
  simp only [stoi_eq, hdrop, hafter, htake, hsign', if_neg hne]

/-- Without one nothing is read. -/
theorem numberText_or_error (t : List Char) :
    (∃ n, NumberText t n) ∨ stoi t = .error (.invalidArgument "stoi") := by
  obtain ⟨sign, hsign, hs, -⟩ := afterSign_cases (t.dropWhile isSpace)
  rcases eq_or_ne ((afterSign (t.dropWhile isSpace)).takeWhile Char.isDigit) [] with hnil | hne
  · right
    rw [stoi_eq]
    exact if_pos hnil
  · refine Or.inl ⟨_, t.takeWhile isSpace, sign, _,
      (afterSign (t.dropWhile isSpace)).dropWhile Char.isDigit, ?_,
      fun c hc => List.mem_takeWhile_imp hc, hsign, hne, fun c hc => List.mem_takeWhile_imp hc,
      ?_, rfl⟩
    · rw [List.takeWhile_append_dropWhile, ← hs, List.takeWhile_append_dropWhile]
    · intro c hc
      have hhead := List.head?_dropWhile_not Char.isDigit (afterSign (t.dropWhile isSpace))
      rw [Option.mem_def.1 hc] at hhead
      simpa using hhead

theorem stoi_eq_ok_iff {t : List Char} {n : ℤ} :
    stoi t = .ok n ↔ NumberText t n ∧ -2 ^ 31 ≤ n ∧ n < 2 ^ 31 := by
  constructor
  · intro h
    rcases numberText_or_error t with ⟨m, hm⟩ | herror
    · rw [stoi_of_numberText hm] at h
      split_ifs at h with hrange
      cases h
      exact ⟨hm, by omega, by omega⟩
    · rw [herror] at h
      cases h
  · rintro ⟨hn, hlow, hhigh⟩
    rw [stoi_of_numberText hn, if_neg (by omega)]

theorem numberText_digits {l : List Char} (hne : l ≠ []) (h : ∀ c ∈ l, c.isDigit = true) :
    NumberText l (Nat.ofDigitChars 10 l 0) :=
  ⟨[], [], l, [], by simp, by simp, by simp, hne, h, by simp, by simp⟩

/-! ## Addresses -/

/-- A part has no separator in it, and is part of the list. -/
theorem mem_splitOn {α : Type} [DecidableEq α] {sep : α} {s t : List α} (h : t ∈ s.splitOn sep) :
    ∀ c ∈ t, c ≠ sep ∧ c ∈ s := by
  induction s generalizing t with
  | nil =>
      rw [List.splitOn_nil, List.mem_singleton] at h
      simp [h]
  | cons d s ih =>
      rw [List.splitOn_cons_eq_if_modifyHead] at h
      split_ifs at h with hd
      · rcases List.mem_cons.1 h with rfl | h
        · simp
        · exact fun c hc => ⟨(ih h c hc).1, List.mem_cons_of_mem _ (ih h c hc).2⟩
      · obtain ⟨head, tail, hsplit⟩ := List.exists_cons_of_ne_nil (List.splitOn_ne_nil sep s)
        rw [hsplit, List.modifyHead_cons] at h
        rcases List.mem_cons.1 h with rfl | h
        · intro c hc
          rcases List.mem_cons.1 hc with rfl | hc
          · exact ⟨by simpa using hd, List.mem_cons_self⟩
          · obtain ⟨hne, hmem⟩ := ih (hsplit ▸ List.mem_cons_self) c hc
            exact ⟨hne, List.mem_cons_of_mem _ hmem⟩
        · intro c hc
          obtain ⟨hne, hmem⟩ := ih (hsplit ▸ List.mem_cons_of_mem _ h) c hc
          exact ⟨hne, List.mem_cons_of_mem _ hmem⟩

namespace IPFormat

theorem mem_colonTokens_cString {s : String} {t : List Char} (h : t ∈ colonTokens (cString s)) :
    t ≠ [] ∧ ∀ c ∈ t, c ≠ ':' ∧ c ≠ '\x00' := by
  obtain ⟨hsplit, hne⟩ := List.mem_filter.1 h
  refine ⟨by simpa using hne, fun c hc => ?_⟩
  obtain ⟨hcolon, hmem⟩ := mem_splitOn hsplit c hc
  exact ⟨hcolon, by simpa using List.mem_takeWhile_imp hmem⟩

theorem setPort_eq_ok_iff {a b : IPFormat} {port : ℤ} :
    a.setPort port = .ok b ↔ (0 ≤ port ∧ port ≤ 65535) ∧ b = { a with port } := by
  rw [setPort]
  split_ifs with h
  · exact iff_of_false (by simp) fun hb => by omega
  · rw [Except.ok.injEq, eq_comm]
    exact (and_iff_right (by omega)).symm

/-- **What `set_ip` reads:** one part, the host, or two, of which the second starts with
a number in range. -/
theorem setIp_eq_ok_iff {a b : IPFormat} {ip : String} :
    a.setIp ip = .ok b ↔
      (∃ host, colonTokens (cString ip) = [host] ∧ b = { a with ip := String.ofList host }) ∨
      ∃ host port n, colonTokens (cString ip) = [host, port] ∧ NumberText port n ∧
        (0 ≤ n ∧ n ≤ 65535) ∧ b = ⟨String.ofList host, n⟩ := by
  rw [setIp]
  split_ifs with hempty
  · subst hempty
    exact iff_of_false (by simp) (by simp [cString, colonTokens])
  · rcases colonTokens (cString ip) with _ | ⟨host, _ | ⟨port, _ | ⟨_, _⟩⟩⟩
    · simp
    · simp [eq_comm]
    · simp only [bind_eq_ok, stoi_eq_ok_iff, setPort_eq_ok_iff]
      constructor
      · rintro ⟨n, ⟨hn, -⟩, _, ⟨hrange, rfl⟩, hb⟩
        cases hb
        exact Or.inr ⟨host, port, n, rfl, hn, hrange, rfl⟩
      · rintro (⟨_, htokens, -⟩ | ⟨_, _, n, htokens, hn, hrange, rfl⟩)
        · cases htokens
        · cases htokens
          exact ⟨n, ⟨hn, by omega, by omega⟩, _, ⟨hrange, rfl⟩, rfl⟩
    · simp

end IPFormat

end Transfer
end SNBModules
