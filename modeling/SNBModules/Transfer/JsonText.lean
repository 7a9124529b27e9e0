import Mathlib.Tactic.SplitIfs
import SNBModules.Transfer.Types

/-!
# JSON text

The compact text of a value as `dump` writes it, and a reader of such text.  The
results about messages take `dump` and `parse` as parameters and ask that the
second undoes the first; this pair does (`parse_dump`).  A character below the
blank, which the library escapes, stands for itself here.
-/

namespace SNBModules
namespace Transfer
namespace JsonText

/-! ## Printing -/

/-- The characters of a string, with the quotes and backslashes escaped. -/
def escape : List Char → List Char
  | [] => []
  | c :: l => if c = '\x22' ∨ c = '\\' then '\\' :: c :: escape l else c :: escape l

/-- A string up to its closing quote; the opening one stands before it. -/
def printString (s : String) : List Char := escape s.toList ++ ['\x22']

def printInt : ℤ → List Char
  | .ofNat n => Nat.toDigits 10 n
  | .negSucc n => '-' :: Nat.toDigits 10 (n + 1)

mutual

/-- The text of a value. -/
def print : Json → List Char
  | .null => ['n', 'u', 'l', 'l']
  | .boolean true => ['t', 'r', 'u', 'e']
  | .boolean false => ['f', 'a', 'l', 's', 'e']
  | .integer n => printInt n
  | .float n => printInt n ++ ['.', '0']
  | .string s => '\x22' :: printString s
  | .array [] => ['[', ']']
  | .array (j :: l) => '[' :: (print j ++ printRest l)
  | .object [] => ['\x7b', '\x7d']
  | .object ((k, j) :: l) =>
      '\x7b' :: '\x22' :: (printString k ++ ':' :: (print j ++ printMembers l))

/-- The elements after the first, and the closing bracket. -/
def printRest : List Json → List Char
  | [] => [']']
  | j :: l => ',' :: (print j ++ printRest l)

/-- The members after the first, and the closing brace. -/
def printMembers : List (String × Json) → List Char
  | [] => ['\x7d']
  | (k, j) :: l => ',' :: '\x22' :: (printString k ++ ':' :: (print j ++ printMembers l))

end

/-- `j.dump()`. -/
def dump (j : Json) : String := String.ofList (print j)

/-! ## Reading -/

/-- A string up to its closing quote. -/
def parseString : List Char → Option (List Char × List Char)
  | [] => none
  | '\\' :: c :: r => (parseString r).map fun p => (c :: p.1, p.2)
  | c :: r => if c = '\x22' then some ([], r) else (parseString r).map fun p => (c :: p.1, p.2)

/-- A key, up to the colon after it. -/
def parseKey : List Char → Option (String × List Char)
  | '\x22' :: r => do
      let (k, r) ← parseString r
      if r.head? = some ':' then some (String.ofList k, r.tail) else none
  | _ => none

/-- The digits of a number, and its fraction. -/
def parseDigits (sign : ℤ) (s : List Char) : Option (Json × List Char) :=
  let digits := s.takeWhile Char.isDigit
  let n : ℤ := sign * Nat.ofDigitChars 10 digits 0
  if digits = [] then none
  else
    match s.dropWhile Char.isDigit with
    | '.' :: r => some (.float n, r.dropWhile Char.isDigit)
    | r => some (.integer n, r)

/-- The rest of a word. -/
def parseWord (word : List Char) (j : Json) (r : List Char) : Option (Json × List Char) :=
  if r.take word.length = word then some (j, r.drop word.length) else none

mutual

/-- A value, with fuel for its nesting. -/
def parseValue : ℕ → List Char → Option (Json × List Char)
  | n + 1, c :: r =>
      if c = 'n' then parseWord ['u', 'l', 'l'] .null r
      else if c = 't' then parseWord ['r', 'u', 'e'] (.boolean true) r
      else if c = 'f' then parseWord ['a', 'l', 's', 'e'] (.boolean false) r
      else if c = '\x22' then (parseString r).map fun p => (.string (String.ofList p.1), p.2)
      else if c = '[' then
        if r.head? = some ']' then some (.array [], r.tail)
        else do
          let (j, r) ← parseValue n r
          let (l, r) ← parseRest n r
          some (.array (j :: l), r)
      else if c = '\x7b' then
        if r.head? = some '\x7d' then some (.object [], r.tail)
        else do
          let (k, r) ← parseKey r
          let (j, r) ← parseValue n r
          let (l, r) ← parseMembers n r
          some (.object ((k, j) :: l), r)
      else if c = '-' then parseDigits (-1) r
      else parseDigits 1 (c :: r)
  | _, _ => none

/-- The elements after the first. -/
def parseRest : ℕ → List Char → Option (List Json × List Char)
  | n + 1, c :: r =>
      if c = ']' then some ([], r)
      else if c = ',' then do
        let (j, r) ← parseValue n r
        let (l, r) ← parseRest n r
        some (j :: l, r)
      else none
  | _, _ => none

/-- The members after the first. -/
def parseMembers : ℕ → List Char → Option (List (String × Json) × List Char)
  | n + 1, c :: r =>
      if c = '\x7d' then some ([], r)
      else if c = ',' then do
        let (k, r) ← parseKey r
        let (j, r) ← parseValue n r
        let (l, r) ← parseMembers n r
        some ((k, j) :: l, r)
      else none
  | _, _ => none

end

/-- `json::parse`. -/
def parse (s : String) : Option Json :=
  match parseValue (s.length + 1) s.toList with
  | some (j, []) => some j
  | _ => none

/-! ## The reader undoes the printer -/

/-- What follows a number and is no part of it. -/
def Stops (r : List Char) : Prop := ∀ c ∈ r.head?, c.isDigit = false ∧ c ≠ '.'

theorem stops_cons {c : Char} (r : List Char) (h : c.isDigit = false) (hdot : c ≠ '.') :
    Stops (c :: r) := by
  intro c' hc
  cases hc
  exact ⟨h, hdot⟩

theorem parseString_escape (s r : List Char) :
    parseString (escape s ++ '\x22' :: r) = some (s, r) := by
  induction s with
  | nil => simp [escape, parseString]
  | cons c s ih =>
      rw [escape]
      split_ifs with h
      · simp [parseString, ih]
      · obtain ⟨hquote, hslash⟩ := not_or.1 h
        rw [List.cons_append, parseString.eq_3 _ _ fun _ _ h => absurd h hslash, if_neg hquote, ih]
        rfl

theorem parseString_printString (s : String) (r : List Char) :
    parseString (printString s ++ r) = some (s.toList, r) := by
  rw [printString, List.append_assoc]
  exact parseString_escape s.toList r

/-- Digits are read to their end. -/
theorem span_digits (n : ℕ) {r : List Char} (hr : ∀ c ∈ r.head?, c.isDigit = false) :
    (Nat.toDigits 10 n ++ r).takeWhile Char.isDigit = Nat.toDigits 10 n ∧
      (Nat.toDigits 10 n ++ r).dropWhile Char.isDigit = r := by
  have hdigits : ∀ c ∈ Nat.toDigits 10 n, c.isDigit = true :=
    fun c hc => Nat.isDigit_of_mem_toDigits (by decide) (by decide) hc
  rw [List.takeWhile_append_of_pos hdigits, List.dropWhile_append_of_pos hdigits]
  cases r with
  | nil => simp
  | cons c r =>
      have hc : c.isDigit = false := hr c rfl
      simp [hc]

theorem parseDigits_integer (sign : ℤ) (n : ℕ) {r : List Char} (hr : Stops r) :
    parseDigits sign (Nat.toDigits 10 n ++ r) = some (.integer (sign * n), r) := by
  obtain ⟨htake, hdrop⟩ := span_digits n fun c hc => (hr c hc).1
  simp only [parseDigits, htake, hdrop, Nat.toDigits_ne_nil, if_false,
    Nat.ofDigitChars_ten_toDigits]
  cases r with
  | nil => rfl
  | cons c r =>
      have hc : c ≠ '.' := (hr c rfl).2
      simp [hc]

theorem parseDigits_float (sign : ℤ) (n : ℕ) {r : List Char} (hr : Stops r) :
    parseDigits sign (Nat.toDigits 10 n ++ '.' :: '0' :: r) = some (.float (sign * n), r) := by
  obtain ⟨htake, hdrop⟩ := span_digits n (r := '.' :: '0' :: r) fun c hc => by cases hc; rfl
  have hr' : r.dropWhile Char.isDigit = r := by
    cases r with
    | nil => rfl
    | cons c r =>
        have hc : c.isDigit = false := (hr c rfl).1
        simp [hc]
  simp [parseDigits, htake, hdrop, Nat.toDigits_ne_nil, Nat.ofDigitChars_ten_toDigits, hr']

/-- The first character of a number is a sign or a digit. -/
theorem printInt_cons (n : ℤ) : ∃ c l, printInt n = c :: l ∧ (c = '-' ∨ c.isDigit = true) := by
  cases n with
  | ofNat n =>
      obtain ⟨c, l, h⟩ := List.exists_cons_of_ne_nil (Nat.toDigits_ne_nil (n := n) (b := 10))
      refine ⟨c, l, h, Or.inr ?_⟩
      exact Nat.isDigit_of_mem_toDigits (by decide) (by decide) (h ▸ List.mem_cons_self)
  | negSucc n => exact ⟨'-', _, rfl, Or.inl rfl⟩

/-- No value starts with a closing bracket. -/
theorem print_cons (j : Json) : ∃ c l, print j = c :: l ∧ c ≠ ']' := by
  have hnum : ∀ (n : ℤ) (r : List Char), ∃ c l, printInt n ++ r = c :: l ∧ c ≠ ']' := by
    intro n r
    obtain ⟨c, l, h, hc⟩ := printInt_cons n
    refine ⟨c, l ++ r, by rw [h]; rfl, ?_⟩
    rintro rfl
    rcases hc with hc | hc <;> simp at hc
  cases j with
  | integer n => simpa [print] using hnum n []
  | float n => simpa [print] using hnum n ['.', '0']
  | boolean b => cases b <;> exact ⟨_, _, rfl, by decide⟩
  | array l => cases l <;> exact ⟨_, _, rfl, by decide⟩
  | object l => rcases l with _ | ⟨⟨k, j⟩, l⟩ <;> exact ⟨_, _, rfl, by decide⟩
  | _ => exact ⟨_, _, rfl, by decide⟩

theorem stops_printRest (l : List Json) (r : List Char) : Stops (printRest l ++ r) := by
  cases l <;> exact stops_cons _ (by decide) (by decide)

theorem stops_printMembers (l : List (String × Json)) (r : List Char) :
    Stops (printMembers l ++ r) := by
  rcases l with _ | ⟨⟨k, j⟩, l⟩ <;> exact stops_cons _ (by decide) (by decide)

/-- A sign or a digit starts a number and nothing else. -/
theorem parseValue_digits (n : ℕ) (m : ℕ) (r : List Char) :
    parseValue (n + 1) (Nat.toDigits 10 m ++ r) = parseDigits 1 (Nat.toDigits 10 m ++ r) := by
  obtain ⟨c, l, h⟩ := List.exists_cons_of_ne_nil (Nat.toDigits_ne_nil (n := m) (b := 10))
  have hc : c.isDigit = true :=
    Nat.isDigit_of_mem_toDigits (by decide) (by decide) (h ▸ List.mem_cons_self)
  have hne : ∀ c', c'.isDigit = false → c ≠ c' := by
    rintro c' hc' rfl
    rw [hc] at hc'
    cases hc'
  rw [h, List.cons_append, parseValue]
  rw [if_neg (hne _ (by decide)), if_neg (hne _ (by decide)), if_neg (hne _ (by decide)),
    if_neg (hne _ (by decide)), if_neg (hne _ (by decide)), if_neg (hne _ (by decide)),
    if_neg (hne _ (by decide))]

theorem parseValue_minus (n : ℕ) (r : List Char) :
    parseValue (n + 1) ('-' :: r) = parseDigits (-1) r := by
  simp [parseValue]

theorem parseValue_integer (n : ℕ) (m : ℤ) {r : List Char} (hr : Stops r) :
    parseValue (n + 1) (printInt m ++ r) = some (.integer m, r) := by
  cases m with
  | ofNat m =>
      rw [printInt, parseValue_digits, parseDigits_integer 1 m hr, one_mul]
      rfl
  | negSucc m =>
      rw [printInt, List.cons_append, parseValue_minus, parseDigits_integer (-1) _ hr, neg_one_mul]
      rfl

theorem parseValue_float (n : ℕ) (m : ℤ) {r : List Char} (hr : Stops r) :
    parseValue (n + 1) (printInt m ++ '.' :: '0' :: r) = some (.float m, r) := by
  cases m with
  | ofNat m =>
      rw [printInt, parseValue_digits, parseDigits_float 1 m hr, one_mul]
      rfl
  | negSucc m =>
      rw [printInt, List.cons_append, parseValue_minus, parseDigits_float (-1) _ hr, neg_one_mul]
      rfl

theorem parseKey_printString (k : String) (r : List Char) :
    parseKey ('\x22' :: (printString k ++ ':' :: r)) = some (k, r) := by
  simp [parseKey, parseString_printString]

/-- **The reader undoes the printer,** whatever follows the value. -/
theorem parse_print (n : ℕ) :
    (∀ j r, Stops r → (print j).length ≤ n → parseValue n (print j ++ r) = some (j, r)) ∧
      (∀ l r, (printRest l).length ≤ n → parseRest n (printRest l ++ r) = some (l, r)) ∧
      ∀ l r, (printMembers l).length ≤ n → parseMembers n (printMembers l ++ r) = some (l, r) := by
  induction n with
  | zero =>
      refine ⟨fun j r _ h => ?_, fun l r h => ?_, fun l r h => ?_⟩
      · obtain ⟨c, l, hj, -⟩ := print_cons j
        simp [hj] at h
      · cases l <;> simp [printRest] at h
      · rcases l with _ | ⟨⟨k, j⟩, l⟩ <;> simp [printMembers] at h
  | succ n ih =>
      obtain ⟨ihValue, ihRest, ihMembers⟩ := ih
      refine ⟨fun j r hr h => ?_, fun l r h => ?_, fun l r h => ?_⟩
      · cases j with
        | integer m => exact parseValue_integer n m hr
        | float m =>
            have hf := parseValue_float n m hr
            simpa [print] using hf
        | null => simp [print, parseValue, parseWord]
        | boolean b => cases b <;> simp [print, parseValue, parseWord]
        | string s => simp [print, parseValue, parseString_printString]
        | array l =>
            cases l with
            | nil => simp [print, parseValue]
            | cons j l =>
                obtain ⟨c, l', hj, hc⟩ := print_cons j
                simp only [print, List.length_cons, List.length_append] at h
                have hv := ihValue j (printRest l ++ r) (stops_printRest l r) (by omega)
                have hl := ihRest l r (by omega)
                rw [hj, List.cons_append] at hv
                simp [print, parseValue, hj, hc, hv, hl]
        | object l =>
            rcases l with _ | ⟨⟨k, j⟩, l⟩
            · simp [print, parseValue]
            · simp only [print, List.length_cons, List.length_append] at h
              have hv := ihValue j (printMembers l ++ r) (stops_printMembers l r) (by omega)
              have hl := ihMembers l r (by omega)
              simp [print, parseValue, parseKey_printString, hv, hl]
      · cases l with
        | nil => simp [printRest, parseRest]
        | cons j l =>
            simp only [printRest, List.length_cons, List.length_append] at h
            have hv := ihValue j (printRest l ++ r) (stops_printRest l r) (by omega)
            have hl := ihRest l r (by omega)
            simp [printRest, parseRest, hv, hl]
      · rcases l with _ | ⟨⟨k, j⟩, l⟩
        · simp [printMembers, parseMembers]
        · simp only [printMembers, List.length_cons, List.length_append] at h
          have hv := ihValue j (printMembers l ++ r) (stops_printMembers l r) (by omega)
          have hl := ihMembers l r (by omega)
          simp [printMembers, parseMembers, parseKey_printString, hv, hl]

/-- **The text of a value is read back.** -/
theorem parse_dump (j : Json) : parse (dump j) = some j := by
  have hstop : Stops [] := fun c hc => by cases hc
  have h := (parse_print ((dump j).length + 1)).1 j [] hstop (by simp [dump])
  rw [List.append_nil] at h
  simp only [parse, dump, String.toList_ofList] at h ⊢
  rw [h]

end JsonText
end Transfer
end SNBModules
