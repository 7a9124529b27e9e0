import Mathlib.Data.Int.Notation
import Mathlib.Data.List.Basic
import Mathlib.Data.List.TakeWhile
import Mathlib.Tactic.SplitIfs

/-!
# JSON texts

A reader of JSON texts by their grammar.  A text is first cut into tokens by an
automaton that goes through it once (`lexFrom`): punctuation, strings with their
escapes, and words, which are the longest pieces without blanks, quotes and punctuation.
The tokens are then read with fuel (`parseValue`); a word has to be `null`, `true`,
`false` or a number.

A value that is read takes the first of the tokens and does not depend on what comes
after them (`parse_consumes`).  So a text can be read in pieces: `Denotes text v`
says of a piece that it is read as `v` whatever follows, as long as no word runs on
(`Denotes.read`).
-/

namespace SNBModules
namespace Lib
namespace JsonGrammar

/-! ## Tokens -/

inductive Token where
  | beginObject
  | endObject
  | beginArray
  | endArray
  | colon
  | comma
  | string (s : String)
  | word (w : List Char)
  deriving DecidableEq, Repr

/-- The tokens of one character. -/
def punctuation (c : Char) : Option Token :=
  if c = '\x7b' then some .beginObject
  else if c = '\x7d' then some .endObject
  else if c = '[' then some .beginArray
  else if c = ']' then some .endArray
  else if c = ':' then some .colon
  else if c = ',' then some .comma
  else none

def IsBlank (c : Char) : Prop := c = ' ' ∨ c = '\t' ∨ c = '\n' ∨ c = '\r'

instance : DecidablePred IsBlank :=
  fun c => inferInstanceAs (Decidable (c = ' ' ∨ c = '\t' ∨ c = '\n' ∨ c = '\r'))

/-- A character that words are made of. -/
def IsWordChar (c : Char) : Prop := c ≠ '\x22' ∧ ¬ IsBlank c ∧ punctuation c = none

instance : DecidablePred IsWordChar :=
  fun c => inferInstanceAs (Decidable (c ≠ '\x22' ∧ ¬ IsBlank c ∧ punctuation c = none))

def IsWord (w : List Char) : Prop := ∀ c ∈ w, IsWordChar c

instance : DecidablePred IsWord := fun w => List.decidableBAll IsWordChar w

/-- The character of an escape sequence of two characters. -/
def escaped (c : Char) : Option Char :=
  if c = '\x22' ∨ c = '\\' ∨ c = '/' then some c
  else if c = 'b' then some '\x08'
  else if c = 'f' then some '\x0c'
  else if c = 'n' then some '\n'
  else if c = 'r' then some '\r'
  else if c = 't' then some '\t'
  else none

def hexDigit (c : Char) : Option ℕ :=
  if c.isDigit then some (c.toNat - '0'.toNat)
  else if 'a' ≤ c ∧ c ≤ 'f' then some (c.toNat - 'a'.toNat + 10)
  else if 'A' ≤ c ∧ c ≤ 'F' then some (c.toNat - 'A'.toNat + 10)
  else none

/-- The character of a code, if there is one. -/
def charOf (u : ℕ) : Char := if u.isValidChar then Char.ofNat u else '\ufffd'

/-- The characters of a string out of their codes; two surrogates make one character. -/
def decodeUnits : List ℕ → List Char
  | [] => []
  | [u] => [charOf u]
  | u :: v :: l =>
      if 0xd800 ≤ u ∧ u < 0xdc00 ∧ 0xdc00 ≤ v ∧ v < 0xe000 then
        charOf (0x10000 + (u - 0xd800) * 0x400 + (v - 0xdc00)) :: decodeUnits l
      else charOf u :: decodeUnits (v :: l)

/-- Where the automaton is: between tokens, in a word or a string, after a backslash, or
in an escape sequence of digits. -/
inductive LexState where
  | between
  | word (w : List Char)
  | string (units : List ℕ)
  | escape (units : List ℕ)
  | hex (units digits : List ℕ)
  deriving DecidableEq, Repr

/-- One character between tokens. -/
def stepBetween (c : Char) : List Token × LexState :=
  if c = '\x22' then ([], .string [])
  else if IsBlank c then ([], .between)
  else
    match punctuation c with
    | some t => ([t], .between)
    | none => ([], .word [c])

/-- One character, with the tokens that it ends. -/
def lexStep : LexState → Char → Option (List Token × LexState)
  | .between, c => some (stepBetween c)
  | .word w, c =>
      if IsWordChar c then some ([], .word (w ++ [c]))
      else some (.word w :: (stepBetween c).1, (stepBetween c).2)
  | .string units, c =>
      if c = '\x22' then some ([.string (String.ofList (decodeUnits units))], .between)
      else if c = '\\' then some ([], .escape units)
      else if c.toNat < 0x20 then none
      else some ([], .string (units ++ [c.toNat]))
  | .escape units, c =>
      if c = 'u' then some ([], .hex units [])
      else (escaped c).map fun c => ([], .string (units ++ [c.toNat]))
  | .hex units digits, c =>
      (hexDigit c).map fun d =>
        if digits.length = 3 then
          ([], .string (units ++ [(digits ++ [d]).foldl (fun n d => 16 * n + d) 0]))
        else ([], .hex units (digits ++ [d]))

/-- The end of the text. -/
def lexEnd : LexState → Option (List Token)
  | .between => some []
  | .word w => some [.word w]
  | .string _ | .escape _ | .hex _ _ => none

/-- The tokens of a text. -/
def lexFrom : LexState → List Char → Option (List Token)
  | s, [] => lexEnd s
  | s, c :: l => (lexStep s c).bind fun p => (lexFrom p.2 l).map (p.1 ++ ·)

/-! ## Values -/

/-- The value of a text; a number is its text. -/
inductive Value where
  | null
  | boolean (b : Bool)
  | number (text : List Char)
  | string (s : String)
  | array (elems : List Value)
  | object (members : List (String × Value))

namespace Value

/-- The member with a key. -/
def member? (k : String) : Value → Option Value
  | object members => members.lookup k
  | _ => none

/-- The text of a string. -/
def string? : Value → Option String
  | string s => some s
  | _ => none

/-- The value of a number without fraction and exponent. -/
def integer? : Value → Option ℤ
  | number ('-' :: l) =>
      if l.all Char.isDigit then some (-(Nat.ofDigitChars 10 l 0 : ℤ)) else none
  | number l => if l.all Char.isDigit then some (Nat.ofDigitChars 10 l 0 : ℤ) else none
  | _ => none

end Value

/-- One digit or more, and `rest` after them. -/
def digitsThen (rest : List Char → Bool) (l : List Char) : Bool :=
  l.takeWhile Char.isDigit ≠ [] && rest (l.dropWhile Char.isDigit)

def isExponent : List Char → Bool
  | [] => true
  | c :: '+' :: l | c :: '-' :: l | c :: l =>
      (c = 'e' || c = 'E') && digitsThen List.isEmpty l

def isFraction : List Char → Bool
  | '.' :: l => digitsThen isExponent l
  | l => isExponent l

/-- A number without its sign. -/
def isUnsigned : List Char → Bool
  | '0' :: l => isFraction l
  | c :: l => c.isDigit && isFraction (l.dropWhile Char.isDigit)
  | [] => false

def isNumber : List Char → Bool
  | '-' :: l => isUnsigned l
  | l => isUnsigned l

/-- The value that a word is. -/
def wordValue (w : List Char) : Option Value :=
  if w = ['n', 'u', 'l', 'l'] then some .null
  else if w = ['t', 'r', 'u', 'e'] then some (.boolean true)
  else if w = ['f', 'a', 'l', 's', 'e'] then some (.boolean false)
  else if isNumber w then some (.number w)
  else none

mutual

/-- A value, with fuel for its nesting. -/
def parseValue : ℕ → List Token → Option (Value × List Token)
  | n + 1, t :: r =>
      match t with
      | .string s => some (.string s, r)
      | .word w => (wordValue w).map fun v => (v, r)
      | .beginArray =>
          if r.head? = some .endArray then some (.array [], r.tail)
          else (parseElements n r).map fun p => (.array p.1, p.2)
      | .beginObject =>
          if r.head? = some .endObject then some (.object [], r.tail)
          else (parseMembers n r).map fun p => (.object p.1, p.2)
      | .endObject | .endArray | .colon | .comma => none
  | _, _ => none

/-- The elements of an array that is not empty, and its end. -/
def parseElements : ℕ → List Token → Option (List Value × List Token)
  | n + 1, ts => do
      let (v, r) ← parseValue n ts
      match r with
      | .endArray :: r => some ([v], r)
      | .comma :: r => (parseElements n r).map fun p => (v :: p.1, p.2)
      | _ => none
  | 0, _ => none

/-- The members of an object that is not empty, and its end. -/
def parseMembers : ℕ → List Token → Option (List (String × Value) × List Token)
  | n + 1, .string k :: .colon :: ts => do
      let (v, r) ← parseValue n ts
      match r with
      | .endObject :: r => some ([(k, v)], r)
      | .comma :: r => (parseMembers n r).map fun p => ((k, v) :: p.1, p.2)
      | _ => none
  | _, _ => none

end

/-- The value of a text, if it is well formed. -/
def read (text : List Char) : Option Value :=
  (lexFrom .between text).bind fun ts =>
    (parseValue (ts.length + 1) ts).bind fun p => if p.2 = [] then some p.1 else none

example : (read "[1.5e+3, [], null]".toList).isSome = true := by decide +kernel

/-! ## The automaton -/

theorem lexFrom_nil (s : LexState) : lexFrom s [] = lexEnd s := rfl

theorem lexFrom_cons (s : LexState) (c : Char) (l : List Char) :
    lexFrom s (c :: l) = (lexStep s c).bind fun p => (lexFrom p.2 l).map (p.1 ++ ·) := rfl

/-- A character that stands for itself in a string. -/
def IsPlainChar (c : Char) : Prop := c ≠ '\x22' ∧ c ≠ '\\' ∧ 0x20 ≤ c.toNat

instance : DecidablePred IsPlainChar :=
  fun c => inferInstanceAs (Decidable (c ≠ '\x22' ∧ c ≠ '\\' ∧ 0x20 ≤ c.toNat))

/-- A text that is itself between quotes. -/
def Plain (s : List Char) : Prop := ∀ c ∈ s, IsPlainChar c

instance : DecidablePred Plain := fun s => List.decidableBAll IsPlainChar s

theorem charOf_toNat (c : Char) : charOf c.toNat = c := by
  have hvalid : c.toNat.isValidChar := c.valid
  rw [charOf, if_pos hvalid]
  exact Char.ofNat_toNat c

/-- Codes of characters are no surrogates. -/
theorem decodeUnits_map_toNat (s : List Char) : decodeUnits (s.map Char.toNat) = s := by
  induction s with
  | nil => rfl
  | cons c s ih =>
      cases s with
      | nil => simp [decodeUnits, charOf_toNat]
      | cons d s =>
          have hvalid : c.toNat < 0xd800 ∨ 0xdfff < c.toNat ∧ c.toNat < 0x110000 := c.valid
          have hno : ¬ (0xd800 ≤ c.toNat ∧ c.toNat < 0xdc00 ∧ 0xdc00 ≤ d.toNat ∧
              d.toNat < 0xe000) := by omega
          rw [List.map_cons, List.map_cons, decodeUnits, if_neg hno, charOf_toNat]
          rw [List.map_cons] at ih
          rw [ih]

/-- A plain string up to its closing quote. -/
theorem lexFrom_string {s : List Char} (h : Plain s) (units : List ℕ) (r : List Char) :
    lexFrom (.string units) (s ++ '\x22' :: r) =
      (lexFrom .between r).map
        (.string (String.ofList (decodeUnits (units ++ s.map Char.toNat))) :: ·) := by
  induction s generalizing units with
  | nil =>
      rw [List.nil_append, lexFrom_cons]
      simp [lexStep]
  | cons c s ih =>
      obtain ⟨hquote, hslash, hcontrol⟩ := h c List.mem_cons_self
      have hstep : lexStep (.string units) c = some ([], .string (units ++ [c.toNat])) := by
        rw [lexStep, if_neg hquote, if_neg hslash, if_neg (Nat.not_lt.2 hcontrol)]
      rw [List.cons_append, lexFrom_cons, hstep, Option.bind_some,
        ih fun d hd => h d (List.mem_cons_of_mem _ hd)]
      simp [List.append_assoc, Option.map_map, Function.comp_def]

/-- Nothing that would run on in a word. -/
def Delimited (r : List Char) : Prop := ∀ c ∈ r.head?, ¬ IsWordChar c

theorem delimited_nil : Delimited [] := fun _ h => by cases h

theorem delimited_cons {c : Char} (h : ¬ IsWordChar c) (r : List Char) : Delimited (c :: r) := by
  intro d hd
  cases hd
  exact h

/-- A word up to its end. -/
theorem lexFrom_word {w : List Char} (h : IsWord w) (w₀ : List Char)
    {r : List Char} (hr : Delimited r) :
    lexFrom (.word w₀) (w ++ r) = (lexFrom .between r).map (.word (w₀ ++ w) :: ·) := by
  induction w generalizing w₀ with
  | nil =>
      cases r with
      | nil => simp [lexFrom_nil, lexEnd]
      | cons c r =>
          have hc : ¬ IsWordChar c := hr c rfl
          have hstep : lexStep (.word w₀) c =
              some (.word w₀ :: (stepBetween c).1, (stepBetween c).2) := by
            rw [lexStep, if_neg hc]
          have hbetween : lexStep .between c = some (stepBetween c) := rfl
          rw [List.nil_append, lexFrom_cons, lexFrom_cons, hstep, hbetween]
          simp [Option.map_map, Function.comp_def]
  | cons c w ih =>
      have hstep : lexStep (.word w₀) c = some ([], .word (w₀ ++ [c])) := by
        rw [lexStep, if_pos (h c List.mem_cons_self)]
      rw [List.cons_append, lexFrom_cons, hstep, Option.bind_some,
        ih fun d hd => h d (List.mem_cons_of_mem _ hd)]
      simp [List.append_assoc, Option.map_map, Function.comp_def]

theorem stepBetween_of_isWordChar {c : Char} (h : IsWordChar c) :
    stepBetween c = ([], .word [c]) := by
  rw [stepBetween, if_neg h.1, if_neg h.2.1, h.2.2]

/-- Texts that are cut into tokens by themselves. -/
def Lexes (text : List Char) (ts : List Token) : Prop :=
  ∀ r, Delimited r → lexFrom .between (text ++ r) = (lexFrom .between r).map (ts ++ ·)

theorem lexes_word {w : List Char} (h : IsWord w) (hne : w ≠ []) :
    Lexes w [.word w] := by
  intro r hr
  obtain ⟨c, w, rfl⟩ := List.exists_cons_of_ne_nil hne
  rw [List.cons_append, lexFrom_cons, lexStep,
    stepBetween_of_isWordChar (h c List.mem_cons_self), Option.bind_some,
    lexFrom_word (fun d hd => h d (List.mem_cons_of_mem _ hd)) [c] hr]
  simp [Option.map_map, Function.comp_def]

/-- A string between quotes. -/
def quoted (s : List Char) : List Char := '\x22' :: (s ++ ['\x22'])

theorem lexFrom_quoted {s : List Char} (h : Plain s) (r : List Char) :
    lexFrom .between (quoted s ++ r) =
      (lexFrom .between r).map (.string (String.ofList s) :: ·) := by
  rw [quoted, List.cons_append, List.append_assoc, lexFrom_cons]
  have hstep : lexStep .between '\x22' = some ([], .string []) := rfl
  rw [hstep, Option.bind_some, List.singleton_append, lexFrom_string h, List.nil_append,
    decodeUnits_map_toNat]
  simp [Option.map_map, Function.comp_def]

theorem lexFrom_punctuation {c : Char} {t : Token} (h : punctuation c = some t)
    (hquote : c ≠ '\x22') (hblank : ¬ IsBlank c) (r : List Char) :
    lexFrom .between (c :: r) = (lexFrom .between r).map (t :: ·) := by
  rw [lexFrom_cons, lexStep, stepBetween, if_neg hquote, if_neg hblank, h]
  rfl

/-! ## The reader -/

/-- Tokens that are read as a value whatever follows. -/
def Parses (ts : List Token) (v : Value) : Prop :=
  ∀ m x, ts.length ≤ m → parseValue m (ts ++ x) = some (v, x)

def ParsesElements (ts : List Token) (l : List Value) : Prop :=
  ∀ m x, ts.length ≤ m → parseElements m (ts ++ x) = some (l, x)

def ParsesMembers (ts : List Token) (l : List (String × Value)) : Prop :=
  ∀ m x, ts.length ≤ m → parseMembers m (ts ++ x) = some (l, x)

/-- Tokens that start with one that no value, and no member, ends with. -/
def Starts (ts : List Token) : Prop :=
  ∃ t r, ts = t :: r ∧ t ≠ .endArray ∧ t ≠ .endObject

theorem Starts.append {ts : List Token} (h : Starts ts) (x : List Token) : Starts (ts ++ x) := by
  obtain ⟨t, r, rfl, ht⟩ := h
  exact ⟨t, r ++ x, rfl, ht⟩

theorem Starts.head_ne {ts : List Token} (h : Starts ts) :
    ts.head? ≠ some .endArray ∧ ts.head? ≠ some .endObject := by
  obtain ⟨t, r, rfl, hta, hto⟩ := h
  simp [hta, hto]

theorem Starts.length_pos {ts : List Token} (h : Starts ts) : 0 < ts.length := by
  obtain ⟨t, r, rfl, -⟩ := h
  exact Nat.succ_pos _

theorem parses_string (s : String) : Parses [.string s] (.string s) := by
  intro m x hm
  obtain ⟨m, rfl⟩ := Nat.exists_eq_succ_of_ne_zero (Nat.pos_iff_ne_zero.1 hm)
  rfl

theorem parses_word {w : List Char} {v : Value} (h : wordValue w = some v) :
    Parses [.word w] v := by
  intro m x hm
  obtain ⟨m, rfl⟩ := Nat.exists_eq_succ_of_ne_zero (Nat.pos_iff_ne_zero.1 hm)
  simp [parseValue, h]

theorem parses_emptyArray : Parses [.beginArray, .endArray] (.array []) := by
  intro m x hm
  obtain ⟨m, rfl⟩ := Nat.exists_eq_add_of_lt (Nat.lt_of_succ_le hm)
  simp [parseValue]

theorem parses_emptyObject : Parses [.beginObject, .endObject] (.object []) := by
  intro m x hm
  obtain ⟨m, rfl⟩ := Nat.exists_eq_add_of_lt (Nat.lt_of_succ_le hm)
  simp [parseValue]

theorem ParsesElements.array {ts : List Token} {l : List Value} (h : ParsesElements ts l)
    (hts : Starts ts) : Parses (.beginArray :: ts) (.array l) := by
  intro m x hm
  obtain ⟨m, rfl⟩ := Nat.exists_eq_succ_of_ne_zero (Nat.ne_zero_of_lt hm)
  rw [List.cons_append, parseValue, if_neg (hts.append x).head_ne.1,
    h m x (Nat.le_of_succ_le_succ hm)]
  rfl

theorem ParsesMembers.object {ts : List Token} {l : List (String × Value)}
    (h : ParsesMembers ts l) (hts : Starts ts) : Parses (.beginObject :: ts) (.object l) := by
  intro m x hm
  obtain ⟨m, rfl⟩ := Nat.exists_eq_succ_of_ne_zero (Nat.ne_zero_of_lt hm)
  rw [List.cons_append, parseValue, if_neg (hts.append x).head_ne.2,
    h m x (Nat.le_of_succ_le_succ hm)]
  rfl

theorem Parses.lastElement {ts : List Token} {v : Value} (h : Parses ts v) :
    ParsesElements (ts ++ [.endArray]) [v] := by
  intro m x hm
  rw [List.length_append] at hm
  obtain ⟨m, rfl⟩ := Nat.exists_eq_succ_of_ne_zero (Nat.ne_zero_of_lt hm)
  rw [List.append_assoc, parseElements, h m _ (Nat.le_of_succ_le_succ hm)]
  rfl

theorem Parses.consElement {ts ts' : List Token} {v : Value} {l : List Value} (h : Parses ts v)
    (hts : Starts ts) (h' : ParsesElements ts' l) :
    ParsesElements (ts ++ .comma :: ts') (v :: l) := by
  intro m x hm
  rw [List.length_append, List.length_cons] at hm
  obtain ⟨m, rfl⟩ := Nat.exists_eq_succ_of_ne_zero (n := m) (by omega)
  rw [List.append_assoc, parseElements, h m _ (by omega)]
  have hrest := h' m x (by have := hts.length_pos; omega)
  simp [hrest]

theorem Parses.lastMember {ts : List Token} {v : Value} (h : Parses ts v) (k : String) :
    ParsesMembers (.string k :: .colon :: (ts ++ [.endObject])) [(k, v)] := by
  intro m x hm
  simp only [List.length_cons, List.length_append] at hm
  obtain ⟨m, rfl⟩ := Nat.exists_eq_succ_of_ne_zero (n := m) (by omega)
  rw [List.cons_append, List.cons_append, List.append_assoc, parseMembers, h m _ (by omega)]
  rfl

theorem Parses.consMember {ts ts' : List Token} {v : Value} {l : List (String × Value)}
    (h : Parses ts v) (k : String) (h' : ParsesMembers ts' l) :
    ParsesMembers (.string k :: .colon :: (ts ++ .comma :: ts')) ((k, v) :: l) := by
  intro m x hm
  simp only [List.length_cons, List.length_append] at hm
  obtain ⟨m, rfl⟩ := Nat.exists_eq_succ_of_ne_zero (n := m) (by omega)
  rw [List.cons_append, List.cons_append, List.append_assoc, parseMembers, h m _ (by omega)]
  have hrest := h' m x (by omega)
  simp [hrest]

theorem starts_member (k : String) (ts : List Token) : Starts (.string k :: ts) :=
  ⟨_, _, rfl, by simp, by simp⟩

/-- A reader that takes the first of the tokens, and does not depend on the others. -/
def Consumes {α : Type} (parse : List Token → Option (α × List Token))
    (ParsesAs : List Token → α → Prop) : Prop :=
  ∀ ts v r, parse ts = some (v, r) → ∃ c, ts = c ++ r ∧ Starts c ∧ ParsesAs c v

theorem parseValue_succ_consumes {n : ℕ} (hElements : Consumes (parseElements n) ParsesElements)
    (hMembers : Consumes (parseMembers n) ParsesMembers) :
    Consumes (parseValue (n + 1)) Parses := by
  intro ts v r h
  cases ts with
  | nil => simp [parseValue] at h
  | cons t ts =>
      cases t with
      | string s =>
          simp only [parseValue, Option.some.injEq, Prod.mk.injEq] at h
          obtain ⟨rfl, rfl⟩ := h
          exact ⟨[.string s], rfl, starts_member s [], parses_string s⟩
      | word w =>
          simp only [parseValue, Option.map_eq_some_iff, Prod.mk.injEq] at h
          obtain ⟨v, hv, rfl, rfl⟩ := h
          exact ⟨[.word w], rfl, ⟨_, _, rfl, by simp, by simp⟩, parses_word hv⟩
      | beginArray =>
          rw [parseValue] at h
          split_ifs at h with hend
          · obtain ⟨ts, rfl⟩ := List.head?_eq_some_iff.1 hend
            simp only [List.tail_cons, Option.some.injEq, Prod.mk.injEq] at h
            obtain ⟨rfl, rfl⟩ := h
            exact ⟨[.beginArray, .endArray], rfl, ⟨_, _, rfl, by simp, by simp⟩,
              parses_emptyArray⟩
          · simp only [Option.map_eq_some_iff, Prod.mk.injEq] at h
            obtain ⟨⟨l, r'⟩, hl, rfl, rfl⟩ := h
            obtain ⟨c, rfl, hc, hparse⟩ := hElements _ _ _ hl
            exact ⟨.beginArray :: c, rfl, ⟨_, _, rfl, by simp, by simp⟩, hparse.array hc⟩
      | beginObject =>
          rw [parseValue] at h
          split_ifs at h with hend
          · obtain ⟨ts, rfl⟩ := List.head?_eq_some_iff.1 hend
            simp only [List.tail_cons, Option.some.injEq, Prod.mk.injEq] at h
            obtain ⟨rfl, rfl⟩ := h
            exact ⟨[.beginObject, .endObject], rfl, ⟨_, _, rfl, by simp, by simp⟩,
              parses_emptyObject⟩
          · simp only [Option.map_eq_some_iff, Prod.mk.injEq] at h
            obtain ⟨⟨l, r'⟩, hl, rfl, rfl⟩ := h
            obtain ⟨c, rfl, hc, hparse⟩ := hMembers _ _ _ hl
            exact ⟨.beginObject :: c, rfl, ⟨_, _, rfl, by simp, by simp⟩, hparse.object hc⟩
      | endObject | endArray | colon | comma => simp [parseValue] at h

theorem parseElements_succ_consumes {n : ℕ} (hValue : Consumes (parseValue n) Parses)
    (hElements : Consumes (parseElements n) ParsesElements) :
    Consumes (parseElements (n + 1)) ParsesElements := by
  intro ts l r h
  simp only [parseElements, Option.bind_eq_bind, Option.bind_eq_some_iff] at h
  obtain ⟨⟨v, r'⟩, hv, h⟩ := h
  obtain ⟨c, rfl, hc, hparse⟩ := hValue _ _ _ hv
  dsimp only at h
  split at h
  · simp only [Option.some.injEq, Prod.mk.injEq] at h
    obtain ⟨rfl, rfl⟩ := h
    exact ⟨c ++ [.endArray], by simp, hc.append _, hparse.lastElement⟩
  · simp only [Option.map_eq_some_iff, Prod.mk.injEq] at h
    obtain ⟨⟨l, r'⟩, hl, rfl, rfl⟩ := h
    obtain ⟨c', rfl, -, hparse'⟩ := hElements _ _ _ hl
    exact ⟨c ++ .comma :: c', by simp, hc.append _, hparse.consElement hc hparse'⟩
  · cases h

/-- Members start with a key and a colon. -/
theorem parseMembers_succ_eq_some {n : ℕ} {ts : List Token}
    {p : List (String × Value) × List Token} (h : parseMembers (n + 1) ts = some p) :
    ∃ k ts', ts = .string k :: .colon :: ts' := by
  rw [parseMembers.eq_def] at h
  split at h
  · exact ⟨_, _, rfl⟩
  · cases h

theorem parseMembers_succ_consumes {n : ℕ} (hValue : Consumes (parseValue n) Parses)
    (hMembers : Consumes (parseMembers n) ParsesMembers) :
    Consumes (parseMembers (n + 1)) ParsesMembers := by
  intro ts l r h
  obtain ⟨k, ts, rfl⟩ := parseMembers_succ_eq_some h
  simp only [parseMembers, Option.bind_eq_bind, Option.bind_eq_some_iff] at h
  obtain ⟨⟨v, r'⟩, hv, h⟩ := h
  obtain ⟨c, rfl, hc, hparse⟩ := hValue _ _ _ hv
  dsimp only at h
  split at h
  · simp only [Option.some.injEq, Prod.mk.injEq] at h
    obtain ⟨rfl, rfl⟩ := h
    exact ⟨.string k :: .colon :: (c ++ [.endObject]), by simp, starts_member k _,
      hparse.lastMember k⟩
  · simp only [Option.map_eq_some_iff, Prod.mk.injEq] at h
    obtain ⟨⟨l, r'⟩, hl, rfl, rfl⟩ := h
    obtain ⟨c', rfl, -, hparse'⟩ := hMembers _ _ _ hl
    exact ⟨.string k :: .colon :: (c ++ .comma :: c'), by simp, starts_member k _,
      hparse.consMember k hparse'⟩
  · cases h

/-- **What is read is the first of the tokens,** whatever the others are. -/
theorem parse_consumes (n : ℕ) :
    Consumes (parseValue n) Parses ∧ Consumes (parseElements n) ParsesElements ∧
      Consumes (parseMembers n) ParsesMembers := by
  induction n with
  | zero =>
      refine ⟨fun ts v r h => ?_, fun ts l r h => ?_, fun ts l r h => ?_⟩
      · simp [parseValue] at h
      · simp [parseElements] at h
      · simp [parseMembers] at h
  | succ n ih =>
      obtain ⟨hValue, hElements, hMembers⟩ := ih
      exact ⟨parseValue_succ_consumes hElements hMembers,
        parseElements_succ_consumes hValue hElements, parseMembers_succ_consumes hValue hMembers⟩

/-! ## Reading in pieces -/

/-- A text that is read as a value by itself. -/
def Denotes (text : List Char) (v : Value) : Prop :=
  ∃ ts, Lexes text ts ∧ Starts ts ∧ Parses ts v

theorem Denotes.read {text : List Char} {v : Value} (h : Denotes text v) :
    read text = some v := by
  obtain ⟨ts, hlex, -, hparse⟩ := h
  have htokens := hlex [] delimited_nil
  rw [List.append_nil] at htokens
  have hvalue := hparse (ts.length + 1) [] (Nat.le_succ _)
  rw [List.append_nil] at hvalue
  simp [JsonGrammar.read, htokens, lexFrom_nil, lexEnd, hvalue]

theorem denotes_quoted {s : List Char} (h : Plain s) :
    Denotes (quoted s) (.string (String.ofList s)) :=
  ⟨[.string (String.ofList s)], fun r _ => lexFrom_quoted h r, starts_member _ [],
    parses_string _⟩

theorem denotes_word {w : List Char} (h : IsWord w) (hne : w ≠ []) {v : Value}
    (hv : wordValue w = some v) : Denotes w v :=
  ⟨[.word w], lexes_word h hne, ⟨_, _, rfl, by simp, by simp⟩, parses_word hv⟩

/-- A member with a blank after the colon. -/
def memberText (k : String) (text : List Char) : List Char := quoted k.toList ++ ':' :: ' ' :: text

/-- Members with nothing but commas between them, and the closing brace. -/
def membersText : List (String × List Char) → List Char
  | [] => ['\x7d']
  | [(k, text)] => memberText k text ++ ['\x7d']
  | (k, text) :: m :: l => memberText k text ++ ',' :: membersText (m :: l)

/-- The text of an object. -/
def objectText (members : List (String × List Char)) : List Char := '\x7b' :: membersText members

/-- A member that commas and the brace may follow. -/
theorem lexFrom_memberText {k : String} {text : List Char} {ts : List Token}
    (hk : Plain k.toList) (htext : Lexes text ts) {c : Char} {t : Token}
    (hc : punctuation c = some t) (hquote : c ≠ '\x22') (hblank : ¬ IsBlank c) (r : List Char) :
    lexFrom .between (memberText k text ++ c :: r) =
      (lexFrom .between r).map fun x => .string k :: .colon :: (ts ++ t :: x) := by
  have hcolon : ∀ l, lexFrom .between (':' :: ' ' :: l) =
      (lexFrom .between l).map (.colon :: ·) := by
    intro l
    rw [lexFrom_punctuation rfl (by decide) (by decide), lexFrom_cons]
    have hstep : lexStep .between ' ' = some ([], .between) := rfl
    rw [hstep]
    simp
  have hdelimited : Delimited (c :: r) := delimited_cons (fun h => by simp [h.2.2] at hc) r
  rw [memberText, List.append_assoc, lexFrom_quoted hk, List.cons_append, List.cons_append, hcolon,
    htext _ hdelimited, lexFrom_punctuation hc hquote hblank, String.ofList_toList]
  simp [Option.map_map, Function.comp_def]

/-- Members of which each is read by itself. -/
theorem membersText_parses {members : List (String × List Char)} {vs : List (String × Value)}
    (h : List.Forall₂ (fun m v => m.1 = v.1 ∧ Plain m.1.toList ∧ Denotes m.2 v.2) members vs)
    (hne : members ≠ []) :
    ∃ ts, Starts ts ∧ ParsesMembers ts vs ∧ ∀ r,
      lexFrom .between (membersText members ++ r) = (lexFrom .between r).map (ts ++ ·) := by
  induction h with
  | nil => exact absurd rfl hne
  | cons hm hrest ih =>
      rename_i m v members vs
      obtain ⟨k, text⟩ := m
      obtain ⟨k', v⟩ := v
      obtain ⟨rfl, hk, ts, hlex, hstarts, hparse⟩ := hm
      cases hrest with
      | nil =>
          refine ⟨_, starts_member k _, hparse.lastMember k, fun r => ?_⟩
          rw [membersText, List.append_assoc, List.singleton_append,
            lexFrom_memberText hk hlex (t := .endObject) rfl (by decide) (by decide)]
          simp
      | cons hm' hrest' =>
          obtain ⟨ts', -, hparse', hlex'⟩ := ih (by simp)
          refine ⟨_, starts_member k _, hparse.consMember k hparse', fun r => ?_⟩
          rw [membersText, List.append_assoc, List.cons_append,
            lexFrom_memberText hk hlex (t := .comma) rfl (by decide) (by decide), hlex']
          simp [Option.map_map, Function.comp_def]

/-- **An object is read member by member.** -/
theorem denotes_objectText {members : List (String × List Char)} {vs : List (String × Value)}
    (h : List.Forall₂ (fun m v => m.1 = v.1 ∧ Plain m.1.toList ∧ Denotes m.2 v.2) members vs)
    (hne : members ≠ []) : Denotes (objectText members) (.object vs) := by
  obtain ⟨ts, hstarts, hparse, hlex⟩ := membersText_parses h hne
  refine ⟨.beginObject :: ts, fun r _ => ?_, ⟨_, _, rfl, by simp, by simp⟩, hparse.object hstarts⟩
  rw [objectText, List.cons_append, lexFrom_punctuation rfl (by decide) (by decide), hlex]
  simp [Option.map_map, Function.comp_def]

/-! ## Numbers -/

theorem isWordChar_of_isDigit {c : Char} (h : c.isDigit = true) : IsWordChar c := by
  have hne : ∀ d : Char, d.isDigit = false → c ≠ d := by
    rintro d hd rfl
    rw [h] at hd
    cases hd
  refine ⟨hne _ (by decide), ?_, ?_⟩
  · rintro (hc | hc | hc | hc) <;> exact hne _ (by decide) hc
  · rw [punctuation, if_neg (hne _ (by decide)), if_neg (hne _ (by decide)),
      if_neg (hne _ (by decide)), if_neg (hne _ (by decide)), if_neg (hne _ (by decide)),
      if_neg (hne _ (by decide))]

theorem isDigit_of_mem {n : ℕ} {c : Char} (h : c ∈ Nat.toDigits 10 n) : c.isDigit = true :=
  Nat.isDigit_of_mem_toDigits (by decide) (by decide) h

/-- Only zero starts with a zero. -/
theorem toDigits_head_ne {n : ℕ} (h : 0 < n) : (Nat.toDigits 10 n).head? ≠ some '0' := by
  induction n using Nat.strongRecOn with
  | ind n ih =>
      by_cases hn : n < 10
      · rw [Nat.toDigits_of_lt_base hn]
        have hdigit : ∀ m < 10, 0 < m → [m.digitChar].head? ≠ some '0' := by decide
        exact hdigit n hn h
      · rw [Nat.toDigits_of_base_le (by decide) (Nat.le_of_not_lt hn),
          List.head?_append_of_ne_nil _ Nat.toDigits_ne_nil]
        exact ih (n / 10) (by omega) (by omega)

theorem isUnsigned_toDigits (n : ℕ) : isUnsigned (Nat.toDigits 10 n) = true := by
  rcases Nat.eq_zero_or_pos n with rfl | hn
  · rfl
  · have hhead := toDigits_head_ne hn
    have hdigits : ∀ c ∈ Nat.toDigits 10 n, c.isDigit = true := fun _ => isDigit_of_mem
    obtain ⟨c, l, hl⟩ := List.exists_cons_of_ne_nil (Nat.toDigits_ne_nil (n := n) (b := 10))
    rw [hl] at hhead hdigits ⊢
    have hc : c ≠ '0' := fun hc => hhead (by rw [hc]; rfl)
    have hrest : l.dropWhile Char.isDigit = [] :=
      List.dropWhile_eq_nil_iff.2 fun d hd => hdigits d (List.mem_cons_of_mem _ hd)
    rw [isUnsigned.eq_2 _ _ hc, hrest, hdigits c List.mem_cons_self]
    rfl

theorem wordValue_of_isNumber {c : Char} {l : List Char} (hc : c = '-' ∨ c.isDigit = true)
    (h : isNumber (c :: l) = true) : wordValue (c :: l) = some (.number (c :: l)) := by
  have hne : ∀ d : Char, d ≠ '-' → d.isDigit = false → ∀ r, c :: l ≠ d :: r := by
    rintro d hd hdigit r heq
    obtain ⟨rfl, -⟩ := List.cons.inj heq
    rcases hc with hc | hc
    · exact hd hc
    · rw [hc] at hdigit
      cases hdigit
  rw [wordValue, if_neg (hne _ (by decide) (by decide) _), if_neg (hne _ (by decide) (by decide) _),
    if_neg (hne _ (by decide) (by decide) _), if_pos h]

/-- The digits of a natural number. -/
theorem denotes_toDigits (n : ℕ) : Denotes (Nat.toDigits 10 n) (.number (Nat.toDigits 10 n)) := by
  refine denotes_word (fun c hc => isWordChar_of_isDigit (isDigit_of_mem hc)) Nat.toDigits_ne_nil ?_
  have hnumber := isUnsigned_toDigits n
  have hdigits : ∀ c ∈ Nat.toDigits 10 n, c.isDigit = true := fun _ => isDigit_of_mem
  obtain ⟨c, l, hl⟩ := List.exists_cons_of_ne_nil (Nat.toDigits_ne_nil (n := n) (b := 10))
  rw [hl] at hnumber hdigits ⊢
  have hdigit := hdigits c List.mem_cons_self
  have hc : c ≠ '-' := by
    rintro rfl
    cases hdigit
  refine wordValue_of_isNumber (.inr hdigit) ?_
  rw [isNumber.eq_2 _ (fun _ h => hc (List.cons.inj h).1)]
  exact hnumber

/-- The digits after a sign. -/
theorem denotes_minus_toDigits (n : ℕ) :
    Denotes ('-' :: Nat.toDigits 10 n) (.number ('-' :: Nat.toDigits 10 n)) := by
  refine denotes_word (fun c hc => ?_) (List.cons_ne_nil _ _)
    (wordValue_of_isNumber (.inl rfl) (isUnsigned_toDigits n))
  rcases List.mem_cons.1 hc with rfl | hc
  · decide
  · exact isWordChar_of_isDigit (isDigit_of_mem hc)

theorem integer?_toDigits (n : ℕ) : (Value.number (Nat.toDigits 10 n)).integer? = some (n : ℤ) := by
  have hdigits : ∀ c ∈ Nat.toDigits 10 n, c.isDigit = true := fun _ => isDigit_of_mem
  have hvalue := Nat.ofDigitChars_ten_toDigits (n := n)
  obtain ⟨c, l, hl⟩ := List.exists_cons_of_ne_nil (Nat.toDigits_ne_nil (n := n) (b := 10))
  rw [hl] at hvalue hdigits ⊢
  have hc : c ≠ '-' := by
    rintro rfl
    cases hdigits _ List.mem_cons_self
  rw [Value.integer?.eq_2 _ (fun _ h => hc (List.cons.inj h).1),
    if_pos (List.all_eq_true.2 hdigits), hvalue]

theorem integer?_minus_toDigits (n : ℕ) :
    (Value.number ('-' :: Nat.toDigits 10 n)).integer? = some (-(n : ℤ)) := by
  have hdigits : (Nat.toDigits 10 n).all Char.isDigit = true :=
    List.all_eq_true.2 fun _ => isDigit_of_mem
  rw [Value.integer?, if_pos hdigits, Nat.ofDigitChars_ten_toDigits]

/-! ## A text without quotes as a member -/

/-- The states that no quote was read in. -/
def Unquoted : LexState → Prop
  | .between | .word _ => True
  | .string _ | .escape _ | .hex _ _ => False

/-- Tokens without strings. -/
def NoStrings (ts : List Token) : Prop := ∀ k, .string k ∉ ts

theorem stepBetween_unquoted {c : Char} (hc : c ≠ '\x22') :
    Unquoted (stepBetween c).2 ∧ NoStrings (stepBetween c).1 := by
  rw [stepBetween, if_neg hc]
  split_ifs with hblank
  · exact ⟨trivial, fun k => List.not_mem_nil⟩
  · cases ht : punctuation c with
    | none => exact ⟨trivial, fun k => List.not_mem_nil⟩
    | some t =>
        refine ⟨trivial, fun k hk => ?_⟩
        obtain rfl := List.mem_singleton.1 hk
        simp only [punctuation] at ht
        split_ifs at ht <;> cases ht

theorem lexStep_unquoted {s : LexState} (hs : Unquoted s) {c : Char} (hc : c ≠ '\x22') :
    ∃ ts s', lexStep s c = some (ts, s') ∧ Unquoted s' ∧ NoStrings ts := by
  obtain ⟨hstate, hno⟩ := stepBetween_unquoted hc
  cases s with
  | between => exact ⟨_, _, rfl, hstate, hno⟩
  | word w =>
      rw [lexStep]
      split_ifs
      · exact ⟨_, _, rfl, trivial, fun k => List.not_mem_nil⟩
      · refine ⟨_, _, rfl, hstate, fun k hk => ?_⟩
        rcases List.mem_cons.1 hk with hk | hk
        · cases hk
        · exact hno k hk
  | string | escape | hex => exact hs.elim

/-- A text without quotes, up to the brace that closes an object. -/
theorem lexFrom_unquoted {l : List Char} (hl : ∀ c ∈ l, c ≠ '\x22') {s : LexState}
    (hs : Unquoted s) :
    ∃ ts, lexFrom s l = some ts ∧ NoStrings ts ∧ ∀ r,
      lexFrom s (l ++ '\x7d' :: r) = (lexFrom .between r).map fun x => ts ++ .endObject :: x := by
  induction l generalizing s with
  | nil =>
      cases s with
      | between =>
          refine ⟨[], rfl, fun k => List.not_mem_nil, fun r => ?_⟩
          rw [List.nil_append, lexFrom_punctuation (t := .endObject) rfl (by decide) (by decide)]
          rfl
      | word w =>
          refine ⟨[.word w], rfl, fun k => by simp, fun r => ?_⟩
          have hw := lexFrom_word (w := []) (fun _ h => absurd h List.not_mem_nil) w
            (delimited_cons (c := '\x7d') (by decide) r)
          rw [hw, lexFrom_punctuation (t := .endObject) rfl (by decide) (by decide)]
          simp [Option.map_map, Function.comp_def]
      | string | escape | hex => exact hs.elim
  | cons c l ih =>
      obtain ⟨ts, s', hstep, hs', hno⟩ := lexStep_unquoted hs (hl c List.mem_cons_self)
      obtain ⟨ts', hlex, hno', happend⟩ := ih (fun d hd => hl d (List.mem_cons_of_mem _ hd)) hs'
      refine ⟨ts ++ ts', ?_, fun k hk => ?_, fun r => ?_⟩
      · simp [lexFrom_cons, hstep, hlex]
      · exact (List.mem_append.1 hk).elim (hno k) (hno' k)
      · rw [List.cons_append, lexFrom_cons, hstep, Option.bind_some, happend]
        simp [Option.map_map, Function.comp_def, List.append_assoc]

/-- A text is well formed when its tokens are read to the last. -/
theorem read_isSome_iff {text : List Char} {ts : List Token}
    (h : lexFrom .between text = some ts) :
    (read text).isSome = true ↔ ∃ v, Starts ts ∧ Parses ts v := by
  rw [read, h, Option.bind_some]
  constructor
  · intro hsome
    obtain ⟨v, hv⟩ := Option.isSome_iff_exists.1 hsome
    obtain ⟨⟨w, r⟩, hparse, hr⟩ := Option.bind_eq_some_iff.1 hv
    simp only [Option.ite_none_right_eq_some] at hr
    obtain ⟨rfl, -⟩ := hr
    obtain ⟨c, hc, hstarts, hvalue⟩ := (parse_consumes _).1 _ _ _ hparse
    rw [List.append_nil] at hc
    exact ⟨w, hc ▸ hstarts, hc ▸ hvalue⟩
  · rintro ⟨v, -, hparse⟩
    have hvalue := hparse (ts.length + 1) [] (Nat.le_succ _)
    rw [List.append_nil] at hvalue
    simp [hvalue]

/-- **An object whose only member is a text without quotes** is well formed when the text
is. -/
theorem read_objectText_isSome_iff {k : String} (hk : Plain k.toList) {text : List Char}
    (htext : ∀ c ∈ text, c ≠ '\x22') :
    (read (objectText [(k, text)])).isSome = true ↔ (read text).isSome = true := by
  obtain ⟨ts, hlex, hno, happend⟩ := lexFrom_unquoted htext (s := .between) trivial
  have hobject : lexFrom .between (objectText [(k, text)]) =
      some (.beginObject :: .string k :: .colon :: (ts ++ [.endObject])) := by
    have hcolon : lexFrom .between (':' :: ' ' :: (text ++ ['\x7d'])) =
        some (.colon :: (ts ++ [.endObject])) := by
      have hstep : lexStep .between ' ' = some ([], .between) := rfl
      rw [lexFrom_punctuation rfl (by decide) (by decide), lexFrom_cons, hstep, Option.bind_some,
        happend]
      rfl
    rw [objectText, membersText, memberText, lexFrom_punctuation rfl (by decide) (by decide),
      List.append_assoc, lexFrom_quoted hk, List.cons_append, List.cons_append, hcolon,
      String.ofList_toList]
    rfl
  rw [read_isSome_iff hobject, read_isSome_iff hlex]
  constructor
  · rintro ⟨v, -, hparse⟩
    have hvalue := hparse (ts.length + 4) [] (by simp)
    rw [List.append_nil, parseValue, if_neg (by simp)] at hvalue
    simp only [Option.map_eq_some_iff, Prod.mk.injEq] at hvalue
    obtain ⟨⟨l, r⟩, hmembers, -, rfl⟩ := hvalue
    simp only [parseMembers, Option.bind_eq_bind, Option.bind_eq_some_iff] at hmembers
    obtain ⟨⟨w, r⟩, hw, hmembers⟩ := hmembers
    obtain ⟨c, hc, hstarts, hparse⟩ := (parse_consumes _).1 _ _ _ hw
    dsimp only at hmembers
    split at hmembers
    · simp only [Option.some.injEq, Prod.mk.injEq] at hmembers
      obtain ⟨-, rfl⟩ := hmembers
      obtain rfl := List.append_cancel_right hc
      exact ⟨w, hstarts, hparse⟩
    · rename_i r
      -- a comma asks for a key, and the text has no string
      simp only [Option.map_eq_some_iff] at hmembers
      obtain ⟨p, hrest, -⟩ := hmembers
      obtain ⟨k', r', rfl⟩ := parseMembers_succ_eq_some hrest
      have hmem : Token.string k' ∈ ts ++ [.endObject] := by
        rw [hc]
        simp
      rcases List.mem_append.1 hmem with hmem | hmem
      · exact absurd hmem (hno k')
      · cases List.mem_singleton.1 hmem
    · cases hmembers
  · rintro ⟨v, -, hparse⟩
    exact ⟨_, ⟨_, _, rfl, by simp, by simp⟩, (hparse.lastMember k).object (starts_member k _)⟩

end JsonGrammar
end Lib
end SNBModules
