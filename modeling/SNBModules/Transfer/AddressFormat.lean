import SNBModules.Lib.Runs
import SNBModules.Transfer.RoundTrip

/-!
# What `IPFormat` accepts

Source: `ip_format.hpp`.

`set_ip` is for `HOST` and `HOST:PORT`, as its message says.  `strtok_r` drops empty
parts, `std::stoi` what comes before and after the digits, and `strcpy` what follows a
zero byte, so that it takes more (`Accepted`); `set_ip_iff` says when it does what its
format asks for.  Whatever it takes, the object has a host without colons and a port
in range, and is read back from its text (`addresses_read_back`).
-/

namespace SNBModules
namespace Transfer

open Lib

namespace IPFormat

/-! ## The object -/

/-- A member function: an exception leaves the object as it is at that moment. -/
abbrev Member := EStateM Exn IPFormat Unit

/-- `set_port` of an object. -/
def setPortOf (port : ℤ) : Member :=
  if port < 0 ∨ port > 65535 then
    throw (.invalidArgument "Port must be between 0 and 65535")
  else
    modify fun a => { a with port }

/-- `set_ip` of an object. -/
def setIpOf (ip : String) : Member :=
  if ip = "" then
    throw (.invalidArgument "IP address cannot be empty")
  else
    match colonTokens (cString ip) with
    | [host] => modify fun a => { a with ip := String.ofList host }
    | [host, port] => do
        let port ← ofExcept (stoi port)
        setPortOf port
        modify fun a => { a with ip := String.ofList host }
    | _ => throw (.invalidArgument "Invalid IP address format (IP:PORT or IP)")

/-- The object and the exception after a call. -/
def outcome (a : IPFormat) : Except Exn IPFormat → EStateM.Result Exn IPFormat Unit
  | .ok b => .ok () b
  | .error e => .error e a

/-- **A call that throws leaves the object as it was.** -/
theorem setPortOf_eq (port : ℤ) (a : IPFormat) : setPortOf port a = outcome a (a.setPort port) := by
  rw [setPortOf, setPort]
  split_ifs <;> rfl

theorem setIpOf_eq (ip : String) (a : IPFormat) : setIpOf ip a = outcome a (a.setIp ip) := by
  rw [setIpOf, setIp]
  split_ifs
  · rfl
  · rcases colonTokens (cString ip) with _ | ⟨host, _ | ⟨port, _ | ⟨_, _⟩⟩⟩
    · rfl
    · rfl
    · dsimp only
      cases stoi port with
      | error e => rfl
      | ok n =>
          show EStateM.bind (setPortOf n) (fun _ => modify _) a = _
          rw [EStateM.bind, setPortOf_eq]
          show _ = outcome a ((a.setPort n).bind _)
          cases a.setPort n <;> rfl
    · rfl

theorem setIpOf_eq_ok_iff {a b : IPFormat} {ip : String} :
    setIpOf ip a = .ok () b ↔ a.setIp ip = .ok b := by
  rw [setIpOf_eq]
  cases a.setIp ip <;> simp [outcome]

theorem setIpOf_eq_error_iff {a : IPFormat} {ip : String} :
    (∃ e, setIpOf ip a = .error e a) ↔ ¬ ∃ b, a.setIp ip = .ok b := by
  rw [setIpOf_eq]
  cases a.setIp ip <;> simp [outcome]

/-! ## What is accepted -/

/-- The format: a host, or a host and a port; no host has a colon. -/
inductive AddressText : List Char → List Char → Option ℕ → Prop
  | host {host : List Char} (hne : host ≠ []) (hcolon : ':' ∉ host) : AddressText host host none
  | hostPort {host port : List Char} (hne : host ≠ []) (hcolon : ':' ∉ host) (hport : port ≠ [])
      (hdigits : ∀ c ∈ port, c.isDigit = true) (hrange : Nat.ofDigitChars 10 port 0 ≤ 65535) :
      AddressText (host ++ ':' :: port) host (some (Nat.ofDigitChars 10 port 0))

/-- What is taken: up to the first zero byte, colons and one other part, or two, the second
of which starts with a number in range. -/
def Accepted (s : String) : Prop :=
  (∃ host, colonTokens (cString s) = [host]) ∨
    ∃ host port n, colonTokens (cString s) = [host, port] ∧ NumberText port n ∧ 0 ≤ n ∧ n ≤ 65535

/-- What `set_ip` is to do: it takes what has the format, with the port as before if
there is none, and rejects all else with an exception that changes nothing. -/
def FollowsFormat (a : IPFormat) (s : String) : Prop :=
  (∀ host port, AddressText s.toList host port →
    setIpOf s a = .ok () ⟨String.ofList host, (port.map Int.ofNat).getD a.port⟩) ∧
  ((∀ host port, ¬ AddressText s.toList host port) → ∃ e, setIpOf s a = .error e a)

theorem setIp_isOk_iff (a : IPFormat) (s : String) : (∃ b, a.setIp s = .ok b) ↔ Accepted s := by
  simp only [setIp_eq_ok_iff, Accepted]
  constructor
  · rintro ⟨b, ⟨host, hhost, -⟩ | ⟨host, port, n, htokens, hn, hrange, -⟩⟩
    · exact Or.inl ⟨host, hhost⟩
    · exact Or.inr ⟨host, port, n, htokens, hn, hrange⟩
  · rintro (⟨host, hhost⟩ | ⟨host, port, n, htokens, hn, hrange⟩)
    · exact ⟨_, Or.inl ⟨host, hhost, rfl⟩⟩
    · exact ⟨_, Or.inr ⟨host, port, n, htokens, hn, hrange, rfl⟩⟩

/-- A text with the format has the parts that it is made of. -/
theorem colonTokens_of_addressText {s host : List Char} {port : Option ℕ}
    (h : AddressText s host port) :
    (port = none ∧ colonTokens s = [host]) ∨
      ∃ digits n, port = some n ∧ colonTokens s = [host, digits] ∧ NumberText digits n ∧
        n ≤ 65535 := by
  cases h with
  | host hne hcolon =>
      left
      simp [colonTokens, List.splitOn_eq_singleton hcolon, hne]
  | @hostPort host port hne hcolon hport hdigits hrange =>
      have hcolon' : ':' ∉ port := fun hmem => by simpa using hdigits ':' hmem
      refine Or.inr ⟨port, _, rfl, ?_, ?_, hrange⟩
      · rw [colonTokens, List.splitOn_append_cons_self_of_not_mem hcolon,
          List.splitOn_eq_singleton hcolon']
        simp [hne, hport]
      · exact numberText_digits hport hdigits

theorem mem_host_of_zero {s host : List Char} {port : Option ℕ} (h : AddressText s host port)
    (hzero : '\x00' ∈ s) : '\x00' ∈ host := by
  cases h with
  | host => exact hzero
  | hostPort hne hcolon hport hdigits =>
      rcases List.mem_append.1 hzero with hmem | hmem
      · exact hmem
      · rcases List.mem_cons.1 hmem with heq | hmem
        · exact absurd heq (by decide)
        · simpa using hdigits _ hmem

/-- The format is taken as it is meant when no zero byte is in it. -/
theorem setIp_of_addressText {a : IPFormat} {s : String} {host : List Char} {port : Option ℕ}
    (h : AddressText s.toList host port) :
    a.setIp s = .ok ⟨String.ofList host, (port.map Int.ofNat).getD a.port⟩ ↔
      '\x00' ∉ s.toList := by
  constructor
  · intro hset hzero
    have hmem := mem_host_of_zero h hzero
    have htoken : host ∈ colonTokens (cString s) := by
      rcases setIp_eq_ok_iff.1 hset with ⟨host', htokens, hb⟩ | ⟨host', _, _, htokens, -, -, hb⟩ <;>
      · obtain ⟨hhost, -⟩ := IPFormat.mk.inj hb
        rw [htokens, String.ofList_injective hhost]
        exact List.mem_cons_self
    exact ((mem_colonTokens_cString htoken).2 _ hmem).2 rfl
  · intro hclean
    have hc : cString s = s.toList :=
      List.takeWhile_eq_self_iff.2 fun c hc => by simpa using ne_of_mem_of_not_mem hc hclean
    rw [setIp_eq_ok_iff, hc]
    rcases colonTokens_of_addressText h with ⟨rfl, htokens⟩ | ⟨digits, n, rfl, htokens, hn, hle⟩
    · exact Or.inl ⟨host, htokens, rfl⟩
    · exact Or.inr ⟨host, digits, n, htokens, hn, by omega, rfl⟩

/-- **When `set_ip` follows its format:** exactly for the texts that have it, without a
zero byte, and those that it does not take. -/
theorem set_ip_iff (a : IPFormat) (s : String) :
    FollowsFormat a s ↔
      (∃ host port, AddressText s.toList host port ∧ '\x00' ∉ s.toList) ∨
        (∀ host port, ¬ AddressText s.toList host port) ∧ ¬ Accepted s := by
  simp only [FollowsFormat, setIpOf_eq_ok_iff, setIpOf_eq_error_iff, setIp_isOk_iff]
  by_cases h : ∃ host port, AddressText s.toList host port
  · have hsome : ¬ ∀ host port, ¬ AddressText s.toList host port := by
      simpa using h
    obtain ⟨host, port, h⟩ := h
    simp only [hsome, false_imp_iff, and_true, false_and, or_false]
    constructor
    · exact fun hall => ⟨host, port, h, (setIp_of_addressText h).1 (hall host port h)⟩
    · rintro ⟨-, -, -, hclean⟩ host' port' h'
      exact (setIp_of_addressText h').2 hclean
  · have hnone : ∀ host port, ¬ AddressText s.toList host port := by
      simpa using h
    simp [hnone]

/-- A text with the format that has a colon ends in a digit. -/
theorem isDigit_of_addressText {s host : List Char} {port : Option ℕ} (h : AddressText s host port)
    (hcolon : ':' ∈ s) : ∀ c ∈ s.getLast?, c.isDigit = true := by
  cases h with
  | host _ hnot => exact absurd hcolon hnot
  | hostPort _ _ hne hdigits =>
      rw [List.getLast?_append_cons, List.getLast?_cons_of_ne_nil hne]
      exact fun c hc => hdigits c (List.mem_of_getLast? hc)

/-- **More is taken:** text after the port is dropped. -/
theorem text_after_port :
    setIpOf "10.0.0.1:80x" default = .ok () ⟨"10.0.0.1", 80⟩ ∧
      ¬ FollowsFormat default "10.0.0.1:80x" := by
  have hset : setIpOf "10.0.0.1:80x" default = .ok () ⟨"10.0.0.1", 80⟩ :=
    setIpOf_eq_ok_iff.2 (by decide +kernel)
  refine ⟨hset, fun h => ?_⟩
  obtain ⟨e, he⟩ := h.2 fun host port htext =>
    absurd (isDigit_of_addressText htext (by decide +kernel) 'x' (by decide +kernel)) (by decide)
  rw [hset] at he
  cases he

/-! ## Objects in use -/

/-- What is done with objects, which stand for themselves by their place. -/
inductive Use where
  | construct (ip : String) (port : ℤ)
  | copy (i : ℕ)
  | assign (i j : ℕ)
  | setIp (i : ℕ) (ip : String)
  | setPort (i : ℕ) (port : ℤ)
  deriving DecidableEq, Repr

/-- The objects, with one that a constructor made; there is none if it throws. -/
def made (objects : List IPFormat) : Except Exn IPFormat → List IPFormat
  | .ok a => objects ++ [a]
  | .error _ => objects

/-- The object after a call, whether it threw or not. -/
def left : EStateM.Result Exn IPFormat Unit → IPFormat
  | .ok _ a => a
  | .error _ a => a

/-- The objects afterwards.  The copy constructor sets the port and the host of a new
object, as the other one does; `operator=` copies the members. -/
def useStep (objects : List IPFormat) : Use → Option (List IPFormat)
  | .construct ip port => some (made objects (new ip port))
  | .copy i => objects[i]?.map fun o => made objects (new o.ip o.port)
  | .assign i j => objects[j]?.map fun o => objects.set i o
  | .setIp i ip => objects[i]?.map fun a => objects.set i (left (setIpOf ip a))
  | .setPort i port => objects[i]?.map fun a => objects.set i (left (setPortOf port a))

theorem made_wellFormed {objects : List IPFormat} (h : ∀ a ∈ objects, a.WellFormed) (ip : String)
    (port : ℤ) : ∀ a ∈ made objects (new ip port), a.WellFormed := by
  cases hnew : new ip port with
  | error e => exact h
  | ok b =>
      intro a ha
      rcases List.mem_append.1 ha with ha | ha
      · exact h a ha
      · obtain rfl := List.mem_singleton.1 ha
        exact new_wellFormed hnew

theorem left_wellFormed {a : IPFormat} (ha : a.WellFormed) {r : Except Exn IPFormat}
    (hr : ∀ b, r = .ok b → b.WellFormed) : (left (outcome a r)).WellFormed := by
  cases r with
  | error e => exact ha
  | ok b => exact hr b rfl

theorem set_wellFormed {objects : List IPFormat} (h : ∀ a ∈ objects, a.WellFormed) (i : ℕ)
    {b : IPFormat} (hb : b.WellFormed) : ∀ a ∈ objects.set i b, a.WellFormed := by
  intro a ha
  rcases List.mem_or_eq_of_mem_set ha with ha | rfl
  · exact h a ha
  · exact hb

/-- **What is done with objects keeps them well formed.** -/
theorem useStep_wellFormed {objects objects' : List IPFormat} {u : Use}
    (h : ∀ a ∈ objects, a.WellFormed) (hu : useStep objects u = some objects') :
    ∀ a ∈ objects', a.WellFormed := by
  cases u with
  | construct ip port =>
      cases hu
      exact made_wellFormed h ip port
  | copy i =>
      obtain ⟨o, -, rfl⟩ := Option.map_eq_some_iff.1 hu
      exact made_wellFormed h o.ip o.port
  | assign i j =>
      obtain ⟨o, ho, rfl⟩ := Option.map_eq_some_iff.1 hu
      exact set_wellFormed h i (h o (List.mem_of_getElem? ho))
  | setIp i ip =>
      obtain ⟨a, ha, rfl⟩ := Option.map_eq_some_iff.1 hu
      have hwell := h a (List.mem_of_getElem? ha)
      rw [setIpOf_eq]
      exact set_wellFormed h i (left_wellFormed hwell fun b => setIp_wellFormed hwell)
  | setPort i port =>
      obtain ⟨a, ha, rfl⟩ := Option.map_eq_some_iff.1 hu
      have hwell := h a (List.mem_of_getElem? ha)
      rw [setPortOf_eq]
      exact set_wellFormed h i (left_wellFormed hwell fun b => setPort_wellFormed hwell)

/-- **Whatever is done with them,** all objects have a host without colons and a port in
range, and are read back from their text. -/
theorem addresses_read_back {l : List Use} {objects : List IPFormat}
    (hrun : exec useStep [] l = some objects) :
    ∀ a ∈ objects, (a.ip.toList ≠ [] ∧ ':' ∉ a.ip.toList) ∧ (0 ≤ a.port ∧ a.port ≤ 65535) ∧
      new a.getIpPort 0 = .ok a := by
  intro a ha
  have hwell := exec_invariant (I := fun objects => ∀ a ∈ objects, a.WellFormed)
    (fun _ _ _ => useStep_wellFormed) (fun _ h => absurd h List.not_mem_nil) hrun a ha
  exact ⟨⟨hwell.ip_ne, fun hmem => (hwell.ip_clean _ hmem).1 rfl⟩,
    ⟨hwell.port_nonneg, hwell.port_le⟩, new_getIpPort hwell⟩

/-- An address that is copied and set, once to a port that is refused. -/
theorem addresses_read_back_copied :
    new (getIpPort ⟨"10.0.0.2", 80⟩) 0 = .ok ⟨"10.0.0.2", 80⟩ := by
  have hrun : exec useStep [] [.construct "10.0.0.1:80" 0, .copy 0, .setIp 1 "10.0.0.2:70000",
      .setIp 1 ":10.0.0.2"] = some [⟨"10.0.0.1", 80⟩, ⟨"10.0.0.2", 80⟩] := by
    decide +kernel
  exact (addresses_read_back hrun ⟨"10.0.0.2", 80⟩ (by decide)).2.2

end IPFormat

end Transfer
end SNBModules
