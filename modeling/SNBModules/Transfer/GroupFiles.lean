import SNBModules.Lib.Runs
import SNBModules.Transfer.Group
import SNBModules.Transfer.Import

/-!
# The files that a group lists

Source: `group_metadata.cpp`, `add_file`, and `group_metadata.hpp`,
`add_expected_file`.

`add_file` looks for a record that is already listed among the pointers of the list,
and only when the path of the record is not expected.  A message is always read into
a new object, so that a message that comes a second time is listed a second time;
and an object whose path is expected again is listed again.
-/

namespace SNBModules
namespace Transfer

open Lib

/-- A group with the records behind all pointers. -/
structure Listing where
  group : GroupMetadata ℕ
  record : ℕ → TransferMetadata

/-- The calls that list files. -/
inductive ListingCall where
  | addExpectedFile (file : String)
  | addFile (ptr : ℕ)
  deriving DecidableEq, Repr

namespace Listing

variable (s : Listing)

/-- The record is expected or carries the group's id. -/
def Admits (ptr : ℕ) : Prop :=
  (s.record ptr).filePath ∈ s.group.expectedFiles ∨ (s.record ptr).groupId = s.group.groupId

instance (ptr : ℕ) : Decidable (s.Admits ptr) :=
  inferInstanceAs (Decidable (_ ∨ _))

/-- `add_file`, with the record that it leaves behind the pointer. -/
def addFile (ptr : ℕ) : Listing :=
  let (g, m, _) := s.group.addFile ptr (s.record ptr)
  ⟨g, Function.update s.record ptr m⟩

/-- One call: `none` when it throws, or reports a record that the group does not
admit. -/
def call (cwd : String) (s : Listing) : ListingCall → Option Listing
  | .addExpectedFile file =>
      (s.group.addExpectedFile cwd file).toOption.map fun g => { s with group := g }
  | .addFile ptr => if s.Admits ptr then some (s.addFile ptr) else none

/-- What `operator==` compares of the entry that an object gets. -/
def entryKey (ptr : ℕ) : (Bool × List (List Char)) × IPFormat × IPFormat × String :=
  ((s.record ptr).setGroupId s.group.groupId).key

/-- No two entries are equal. -/
def ListedOnce : Prop := (s.group.transfersMeta.map fun q => (s.record q).key).Nodup

instance : Decidable s.ListedOnce := inferInstanceAs (Decidable (List.Nodup _))

/-- What a call should come to: no two entries are equal, one that is added takes the
place of its equals, and its path is not expected any more. -/
def Lists (t : Listing) : ListingCall → Prop
  | .addExpectedFile _ => t.ListedOnce ∧ t.group.transfersMeta = s.group.transfersMeta
  | .addFile ptr =>
      t.ListedOnce ∧
      t.group.transfersMeta =
        s.group.transfersMeta.filter (fun q => (s.record q).key ≠ s.entryKey ptr) ++ [ptr] ∧
      (s.record ptr).filePath ∉ t.group.expectedFiles

/-- No entry is the object or equal to it, but for the object itself when its path is
not expected. -/
def New : ListingCall → Prop
  | .addExpectedFile _ => True
  | .addFile ptr => ∀ q ∈ s.group.transfersMeta, q = ptr ∨ (s.record q).key = s.entryKey ptr →
      q = ptr ∧ (s.record ptr).filePath ∉ s.group.expectedFiles

instance : (a : ListingCall) → Decidable (s.New a)
  | .addExpectedFile _ => inferInstanceAs (Decidable True)
  | .addFile ptr => inferInstanceAs (Decidable (∀ q ∈ s.group.transfersMeta,
      q = ptr ∨ (s.record q).key = s.entryKey ptr →
        q = ptr ∧ (s.record ptr).filePath ∉ s.group.expectedFiles))

variable {s} {ptr : ℕ}

/-! ## One call -/

theorem nodup_map_concat {α β : Type} {f : α → β} {l : List α} {x : α} :
    ((l ++ [x]).map f).Nodup ↔ (l.map f).Nodup ∧ ∀ q ∈ l, f q ≠ f x := by
  rw [List.map_append, List.map_singleton, List.nodup_append]
  simp

theorem addFile_of_expected (h : (s.record ptr).filePath ∈ s.group.expectedFiles) :
    s.addFile ptr = ⟨{ s.group with
        expectedFiles := s.group.expectedFiles.erase (s.record ptr).filePath
        transfersMeta := s.group.transfersMeta ++ [ptr] },
      Function.update s.record ptr ((s.record ptr).setGroupId s.group.groupId)⟩ := by
  rw [addFile, GroupMetadata.addFile, if_pos h]

theorem addFile_of_own (h : (s.record ptr).filePath ∉ s.group.expectedFiles)
    (hid : (s.record ptr).groupId = s.group.groupId) :
    s.addFile ptr = { s with group := { s.group with
      transfersMeta := s.group.transfersMeta.erase ptr ++ [ptr] } } := by
  rw [addFile, GroupMetadata.addFile, if_neg h, if_pos hid]
  simp only [Function.update_eq_self]

/-- An expected object is listed once exactly when neither it nor an equal one was
listed. -/
theorem lists_iff_of_expected (hs : s.ListedOnce)
    (h : (s.record ptr).filePath ∈ s.group.expectedFiles) :
    s.Lists (s.addFile ptr) (.addFile ptr) ↔ s.New (.addFile ptr) := by
  have hnew : s.New (.addFile ptr) ↔
      ∀ q ∈ s.group.transfersMeta, q ≠ ptr ∧ (s.record q).key ≠ s.entryKey ptr := by
    simp only [New, h, not_true_eq_false, and_false, imp_false, not_or]
  rw [hnew, Lists, addFile_of_expected h, ListedOnce, nodup_map_concat]
  simp only [Function.update_self]
  have hkey : ∀ q, q ≠ ptr → (Function.update s.record ptr
      ((s.record ptr).setGroupId s.group.groupId) q).key = (s.record q).key := by
    intro q hq
    rw [Function.update_of_ne hq]
  constructor
  · rintro ⟨⟨-, hne⟩, -, -⟩ q hq
    have hqptr : q ≠ ptr := by
      rintro rfl
      exact hne q hq (by rw [Function.update_self])
    exact ⟨hqptr, fun hk => hne q hq ((hkey q hqptr).trans hk)⟩
  · intro hall
    refine ⟨⟨?_, fun q hq => ?_⟩, ?_, Finset.notMem_erase _ _⟩
    · rw [List.map_congr_left fun q hq => hkey q (hall q hq).1]
      exact hs
    · rw [hkey q (hall q hq).1]
      exact (hall q hq).2
    · rw [List.filter_eq_self.2 fun q hq => by simpa using (hall q hq).2]

/-- An object of the group is listed once exactly when no other was equal to it. -/
theorem lists_iff_of_own (hs : s.ListedOnce)
    (h : (s.record ptr).filePath ∉ s.group.expectedFiles)
    (hid : (s.record ptr).groupId = s.group.groupId) :
    s.Lists (s.addFile ptr) (.addFile ptr) ↔ s.New (.addFile ptr) := by
  have hkey : s.entryKey ptr = (s.record ptr).key := by
    rw [entryKey, ← hid]
    rfl
  have hnew : s.New (.addFile ptr) ↔
      ∀ q ∈ s.group.transfersMeta, (s.record q).key = (s.record ptr).key → q = ptr := by
    simp only [New, hkey, h, not_false_eq_true, and_true]
    exact forall₂_congr fun q _ => ⟨fun hq hk => hq (Or.inr hk), fun hq hk => hk.elim id hq⟩
  rw [hnew, Lists, addFile_of_own h hid, ListedOnce, nodup_map_concat, hkey]
  have hnodup : s.group.transfersMeta.Nodup := hs.of_map _
  constructor
  · rintro ⟨⟨-, hne⟩, -, -⟩ q hq hk
    by_contra hqptr
    exact hne q ((List.mem_erase_of_ne hqptr).2 hq) hk
  · intro hall
    refine ⟨⟨hs.sublist (List.erase_sublist.map _), fun q hq hk => ?_⟩, ?_, h⟩
    · exact (hnodup.mem_erase_iff.1 hq).1 (hall q (List.mem_of_mem_erase hq) hk)
    · rw [hnodup.erase_eq_filter]
      refine congrArg (· ++ [ptr]) (List.filter_congr fun q hq => ?_)
      have hiff : (s.record q).key = (s.record ptr).key ↔ q = ptr :=
        ⟨hall q hq, fun hqptr => by rw [hqptr]⟩
      rw [Bool.eq_iff_iff]
      simp [hiff]

/-- **What a call comes to.** -/
theorem lists_iff {cwd : String} {t : Listing} {a : ListingCall} (hs : s.ListedOnce)
    (ht : s.call cwd a = some t) : s.Lists t a ↔ s.New a := by
  cases a with
  | addExpectedFile file =>
      obtain ⟨g, hg, rfl⟩ := Option.map_eq_some_iff.1 ht
      have hmeta : g.transfersMeta = s.group.transfersMeta := by
        cases hadd : s.group.addExpectedFile cwd file with
        | error e => simp [hadd, Except.toOption] at hg
        | ok g' =>
            rw [hadd] at hg
            obtain rfl := Option.some.inj hg
            exact GroupMetadata.addExpectedFile_transfersMeta hadd
      refine iff_of_true ⟨?_, hmeta⟩ trivial
      rw [ListedOnce, hmeta]
      exact hs
  | addFile ptr =>
      rw [call] at ht
      split_ifs at ht with hadmits
      obtain rfl := Option.some.inj ht
      by_cases h : (s.record ptr).filePath ∈ s.group.expectedFiles
      · exact lists_iff_of_expected hs h
      · exact lists_iff_of_own hs h (hadmits.resolve_left h)

theorem Lists.listedOnce {t : Listing} {a : ListingCall} (h : s.Lists t a) : t.ListedOnce := by
  cases a with
  | addExpectedFile file => exact h.1
  | addFile ptr => exact h.1

/-! ## Runs -/

/-- **A group lists each file once exactly when every object is new to it:** on a run
of calls whose records are expected or of the group, each call does what it should,
if and only if none adds an object that is listed or equal to an entry, but for an
entry itself whose path is not expected. -/
theorem lists_once_iff (cwd : String) (s u : Listing) (calls : List ListingCall)
    (hs : s.ListedOnce) (hu : exec (call cwd) s calls = some u) :
    Guarded (call cwd) (fun s a => ∀ t, s.call cwd a = some t → s.Lists t a) s calls ↔
      Guarded (call cwd) New s calls :=
  guarded_iff_of_invariant (fun _ _ _ _ hlists ht => (hlists _ ht).listedOnce)
    (fun _ _ _ hs ht => by
      rw [← lists_iff hs ht, ht]
      exact ⟨fun h => h _ rfl, fun h _ ht' => Option.some.inj ht' ▸ h⟩) hs hu

/-! ### A record that comes twice -/

/-- A group without records, and objects with the values of one message. -/
def received : Listing :=
  ⟨{ GroupMetadata.blank with groupId := "run1" },
    fun _ => { TransferMetadata.blank with filePath := "/data/f1", groupId := "run1" }⟩

/-- The same object, added again. -/
theorem lists_once_iff_same_object :
    Guarded (call "/") (fun s a => ∀ t, s.call "/" a = some t → s.Lists t a) received
      [.addFile 0, .addFile 0] :=
  (lists_once_iff "/" received _ [.addFile 0, .addFile 0] (by decide +kernel) rfl).2
    ⟨by decide +kernel, fun t ht => by
      obtain rfl := Option.some.inj ht
      exact ⟨by decide +kernel, fun t _ => trivial⟩⟩

/-- The message comes again, and is read into another object. -/
theorem listed_twice :
    (exec (call "/") received [.addFile 0, .addFile 1]).map
        (fun t => (t.group.transfersMeta, decide t.ListedOnce)) = some ([0, 1], false) := by
  decide +kernel

end Listing

end Transfer
end SNBModules
