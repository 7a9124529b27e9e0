import SNBModules.Lib.LexicalPath
import SNBModules.Transfer.CreateTransfer

/-!
# The path of a record

Source: `transfer_metadata.hpp`, the constructor; `group_metadata.hpp`,
`add_expected_file`; `transfer_client.cpp`, `create_new_transfer`.

Before a path is made absolute every `./` is taken out of it, wherever it stands:
`../x` becomes `.x`, and `run1./x` becomes `run1x`.  What is recorded names the file
that was found as long as a `./` is a component of its own
(`namesFile_of_keepsFile`).
-/

namespace SNBModules
namespace Transfer

open Lib

/-! ## Paths -/

/-- The pieces of a path between its separators. -/
def components (path : String) : List (List Char) := path.toList.splitOn '/'

/-- The names that a path leads through, the last one first, and whether it starts at
the root. -/
def lexicallyNormal (path : String) : Bool × List (List Char) :=
  (path.toList.head? = some '/', walk '.' [] (components path))

/-- What is recorded of a file leads to where the file is. -/
def NamesFile (cwd file path : String) : Prop :=
  ∃ found, absolute cwd file = .ok found ∧ lexicallyNormal path = lexicallyNormal found

/-- Every `./` of the path is a component of its own, and if separators follow those at
its start it starts with one itself. -/
def KeepsFile (file : String) : Prop :=
  WholeDots '.' (components file) ∧
    (((components file).dropWhile (· = ['.'])).head? = some [] → file.toList.head? = some '/')

/-- A path that ends in a name, without an empty component after a dot. -/
def Plain (file : String) : Prop :=
  NoEmptyAfterDot '.' (components file) ∧ ∃ c, (components file).getLast? = some c ∧ IsName '.' c

instance (file : String) : Decidable (KeepsFile file) :=
  inferInstanceAs (Decidable (_ ∧ _))

example : lexicallyNormal "/data/./run1/../x" = lexicallyNormal "/data/x" := by decide +kernel

theorem head?_splitOn {l : List Char} (hl : l ≠ []) :
    (l.splitOn '/').head? = some [] ↔ l.head? = some '/' := by
  obtain ⟨c, l, rfl⟩ := List.exists_cons_of_ne_nil hl
  obtain ⟨d, r, hd⟩ := List.exists_cons_of_ne_nil (List.splitOn_ne_nil '/' l)
  rw [List.splitOn_cons_eq_if_modifyHead, hd]
  by_cases hc : c = '/' <;> simp [hc]

/-- **The loop that removes `./`** merges a component that ends in a dot with the next. -/
theorem splitOn_removeDotSlash (l : List Char) :
    (removeDotSlash l).splitOn '/' = dropDots '.' (l.splitOn '/') := by
  induction l using removeDotSlash.induct with
  | case1 l ih =>
      rw [removeDotSlash, ih]
      obtain ⟨d, r, hd⟩ := List.exists_cons_of_ne_nil (List.splitOn_ne_nil '/' l)
      simp [List.splitOn_cons_eq_if_modifyHead, hd, dropDots_cons_cons]
  | case2 c l hnot ih =>
      obtain ⟨d, r, hd⟩ := List.exists_cons_of_ne_nil (List.splitOn_ne_nil '/' l)
      rw [removeDotSlash.eq_2 c l hnot, List.splitOn_cons_eq_if_modifyHead, ih,
        List.splitOn_cons_eq_if_modifyHead, hd]
      by_cases hc : c = '/'
      · simp [hc, dropDots_cons_cons]
      · have hhead : c ≠ '.' ∨ d ≠ [] ∨ r = [] := by
          by_contra hcon
          simp only [not_or, not_not] at hcon
          obtain ⟨hdot, hempty, hr⟩ := hcon
          have hl : l ≠ [] := by
            rintro rfl
            simp_all
          obtain ⟨l', rfl⟩ := List.head?_eq_some_iff.1 ((head?_splitOn hl).1 (by simp [hd, hempty]))
          exact hnot l' hdot rfl
        simp only [beq_iff_eq, if_neg hc, List.modifyHead_cons]
        rw [dropDots_cons_head hhead]
        rfl
  | case3 => rfl

/-- Where a path is walked from: the root, or the working directory. -/
def start (cwd path : String) : Bool × List (List Char) :=
  if path.toList.head? = some '/' then (true, [])
  else ((cwd.toList ++ ['/']).head? = some '/', walk '.' [] (components cwd))

theorem walk_splitOn_append (l l' : List Char) :
    walk '.' [] ((l ++ '/' :: l').splitOn '/') =
      walk '.' (walk '.' [] (l.splitOn '/')) (l'.splitOn '/') := by
  rw [List.splitOn_append_cons_self, walk_append]

/-- **An absolute path** leads from there to where the path leads. -/
theorem lexicallyNormal_absolute {cwd path abs : String} (h : absolute cwd path = .ok abs) :
    lexicallyNormal abs = ((start cwd path).1, walk '.' (start cwd path).2 (components path)) := by
  rw [absolute] at h
  split_ifs at h with hempty hroot hsep <;> obtain rfl := Except.ok.inj h
  · simp [lexicallyNormal, start, hroot]
  · -- the separator of the working directory is an empty component of it
    obtain ⟨c, hc⟩ := List.getLast?_eq_some_iff.1 hsep
    have hcwd : walk '.' [] (components cwd) = walk '.' [] (c.splitOn '/') := by
      rw [components, hc, walk_splitOn_append]
      rfl
    rw [lexicallyNormal, start, if_neg hroot, hcwd, components, String.toList_append, hc,
      List.append_assoc, List.singleton_append, walk_splitOn_append]
    cases c <;> simp [components]
  · have htext : (cwd ++ "/" ++ path).toList = cwd.toList ++ '/' :: path.toList := by
      simp [String.toList_append]
    rw [lexicallyNormal, start, if_neg hroot, components, htext, walk_splitOn_append]
    cases hcwd : cwd.toList <;> simp [components, hcwd]

/-- **What is recorded names the file** if both are walked to the same place, provided
that a relative path stays one. -/
theorem namesFile_iff_walk {cwd file path : String} (h : normalised cwd file = .ok path)
    (hroot : (removeDotSlash file.toList).head? = some '/' → file.toList.head? = some '/') :
    NamesFile cwd file path ↔ walk '.' (start cwd file).2 (dropDots '.' (components file)) =
      walk '.' (start cwd file).2 (components file) := by
  have hrest : components (String.ofList (removeDotSlash file.toList)) =
      dropDots '.' (components file) := by
    rw [components, String.toList_ofList, splitOn_removeDotSlash]
    rfl
  have hsame : (removeDotSlash file.toList).head? = some '/' ↔ file.toList.head? = some '/' := by
    refine ⟨hroot, fun hfile => ?_⟩
    obtain ⟨l, hl⟩ := List.head?_eq_some_iff.1 hfile
    rw [hl]
    simp [removeDotSlash]
  have hstart : start cwd (String.ofList (removeDotSlash file.toList)) = start cwd file := by
    simp only [start, String.toList_ofList, hsame]
  have hne : file ≠ "" := by
    rintro rfl
    cases h
  obtain ⟨found, hfound⟩ : ∃ found, absolute cwd file = .ok found := by
    rw [absolute, if_neg hne]
    split_ifs <;> exact ⟨_, rfl⟩
  have hpath := lexicallyNormal_absolute h
  rw [hrest, hstart] at hpath
  simp [NamesFile, hfound, hpath, lexicallyNormal_absolute hfound]

/-- What is left of a path starts at the root if its first component is empty. -/
theorem head?_dropDots_of_root {file : String}
    (hrest : (removeDotSlash file.toList).head? = some '/') :
    (dropDots '.' (components file)).head? = some [] := by
  have hne : removeDotSlash file.toList ≠ [] := fun hnil => by simp [hnil] at hrest
  rw [components, ← splitOn_removeDotSlash]
  exact (head?_splitOn hne).2 hrest

/-- **A path whose `./` are components** is recorded as a path to the same file. -/
theorem namesFile_of_keepsFile {cwd file path : String} (h : normalised cwd file = .ok path)
    (hkeeps : KeepsFile file) : NamesFile cwd file path := by
  obtain ⟨hwhole, hroot⟩ := hkeeps
  refine (namesFile_iff_walk h fun hrest => hroot ?_).2 (walk_dropDots hwhole _)
  exact (head?_dropDots_iff hwhole).1 (head?_dropDots_of_root hrest)

/-- **A plain path** is recorded as a path to the same file only then. -/
theorem keepsFile_of_namesFile {cwd file path : String} (h : normalised cwd file = .ok path)
    (hplain : Plain file) (hnames : NamesFile cwd file path) : KeepsFile file := by
  obtain ⟨hnext, last, hlast, hname⟩ := hplain
  have hne : file.toList ≠ [] := by
    intro hnil
    exact hname.1 (by simpa [components, hnil, eq_comm] using hlast)
  have hfirst (hempty : (dropDots '.' (components file)).head? = some []) :
      file.toList.head? = some '/' := by
    by_contra hroot
    exact head?_dropDots_ne hnext (fun hhead => hroot ((head?_splitOn hne).1 hhead)) hempty
  have hwalk := (namesFile_iff_walk h fun hrest =>
    hfirst (head?_dropDots_of_root hrest)).1 hnames
  obtain ⟨-, hwhole, -⟩ := wholeDots_of_walk_prepend hnext hlast hname (x := [])
    (fun hx => absurd rfl hx) (by simpa using hwalk)
  exact ⟨hwhole, fun hempty => hfirst ((head?_dropDots_iff hwhole).2 hempty)⟩

/-! ## Records -/

variable {σ : Type}

namespace Site

/-- What a call says of its group: all bookkeepers are told of it, and if a session is
made it has the paths of the group, and the destinations are told of the session. -/
structure Announces (p : Platform σ) (a : NewTransfer) (s : Site σ)
    (g : GroupMetadata TransferMetadata) (t : Site σ) : Prop where
  told : ∃ l, s.client.connections.Posts s.world
    (s.client.connections.bookkeepersConn.map
      (groupMessage p (s.client.generateSessionId a.transferId "") g) ++ l) t.world
  session : ∀ u, t.client.sessions = s.client.sessions ++ [u] →
    u.session.files.map TransferMetadata.filePath =
      g.transfersMeta.map TransferMetadata.filePath ∧
    ∃ l, s.client.connections.Posts s.world
      (l ++ a.destClients.flatMap (transferMessages p s.client a.transferId
        u.session.transferOptions)) t.world

theorem announces_launch (p : Platform σ) (o : Outside σ) (a : NewTransfer) (s : Site σ)
    (g : GroupMetadata TransferMetadata) :
    s.Announces p a g (s.launch p o a (s.client.generateSessionId a.transferId "") g).1 := by
  cases hsetup : (s.createdSession a g).setup p.cwd o with
  | error f =>
      rw [launch_of_setup_error a hsetup]
      refine ⟨⟨[], ?_⟩, fun u hu => ?_⟩
      · rw [List.append_nil]
        exact posts_tellBookkeepers p _ g s
      · rw [client_tellBookkeepers] at hu
        simp at hu
  | ok q =>
      obtain ⟨t, files, l, hlaunch, hclient, hlinks, -, hposts⟩ := launch_of_setup_ok a hsetup
      rw [hlaunch]
      refine ⟨⟨_, by rw [← List.append_assoc]; exact hposts⟩, fun u hu => ?_⟩
      rw [hclient] at hu
      obtain rfl := (List.cons.inj (List.append_cancel_left hu)).1
      have hpaths := congrArg (List.map TransferMetadata.filePath) hlinks
      simp only [List.map_map] at hpaths
      exact ⟨hpaths, _, hposts⟩

/-- **The path of a record** is one to the file that was found if every `./` of its path
is a component of its own, and if the path is plain only then. -/
theorem recorded_path_iff (p : Platform σ) (o : Outside σ) (a : NewTransfer) (s : Site σ) :
    (s.createNewTransfer p o a).1 = s ∨ ∃ g, s.Announces p a g (s.createNewTransfer p o a).1 ∧
      List.Forall₂ (fun file m => (KeepsFile file → NamesFile p.cwd file m.filePath) ∧
          (Plain file → (NamesFile p.cwd file m.filePath ↔ KeepsFile file)))
        (a.files.filter fun file => o.fileExists file = .ok true) g.transfersMeta := by
  rcases createNewTransfer_cases p o a s with
    ⟨protocol, g, hlaunches, hcreate⟩ | ⟨-, -, hsame, -⟩
  · refine Or.inr ⟨g, ?_, ?_⟩
    · rw [hcreate]
      exact announces_launch p o a s g
    · refine hlaunches.recorded.imp fun file m hm => ?_
      obtain ⟨path, size, hpath, -, rfl⟩ := hm
      exact ⟨namesFile_of_keepsFile hpath, fun hplain =>
        ⟨keepsFile_of_namesFile hpath hplain, namesFile_of_keepsFile hpath⟩⟩
  · exact Or.inl hsame

/-- A client that creates a transfer of a file. -/
def createdOf (file : String) : List (List String) :=
  ((Site.plain "client1" ⟨"10.0.0.2", 5001⟩).createNewTransfer .plain .plain
    ⟨"run1", "dummy", ["client2"], [file], .null⟩).1.client.sessions.map fun u =>
      u.session.files.map TransferMetadata.filePath

/-- **Other files:** one that is above the working directory, and one in a directory
whose name ends in a dot. -/
theorem other_files_named :
    createdOf "../run1.hdf5" = [["/.run1.hdf5"]] ∧
    ¬ NamesFile Platform.plain.cwd "../run1.hdf5" "/.run1.hdf5" ∧
    createdOf "/data./run1.hdf5" = [["/datarun1.hdf5"]] ∧
    ¬ NamesFile Platform.plain.cwd "/data./run1.hdf5" "/datarun1.hdf5" := by
  refine ⟨by decide +kernel, ?_, by decide +kernel, ?_⟩ <;> rintro ⟨found, hfound, hsame⟩ <;>
    · obtain rfl := Except.ok.inj hfound
      exact absurd hsame (by decide +kernel)

end Site

end Transfer
end SNBModules
