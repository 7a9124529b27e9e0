import SNBModules.Transfer.ClientTotality

/-!
# Record files that wait

Source: `transfer_client.cpp`, `scan_available_files`; `group_metadata.hpp`,
`add_expected_file`.

A session expects the whole paths of files, and the scan looks for it by the file name
of the path that a record file records.  So the record is added to a session that waits
for it exactly when the search by the name finds one (`pickedUp_iff_finds`), which it
does not among sessions that expect paths from the root (`finds_iff_of_root`).
-/

namespace SNBModules
namespace Transfer

open Lib

variable {σ : Type} {p : Platform σ} {o : Outside σ}

/-! ## The scan set -/

/-- The file is in a set of paths. -/
def Seen (l : List String) (file : String) : Prop := ∃ q ∈ l, pathElements q = pathElements file

/-- The file of a turn. -/
def Visit.path? : Visit → Option String
  | .group path _ | .file path _ => some path
  | .unreadable => none

/-- Each turn has a file of its own. -/
def DistinctPaths (l : List Visit) : Prop :=
  (l.filterMap Visit.path?).Pairwise fun a b => pathElements a ≠ pathElements b

theorem mem_insertPath {path q : String} {l : List String}
    (h : pathElements q ≠ pathElements path) :
    q ∈ (insertPath path l).1 ↔ q ∈ l := by
  have hne : q ≠ path := fun heq => h (by rw [heq])
  induction l with
  | nil => simp [insertPath, hne]
  | cons a l ih =>
      rw [insertPath]
      split_ifs
      · rfl
      · simp [hne]
      · simp [ih]

/-- **A new path** is inserted. -/
theorem insertPath_of_not_seen {path : String} {l : List String} (h : ¬ Seen l path) :
    (insertPath path l).2 = true ∧ path ∈ (insertPath path l).1 := by
  induction l with
  | nil => simp [insertPath]
  | cons a l ih =>
      have ha : pathElements path ≠ pathElements a := fun heq => h ⟨a, by simp, heq.symm⟩
      rw [insertPath, if_neg ha]
      split_ifs
      · simp
      · have hl : ¬ Seen l path := by
          rintro ⟨q, hq, heq⟩
          exact h ⟨q, List.mem_cons_of_mem _ hq, heq⟩
        obtain ⟨hnew, hmem⟩ := ih hl
        exact ⟨hnew, List.mem_cons_of_mem _ hmem⟩

theorem seen_insertPath {path file : String} {l : List String}
    (h : pathElements file ≠ pathElements path) :
    Seen (insertPath path l).1 file ↔ Seen l file := by
  refine exists_congr fun q => and_congr_left fun heq => mem_insertPath ?_
  rwa [heq]

theorem seen_erasePath {path file : String} {l : List String}
    (h : pathElements file ≠ pathElements path) : Seen (erasePath path l) file ↔ Seen l file := by
  refine exists_congr fun q => and_congr_left fun heq => ?_
  rw [erasePath, List.mem_filter]
  simp [heq, h]

theorem not_seen_erasePath (path : String) (l : List String) : ¬ Seen (erasePath path l) path := by
  rintro ⟨q, hq, heq⟩
  rw [erasePath, List.mem_filter] at hq
  simp [heq] at hq

namespace Site

/-- **A turn for another file** does not change whether the file is in the set. -/
theorem seen_visit {v : Visit} {q q' : Site σ × List String} (h : visit p o v q = .ok q')
    {file : String} (hv : ∀ path, v.path? = some path → pathElements file ≠ pathElements path) :
    Seen q'.2 file ↔ Seen q.2 file := by
  cases v with
  | unreadable => cases h
  | group path content =>
      have hpath := hv path rfl
      simp only [visit] at h
      split_ifs at h
      · obtain ⟨t, -, h⟩ := bind_eq_ok.1 h
        cases h
        exact seen_insertPath hpath
      · cases h
        rfl
  | file path content =>
      have hpath := hv path rfl
      simp only [visit] at h
      split_ifs at h
      · obtain ⟨r, -, h⟩ := bind_eq_ok.1 h
        cases h
        split_ifs
        · exact seen_insertPath hpath
        · exact (seen_erasePath hpath).trans (seen_insertPath hpath)
      · cases h
        exact seen_insertPath hpath
      · cases h
        rfl

theorem seen_exec {l : List Visit} {q q' : Site σ × List String}
    (h : exec (visitStep p o) q l = some q') {file : String}
    (hl : ∀ path ∈ l.filterMap Visit.path?, pathElements file ≠ pathElements path) :
    Seen q'.2 file ↔ Seen q.2 file := by
  refine exec_rel (R := fun q q' : Site σ × List String => Seen q'.2 file ↔ Seen q.2 file)
    (fun _ => Iff.rfl) (fun _ _ _ h₁ h₂ => h₂.trans h₁) (fun v hv q q' hstep => ?_) h
  refine seen_visit (toOption_eq_some.1 hstep) fun path hpath => hl path ?_
  exact List.mem_filterMap.2 ⟨v, hv, hpath⟩

end Site

/-! ## What a scan leaves of the sessions -/

namespace OpenSession

/-- The session expects the file. -/
def Expects (x : OpenSession σ) (file : String) : Prop :=
  file ∈ x.session.transferOptions.expectedFiles

/-- The record has been added to the session, which expects its file no more. -/
def Gains (m : TransferMetadata) (x y : OpenSession σ) : Prop :=
  (∀ file, y.Expects file ↔ file ≠ m.filePath ∧ x.Expects file) ∧
    y.records = x.records ++
      [{ m.withoutFlags with groupId := x.session.transferOptions.groupId }]

/-- **What `add_file` does to a session:** it gains a record that it expects, and
otherwise at most one that is of its group. -/
theorem addFile_eq_ok {m : TransferMetadata} {x y : OpenSession σ} {w w' : World}
    (h : x.addFile p m w = .ok (y, w')) :
    (x.Expects m.filePath → Gains m x y) ∧ (∀ file, y.Expects file → x.Expects file) ∧
      x.records <+: y.records := by
  cases htakes : takes x.session.transferOptions m with
  | true =>
      obtain ⟨m', w'', hadd, hflags⟩ := addFile_of_takes (p := p) htakes w
      obtain rfl := (Prod.mk.inj (Except.ok.inj (h.symm.trans hadd))).1
      have hrecords : (x.session.files ++ [m']).map TransferMetadata.withoutFlags = x.records ++
          [{ m.withoutFlags with groupId := x.session.transferOptions.groupId }] := by
        rw [List.map_append, List.map_singleton, hflags]
        rfl
      exact ⟨fun _ => ⟨fun file => Finset.mem_erase, hrecords⟩,
        fun file => Finset.mem_of_mem_erase, ⟨_, hrecords.symm⟩⟩
  | false =>
      obtain ⟨hexpects, hrecords⟩ := addFile_of_not_takes htakes h
      refine ⟨fun hin => ?_, fun file hfile => ?_, ?_⟩
      · have hnot : m.filePath ∉ x.session.transferOptions.expectedFiles := fun hmem => by
          simp [takes, hmem] at htakes
        exact absurd hin hnot
      · rwa [Expects, hexpects] at hfile
      · rw [hrecords]

end OpenSession

namespace Site

/-- The sessions are still there, with all their records, and expect no more than before. -/
def Kept (s t : Site σ) : Prop :=
  ∀ (i : ℕ) (x : OpenSession σ), s.client.sessions[i]? = some x →
    ∃ y, t.client.sessions[i]? = some y ∧ (∀ file, y.Expects file → x.Expects file) ∧
      x.records <+: y.records

theorem Kept.refl (s : Site σ) : s.Kept s :=
  fun _ x hx => ⟨x, hx, fun _ h => h, List.prefix_refl _⟩

theorem Kept.trans {s t u : Site σ} (h₁ : s.Kept t) (h₂ : t.Kept u) : s.Kept u := by
  intro i x hx
  obtain ⟨y, hy, hexpects, hrecords⟩ := h₁ i x hx
  obtain ⟨z, hz, hexpects', hrecords'⟩ := h₂ i y hy
  exact ⟨z, hz, fun file h => hexpects file (hexpects' file h), hrecords.trans hrecords'⟩

theorem kept_of_client {s t : Site σ} (h : t.client = s.client) : s.Kept t := by
  intro i x hx
  rw [← h] at hx
  exact Kept.refl t i x hx

theorem kept_visit {v : Visit} {q q' : Site σ × List String} (h : visit p o v q = .ok q') :
    q.1.Kept q'.1 := by
  rcases site_visit h with hsame | ⟨g, hg⟩ | ⟨m, i, hi⟩
  · exact kept_of_client hsame
  · obtain ⟨files, interface, hclient⟩ := createSession_eq_ok hg
    intro j x hx
    refine ⟨x, ?_, fun _ h => h, List.prefix_refl _⟩
    rw [hclient]
    rw [List.getElem?_append_left (List.getElem?_eq_some_iff.1 hx).1]
    exact hx
  · rcases atSession_eq_ok hi with hsame | ⟨x, y, w, hx, hadd, hsame⟩
    · exact kept_of_client (by rw [hsame]; rfl)
    · obtain ⟨-, hexpects, hrecords⟩ := OpenSession.addFile_eq_ok hadd
      intro j x' hx'
      rw [hsame]
      have hx' : q.1.client.sessions[j]? = some x' := hx'
      have hx : q.1.client.sessions[i]? = some x := hx
      by_cases hij : i = j
      · subst hij
        obtain rfl := Option.some.inj (hx.symm.trans hx')
        have hlt := (List.getElem?_eq_some_iff.1 hx).1
        exact ⟨y, by simp [tick, hlt], hexpects, hrecords⟩
      · refine ⟨x', ?_, fun _ h => h, List.prefix_refl _⟩
        rw [List.getElem?_set_ne hij]
        exact hx'

/-! ## Record files -/

/-- The scan comes to a record file that it has not scanned before, with the client as
`u`, and goes on from it with `v`. -/
structure RecordTurn (p : Platform σ) (o : Outside σ) (visits : List Visit)
    (q : Site σ × List String) (path content : String) (u v : Site σ) : Prop where
  turn : ∃ pre post seen seen', visits = pre ++ .file path content :: post ∧
    exec (visitStep p o) q pre = some (u, seen) ∧
    visit p o (.file path content) (u, seen) = .ok (v, seen')
  extension_eq : extension path = ".tmetadata"
  new : ¬ Seen q.2 path

/-- **A waiting record is picked up:** if a session expects its file, the turn adds it to
one that does, which at the end of the scan still has it and does not expect the file;
if none does, its file is not in the scan set. -/
def PickedUp (u v t : Site σ) (scan : List String) (path : String) (m : TransferMetadata) : Prop :=
  ((∃ x ∈ u.client.sessions, x.Expects m.filePath) →
    ∃ (i : ℕ) (x y z : OpenSession σ), u.client.sessions[i]? = some x ∧ x.Expects m.filePath ∧
      v.client.sessions[i]? = some y ∧ OpenSession.Gains m x y ∧
      t.client.sessions[i]? = some z ∧ y.records <+: z.records ∧ ¬ z.Expects m.filePath) ∧
  ((∀ x ∈ u.client.sessions, ¬ x.Expects m.filePath) → ¬ Seen scan path)

/-- The search by the file name finds a session that expects the path, or none where none
does. -/
def Finds (u : Site σ) (file : String) : Prop :=
  match u.sessionWanting file with
  | some i => ∀ x, u.client.sessions[i]? = some x → x.Expects file
  | none => ∀ x ∈ u.client.sessions, ¬ x.Expects file

theorem kept_exec {l : List Visit} {q q' : Site σ × List String}
    (h : exec (visitStep p o) q l = some q') : q.1.Kept q'.1 :=
  exec_rel (R := fun q q' : Site σ × List String => q.1.Kept q'.1) (fun q => .refl q.1)
    (fun _ _ _ => .trans) (fun _ _ _ _ hstep => kept_visit (toOption_eq_some.1 hstep)) h

theorem not_gains_self (m : TransferMetadata) (x : OpenSession σ) : ¬ OpenSession.Gains m x x :=
  fun h => absurd (congrArg List.length h.2) (by simp)

/-- **The turn of a new record file:** the file stays in the scan set if a session is
found for the record. -/
theorem visit_record {path content : String} {u v : Site σ} {seen seen' : List String}
    (hnew : ¬ Seen seen path) (hext : extension path = ".tmetadata")
    (h : visit p o (.file path content) (u, seen) = .ok (v, seen')) :
    ∃ r, u.scanRecord p content = .ok r ∧ v = r.1 ∧ (Seen seen' path ↔ r.2 = true) := by
  obtain ⟨hinserted, hmem⟩ := insertPath_of_not_seen hnew
  simp only [visit, hinserted, hext, if_true] at h
  obtain ⟨r, hr, h⟩ := bind_eq_ok.1 h
  cases h
  refine ⟨r, hr, rfl, ?_⟩
  cases hwanted : r.2 with
  | true => exact iff_of_true ⟨path, hmem, rfl⟩ rfl
  | false => exact iff_of_false (not_seen_erasePath path _) (by simp)

/-- **A record for which no session is found** is picked up if no session expects it. -/
theorem pickedUp_iff_of_none {u t : Site σ} {scan : List String} {path : String}
    {m : TransferMetadata} (hscan : ¬ Seen scan path) :
    PickedUp u u.tick t scan path m ↔ ∀ x ∈ u.client.sessions, ¬ x.Expects m.filePath := by
  constructor
  · intro h x hx hexpects
    obtain ⟨i, x', y, z, hx', -, hy, hgains, -⟩ := h.1 ⟨x, hx, hexpects⟩
    obtain rfl := Option.some.inj (hx'.symm.trans hy)
    exact not_gains_self m x' hgains
  · intro hnone
    refine ⟨?_, fun _ => hscan⟩
    rintro ⟨x, hx, hexpects⟩
    exact absurd hexpects (hnone x hx)

/-- **One for which a session is found** is picked up if this one expects it. -/
theorem pickedUp_iff_of_some {u v t : Site σ} {scan : List String} {path : String}
    {m : TransferMetadata} {i : ℕ} {x y : OpenSession σ} {w : World}
    (hx : u.client.sessions[i]? = some x) (hadd : x.addFile p m u.tick.world = .ok (y, w))
    (hv : v = ⟨{ u.client with sessions := u.client.sessions.set i y }, w⟩) (hkept : v.Kept t)
    (hscan : Seen scan path) : PickedUp u v t scan path m ↔ x.Expects m.filePath := by
  have hlt := (List.getElem?_eq_some_iff.1 hx).1
  have hy : v.client.sessions[i]? = some y := by simp [hv, hlt]
  constructor
  · intro h
    by_contra hnot
    by_cases hwanted : ∃ x ∈ u.client.sessions, x.Expects m.filePath
    · obtain ⟨j, x', y', z, hx', hexpects, hy', hgains, -⟩ := h.1 hwanted
      have hij : i ≠ j := by
        rintro rfl
        obtain rfl := Option.some.inj (hx.symm.trans hx')
        exact hnot hexpects
      rw [hv, List.getElem?_set_ne hij, hx'] at hy'
      obtain rfl := Option.some.inj hy'
      exact not_gains_self m x' hgains
    · exact h.2 (fun x' hx' hexpects => hwanted ⟨x', hx', hexpects⟩) hscan
  · intro hexpects
    have hgains := (OpenSession.addFile_eq_ok hadd).1 hexpects
    obtain ⟨z, hz, hless, hrecords⟩ := hkept i y hy
    refine ⟨fun _ => ⟨i, x, y, z, hx, hexpects, hy, hgains, hz, hrecords, fun hzexpects => ?_⟩,
      fun hnone => absurd hexpects (hnone x (List.mem_of_getElem? hx))⟩
    exact ((hgains.1 m.filePath).1 (hless m.filePath hzexpects)).1 rfl

theorem head?_fileName_ne (file : String) : (fileName file).toList.head? ≠ some '/' := by
  intro hhead
  have hmem : '/' ∈ file.toList.reverse.takeWhile (· ≠ '/') := by
    simpa [fileName] using List.mem_of_head? hhead
  have hall := List.all_eq_true.1 List.all_takeWhile _ hmem
  simp at hall

/-- **Among sessions that expect paths from the root** the search finds none. -/
theorem sessionWanting_of_root {u : Site σ}
    (hroot : ∀ x ∈ u.client.sessions, ∀ f, x.Expects f → f.toList.head? = some '/')
    (file : String) : u.sessionWanting file = none := by
  refine List.findIdx?_eq_none_iff.2 fun x hx => ?_
  rw [decide_eq_false_iff_not]
  exact fun hname => head?_fileName_ne file (hroot x hx _ hname)

/-- What the scan does is right then for the files that no session expects. -/
theorem finds_iff_of_root {u : Site σ}
    (hroot : ∀ x ∈ u.client.sessions, ∀ f, x.Expects f → f.toList.head? = some '/')
    (file : String) : u.Finds file ↔ ∀ x ∈ u.client.sessions, ¬ x.Expects file := by
  rw [Finds, sessionWanting_of_root hroot]

/-- **When waiting record files are picked up:** for each of them, exactly when the search
by the file name finds a session that expects the path, or none where none does. -/
theorem pickedUp_iff_finds (p : Platform σ) (o : Outside σ) {nested : Bool} {folder : Entry}
    {previousScan : List String} {s t : Site σ} {scan : List String}
    (hscan : s.scanAvailableFiles p o nested folder previousScan = ((t, scan), none))
    (hdistinct : DistinctPaths (folder.visits nested)) {path content : String} {u v : Site σ}
    (hturn : RecordTurn p o (folder.visits nested) (s, previousScan) path content u v) :
    ∃ m, TransferMetadata.ofString p.cwd p.parse (u.world.now p.env) content = .ok m ∧
      (PickedUp u v t scan path m ↔ u.Finds m.filePath) := by
  obtain ⟨⟨pre, post, seen, seen', hvisits, hpre, hv⟩, hext, hnew⟩ := hturn
  rw [scanAvailableFiles_eq_none_iff, hvisits, exec_append, hpre] at hscan
  obtain ⟨q, hq, hpost⟩ := exec_cons_eq_some.1 hscan
  obtain rfl : (v, seen') = q := Except.ok.inj (hv.symm.trans (toOption_eq_some.1 hq))
  -- the other turns have other files
  rw [hvisits, DistinctPaths, List.filterMap_append, List.pairwise_append] at hdistinct
  obtain ⟨-, hrest, hbefore⟩ := hdistinct
  have hcons : (Visit.file path content :: post).filterMap Visit.path? =
      path :: post.filterMap Visit.path? := List.filterMap_cons_some rfl
  rw [hcons] at hrest hbefore
  have hunseen : Seen seen path ↔ Seen previousScan path :=
    seen_exec hpre fun a ha => (hbefore a ha path List.mem_cons_self).symm
  have hlast : Seen scan path ↔ Seen seen' path := seen_exec hpost (List.pairwise_cons.1 hrest).1
  obtain ⟨r, hr, rfl, hseen⟩ := visit_record (fun h => hnew (hunseen.1 h)) hext hv
  obtain ⟨m, hm, ⟨hnone, rfl⟩ | ⟨i, hi, hat, hwanted⟩⟩ := scanRecord_eq_ok hr
  · refine ⟨m, hm, ?_⟩
    rw [Finds, hnone]
    exact pickedUp_iff_of_none (by simp [hlast, hseen])
  · refine ⟨m, hm, ?_⟩
    obtain ⟨hlt, -, -⟩ := List.findIdx?_eq_some_iff_getElem.1 hi
    obtain ⟨x, hx⟩ : ∃ x, u.client.sessions[i]? = some x := ⟨_, List.getElem?_eq_getElem hlt⟩
    have hx' : u.tick.client.sessions[i]? = some x := hx
    rw [atSession, hx'] at hat
    obtain ⟨⟨y, w⟩, hadd, hv'⟩ := bind_eq_ok.1 hat
    rw [Finds, hi]
    simp only [hx, Option.some.injEq, forall_eq']
    exact pickedUp_iff_of_some hx hadd (Except.ok.inj hv').symm (kept_exec hpost)
      (by rw [hlast, hseen, hwanted])

/-- A client that has no session yet. -/
def scanner : Site Unit := .plain "client1" ⟨"127.0.0.1", 42100⟩

/-- The file of a group of one file. -/
def groupFile : String × String :=
  ("/client1/transfer1.gmetadata",
    "\x7b\"transfer_id\":\"transfer1\",\"protocol\":\"dummy\",\"files\":[\"/file1\"]\x7d")

/-- The file of its record. -/
def recordFile : String × String :=
  ("/client1/file1.tmetadata", "\x7b\"file_path\":\"/file1\"\x7d")

/-- A folder with these files. -/
def folderOf (files : List (String × String)) : Entry :=
  .folder "/client1" (files.map fun f => .file f.1 f.2)

/-- The record alone, which no session expects. -/
theorem pickedUp_iff_finds_alone :
    ∃ v t scan m, scanner.scanAvailableFiles .plain .plain false (folderOf [recordFile]) [] =
      ((t, scan), none) ∧ PickedUp scanner v t scan recordFile.1 m := by
  have hvisits : (folderOf [recordFile]).visits false = [.file recordFile.1 recordFile.2] := by
    decide +kernel
  obtain ⟨⟨v, seen⟩, hv⟩ : ∃ q, visit .plain .plain (.file recordFile.1 recordFile.2)
      (scanner, []) = .ok q := isOk_iff.1 (by decide +kernel)
  have hscan : scanner.scanAvailableFiles .plain .plain false (folderOf [recordFile]) [] =
      ((v, seen), none) := by
    rw [scanAvailableFiles_eq_none_iff, hvisits, exec_singleton]
    exact toOption_eq_some.2 hv
  obtain ⟨m, -, hiff⟩ := pickedUp_iff_finds (u := scanner) .plain .plain hscan
    (by rw [hvisits]; simp [DistinctPaths, Visit.path?])
    ⟨⟨[], [], [], seen, hvisits, rfl, hv⟩, by decide +kernel, by simp [Seen]⟩
  exact ⟨v, v, seen, m, hscan, hiff.2 (by simp [Finds, sessionWanting, scanner, Site.plain])⟩

/-- **The record of a file that a session expects** is left out: the scan looks for
`file1`, and the session expects `/file1`. -/
theorem waiting_record_left_out :
    ∃ u v t scan m, scanner.scanAvailableFiles .plain .plain false
        (folderOf [groupFile, recordFile]) [] = ((t, scan), none) ∧
      RecordTurn .plain .plain ((folderOf [groupFile, recordFile]).visits false) (scanner, [])
        recordFile.1 recordFile.2 u v ∧
      TransferMetadata.ofString "/" JsonText.parse (u.world.now Platform.plain.env)
        recordFile.2 = .ok m ∧
      (∃ x ∈ u.client.sessions, x.Expects m.filePath) ∧
      ¬ PickedUp u v t scan recordFile.1 m := by
  have hvisits : (folderOf [groupFile, recordFile]).visits false =
      [.group groupFile.1 groupFile.2, .file recordFile.1 recordFile.2] := by decide +kernel
  have hfacts : (visit .plain .plain (.group groupFile.1 groupFile.2) (scanner, [])).toOption.map
      (fun q => (q.1.client.sessions.map fun x => x.session.transferOptions.expectedFiles, q.2,
        q.1.world.now Platform.plain.env,
        (visit .plain .plain (.file recordFile.1 recordFile.2) q).isOk)) =
      some ([{"/file1"}], [groupFile.1], 0, true) := by decide +kernel
  obtain ⟨⟨u, seen⟩, hu, hfacts⟩ := Option.map_eq_some_iff.1 hfacts
  obtain ⟨hexpected, hseen, hnow, hok⟩ : (u.client.sessions.map fun x =>
      x.session.transferOptions.expectedFiles) = [{"/file1"}] ∧ seen = [groupFile.1] ∧
      u.world.now Platform.plain.env = 0 ∧
      (visit .plain .plain (.file recordFile.1 recordFile.2) (u, seen)).isOk = true := by
    simpa using hfacts
  obtain ⟨⟨v, scan⟩, hv⟩ := isOk_iff.1 hok
  obtain ⟨x, hsessions, hx⟩ := List.map_eq_singleton_iff.1 hexpected
  have hnew : ¬ Seen seen recordFile.1 := by
    rw [hseen]
    rintro ⟨q, hq, heq⟩
    rw [List.mem_singleton.1 hq] at heq
    exact absurd heq (by decide +kernel)
  have hgroup : exec (visitStep .plain .plain) (scanner, []) [.group groupFile.1 groupFile.2] =
      some (u, seen) := by rw [exec_singleton]; exact hu
  have hscan :
      scanner.scanAvailableFiles .plain .plain false (folderOf [groupFile, recordFile]) [] =
        ((v, scan), none) := by
    rw [scanAvailableFiles_eq_none_iff, hvisits]
    exact exec_cons_eq_some.2 ⟨_, hu, by rw [exec_singleton]; exact toOption_eq_some.2 hv⟩
  obtain ⟨r, hr, rfl, hwanted⟩ := visit_record hnew (by decide +kernel) hv
  obtain ⟨m, hm, hcases⟩ := scanRecord_eq_ok hr
  have hpath : m.filePath = "/file1" := by
    have hread : ((TransferMetadata.ofString "/" JsonText.parse 0 recordFile.2).toOption.map
        TransferMetadata.filePath) = some "/file1" := by decide +kernel
    rw [hnow] at hm
    have hm' : TransferMetadata.ofString "/" JsonText.parse 0 recordFile.2 = .ok m := hm
    rw [hm'] at hread
    exact Option.some.inj hread
  have hexpects : ∃ x ∈ u.client.sessions, x.Expects m.filePath :=
    ⟨x, by rw [hsessions]; exact List.mem_singleton_self x,
      by simp [OpenSession.Expects, hx, hpath]⟩
  have hnone : u.sessionWanting m.filePath = none := by
    refine sessionWanting_of_root (fun y hy f hf => ?_) _
    rw [hsessions] at hy
    obtain rfl := List.mem_singleton.1 hy
    rw [OpenSession.Expects, hx, Finset.mem_singleton] at hf
    rw [hf]
    decide
  rw [hnone] at hcases
  obtain ⟨-, rfl⟩ : (none : Option ℕ) = none ∧ r = (u.tick, false) := by simpa using hcases
  refine ⟨u, u.tick, u.tick, scan, m, hscan, ⟨⟨[_], [], seen, scan, hvisits, hgroup, hv⟩,
    by decide +kernel, by simp [Seen]⟩, hm, hexpects, fun hpicked => ?_⟩
  obtain ⟨x, hx, hexpects⟩ := hexpects
  exact (pickedUp_iff_of_none (by simp [hwanted])).1 hpicked x hx hexpects

end Site

end Transfer
end SNBModules
