import SNBModules.Transfer.Metadata

/-!
# Reading metadata messages

Source: `transfer_metadata.cpp`, `from_string`, and `operator==` of
`transfer_metadata.hpp`.

A message is read twice by a receiver that knows its record already: into a new
object, to find the record, and then into the record.  The second reading throws
nothing when the first did not, and the record stays the one that the message names
(`fromString_again`).  What a reading leaves does not depend on the clock, up to
the times that `set_status` takes from it (`fromString_withoutClock`).
-/

namespace SNBModules
namespace Transfer

open Lib

namespace TransferMetadata

/-- What `operator==` compares. -/
def key (m : TransferMetadata) : (Bool × List (List Char)) × IPFormat × IPFormat × String :=
  (pathElements m.filePath, m.src, m.dest, m.groupId)

/-- The record without the times that `set_status` takes from the clock. -/
def withoutClock (m : TransferMetadata) : TransferMetadata :=
  { m with startTime := 0, endTime := 0, duration := 0 }

/-- The times are not compared. -/
@[simp] theorem key_withoutClock (m : TransferMetadata) : m.withoutClock.key = m.key := rfl

/-! ## What the steps assign -/

theorem setFilePath_eq_ok {cwd path : String} {m m' : TransferMetadata} :
    m.setFilePath cwd path = .ok m' ↔
      ∃ filePath, normalised cwd path = .ok filePath ∧ m' = { m with filePath } := by
  rw [setFilePath]
  cases normalised cwd path with
  | error e => simp [bind, Except.bind]
  | ok filePath => simp [bind, Except.bind, eq_comm]

theorem setSrc_eq_ok {source : IPFormat} {m m' : TransferMetadata} :
    m.setSrc source = .ok m' ↔ source ≠ m.dest ∧ m' = { m with src := source } := by
  rw [setSrc]
  split_ifs with h <;> simp [h, eq_comm]

theorem setDest_eq_ok {dest : IPFormat} {m m' : TransferMetadata} :
    m.setDest dest = .ok m' ↔ dest ≠ m.src ∧ m' = { m with dest } := by
  rw [setDest]
  split_ifs with h <;> simp [h, eq_comm]

/-- A view of the identifying fields alone. -/
def Identifying {α : Type} (g : TransferMetadata → α) : Prop :=
  ∀ (m : TransferMetadata) (hash : String) (bytesSize bytesTransferred : ℕ)
    (transmissionSpeed : ℤ) (status : Status) (magnetLink errorCode : String)
    (startTime endTime duration : ℤ) (modifiedFields : Finset Field),
    g { m with hash, bytesSize, bytesTransferred, transmissionSpeed, status, magnetLink, errorCode,
               startTime, endTime, duration, modifiedFields } = g m

theorem Identifying.readStatus {α : Type} {g : TransferMetadata → α} (hg : Identifying g)
    (now : ℤ) (name : String) (m : TransferMetadata) : g (m.readStatus now name) = g m := by
  rw [TransferMetadata.readStatus]
  cases stringToStatus name with
  | none => rfl
  | some status =>
      simp only [setStatus, flag]
      split_ifs <;> exact hg m m.hash m.bytesSize m.bytesTransferred m.transmissionSpeed status
        m.magnetLink m.errorCode _ _ _ _

/-- A setter stores its value where `g` looks, or elsewhere. -/
def Stores {α β : Type} (g : TransferMetadata → α)
    (set : β → TransferMetadata → TransferMetadata) : Prop :=
  (∃ c : β → α, ∀ x m, g (set x m) = c x) ∨ ∀ x m, g (set x m) = g m

/-- A step that stores one value under a condition assigns what the setter stores. -/
theorem Stores.assigns {α β : Type} {g : TransferMetadata → α}
    {set : β → TransferMetadata → TransferMetadata} (h : Stores g set) {x : β}
    {f : TransferMetadata → Except Exn TransferMetadata}
    (hf : ∀ m m', f m = .ok m' → m' = set x m) : Assigns g f := by
  rcases h with ⟨c, hc⟩ | hkeep
  · exact Or.inl ⟨c x, fun m m' hm => by rw [hf m m' hm, hc]⟩
  · exact Or.inr fun m m' hm => by rw [hf m m' hm, hkeep]

theorem assigns_setFilePath {α : Type} {g : TransferMetadata → α}
    (h : Stores g fun filePath m => { m with filePath }) (cwd path : String) :
    Assigns g (setFilePath cwd path) := by
  cases hp : normalised cwd path with
  | error e =>
      right
      intro m m' hm
      obtain ⟨q, hq, -⟩ := setFilePath_eq_ok.1 hm
      rw [hp] at hq
      cases hq
  | ok q =>
      refine h.assigns (x := q) fun m m' hm => ?_
      obtain ⟨q', hq', rfl⟩ := setFilePath_eq_ok.1 hm
      rw [hp] at hq'
      cases hq'
      rfl

/-- **The steps assign each identifying field,** with the value of the message or
not at all. -/
theorem assigns_fromStringSteps {α : Type} {g : TransferMetadata → α} (hg : Identifying g)
    (hpath : Stores g fun filePath m => { m with filePath })
    (hsrc : Stores g fun src m => { m with src }) (hdest : Stores g fun dest m => { m with dest })
    (hgroup : Stores g setGroupId) (cwd : String) (now : ℤ) (j : Json) :
    ∀ f ∈ fromStringSteps cwd now j, Assigns g f := by
  have hkeep : ∀ {β : Type} (k : String) (get : Json → Except Exn β)
      (set : β → TransferMetadata → TransferMetadata), (∀ a m, g (set a m) = g m) →
      Assigns g (j.readMember k get fun a m => .ok (set a m)) := by
    intro β k get set hset
    refine Json.readMember_assigns fun a => Or.inr fun m m' h => ?_
    cases h
    exact hset a m
  intro f hf
  simp only [fromStringSteps, sizeSteps, addressSteps, statusSteps, List.cons_append,
    List.nil_append, List.mem_cons, List.not_mem_nil, or_false] at hf
  rcases hf with rfl | rfl | rfl | rfl | rfl | rfl | rfl | rfl | rfl | rfl | rfl | rfl | rfl | rfl
  · exact Json.readMember_assigns (assigns_setFilePath hpath cwd)
  · exact hkeep _ _ _ fun _ m => hg m ..
  · exact hkeep _ _ _ fun _ m => hg m ..
  · exact hkeep _ _ _ fun _ m => hg m ..
  · exact hkeep _ _ _ fun _ m => hg m ..
  · exact Json.readMember_assigns fun _ => hsrc.assigns fun _ _ h => (setSrc_eq_ok.1 h).2
  · exact Json.readMember_assigns fun _ => hdest.assigns fun _ _ h => (setDest_eq_ok.1 h).2
  · exact hkeep _ _ _ fun name m => hg.readStatus now name m
  · exact hkeep _ _ _ fun _ m => hg m ..
  · exact Json.readMember_assigns fun _ => hgroup.assigns fun _ _ h => by cases h; rfl
  · exact hkeep _ _ _ fun _ m => hg m ..
  · exact hkeep _ _ _ fun _ m => hg m ..
  · exact hkeep _ _ _ fun _ m => hg m ..
  · exact hkeep _ _ _ fun _ m => hg m ..

/-- **The record stays the one that the message names:** one that a first run of
the steps named keeps its identity in a second run. -/
theorem key_runSteps {cwd : String} {now : ℤ} {j : Json} {m₀ file m m' : TransferMetadata}
    (h₁ : runSteps (fromStringSteps cwd now j) m₀ = (file, none))
    (h₂ : runSteps (fromStringSteps cwd now j) m = (m', none)) (hkey : m.key = file.key) :
    m'.key = file.key := by
  have hsteps : ∀ {α : Type} {g : TransferMetadata → α}, Identifying g →
      (Stores g fun filePath m => { m with filePath }) → (Stores g fun src m => { m with src }) →
      (Stores g fun dest m => { m with dest }) → Stores g setGroupId → g m = g file →
      g m' = g file :=
    fun hg hpath hsrc hdest hgroup hm =>
      runSteps_agree (assigns_fromStringSteps hg hpath hsrc hdest hgroup cwd now j) h₁ h₂ hm
  have hkeep : ∀ {α β : Type} {g : TransferMetadata → α} {set : β → TransferMetadata → _},
      (∀ x m, g (set x m) = g m) → Stores g set := fun h => Or.inr h
  simp only [key, Prod.mk.injEq] at hkey ⊢
  obtain ⟨hpath, hsrc, hdest, hgroup⟩ := hkey
  refine ⟨?_, ?_, ?_, ?_⟩
  · exact hsteps (g := fun m => pathElements m.filePath) (fun _ _ _ _ _ _ _ _ _ _ _ _ => rfl)
      (Or.inl ⟨pathElements, fun _ _ => rfl⟩) (hkeep fun _ _ => rfl) (hkeep fun _ _ => rfl)
      (hkeep fun _ _ => rfl) hpath
  · exact hsteps (g := src) (fun _ _ _ _ _ _ _ _ _ _ _ _ => rfl) (hkeep fun _ _ => rfl)
      (Or.inl ⟨id, fun _ _ => rfl⟩) (hkeep fun _ _ => rfl) (hkeep fun _ _ => rfl) hsrc
  · exact hsteps (g := dest) (fun _ _ _ _ _ _ _ _ _ _ _ _ => rfl) (hkeep fun _ _ => rfl)
      (hkeep fun _ _ => rfl) (Or.inl ⟨id, fun _ _ => rfl⟩) (hkeep fun _ _ => rfl) hdest
  · exact hsteps (g := groupId) (fun _ _ _ _ _ _ _ _ _ _ _ _ => rfl) (hkeep fun _ _ => rfl)
      (hkeep fun _ _ => rfl) (hkeep fun _ _ => rfl) (Or.inl ⟨id, fun _ _ => rfl⟩) hgroup

/-! ## The clock -/

/-- Records alike differ in the times alone. -/
theorem exists_times {m n : TransferMetadata} (h : m.withoutClock = n.withoutClock) :
    ∃ startTime endTime duration, n = { m with startTime, endTime, duration } := by
  refine ⟨n.startTime, n.endTime, n.duration, ?_⟩
  cases m
  cases n
  simpa [withoutClock] using h.symm

/-- Both calls leave records alike, or both throw the same. -/
def Alike (x y : Except Exn TransferMetadata) : Prop :=
  (∃ m n, x = .ok m ∧ y = .ok n ∧ m.withoutClock = n.withoutClock) ∨
    ∃ e, x = .error e ∧ y = .error e

theorem readMember_alike {α : Type} {put put' : α → TransferMetadata → Except Exn TransferMetadata}
    (hput : ∀ a m startTime endTime duration,
      Alike (put a m) (put' a { m with startTime, endTime, duration })) (j : Json) (k : String)
    (get : Json → Except Exn α) (m n : TransferMetadata) (h : m.withoutClock = n.withoutClock) :
    Alike (j.readMember k get put m) (j.readMember k get put' n) := by
  refine Json.readMember_rel (R := fun m n => m.withoutClock = n.withoutClock) ?_ m n h
  intro a m n h
  obtain ⟨startTime, endTime, duration, rfl⟩ := exists_times h
  exact hput a m startTime endTime duration

theorem setFilePath_alike (cwd path : String) (m : TransferMetadata)
    (startTime endTime duration : ℤ) :
    Alike (m.setFilePath cwd path)
      (setFilePath cwd path { m with startTime, endTime, duration }) := by
  rw [setFilePath, setFilePath]
  cases normalised cwd path with
  | error e => exact Or.inr ⟨e, rfl, rfl⟩
  | ok filePath => exact Or.inl ⟨_, _, rfl, rfl, rfl⟩

theorem setSrc_alike (source : IPFormat) (m : TransferMetadata)
    (startTime endTime duration : ℤ) :
    Alike (m.setSrc source) (setSrc source { m with startTime, endTime, duration }) := by
  rw [setSrc, setSrc]
  split_ifs
  · exact Or.inl ⟨_, _, rfl, rfl, rfl⟩
  · exact Or.inr ⟨_, rfl, rfl⟩

theorem setDest_alike (dest : IPFormat) (m : TransferMetadata)
    (startTime endTime duration : ℤ) :
    Alike (m.setDest dest) (setDest dest { m with startTime, endTime, duration }) := by
  rw [setDest, setDest]
  split_ifs
  · exact Or.inl ⟨_, _, rfl, rfl, rfl⟩
  · exact Or.inr ⟨_, rfl, rfl⟩

/-- The status is the only member that makes the clock be read. -/
theorem readStatus_alike (now now' : ℤ) (name : String) (m : TransferMetadata)
    (startTime endTime duration : ℤ) :
    Alike (.ok (m.readStatus now name))
      (.ok (readStatus now' name { m with startTime, endTime, duration })) := by
  refine Or.inl ⟨_, _, rfl, rfl, ?_⟩
  rw [readStatus, readStatus]
  cases stringToStatus name with
  | none => rfl
  | some status =>
      simp only [setStatus, flag]
      split_ifs <;> rfl

/-- The steps leave records alike that were alike, whatever the clock shows. -/
theorem fromStringSteps_alike (cwd : String) (now now' : ℤ) (j : Json) :
    List.Forall₂ (fun f g => ∀ m n : TransferMetadata, m.withoutClock = n.withoutClock →
      Alike (f m) (g n)) (fromStringSteps cwd now j) (fromStringSteps cwd now' j) := by
  have hstore : ∀ {α : Type} {set : α → TransferMetadata → TransferMetadata} (k : String)
      (get : Json → Except Exn α), (∀ a m startTime endTime duration,
        (set a m).withoutClock = (set a { m with startTime, endTime, duration }).withoutClock) →
      ∀ m n : TransferMetadata, m.withoutClock = n.withoutClock →
        Alike (j.readMember k get (fun a m => .ok (set a m)) m)
          (j.readMember k get (fun a m => .ok (set a m)) n) :=
    fun {_ set} k get h => readMember_alike
      (fun a m s e d => Or.inl ⟨set a m, set a _, rfl, rfl, h a m s e d⟩) j k get
  simp only [fromStringSteps, sizeSteps, addressSteps, statusSteps, List.cons_append,
    List.nil_append, List.forall₂_cons, List.Forall₂.nil, and_true]
  refine ⟨?_, ?_, ?_, ?_, ?_, ?_, ?_, ?_, ?_, ?_, ?_, ?_, ?_, ?_⟩
  · exact readMember_alike (setFilePath_alike cwd) j _ _
  · exact hstore _ _ fun _ _ _ _ _ => rfl
  · exact hstore _ _ fun _ _ _ _ _ => rfl
  · exact hstore _ _ fun _ _ _ _ _ => rfl
  · exact hstore _ _ fun _ _ _ _ _ => rfl
  · exact readMember_alike setSrc_alike j _ _
  · exact readMember_alike setDest_alike j _ _
  · exact readMember_alike (readStatus_alike now now') j _ _
  · exact hstore _ _ fun _ _ _ _ _ => rfl
  · exact hstore _ _ fun _ _ _ _ _ => rfl
  · exact hstore _ _ fun _ _ _ _ _ => rfl
  · exact hstore _ _ fun _ _ _ _ _ => rfl
  · exact hstore _ _ fun _ _ _ _ _ => rfl
  · exact hstore _ _ fun _ _ _ _ _ => rfl

/-! ## A second reading -/

/-- A step throws from every record or from none. -/
def SameExn (f : TransferMetadata → Except Exn TransferMetadata) : Prop :=
  ∀ m n, (∃ m' n', f m = .ok m' ∧ f n = .ok n' ∧ True) ∨ ∃ e, f m = .error e ∧ f n = .error e

theorem sameExn_readMember {α : Type} {put : α → TransferMetadata → Except Exn TransferMetadata}
    (hput : ∀ a, SameExn (put a)) (j : Json) (k : String) (get : Json → Except Exn α) :
    SameExn (j.readMember k get put) :=
  fun m n => Json.readMember_rel (R := fun _ _ => True) (fun a m n _ => hput a m n) m n trivial

theorem sameExn_ok (set : TransferMetadata → TransferMetadata) : SameExn fun m => .ok (set m) :=
  fun _ _ => Or.inl ⟨_, _, rfl, rfl, trivial⟩

theorem sameExn_setFilePath (cwd path : String) : SameExn (setFilePath cwd path) := by
  intro m n
  rw [setFilePath, setFilePath]
  cases normalised cwd path with
  | error e => exact Or.inr ⟨e, rfl, rfl⟩
  | ok filePath => exact Or.inl ⟨_, _, rfl, rfl, trivial⟩

/-- Steps of this kind get through on every record or on none. -/
theorem runSteps_sameExn {l : List (TransferMetadata → Except Exn TransferMetadata)}
    (hl : ∀ f ∈ l, SameExn f) {m m' : TransferMetadata} (h : runSteps l m = (m', none))
    (n : TransferMetadata) : ∃ n', runSteps l n = (n', none) := by
  have hrel := runSteps_rel (R := fun _ _ => True)
    (List.forall₂_same.2 fun f hf m n _ => hl f hf m n) (trivial : True) (s := m) (t := n)
  refine ⟨_, Prod.ext rfl ?_⟩
  rw [← hrel.2, h]

theorem sameExn_sizeSteps {cwd : String} {j : Json} : ∀ f ∈ sizeSteps cwd j, SameExn f := by
  intro f hf
  simp only [sizeSteps, List.mem_cons, List.not_mem_nil, or_false] at hf
  rcases hf with rfl | rfl | rfl | rfl | rfl
  · exact sameExn_readMember (sameExn_setFilePath cwd) j _ _
  all_goals exact sameExn_readMember (fun _ => sameExn_ok _) j _ _

theorem sameExn_statusSteps {now : ℤ} {j : Json} : ∀ f ∈ statusSteps now j, SameExn f := by
  intro f hf
  simp only [statusSteps, List.mem_cons, List.not_mem_nil, or_false] at hf
  rcases hf with rfl | rfl | rfl | rfl | rfl | rfl | rfl
  all_goals exact sameExn_readMember (fun _ => sameExn_ok _) j _ _

/-- The steps before the addresses keep them. -/
theorem addresses_sizeSteps {cwd : String} {j : Json} {m m' : TransferMetadata}
    (h : runSteps (sizeSteps cwd j) m = (m', none)) : m'.src = m.src ∧ m'.dest = m.dest := by
  have hframe := runSteps_frame (g := fun m : TransferMetadata => (m.src, m.dest))
    (l := sizeSteps cwd j) ?_ m
  · rw [h] at hframe
    exact Prod.mk.inj hframe
  · intro f hf
    simp only [sizeSteps, List.mem_cons, List.not_mem_nil, or_false] at hf
    rcases hf with rfl | rfl | rfl | rfl | rfl
    · refine Json.readMember_frame fun path m m' h => ?_
      obtain ⟨_, -, rfl⟩ := setFilePath_eq_ok.1 h
      rfl
    all_goals exact Json.readMember_frame fun _ _ _ h => by cases h; rfl

/-- The steps after the addresses keep them. -/
theorem addresses_statusSteps {now : ℤ} {j : Json} {m m' : TransferMetadata}
    (h : runSteps (statusSteps now j) m = (m', none)) : m'.src = m.src ∧ m'.dest = m.dest := by
  have hframe := runSteps_frame (g := fun m : TransferMetadata => (m.src, m.dest))
    (l := statusSteps now j) ?_ m
  · rw [h] at hframe
    exact Prod.mk.inj hframe
  · intro f hf
    simp only [statusSteps, List.mem_cons, List.not_mem_nil, or_false] at hf
    rcases hf with rfl | rfl | rfl | rfl | rfl | rfl | rfl
    · refine Json.readMember_frame fun name m m' h => ?_
      cases h
      rw [readStatus]
      cases stringToStatus name with
      | none => rfl
      | some status =>
          simp only [setStatus, flag]
          split_ifs <;> rfl
    all_goals exact Json.readMember_frame fun _ _ _ h => by cases h; rfl

/-- **The addresses of a message are accepted again** by a record that has them. -/
theorem addressSteps_again {j : Json} {m m' n : TransferMetadata}
    (h : runSteps (addressSteps j) m = (m', none)) (hsrc : n.src = m'.src)
    (hdest : n.dest = m'.dest) : ∃ n', runSteps (addressSteps j) n = (n', none) := by
  simp only [addressSteps, runSteps_cons_eq_none, runSteps_nil, Prod.mk.injEq, and_true] at h ⊢
  obtain ⟨p, hp, q, hq, rfl⟩ := h
  rcases Json.readMember_cases (σ := TransferMetadata) j "source" getAddress with
    hs | ⟨e, hs⟩ | ⟨a, hs⟩ <;>
  rcases Json.readMember_cases (σ := TransferMetadata) j "destination" getAddress with
    hd | ⟨e, hd⟩ | ⟨b, hd⟩ <;>
  simp only [hs, hd] at hp hq ⊢
  · exact ⟨_, _, rfl, _, rfl, rfl⟩
  · cases hq
  · cases hp
    obtain ⟨hne, rfl⟩ := setDest_eq_ok.1 hq
    refine ⟨_, _, rfl, _, setDest_eq_ok.2 ⟨?_, rfl⟩, rfl⟩
    rw [hsrc]
    exact hne
  · cases hp
  · cases hp
  · cases hp
  · cases hq
    obtain ⟨hne, rfl⟩ := setSrc_eq_ok.1 hp
    refine ⟨_, _, setSrc_eq_ok.2 ⟨?_, rfl⟩, _, rfl, rfl⟩
    rw [hdest]
    exact hne
  · cases hq
  · obtain ⟨-, rfl⟩ := setSrc_eq_ok.1 hp
    obtain ⟨hne, rfl⟩ := setDest_eq_ok.1 hq
    refine ⟨_, _, setSrc_eq_ok.2 ⟨?_, rfl⟩, _, setDest_eq_ok.2 ⟨hne, rfl⟩, rfl⟩
    rw [hdest]
    exact hne.symm

/-- **A second reading gets through,** into any record with the addresses that the
first one ended with. -/
theorem fromStringSteps_again {cwd : String} {now : ℤ} {j : Json} {m m' n : TransferMetadata}
    (h : runSteps (fromStringSteps cwd now j) m = (m', none)) (hsrc : n.src = m'.src)
    (hdest : n.dest = m'.dest) : ∃ n', runSteps (fromStringSteps cwd now j) n = (n', none) := by
  simp only [fromStringSteps, runSteps_append_eq_none] at h ⊢
  obtain ⟨p, hp, q, hq, hm'⟩ := h
  obtain ⟨p', hp'⟩ := runSteps_sameExn sameExn_sizeSteps hp n
  obtain ⟨hqsrc, hqdest⟩ := addresses_statusSteps hm'
  obtain ⟨hpsrc, hpdest⟩ := addresses_sizeSteps hp'
  obtain ⟨q', hq'⟩ := addressSteps_again (n := p') hq (by rw [hpsrc, hsrc, hqsrc])
    (by rw [hpdest, hdest, hqdest])
  obtain ⟨n', hn'⟩ := runSteps_sameExn sameExn_statusSteps hm' q'
  exact ⟨n', p', hp', q', hq', hn'⟩

section Readings

variable {cwd : String} {parse : String → Option Json} {data : String}

/-- **Readings at two times** of one message into records alike leave records
alike, and throw alike. -/
theorem fromString_withoutClock (cwd : String) (parse : String → Option Json) (data : String)
    (now now' : ℤ) {m n : TransferMetadata}
    (h : m.withoutClock = n.withoutClock) :
    (m.fromString cwd parse now data).1.withoutClock =
        (n.fromString cwd parse now' data).1.withoutClock ∧
      (m.fromString cwd parse now data).2 = (n.fromString cwd parse now' data).2 := by
  rw [fromString, fromString]
  cases parse data with
  | none => exact ⟨h, rfl⟩
  | some j => exact runSteps_rel (fromStringSteps_alike cwd now now' j) h

/-- A message that can be read was read to its end. -/
theorem ofString_eq_ok {now : ℤ} {file : TransferMetadata} :
    ofString cwd parse now data = .ok file ↔
      blank.fromString cwd parse now data = (file, none) := by
  rw [ofString]
  rcases blank.fromString cwd parse now data with ⟨m, _ | e⟩ <;> simp

/-- A message that can be read at one time can be read at any other. -/
theorem ofString_withoutClock {now : ℤ} (now' : ℤ) {file : TransferMetadata}
    (h : ofString cwd parse now data = .ok file) :
    ∃ file', ofString cwd parse now' data = .ok file' ∧
      file'.withoutClock = file.withoutClock := by
  rw [ofString_eq_ok] at h
  obtain ⟨hrec, hexn⟩ := fromString_withoutClock cwd parse data now' now (m := blank) rfl
  rw [h] at hrec hexn
  exact ⟨_, ofString_eq_ok.2 (Prod.ext rfl hexn), hrec⟩

/-- **A record that a message names is updated by it:** nothing is thrown, whatever
the clock shows, and the message still names the record. -/
theorem fromString_again {now : ℤ} (now' : ℤ) {file m : TransferMetadata}
    (h : ofString cwd parse now data = .ok file) (hkey : m.key = file.key) :
    ∃ m', m.fromString cwd parse now' data = (m', none) ∧ m'.key = file.key := by
  obtain ⟨file', h', halike⟩ := ofString_withoutClock now' h
  have hfile : file'.key = file.key := by rw [← key_withoutClock, halike, key_withoutClock]
  rw [ofString_eq_ok, fromString] at h'
  rw [fromString]
  cases hj : parse data with
  | none => simp [hj] at h'
  | some j =>
      simp only [hj] at h' ⊢
      rw [← hfile] at hkey ⊢
      obtain ⟨m', hm'⟩ := fromStringSteps_again h' (congrArg (fun k => k.2.1) hkey)
        (congrArg (fun k => k.2.2.1) hkey)
      exact ⟨m', hm', key_runSteps h' hm' hkey⟩

end Readings

end TransferMetadata

end Transfer
end SNBModules
