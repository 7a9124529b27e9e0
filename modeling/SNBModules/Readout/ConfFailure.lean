import SNBModules.Readout.FileReplay

/-!
# Configurations that fail

Source: `FileReaderBase.cpp`, `do_conf`, and `FileSourceModel.hxx`, `conf`.

`do_conf` configures one emulator after the other, and sets the module's flag when it
is done with all.  When it throws on the way, the emulators that it has been to stay
configured, and the next `do_conf` takes them for configured twice.  `scrap` would
clear their flags.

Files may come and go: `opens k` is what the files have when it is the turn of the
`k`-th callback.
-/

namespace SNBModules
namespace Readout

namespace FileReaderBase

/-! ## `do_conf` while files change -/

variable (opens : ℕ → String → Option (List Frame))

/-- The loop of `do_conf`, from the `k`-th callback on. -/
def confEmusWhile (c : ReplayConf) :
    ℕ → List CallbackConf → List FileSourceModel → List FileSourceModel × Option ConfError
  | _, [], emus => (emus, none)
  | k, cb :: rest, emus =>
      match emus.find? (·.name = cb.uid) with
      | none => (emus, some (.genericConfigurationError ("Cannot find queue: " ++ cb.uid)))
      | some emu =>
          if emu.isConfigured then
            (emus, some (.genericConfigurationError ("Emulator configured twice: " ++ cb.uid)))
          else if cb.sourceId ∉ c.streams then (emus, some .nullLinkConf)
          else
            let (emu', err) := emu.conf (opens k) cb.sourceId c.dataFiles
            let emus' := emus.map fun e => if e.name = cb.uid then emu' else e
            match err with
            | none => confEmusWhile c (k + 1) rest emus'
            | some err => (emus', some err)

/-- `do_conf`, with what it throws. -/
def doConfWhile (b : FileReaderBase) (c : ReplayConf) : FileReaderBase × Option ConfError :=
  if b.configured then (b, none)
  else
    match confEmusWhile opens c 0 c.rawDataCallbacks b.sourceEmus with
    | (emus, some err) => ({ b with sourceEmus := emus }, some err)
    | (emus, none) =>
        if emus.all (·.isConfigured) then ({ b with sourceEmus := emus, configured := true }, none)
        else
          ({ b with sourceEmus := emus },
            some (.genericConfigurationError "Not all links were configured"))

/-- Files that do not change. -/
theorem confEmusWhile_const (files : String → Option (List Frame)) (c : ReplayConf) (k : ℕ)
    (cbs : List CallbackConf) (emus : List FileSourceModel) :
    confEmusWhile (fun _ => files) c k cbs emus = confEmus files c cbs emus := by
  induction cbs generalizing k emus with
  | nil => rfl
  | cons cb rest ih =>
      have hrest : confEmusWhile (fun _ => files) c (k + 1) rest = confEmus files c rest :=
        funext (ih (k + 1))
      rw [confEmusWhile, hrest]
      rfl

theorem doConfWhile_const (files : String → Option (List Frame)) (b : FileReaderBase)
    (c : ReplayConf) : b.doConfWhile (fun _ => files) c = b.doConf files c := by
  rw [doConfWhile, confEmusWhile_const]
  rfl

/-! ## The flags -/

/-- The emulators' flags, by name. -/
def flags (emus : List FileSourceModel) : List (String × Bool) :=
  emus.map fun e => (e.name, e.isConfigured)

/-- The flags once the emulators `uids` are configured. -/
def setFlags (uids : List String) (l : List (String × Bool)) : List (String × Bool) :=
  l.map fun p => (p.1, p.2 || decide (p.1 ∈ uids))

theorem flags_names (emus : List FileSourceModel) :
    (flags emus).map Prod.fst = emus.map (·.name) := by
  rw [flags, List.map_map]
  rfl

theorem setFlags_names (uids : List String) (l : List (String × Bool)) :
    (setFlags uids l).map Prod.fst = l.map Prod.fst := by
  rw [setFlags, List.map_map]
  rfl

theorem nodup_of_flags {emus emus' : List FileSourceModel} {uids : List String}
    (h : (emus.map (·.name)).Nodup) (hflags : flags emus' = setFlags uids (flags emus)) :
    (emus'.map (·.name)).Nodup := by
  rw [← flags_names, hflags, setFlags_names, flags_names]
  exact h

@[simp] theorem setFlags_nil (l : List (String × Bool)) : setFlags [] l = l := by
  simp [setFlags]

theorem setFlags_setFlags (us vs : List String) (l : List (String × Bool)) :
    setFlags us (setFlags vs l) = setFlags (vs ++ us) l := by
  simp [setFlags, Bool.or_assoc]

theorem mem_flags {emus : List FileSourceModel} {e : FileSourceModel} (he : e ∈ emus) :
    (e.name, e.isConfigured) ∈ flags emus :=
  List.mem_map.2 ⟨e, he, rfl⟩

/-- No flag is cleared. -/
theorem mem_setFlags_false {uids : List String} {l : List (String × Bool)} {name : String} :
    (name, false) ∈ setFlags uids l ↔ (name, false) ∈ l ∧ name ∉ uids := by
  constructor
  · intro h
    obtain ⟨⟨n, b⟩, hp, heq⟩ := List.mem_map.1 h
    simp only [Prod.mk.injEq, Bool.or_eq_false_iff, decide_eq_false_iff_not] at heq
    obtain ⟨rfl, rfl, hmem⟩ := heq
    exact ⟨hp, hmem⟩
  · rintro ⟨hp, hmem⟩
    exact List.mem_map.2 ⟨_, hp, by simp [hmem]⟩

/-- In a map a name has one flag. -/
theorem flag_unique {l : List (String × Bool)} (h : (l.map Prod.fst).Nodup) {name : String}
    {b b' : Bool} (hb : (name, b) ∈ l) (hb' : (name, b') ∈ l) : b = b' :=
  congrArg Prod.snd (List.inj_on_of_nodup_map h hb hb' rfl)

/-! ## What the loop does -/

/-- The first data file can be opened, if there is one. -/
def OpensFirst (files : String → Option (List Frame)) (dataFiles : List String) : Prop :=
  ∀ name ∈ dataFiles.head?, files name ≠ none

instance (files : String → Option (List Frame)) (dataFiles : List String) :
    Decidable (OpensFirst files dataFiles) :=
  inferInstanceAs (Decidable (∀ name ∈ dataFiles.head?, files name ≠ none))

/-- An emulator's `conf` sets its flag, or throws and leaves it. -/
theorem conf_cases (files : String → Option (List Frame)) {e : FileSourceModel}
    (h : e.isConfigured = false) (sourceId : ℕ) (dataFiles : List String) :
    (e.conf files sourceId dataFiles).1.name = e.name ∧
      (OpensFirst files dataFiles ∧ (e.conf files sourceId dataFiles).2 = none ∧
          (e.conf files sourceId dataFiles).1.isConfigured = true ∨
        ¬ OpensFirst files dataFiles ∧
          (e.conf files sourceId dataFiles).2 = some (.configurationError sourceId "") ∧
          (e.conf files sourceId dataFiles).1.isConfigured = false) := by
  rw [FileSourceModel.conf, if_neg (by simp [h])]
  cases dataFiles with
  | nil => exact ⟨rfl, .inl ⟨by simp [OpensFirst], rfl, rfl⟩⟩
  | cons name rest =>
      cases hopen : files name with
      | none =>
          simp [FileSourceModel.openNextFile, FileSourceModel.setParameters, hopen, h, OpensFirst]
      | some frames =>
          simp [FileSourceModel.openNextFile, FileSourceModel.setParameters, hopen, OpensFirst]

section Loop

variable (opens : ℕ → String → Option (List Frame)) (c : ReplayConf) (k : ℕ)
  {emus : List FileSourceModel}

/-- The turn of one callback: its emulator does not exist, is configured already, has no
stream or cannot open its file, or it gets configured and the loop goes on. -/
theorem confEmusWhile_cons (hnames : (emus.map (·.name)).Nodup) (cb : CallbackConf)
    (rest : List CallbackConf) :
    (cb.uid ∉ emus.map (·.name) ∧ ∃ message, confEmusWhile opens c k (cb :: rest) emus =
        (emus, some (.genericConfigurationError message))) ∨
      ((cb.uid, true) ∈ flags emus ∧ ∃ message, confEmusWhile opens c k (cb :: rest) emus =
        (emus, some (.genericConfigurationError message))) ∨
      (cb.sourceId ∉ c.streams ∧ confEmusWhile opens c k (cb :: rest) emus =
        (emus, some .nullLinkConf)) ∨
      (¬ OpensFirst (opens k) c.dataFiles ∧ ∃ emus', flags emus' = flags emus ∧
        confEmusWhile opens c k (cb :: rest) emus =
          (emus', some (.configurationError cb.sourceId ""))) ∨
      ((cb.uid, false) ∈ flags emus ∧ OpensFirst (opens k) c.dataFiles ∧ ∃ emus',
        flags emus' = setFlags [cb.uid] (flags emus) ∧
        confEmusWhile opens c k (cb :: rest) emus = confEmusWhile opens c (k + 1) rest emus') := by
  rw [confEmusWhile]
  cases hfind : emus.find? (·.name = cb.uid) with
  | none =>
      refine .inl ⟨fun hmem => ?_, _, rfl⟩
      obtain ⟨e, he, hname⟩ := List.mem_map.1 hmem
      exact List.find?_eq_none.1 hfind e he (by simpa using hname)
  | some emu =>
      have hemu : emu ∈ emus := List.mem_of_find?_eq_some hfind
      have hname : emu.name = cb.uid := by simpa using List.find?_some hfind
      have hflag := mem_flags hemu
      rw [hname] at hflag
      by_cases hconf : emu.isConfigured = true
      · rw [hconf] at hflag
        exact .inr (.inl ⟨hflag, _, by simp only [hconf, if_true]; rfl⟩)
      · have hfalse : emu.isConfigured = false := by simpa using hconf
        rw [hfalse] at hflag
        by_cases hsource : cb.sourceId ∈ c.streams
        · simp only [hfalse, hsource, not_true, if_false, Bool.false_eq_true]
          obtain ⟨hname', ⟨hopen, herr, hset⟩ | ⟨hopen, herr, hset⟩⟩ :=
            conf_cases (opens k) hfalse cb.sourceId c.dataFiles
          · refine .inr (.inr (.inr (.inr ⟨hflag, hopen, _, ?_, by rw [herr]⟩)))
            rw [flags, flags, setFlags, List.map_map, List.map_map]
            refine List.map_congr_left fun e _ => ?_
            by_cases he : e.name = cb.uid <;> simp [he, hname', hname, hset]
          · refine .inr (.inr (.inr (.inl ⟨hopen, _, ?_, by rw [herr]⟩)))
            rw [flags, flags, List.map_map]
            refine List.map_congr_left fun e he => ?_
            by_cases heq : e.name = cb.uid
            · have hsame : e = emu := List.inj_on_of_nodup_map hnames he hemu (heq.trans hname.symm)
              simp [hsame, hname', hname, hset, hfalse]
            · simp [heq]
        · exact .inr (.inr (.inl ⟨hsource, by simp only [hfalse, hsource]; rfl⟩))

/-- The loop configures the first callbacks' emulators, that were not configured, and when
it does not throw those of all callbacks. -/
theorem confEmusWhile_run (hnames : (emus.map (·.name)).Nodup) (cbs : List CallbackConf) :
    ∃ done, done <+: cbs ∧ (∀ cb ∈ done, (cb.uid, false) ∈ flags emus) ∧
      flags (confEmusWhile opens c k cbs emus).1 = setFlags (done.map (·.uid)) (flags emus) ∧
      ((confEmusWhile opens c k cbs emus).2 = none → done = cbs) := by
  induction cbs generalizing k emus with
  | nil => exact ⟨[], List.prefix_rfl, by simp, by simp [confEmusWhile], fun _ => rfl⟩
  | cons cb rest ih =>
      obtain ⟨-, _, heq⟩ | ⟨-, _, heq⟩ | ⟨-, heq⟩ | ⟨-, emus', hflags, heq⟩ |
          ⟨hfree, -, emus', hflags, heq⟩ :=
        confEmusWhile_cons opens c k hnames cb rest
      iterate 3
        · refine ⟨[], List.nil_prefix, by simp, ?_, fun hnone => ?_⟩
          · simp [heq]
          · simp [heq] at hnone
      · refine ⟨[], List.nil_prefix, by simp, ?_, fun hnone => ?_⟩
        · simp [heq, hflags]
        · simp [heq] at hnone
      · have hnames' := nodup_of_flags hnames hflags
        obtain ⟨done, hprefix, hdone, hset, hall⟩ := ih (k + 1) hnames'
        rw [heq]
        refine ⟨cb :: done, List.cons_prefix_cons.2 ⟨rfl, hprefix⟩, ?_, ?_, fun hnone => ?_⟩
        · intro cb' hcb'
          rcases List.mem_cons.1 hcb' with rfl | hcb'
          · exact hfree
          · have := hdone cb' hcb'
            rw [hflags] at this
            exact (mem_setFlags_false.1 this).1
        · rw [hset, hflags, setFlags_setFlags]
          rfl
        · rw [hall hnone]

/-- Callbacks for different emulators, none configured yet, that have a stream and whose
files can be opened: the loop does not throw. -/
theorem confEmusWhile_eq_none (hnames : (emus.map (·.name)).Nodup) {cbs : List CallbackConf}
    (huids : (cbs.map (·.uid)).Nodup) (hfree : ∀ cb ∈ cbs, (cb.uid, false) ∈ flags emus)
    (hsources : ∀ cb ∈ cbs, cb.sourceId ∈ c.streams)
    (hopens : ∀ k, OpensFirst (opens k) c.dataFiles) :
    (confEmusWhile opens c k cbs emus).2 = none := by
  induction cbs generalizing k emus with
  | nil => rfl
  | cons cb rest ih =>
      have hcb := hfree cb (List.mem_cons_self ..)
      obtain ⟨hmissing, -⟩ | ⟨htwice, -⟩ | ⟨hsource, -⟩ | ⟨hopen, -⟩ |
          ⟨-, -, emus', hflags, heq⟩ :=
        confEmusWhile_cons opens c k hnames cb rest
      · rw [← flags_names] at hmissing
        exact absurd (List.mem_map_of_mem (f := Prod.fst) hcb) hmissing
      · rw [← flags_names] at hnames
        exact absurd (flag_unique hnames htwice hcb) (by decide)
      · exact absurd (hsources cb (List.mem_cons_self ..)) hsource
      · exact absurd (hopens k) hopen
      · have hnames' := nodup_of_flags hnames hflags
        rw [List.map_cons, List.nodup_cons] at huids
        rw [heq]
        refine ih (k + 1) hnames' huids.2 (fun cb' hcb' => ?_)
          (fun cb' hcb' => hsources cb' (List.mem_cons_of_mem _ hcb'))
        rw [hflags]
        refine mem_setFlags_false.2 ⟨hfree cb' (List.mem_cons_of_mem _ hcb'), fun hmem => ?_⟩
        rw [List.mem_singleton] at hmem
        exact huids.1 (hmem ▸ List.mem_map_of_mem hcb')

end Loop

/-! ## A failed `do_conf` -/

/-- A configuration that names every emulator once, with streams for all of them and data
files that can be opened. -/
structure Corrected (opens : ℕ → String → Option (List Frame)) (c : ReplayConf)
    (emus : List FileSourceModel) : Prop where
  uids : (c.rawDataCallbacks.map (·.uid)).Perm (emus.map (·.name))
  sources : ∀ cb ∈ c.rawDataCallbacks, cb.sourceId ∈ c.streams
  opensFirst : ∀ k, OpensFirst (opens k) c.dataFiles

/-- With every corrected configuration `do_conf` configures all emulators. -/
def CanRetry (b : FileReaderBase) : Prop :=
  ∀ (opens : ℕ → String → Option (List Frame)) (c : ReplayConf), Corrected opens c b.sourceEmus →
    (b.doConfWhile opens c).2 = none ∧
      ∀ e ∈ (b.doConfWhile opens c).1.sourceEmus, e.isConfigured = true

variable {opens : ℕ → String → Option (List Frame)} {c : ReplayConf} {b b' : FileReaderBase}
  {err : ConfError}

/-- A `do_conf` that throws does what its loop does. -/
theorem doConfWhile_eq_some (h : b.doConfWhile opens c = (b', some err)) :
    b.configured = false ∧ b'.configured = false ∧
      b'.sourceEmus = (confEmusWhile opens c 0 c.rawDataCallbacks b.sourceEmus).1 ∧
      ((confEmusWhile opens c 0 c.rawDataCallbacks b.sourceEmus).2 = some err ∨
        (confEmusWhile opens c 0 c.rawDataCallbacks b.sourceEmus).2 = none ∧
          ∃ e ∈ b'.sourceEmus, e.isConfigured = false) := by
  unfold doConfWhile at h
  split at h
  · cases h
  · rename_i hconf
    have hfalse : b.configured = false := by simpa using hconf
    split at h
    · rename_i emus err' hloop
      cases h
      exact ⟨hfalse, hfalse, by rw [hloop], .inl (by rw [hloop])⟩
    · rename_i emus hloop
      split at h
      · cases h
      · rename_i hall
        cases h
        refine ⟨hfalse, hfalse, by rw [hloop], .inr ⟨by rw [hloop], ?_⟩⟩
        simpa using hall

/-- What is left to do for all emulators can be done when none is configured. -/
theorem canRetry_iff (hnames : (b.sourceEmus.map (·.name)).Nodup) (hconf : b.configured = false) :
    b.CanRetry ↔ ∀ e ∈ b.sourceEmus, e.isConfigured = false := by
  constructor
  · intro hretry e he
    -- every emulator gets source 0, and there is nothing to read
    let c : ReplayConf := ⟨[0], b.sourceEmus.map fun e => ⟨e.name, 0⟩, []⟩
    have huids : c.rawDataCallbacks.map (·.uid) = b.sourceEmus.map (·.name) := by
      simp [c, Function.comp_def]
    have hc : Corrected (fun _ _ => none) c b.sourceEmus :=
      { uids := by rw [huids]
        sources := by simp [c]
        opensFirst := fun _ => by simp [OpensFirst, c] }
    obtain ⟨hnone, -⟩ := hretry _ c hc
    obtain ⟨done, -, hfree, -, hall⟩ := confEmusWhile_run (fun _ _ => none) c 0 hnames
      c.rawDataCallbacks
    have hloop :
        (confEmusWhile (fun _ _ => none) c 0 c.rawDataCallbacks b.sourceEmus).2 = none := by
      cases hres : confEmusWhile (fun _ _ => none) c 0 c.rawDataCallbacks b.sourceEmus with
      | mk emus err =>
          cases err with
          | none => rfl
          | some err => simp [doConfWhile, hconf, hres] at hnone
    have hmem := hfree ⟨e.name, 0⟩ (hall hloop ▸ List.mem_map.2 ⟨e, he, rfl⟩)
    rw [← flags_names] at hnames
    exact flag_unique hnames (mem_flags he) hmem
  · intro hfree opens c hc
    have hcbs : ∀ cb ∈ c.rawDataCallbacks, (cb.uid, false) ∈ flags b.sourceEmus := by
      intro cb hcb
      obtain ⟨e, he, hname⟩ := List.mem_map.1 (hc.uids.mem_iff.1 (List.mem_map_of_mem hcb))
      rw [← hname, ← hfree e he]
      exact mem_flags he
    have hloop := confEmusWhile_eq_none opens c 0 hnames (hc.uids.nodup_iff.2 hnames) hcbs
      hc.sources hc.opensFirst
    obtain ⟨done, -, -, hset, hall⟩ := confEmusWhile_run opens c 0 hnames c.rawDataCallbacks
    rw [hall hloop] at hset
    have hconfigured : ∀ e ∈ (confEmusWhile opens c 0 c.rawDataCallbacks b.sourceEmus).1,
        e.isConfigured = true := by
      intro e he
      have hmem := mem_flags he
      have hname : e.name ∈ c.rawDataCallbacks.map (·.uid) := by
        rw [hc.uids.mem_iff, ← flags_names, ← setFlags_names, ← hset]
        exact List.mem_map_of_mem hmem
      cases hflag : e.isConfigured with
      | true => rfl
      | false =>
          rw [hset, hflag] at hmem
          exact absurd hname (mem_setFlags_false.1 hmem).2
    cases hres : confEmusWhile opens c 0 c.rawDataCallbacks b.sourceEmus with
    | mk emus err =>
        rw [hres] at hloop hconfigured
        cases hloop
        have hall : emus.all (·.isConfigured) = true := List.all_eq_true.2 hconfigured
        simp only [doConfWhile, hconf, hres, hall, if_true]
        exact ⟨rfl, hconfigured⟩

/-- The emulator of the first callback, if there is one, does not get configured: it does
not exist, or its first data file cannot be opened. -/
def FailsAtOnce (opens : ℕ → String → Option (List Frame)) (c : ReplayConf)
    (emus : List FileSourceModel) : Prop :=
  ∀ cb ∈ c.rawDataCallbacks.head?, cb.uid ∉ emus.map (·.name) ∨ ¬ OpensFirst (opens 0) c.dataFiles

instance (opens : ℕ → String → Option (List Frame)) (c : ReplayConf)
    (emus : List FileSourceModel) : Decidable (FailsAtOnce opens c emus) :=
  inferInstanceAs (Decidable (∀ cb ∈ c.rawDataCallbacks.head?,
    cb.uid ∉ emus.map (·.name) ∨ ¬ OpensFirst (opens 0) c.dataFiles))

/-- When none is configured, a loop that throws leaves the flags just when it fails at once. -/
theorem flags_confEmusWhile_iff (hnames : (b.sourceEmus.map (·.name)).Nodup)
    (hfree : ∀ e ∈ b.sourceEmus, e.isConfigured = false)
    (hlink : (confEmusWhile opens c 0 c.rawDataCallbacks b.sourceEmus).2 ≠ some .nullLinkConf) :
    flags (confEmusWhile opens c 0 c.rawDataCallbacks b.sourceEmus).1 = flags b.sourceEmus ↔
      FailsAtOnce opens c b.sourceEmus := by
  cases hcbs : c.rawDataCallbacks with
  | nil => simp [confEmusWhile, FailsAtOnce, hcbs]
  | cons cb rest =>
      rw [hcbs] at hlink
      have hhead : FailsAtOnce opens c b.sourceEmus ↔
          cb.uid ∉ b.sourceEmus.map (·.name) ∨ ¬ OpensFirst (opens 0) c.dataFiles := by
        simp [FailsAtOnce, hcbs]
      rw [hhead]
      obtain ⟨hmissing, _, heq⟩ | ⟨htwice, -⟩ | ⟨-, heq⟩ | ⟨hopen, emus', hflags, heq⟩ |
          ⟨hcb, hopen, emus', hflags, heq⟩ :=
        confEmusWhile_cons opens c 0 hnames cb rest
      · exact ⟨fun _ => .inl hmissing, fun _ => by rw [heq]⟩
      · obtain ⟨e, he, hflag⟩ := List.mem_map.1 htwice
        simp [hfree e he] at hflag
      · exact absurd (by rw [heq]) hlink
      · exact ⟨fun _ => .inr hopen, fun _ => by rw [heq, hflags]⟩
      · have hnames' := nodup_of_flags hnames hflags
        obtain ⟨done, -, -, hset, -⟩ := confEmusWhile_run opens c 1 hnames' rest
        constructor
        · intro hsame
          rw [heq, hset, hflags, setFlags_setFlags] at hsame
          rw [← hsame] at hcb
          exact absurd (List.mem_append_left _ (List.mem_singleton.2 rfl))
            (mem_setFlags_false.1 hcb).2
        · rintro (hmissing | hclosed)
          · rw [← flags_names] at hmissing
            exact absurd (List.mem_map_of_mem (f := Prod.fst) hcb) hmissing
          · exact absurd hopen hclosed

/-- A `do_conf` that throws leaves every flag as it was, with every corrected configuration
going through afterwards, just when no emulator was configured before and it failed at once. -/
theorem do_conf_atomic_iff (hnames : (b.sourceEmus.map (·.name)).Nodup)
    (hthrow : b.doConfWhile opens c = (b', some err)) (herr : err ≠ .nullLinkConf) :
    flags b'.sourceEmus = flags b.sourceEmus ∧ b'.CanRetry ↔
      (∀ e ∈ b.sourceEmus, e.isConfigured = false) ∧ FailsAtOnce opens c b.sourceEmus := by
  obtain ⟨-, hconf', hemus, hloop⟩ := doConfWhile_eq_some hthrow
  have hlink : (confEmusWhile opens c 0 c.rawDataCallbacks b.sourceEmus).2 ≠
      some .nullLinkConf := by
    rcases hloop with hloop | ⟨hloop, -⟩ <;> simp [hloop, herr]
  have hfree_iff (hsame : flags b'.sourceEmus = flags b.sourceEmus) :
      b'.CanRetry ↔ ∀ e ∈ b.sourceEmus, e.isConfigured = false := by
    have hnames' : (b'.sourceEmus.map (·.name)).Nodup :=
      nodup_of_flags hnames (hsame.trans (setFlags_nil _).symm)
    have hflags (emus : List FileSourceModel) :
        (∀ e ∈ emus, e.isConfigured = false) ↔ ∀ p ∈ flags emus, p.2 = false := by
      simp [flags]
    rw [canRetry_iff hnames' hconf', hflags, hflags, hsame]
  constructor
  · rintro ⟨hsame, hretry⟩
    have hfree := (hfree_iff hsame).1 hretry
    refine ⟨hfree, (flags_confEmusWhile_iff hnames hfree hlink).1 ?_⟩
    rw [← hemus]
    exact hsame
  · rintro ⟨hfree, hfails⟩
    have hsame : flags b'.sourceEmus = flags b.sourceEmus := by
      rw [hemus]
      exact (flags_confEmusWhile_iff hnames hfree hlink).2 hfails
    exact ⟨hsame, (hfree_iff hsame).2 hfree⟩

/-- The first of two callbacks has no emulator. -/
theorem do_conf_atomic_iff_missing :
    let b : FileReaderBase := ⟨false, [.new "tpc1"], false⟩
    flags b.sourceEmus = flags b.sourceEmus ∧ b.CanRetry ↔
      (∀ e ∈ b.sourceEmus, e.isConfigured = false) ∧ FailsAtOnce (fun _ _ => some []) ⟨[0],
        [⟨"tpc0", 0⟩, ⟨"tpc1", 0⟩], ["raw.bin"]⟩ b.sourceEmus :=
  have hthrow : doConfWhile (fun _ _ => some []) ⟨false, [.new "tpc1"], false⟩
      ⟨[0], [⟨"tpc0", 0⟩, ⟨"tpc1", 0⟩], ["raw.bin"]⟩ =
        (⟨false, [.new "tpc1"], false⟩,
          some (.genericConfigurationError "Cannot find queue: tpc0")) := by decide
  do_conf_atomic_iff (by decide) hthrow (by decide)

/-- The second of two callbacks has no emulator; the first one's stays configured, and is
then taken for configured twice. -/
theorem first_stays_configured :
    let b : FileReaderBase := ⟨false, [.new "tpc0", .new "tpc1"], false⟩
    let files : ℕ → String → Option (List Frame) := fun _ _ => some []
    let failed := b.doConfWhile files ⟨[0], [⟨"tpc0", 0⟩, ⟨"tpc2", 0⟩], ["raw.bin"]⟩
    let corrected : ReplayConf := ⟨[0], [⟨"tpc0", 0⟩, ⟨"tpc1", 0⟩], ["raw.bin"]⟩
    failed.2 = some (.genericConfigurationError "Cannot find queue: tpc2") ∧
      flags failed.1.sourceEmus ≠ flags b.sourceEmus ∧
      (failed.1.doConfWhile files corrected).2 =
        some (.genericConfigurationError "Emulator configured twice: tpc0") := by
  decide

end FileReaderBase

end Readout
end SNBModules
