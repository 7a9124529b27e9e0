import SNBModules.Lib.Accounting
import SNBModules.Transfer.BookkeeperUpdates
import SNBModules.Transfer.Discovery
import SNBModules.Transfer.ReplicaConvergence

/-!
# The records that a bookkeeper shows

Source: `transfer_metadata.cpp`, `export_to_string_partial` and `from_string`; `bookkeeper.cpp`,
the cases of `TRANSFER_METADATA` and `GROUP_METADATA`.

A session changes its records and now and then sends what is flagged.  Between the two, the
bookkeeper's record follows that of the session (`Follows`): it shows what the session has, but
for the fields that are flagged and for the times, which `set_status` writes without a flag.
Changes by setters keep that (`Follows.evolves`), and a message that is read makes up for the
flags (`follows_reading`).

With the messages of a session, then, a bookkeeper shows one record for each file of it, which
follows it (`Shown`).
-/

namespace SNBModules
namespace Transfer

open Lib

variable {σ : Type}

/-! ## Records -/

namespace TransferMetadata

/-- The fields that `set_status` writes without a flag. -/
def clockFields : Finset Field := {.startTime, .endTime, .duration}

/-- What identifies a record. -/
def identity (m : TransferMetadata) : String × IPFormat × IPFormat × String :=
  (m.filePath, m.src, m.dest, m.groupId)

/-- `r` shows what `m` is, but for the fields that are flagged and the times. -/
structure Follows (r m : TransferMetadata) : Prop where
  identity_eq : r.identity = m.identity
  value_eq : ∀ x ∉ clockFields, x ∉ m.modifiedFields → r.value x = m.value x

/-- From `m` to `m'`: whatever has changed, but for the times, is flagged. -/
structure Evolves (m m' : TransferMetadata) : Prop where
  identity_eq : m'.identity = m.identity
  flags : m.modifiedFields ⊆ m'.modifiedFields
  value_eq : ∀ x ∉ clockFields, x ∉ m'.modifiedFields → m'.value x = m.value x

theorem Evolves.refl (m : TransferMetadata) : Evolves m m := ⟨rfl, subset_rfl, fun _ _ _ => rfl⟩

theorem Evolves.trans {m m₁ m₂ : TransferMetadata} (h₁ : Evolves m m₁) (h₂ : Evolves m₁ m₂) :
    Evolves m m₂ where
  identity_eq := h₂.identity_eq.trans h₁.identity_eq
  flags := h₁.flags.trans h₂.flags
  value_eq x hx hflag := (h₂.value_eq x hx hflag).trans
    (h₁.value_eq x hx fun h => hflag (h₂.flags h))

theorem Evolves.key_eq {m m' : TransferMetadata} (h : Evolves m m') : m'.key = m.key :=
  congrArg (fun x : String × IPFormat × IPFormat × String => (pathElements x.1, x.2)) h.identity_eq

/-- What follows a record goes on following it. -/
theorem Follows.evolves {r m m' : TransferMetadata} (h : Follows r m) (hm : Evolves m m') :
    Follows r m' where
  identity_eq := h.identity_eq.trans hm.identity_eq.symm
  value_eq x hx hflag := (h.value_eq x hx fun hold => hflag (hm.flags hold)).trans
    (hm.value_eq x hx hflag).symm

theorem identity_setStatus (now : ℤ) (status : Status) (m : TransferMetadata) :
    (m.setStatus now status).identity = m.identity := by
  simp only [setStatus, flag]
  split_ifs <;> rfl

/-- **A setter flags what it changes,** but for the times. -/
theorem evolves_apply (now : ℤ) (c : Change) (m : TransferMetadata) :
    Evolves m (c.apply now m) where
  identity_eq := by
    cases c with
    | status x => exact identity_setStatus now x m
    | progress purcent =>
        rw [Change.apply, setProgress]
        split_ifs <;> rfl
    | _ => rfl
  flags := Change.modifiedFields_subset now m c
  value_eq x hx hflag := by
    by_contra hne
    have hchanged : x ∈ m.changedFields (c.apply now m) :=
      mem_changedFields.2 fun heq => hne heq.symm
    rcases Finset.mem_union.1 (Change.changedFields_subset now m c hchanged) with hmem | hmem
    · exact hflag hmem
    · -- what is silent is a time
      refine hx ?_
      cases c with
      | status y =>
          have hwrites := (Finset.mem_filter.1 hmem).2
          cases x <;> first | decide | cases hwrites
      | _ => cases hmem

/-! ### Messages -/

/-- A record whose messages can be read. -/
structure Sendable (m : TransferMetadata) : Prop where
  path : RecordedPath m.filePath
  src : m.src.WellFormed
  dest : m.dest.WellFormed
  src_ne : m.src ≠ .default
  dest_ne : m.dest ≠ m.src

theorem Sendable.congr {m m' : TransferMetadata} (h : m.Sendable)
    (heq : m'.identity = m.identity) : m'.Sendable := by
  have hpath : m'.filePath = m.filePath := congrArg Prod.fst heq
  have hsrc : m'.src = m.src := congrArg (fun x => x.2.1) heq
  have hdest : m'.dest = m.dest := congrArg (fun x => x.2.2.1) heq
  exact ⟨hpath ▸ h.path, hsrc ▸ h.src, hdest ▸ h.dest, hsrc ▸ h.src_ne,
    hsrc ▸ hdest ▸ h.dest_ne⟩

theorem identity_storeAll (now : ℤ) (m : TransferMetadata) (c : Finset Field) (l : List Field)
    (r : TransferMetadata) : (storeAll now m c l r).identity = r.identity := by
  have hstore : ∀ r x, (store now m r x).identity = r.identity := by
    intro r x
    cases x with
    | status => exact identity_setStatus now m.status r
    | _ => rfl
  induction l generalizing r with
  | nil => rfl
  | cons x l ih =>
      refine (ih _).trans ?_
      by_cases hx : x ∈ c
      · simp only [if_pos hx, hstore]
      · simp only [if_neg hx]

/-- The addresses of a message, read into a record that takes them. -/
theorem runSteps_addressSteps {m r : TransferMetadata} {c : Finset Field} {j : Json}
    (hj : m.Carries c j) (hm : m.Sendable) (hr : m.src ≠ r.dest) :
    runSteps (addressSteps j) r = ({ r with src := m.src, dest := m.dest }, none) := by
  rw [addressSteps, runSteps_cons_ok (t := { r with src := m.src }), runSteps_cons_ok]
  · rfl
  · rw [readMember_address hj.destination, IPFormat.new_getIpPort hm.dest]
    exact setDest_eq_ok.2 ⟨hm.dest_ne, rfl⟩
  · rw [readMember_address hj.source, IPFormat.new_getIpPort hm.src]
    exact setSrc_eq_ok.2 ⟨hr, rfl⟩

/-- **A message is read to its end,** and leaves the record that it identifies. -/
theorem identity_fromStringSteps {m r : TransferMetadata} {c : Finset Field} {j : Json}
    (hj : m.Carries c j) (hrep : m.Representable) (hm : m.Sendable) (hr : m.src ≠ r.dest)
    (cwd : String) (now : ℤ) :
    ∃ r', runSteps (fromStringSteps cwd now j) r = (r', none) ∧ r'.identity = m.identity := by
  have hsize := runSteps_sizeSteps hj hrep cwd now r
  simp only [normalised_of_recorded hm.path] at hsize
  have hdest : (storeAll now m c sizeFields { r with filePath := m.filePath }).dest = r.dest :=
    dest_storeAll now m c sizeFields _
  have hpath : (storeAll now m c sizeFields { r with filePath := m.filePath }).filePath =
      m.filePath := congrArg Prod.fst (identity_storeAll now m c sizeFields _)
  generalize storeAll now m c sizeFields { r with filePath := m.filePath } = r₁ at *
  have haddress := runSteps_addressSteps hj hm (hdest.symm ▸ hr)
  have hrun := runSteps_append_ok hsize (addressSteps j ++ statusSteps now j)
  rw [runSteps_append_ok haddress, runSteps_statusSteps hj hrep] at hrun
  refine ⟨_, hrun, ?_⟩
  have hlate := identity_storeAll now m c [.status, .magnetLink]
    { r₁ with src := m.src, dest := m.dest }
  rw [identity_storeAll]
  refine Prod.ext ?_ (Prod.ext ?_ (Prod.ext ?_ rfl))
  · exact (congrArg Prod.fst hlate).trans hpath
  · exact congrArg (fun x => x.2.1) hlate
  · exact congrArg (fun x => x.2.2.1) hlate

section Messages

variable {dump : Json → String} {parse : String → Option Json}

/-- **A message makes up for the flags:** what had all the rest of the record follows it without
its flags afterwards. -/
theorem follows_reading {m r : TransferMetadata}
    (hparse : parse (dump (m.exportJson false)) = some (m.exportJson false))
    (hrep : m.Representable) (hm : m.Sendable) (hr : m.src ≠ r.dest)
    (hrest : ∀ x ∉ clockFields, x ∉ m.modifiedFields → r.value x = m.value x) (cwd : String) :
    (Bookkeeper.reading cwd parse (dump (m.exportJson false)) r).Follows m.withoutFlags := by
  have hj := m.exportJson_carries false
  obtain ⟨r', hrun, hid⟩ := identity_fromStringSteps hj hrep hm hr cwd 0
  obtain ⟨hvalue, harriving⟩ := fromStringSteps_spec hj hrep cwd 0 r
  have harrives := harriving (congrArg Prod.snd hrun)
  simp only [harrives, hrun] at hvalue
  have hreading : Bookkeeper.reading cwd parse (dump (m.exportJson false)) r = r'.withoutClock := by
    simp only [Bookkeeper.reading, fromString, hparse, hrun]
  rw [hreading]
  refine ⟨hid, fun x hx _ => ?_⟩
  have hsame : r'.withoutClock.value x = r'.value x := by
    cases x <;> first | rfl | exact absurd (by decide) hx
  have hkept : kept 0 m r (m.carried false) x = r.value x := by
    rw [kept]
    split_ifs
    · cases x <;> first | rfl | exact absurd (by decide) hx
    · rfl
  refine (hsame.trans (hvalue x)).trans ?_
  rw [hkept]
  by_cases hflag : x ∈ m.modifiedFields
  · exact if_pos hflag
  · exact (if_neg hflag).trans (hrest x hx hflag)

end Messages

end TransferMetadata

/-! ## Messages of a session -/

namespace GroupMetadata

/-- The group with the places of its records for pointers. -/
def places (g : GroupMetadata TransferMetadata) : GroupMetadata ℕ :=
  ⟨g.groupId, g.protocol, g.protocolOptions, List.range g.transfersMeta.length, g.expectedFiles,
    g.sourceId, g.sourceIp⟩

/-- A reader with pointers of its own reads the text of a group. -/
theorem ofString_places {dump : Json → String} {parse : String → Option Json}
    (hparse : ∀ j, parse (dump j) = some j) (g : GroupMetadata TransferMetadata)
    {protocol : ProtocolType} (hprotocol : g.protocol = some protocol)
    (hip : g.sourceIp.WellFormed) (hpaths : ∀ m ∈ g.transfersMeta, RecordedPath m.filePath)
    (cwd : String) :
    ∃ path, ofString cwd parse (g.exportToString dump TransferMetadata.filePath) =
      .ok (g.places.arriving path) := by
  let path := fun i => (g.transfersMeta.getD i .blank).filePath
  have hpath : ∀ {i}, (hi : i < g.transfersMeta.length) → path i = g.transfersMeta[i].filePath := by
    intro i hi
    simp only [path, List.getD_eq_getElem?_getD, List.getElem?_eq_getElem hi, Option.getD_some]
  have hfiles : (List.range g.transfersMeta.length).map (fun i => Json.string (path i)) =
      g.transfersMeta.map fun m => Json.string m.filePath := by
    refine List.ext_getElem (by simp) fun i _ hi => ?_
    have hlt : i < g.transfersMeta.length := by rwa [List.length_map] at hi
    rw [List.getElem_map, List.getElem_map, List.getElem_range, hpath hlt]
  have htext : g.exportToString dump TransferMetadata.filePath =
      g.places.exportToString dump path := by
    simp only [exportToString, exportJson, places, hfiles]
  refine ⟨path, ?_⟩
  rw [htext]
  refine ofString_exportJson (g := g.places) hparse hprotocol hip (fun i hi => ?_) cwd
  have hlt : i < g.transfersMeta.length := List.mem_range.1 hi
  rw [hpath hlt]
  exact hpaths _ (List.getElem_mem hlt)

end GroupMetadata

namespace TransferSession

/-- The message with the flagged fields of a record. -/
def recordMessage (s : TransferSession) (dump : Json → String) (bk : String)
    (m : TransferMetadata) : NotificationData :=
  ⟨s.sessionId, bk, notificationToString .transferMetadata, dump (m.exportJson false)⟩

/-- The message about the group. -/
def groupMessage (s : TransferSession) (dump : Json → String) (bk : String) : NotificationData :=
  ⟨s.sessionId, bk, notificationToString .groupMetadata,
    s.transferOptions.exportToString dump TransferMetadata.filePath⟩

end TransferSession

namespace Bookkeeper

/-- A bookkeeper that can read what is sent to it over `bk`: its JSON library reads back what is
printed, and the name of the connection has its id. -/
structure Reads (dump : Json → String) (parse : String → Option Json) (bk bookkeeperId : String) :
    Prop where
  parse_dump : ∀ j, parse (dump j) = some j
  parse_end : parse "end" = none
  name : containsText bk bookkeeperId = true

variable {cwd : String} {dump : Json → String} {parse : String → Option Json}
  {client bookkeeperId bk : String} {msgs : List NotificationData}
  {files : List TransferMetadata} {s : TransferSession}

theorem clientReports_append (msgs msgs' : List NotificationData) :
    clientReports cwd parse client (msgs ++ msgs') =
      clientReports cwd parse client msgs ++ clientReports cwd parse client msgs' := by
  rw [clientReports, List.map_append, List.filterMap_append]
  rfl

theorem clientPairs_append (msgs msgs' : List NotificationData) :
    clientPairs cwd parse client (msgs ++ msgs') =
      (clientReports cwd parse client msgs').foldl (Registry.tell .blank)
        (clientPairs cwd parse client msgs) := by
  rw [clientPairs, clientReports_append, List.foldl_append]
  rfl

/-- **The message of a record is a report on its key.** -/
theorem reports_recordMessage (hbk : Reads dump parse bk bookkeeperId) (s : TransferSession)
    {m : TransferMetadata} (hrep : m.Representable) (hm : m.Sendable) :
    clientReports cwd parse s.sessionId [s.recordMessage dump bk m] =
        [((s.sessionId, m.key), reading cwd parse (dump (m.exportJson false)))] ∧
      WellFormed cwd parse bookkeeperId (s.recordMessage dump bk m) := by
  have hdata : dump (m.exportJson false) ≠ "end" := fun heq => by
    have hread := hbk.parse_dump (m.exportJson false)
    rw [heq, hbk.parse_end] at hread
    cases hread
  obtain ⟨r, hrun, hid⟩ := TransferMetadata.identity_fromStringSteps
    (m.exportJson_carries false) hrep hm (r := TransferMetadata.blank) hm.src_ne cwd 0
  have hread : TransferMetadata.ofString cwd parse 0 (dump (m.exportJson false)) = .ok r := by
    simp only [TransferMetadata.ofString, TransferMetadata.fromString, hbk.parse_dump, hrun]
  have hkey : r.key = m.key := congrArg
    (fun x : String × IPFormat × IPFormat × String => (pathElements x.1, x.2)) hid
  have hnamed : recordNamed cwd parse (s.recordMessage dump bk m) = some (s.sessionId, m.key) := by
    rw [recordNamed, if_pos ⟨rfl, hdata⟩, ← hkey]
    simp only [TransferSession.recordMessage, hread]
  refine ⟨?_, ?_, Or.inr ⟨rfl, Or.inr (by rw [hnamed]; rfl)⟩⟩
  · have hevent : event cwd parse (s.recordMessage dump bk m) =
        .report (s.sessionId, m.key) (reading cwd parse (dump (m.exportJson false))) := by
      rw [event, hnamed]
      rfl
    rw [clientReports, List.map_singleton, hevent, List.filterMap_cons_some
      (by rw [Event.reportOf, if_pos (decide_eq_true rfl)])]
    rfl
  · simp [accepts, TransferSession.recordMessage, hbk.name]

/-- A message about a group reports on no record. -/
theorem reports_groupMessage (hbk : Reads dump parse bk bookkeeperId) {protocol : ProtocolType}
    (hprotocol : s.transferOptions.protocol = some protocol)
    (hip : s.transferOptions.sourceIp.WellFormed) (hfiles : ∀ m ∈ s.files, m.Sendable)
    (cwd client : String) :
    clientReports cwd parse client [s.groupMessage dump bk] = [] ∧
      WellFormed cwd parse bookkeeperId (s.groupMessage dump bk) := by
  have hkind : (s.groupMessage dump bk).notification ≠ notificationToString .transferMetadata :=
    show notificationToString .groupMetadata ≠ notificationToString .transferMetadata by decide
  have hnamed : recordNamed cwd parse (s.groupMessage dump bk) = none := by
    rw [recordNamed, if_neg fun h => hkind h.1]
  obtain ⟨path, hread⟩ := s.transferOptions.ofString_places hbk.parse_dump hprotocol hip
    (fun m hm => (hfiles m hm).path) cwd
  have hgroup : groupNamed cwd parse (s.groupMessage dump bk) = some s.transferOptions.groupId := by
    simp only [groupNamed, TransferSession.groupMessage, if_true, hread]
    rfl
  refine ⟨?_, ?_, Or.inl ⟨rfl, by rw [hgroup]; rfl⟩⟩
  · have hevent : event cwd parse (s.groupMessage dump bk) =
        .announce s.transferOptions.groupId := by
      rw [event, hnamed, hgroup]
    rw [clientReports, List.map_singleton, hevent]
    rfl
  · simp [accepts, TransferSession.groupMessage, hbk.name]

/-! ### What is shown -/

/-- A bookkeeper with these messages of the client shows these records: one for each, which
follows it. -/
def Shown (cwd : String) (parse : String → Option Json) (client : String)
    (msgs : List NotificationData) (files : List TransferMetadata) : Prop :=
  List.Forall₂ (fun x m => x.1 = (client, m.key) ∧ x.2.Follows m)
    (clientPairs cwd parse client msgs) files

theorem Shown.keys (h : Shown cwd parse client msgs files) :
    (clientPairs cwd parse client msgs).map Prod.fst = files.map fun m => (client, m.key) := by
  rw [Shown] at h
  generalize clientPairs cwd parse client msgs = l at h ⊢
  induction h with
  | nil => rfl
  | cons hx _ ih => rw [List.map_cons, List.map_cons, hx.1, ih]

theorem Shown.nodup (h : Shown cwd parse client msgs files)
    (hnodup : (files.map TransferMetadata.key).Nodup) :
    ((clientPairs cwd parse client msgs).map Prod.fst).Nodup := by
  have hpair : (files.map TransferMetadata.key).map (Prod.mk client) =
      files.map fun m => (client, m.key) := by
    rw [List.map_map]
    rfl
  rw [h.keys, ← hpair]
  exact hnodup.map fun _ _ heq => (Prod.mk.inj heq).2

/-- The records change. -/
theorem Shown.evolves {files' : List TransferMetadata} (h : Shown cwd parse client msgs files)
    (hfiles : List.Forall₂ TransferMetadata.Evolves files files') :
    Shown cwd parse client msgs files' := by
  rw [Shown] at *
  generalize clientPairs cwd parse client msgs = l at h ⊢
  induction h generalizing files' with
  | nil =>
      cases hfiles
      exact .nil
  | @cons x m l l' hx _ ih =>
      cases hfiles with
      | cons hm hfiles =>
          refine .cons ⟨hx.1.trans ?_, hx.2.evolves hm⟩ (ih hfiles)
          exact congrArg (Prod.mk client) hm.key_eq.symm

/-- A message about something else. -/
theorem Shown.skip (h : Shown cwd parse client msgs files) {n : NotificationData}
    (hn : clientReports cwd parse client [n] = []) :
    Shown cwd parse client (msgs ++ [n]) files := by
  rw [Shown, clientPairs_append, hn]
  exact h

/-- **A record that is known is reported.** -/
theorem Shown.report (hbk : Reads dump parse bk bookkeeperId)
    (h : Shown cwd parse s.sessionId msgs files)
    (hnodup : (files.map TransferMetadata.key).Nodup) {i : ℕ} {m : TransferMetadata}
    (hi : files[i]? = some m) (hrep : m.Representable) (hm : m.Sendable) :
    Shown cwd parse s.sessionId (msgs ++ [s.recordMessage dump bk m])
      (files.set i m.withoutFlags) := by
  obtain ⟨x, hx⟩ : ∃ x, (clientPairs cwd parse s.sessionId msgs)[i]? = some x := by
    obtain ⟨hlt, -⟩ := List.getElem?_eq_some_iff.1 hi
    have hlt' : i < (clientPairs cwd parse s.sessionId msgs).length :=
      (List.Forall₂.length_eq h).symm ▸ hlt
    exact ⟨_, List.getElem?_eq_getElem hlt'⟩
  obtain ⟨hkey, hfollows⟩ := forall₂_getElem? h hx hi
  have hdest : m.src ≠ x.2.dest := by
    have heq : x.2.dest = m.dest := congrArg (fun y => y.2.2.1) hfollows.identity_eq
    rw [heq]
    exact hm.dest_ne.symm
  rw [Shown, clientPairs_append, (reports_recordMessage hbk s hrep hm).1, List.foldl_cons,
    List.foldl_nil, ← hkey, Registry.tell_of_getElem? (h.nodup hnodup) hx]
  refine forall₂_set h i ⟨hkey, ?_⟩
  exact TransferMetadata.follows_reading (hbk.parse_dump _) hrep hm hdest hfollows.value_eq cwd

/-- **A new record is reported,** with all its fields. -/
theorem Shown.enter (hbk : Reads dump parse bk bookkeeperId)
    (h : Shown cwd parse s.sessionId msgs files) {m : TransferMetadata}
    (hnew : m.key ∉ files.map TransferMetadata.key) (hflags : m.modifiedFields = Finset.univ)
    (hrep : m.Representable) (hm : m.Sendable) :
    Shown cwd parse s.sessionId (msgs ++ [s.recordMessage dump bk m])
      (files ++ [m.withoutFlags]) := by
  have hfresh : (s.sessionId, m.key) ∉ (clientPairs cwd parse s.sessionId msgs).map Prod.fst := by
    rw [h.keys]
    intro hmem
    obtain ⟨m', hm', heq⟩ := List.mem_map.1 hmem
    exact hnew (List.mem_map.2 ⟨m', hm', (Prod.mk.inj heq).2⟩)
  rw [Shown, clientPairs_append, (reports_recordMessage hbk s hrep hm).1, List.foldl_cons,
    List.foldl_nil, Registry.tell, if_neg hfresh]
  refine List.rel_append h (.cons ⟨rfl, ?_⟩ .nil)
  exact TransferMetadata.follows_reading (hbk.parse_dump _) hrep hm hm.src_ne
    (fun x _ hx => absurd (hflags ▸ Finset.mem_univ x) hx) cwd

/-- All of the known records are reported. -/
theorem Shown.reportAll (hbk : Reads dump parse bk bookkeeperId) {done rest : List TransferMetadata}
    (h : Shown cwd parse s.sessionId msgs (done ++ rest))
    (hnodup : ((done ++ rest).map TransferMetadata.key).Nodup)
    (hrest : ∀ m ∈ rest, m.Representable ∧ m.Sendable) :
    Shown cwd parse s.sessionId (msgs ++ rest.map (s.recordMessage dump bk))
      (done ++ rest.map TransferMetadata.withoutFlags) := by
  induction rest generalizing done msgs with
  | nil => simpa using h
  | cons m rest ih =>
      obtain ⟨⟨hrep, hm⟩, hrest⟩ := List.forall_mem_cons.1 hrest
      have hi : (done ++ m :: rest)[done.length]? = some m := by simp
      have hone := h.report hbk hnodup hi hrep hm
      have hset : (done ++ m :: rest).set done.length m.withoutFlags =
          (done ++ [m.withoutFlags]) ++ rest := by simp
      rw [hset] at hone
      have hkeys : ((done ++ [m.withoutFlags]) ++ rest).map TransferMetadata.key =
          (done ++ m :: rest).map TransferMetadata.key := by
        simp only [List.map_append, List.map_cons, List.map_nil, List.append_assoc]
        rfl
      have hall := ih hone (hkeys ▸ hnodup) hrest
      rwa [List.append_assoc, List.append_assoc] at hall

/-- All of the new records are reported. -/
theorem Shown.enterAll (hbk : Reads dump parse bk bookkeeperId) {done rest : List TransferMetadata}
    (h : Shown cwd parse s.sessionId msgs done)
    (hnodup : ((done ++ rest).map TransferMetadata.key).Nodup)
    (hrest : ∀ m ∈ rest, m.modifiedFields = Finset.univ ∧ m.Representable ∧ m.Sendable) :
    Shown cwd parse s.sessionId (msgs ++ rest.map (s.recordMessage dump bk))
      (done ++ rest.map TransferMetadata.withoutFlags) := by
  induction rest generalizing done msgs with
  | nil => simpa using h
  | cons m rest ih =>
      obtain ⟨⟨hflags, hrep, hm⟩, hrest⟩ := List.forall_mem_cons.1 hrest
      have hkeys : ((done ++ [m.withoutFlags]) ++ rest).map TransferMetadata.key =
          (done ++ m :: rest).map TransferMetadata.key := by
        simp only [List.map_append, List.map_cons, List.map_nil, List.append_assoc]
        rfl
      have hnew : m.key ∉ done.map TransferMetadata.key := by
        rw [List.map_append, List.map_cons] at hnodup
        intro hmem
        exact (List.nodup_append.1 hnodup).2.2 _ hmem _ List.mem_cons_self rfl
      have hall := ih (h.enter hbk hnew hflags hrep hm) (hkeys ▸ hnodup) hrest
      rwa [List.append_assoc, List.append_assoc] at hall

end Bookkeeper

end Transfer
end SNBModules
