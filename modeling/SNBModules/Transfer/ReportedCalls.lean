import SNBModules.Transfer.SessionReports

/-!
# What the calls of a session report

Source: `transfer_session.cpp`, the operations that the cases of
`action_on_receive_notification` in `transfer_client.cpp` call.

A session is commanded, asked for updates and given records, and its interface works on the
records in a thread of its own.  Each call tells the bookkeeper what it has changed, in messages
that can be read: if the bookkeeper showed the records before, it shows them after
(`reported_act`), and so after a run (`reported_exec`).
-/

namespace SNBModules
namespace Transfer

open Lib TransferSession

variable {σ : Type}

/-! ## Actions -/

/-- What a client makes a session do, and what the interface changes meanwhile. -/
inductive SessionAction where
  | command (c : Command) (data : String)
  | update (data : String)
  | receive (m : TransferMetadata)
  | change (i : ℕ) (c : Change)

namespace SessionAction

/-- The action ends with a report of all. -/
def reportsAll : SessionAction → Bool
  | command _ data => data = ""
  | update data => data = ""
  | receive _ | change .. => false

/-- A record that is received has been read out of an export of all its fields. -/
def Fresh : SessionAction → Prop
  | receive m => m.modifiedFields = Finset.univ ∧ RecordedPath m.filePath ∧ m.src.WellFormed ∧
      m.src ≠ .default
  | _ => True

end SessionAction

namespace OpenSession

/-- The call of an action. -/
def act (p : Platform σ) (a : SessionAction) (x : OpenSession σ) (w : World) :
    Except Fault (OpenSession σ × World) :=
  match a with
  | .command c data => x.command p c data w
  | .update data => x.update p data w
  | .receive m => receiveFile p m x w
  | .change i c =>
      match x.session.files[i]? with
      | some m =>
          .ok (⟨x.session.withFiles (x.session.files.set i (c.apply (w.now p.env) m)),
            x.interface⟩, w.tick)
      | none => .error .undefined

/-- One action.  It is possible when it comes back, and the numbers of the records are of the
types that they have in the source. -/
def step (p : Platform σ) (q : OpenSession σ × World) (a : SessionAction) :
    Option (OpenSession σ × World) :=
  match q.1.act p a q.2 with
  | .ok r => if ∀ m ∈ r.1.session.files, m.Representable then some r else none
  | .error _ => none

theorem step_eq_some {p : Platform σ} {q r : OpenSession σ × World} {a : SessionAction} :
    step p q a = some r ↔
      q.1.act p a q.2 = .ok r ∧ ∀ m ∈ r.1.session.files, m.Representable := by
  rw [step]
  cases q.1.act p a q.2 with
  | error f => simp
  | ok r' =>
      dsimp only
      split_ifs with hrep
      · constructor
        · intro h
          obtain rfl := Option.some.inj h
          exact ⟨rfl, hrep⟩
        · intro h
          exact congrArg some (Except.ok.inj h.1)
      · refine iff_of_false (by simp) fun h => ?_
        obtain rfl := Except.ok.inj h.1
        exact hrep h.2

end OpenSession

/-! ## Sessions that can be followed -/

/-- A session that is watched, and whose messages can be read. -/
structure TransferSession.Followed (s : TransferSession) (bk : String) : Prop
    extends s.Watched bk where
  protocol : s.transferOptions.protocol ≠ none
  sourceIp : s.transferOptions.sourceIp.WellFormed
  ip : s.ip.WellFormed
  files : ∀ m ∈ s.files, m.Sendable

/-- Its records have changed. -/
theorem TransferSession.Followed.withFiles {s : TransferSession} {bk : String}
    (h : s.Followed bk) {files : List TransferMetadata} (hfiles : ∀ m ∈ files, m.Sendable) :
    (s.withFiles files).Followed bk :=
  ⟨⟨h.bookkeepers, h.targets⟩, h.protocol, h.sourceIp, h.ip, hfiles⟩

/-- The keys of the files of a session. -/
def TransferSession.keys (s : TransferSession) :
    List ((Bool × List (List Char)) × IPFormat × IPFormat × String) :=
  s.files.map TransferMetadata.key

namespace TransferMetadata

theorem keys_of_evolves {l l' : List TransferMetadata} (h : List.Forall₂ Evolves l l') :
    l'.map key = l.map key := by
  induction h with
  | nil => rfl
  | cons hm _ ih => rw [List.map_cons, List.map_cons, hm.key_eq, ih]

theorem sendable_of_evolves {l l' : List TransferMetadata} (h : List.Forall₂ Evolves l l')
    (hl : ∀ m ∈ l, m.Sendable) : ∀ m ∈ l', m.Sendable := by
  intro m' hm'
  obtain ⟨m, hm, hevolves⟩ := forall₂_exists_left h hm'
  exact (hl m hm).congr hevolves.identity_eq

/-- One record changes. -/
theorem evolves_set {l : List TransferMetadata} {i : ℕ} {m m' : TransferMetadata}
    (hi : l[i]? = some m) (hm : Evolves m m') : List.Forall₂ Evolves l (l.set i m') := by
  refine forall₂_set_right (List.forall₂_same.2 fun m _ => .refl m) fun a ha => ?_
  obtain rfl := Option.some.inj (hi.symm.trans ha)
  exact hm

end TransferMetadata

/-! ## What a call conveys -/

section Conveys

variable (cwd : String) (parse : String → Option Json) (bookkeeperId bk : String)

/-- What a call does that leaves the session and the world so: its messages can be read, and a
bookkeeper that has shown the records shows them again after it. -/
structure Conveys (x t : OpenSession σ) (w w' : World) : Prop where
  followed : t.session.Followed bk
  keys : x.session.keys <+: t.session.keys
  told : ∃ msgs, x.session.connections.Brings (x.session.connections.realConnId bk) w msgs w' ∧
    (∀ n ∈ msgs, Bookkeeper.WellFormed cwd parse bookkeeperId n) ∧
    (t.session.keys.Nodup → ∀ before,
      Bookkeeper.Shown cwd parse x.session.sessionId before x.session.files →
      Bookkeeper.Shown cwd parse x.session.sessionId (before ++ msgs) t.session.files)

/-- A call of a session that may be followed. -/
structure Reported (x t : OpenSession σ) (w w' : World) : Prop where
  like : x.Like t
  sends : w.sends <+: w'.sends
  conveys : x.session.Followed bk → Through (x.session.connections.realConnId bk) w w' →
    Conveys cwd parse bookkeeperId bk x t w w'

end Conveys

section Calls

variable {cwd : String} {parse : String → Option Json} {bookkeeperId bk : String}
  {x t u : OpenSession σ} {w w₁ w' : World}

theorem OpenSession.Like.watched (h : x.Like t) (hx : x.session.Watched bk) :
    t.session.Watched bk := by
  obtain ⟨g, hg, -⟩ := h
  rw [hg]
  exact ⟨hx.bookkeepers, hx.targets⟩

theorem OpenSession.Like.connections_eq (h : x.Like t) :
    t.session.connections = x.session.connections ∧ t.session.sessionId = x.session.sessionId := by
  obtain ⟨g, hg, -⟩ := h
  rw [hg]
  exact ⟨rfl, rfl⟩

/-- The records have changed, and nothing is sent. -/
theorem Reported.of_evolves {files : List TransferMetadata}
    (hfiles : List.Forall₂ TransferMetadata.Evolves x.session.files files)
    (ht : t.session = x.session.withFiles files) (hsends : w'.sends = w.sends) :
    Reported cwd parse bookkeeperId bk x t w w' where
  like := ⟨_, ht, rfl⟩
  sends := hsends ▸ List.prefix_rfl
  conveys hx _ := by
    have hkeys : t.session.keys = x.session.keys := by
      rw [ht]
      exact TransferMetadata.keys_of_evolves hfiles
    refine ⟨?_, hkeys ▸ List.prefix_rfl, [], ?_, fun n hn => absurd hn List.not_mem_nil, ?_⟩
    · rw [ht]
      exact hx.withFiles (TransferMetadata.sendable_of_evolves hfiles hx.files)
    · exact (NotificationInterface.Brings.refl _ _ w).congr rfl hsends
    · intro _ before hshown
      rw [List.append_nil, ht]
      exact hshown.evolves hfiles

theorem Reported.refl (ht : t.session = x.session) (w : World) :
    Reported cwd parse bookkeeperId bk x t w w :=
  .of_evolves (List.forall₂_same.2 fun m _ => .refl m) ht rfl

theorem Reported.trans (h₁ : Reported cwd parse bookkeeperId bk x t w w₁)
    (h₂ : Reported cwd parse bookkeeperId bk t u w₁ w') :
    Reported cwd parse bookkeeperId bk x u w w' where
  like := h₁.like.trans h₂.like
  sends := h₁.sends.trans h₂.sends
  conveys hx hthrough := by
    obtain ⟨hconnections, hid⟩ := h₁.like.connections_eq
    obtain ⟨hfirst, hlater⟩ := hthrough.split h₁.sends h₂.sends
    obtain ⟨ht, hkeys₁, msgs₁, hbrings₁, hread₁, hshown₁⟩ := h₁.conveys hx hfirst
    have h₂' := h₂.conveys ht (by rwa [hconnections])
    obtain ⟨hu, hkeys₂, msgs₂, hbrings₂, hread₂, hshown₂⟩ := h₂'
    rw [hconnections] at hbrings₂
    rw [hid] at hshown₂
    refine ⟨hu, hkeys₁.trans hkeys₂, msgs₁ ++ msgs₂, hbrings₁.trans hbrings₂, ?_, ?_⟩
    · intro n hn
      rcases List.mem_append.1 hn with hn | hn
      · exact hread₁ n hn
      · exact hread₂ n hn
    · intro hnodup before hshown
      have hmiddle := hshown₁ (hnodup.sublist hkeys₂.sublist) before hshown
      rw [← List.append_assoc]
      exact hshown₂ hnodup _ hmiddle

/-! ### Reports -/

variable {p : Platform σ} {files : List TransferMetadata} {m m' : TransferMetadata} {i : ℕ}

/-- The messages of a report of all can be read, and the first is about no record. -/
theorem reads_reportAll (hbk : Bookkeeper.Reads p.dump parse bk bookkeeperId)
    {s : TransferSession} (hs : s.Followed bk)
    (hfiles : ∀ m ∈ files, m.Representable ∧ m.Sendable) (cwd : String) :
    (∀ n ∈ (s.withFiles files).groupMessage p.dump bk ::
        files.map (s.recordMessage p.dump bk), Bookkeeper.WellFormed cwd parse bookkeeperId n) ∧
      Bookkeeper.clientReports cwd parse s.sessionId
        [(s.withFiles files).groupMessage p.dump bk] = [] := by
  obtain ⟨protocol, hprotocol⟩ := Option.ne_none_iff_exists'.1 hs.protocol
  obtain ⟨hnone, hgroup⟩ := Bookkeeper.reports_groupMessage (s := s.withFiles files) hbk hprotocol
    hs.sourceIp (fun m hm => (hfiles m hm).2) cwd s.sessionId
  refine ⟨fun n hn => ?_, hnone⟩
  rcases List.mem_cons.1 hn with rfl | hn
  · exact hgroup
  · obtain ⟨m, hm, rfl⟩ := List.mem_map.1 hn
    exact (Bookkeeper.reports_recordMessage hbk s (hfiles m hm).1 (hfiles m hm).2).2

/-- A report of all records, as they have become. -/
theorem conveys_reportAll (hbk : Bookkeeper.Reads p.dump parse bk bookkeeperId)
    (hx : x.session.Followed bk)
    (hfiles : List.Forall₂ TransferMetadata.Evolves x.session.files files)
    (hrep : ∀ m ∈ files, m.Representable)
    (ht : t.session = x.session.withFiles (files.map TransferMetadata.withoutFlags))
    (hbrings : x.session.connections.Brings (x.session.connections.realConnId bk) w
      ((x.session.withFiles files).groupMessage p.dump bk ::
        files.map (x.session.recordMessage p.dump bk)) w') :
    Conveys cwd parse bookkeeperId bk x t w w' := by
  have hsend := TransferMetadata.sendable_of_evolves hfiles hx.files
  have hkeys : t.session.keys = x.session.keys := by
    rw [ht, keys, keys, ← TransferMetadata.keys_of_evolves hfiles]
    exact List.map_map
  obtain ⟨hread, hgroup⟩ := reads_reportAll hbk hx (fun m hm => ⟨hrep m hm, hsend m hm⟩) cwd
  refine ⟨?_, hkeys ▸ List.prefix_rfl, _, hbrings, hread, fun hnodup before hshown => ?_⟩
  · rw [ht]
    refine hx.withFiles fun m' hm' => ?_
    obtain ⟨m, hm, rfl⟩ := List.mem_map.1 hm'
    exact (hsend m hm).congr rfl
  · have hnodup' : (files.map TransferMetadata.key).Nodup := by
      rw [TransferMetadata.keys_of_evolves hfiles, ← keys, ← hkeys]
      exact hnodup
    have hafter : Bookkeeper.Shown cwd parse x.session.sessionId _ ([] ++ files) :=
      (hshown.evolves hfiles).skip hgroup
    have hall := hafter.reportAll hbk hnodup' fun m hm => ⟨hrep m hm, hsend m hm⟩
    rw [ht]
    rwa [List.append_assoc] at hall

theorem reported_updateMetadatas (hbk : Bookkeeper.Reads p.dump parse bk bookkeeperId)
    (hx : x.session.Watched bk)
    (hfiles : List.Forall₂ TransferMetadata.Evolves x.session.files files)
    (hbefore : x.session.connections.Brings (x.session.connections.realConnId bk) w [] w₁)
    (ht : t.session =
      ((x.session.withFiles files).updateMetadatasToBookkeeper p.env p.dump w₁).2.1)
    (hrep : ∀ m ∈ t.session.files, m.Representable) :
    Reported cwd parse bookkeeperId bk x t w
      ((x.session.withFiles files).updateMetadatasToBookkeeper p.env p.dump w₁).1 := by
  have hlater := sends_mono_updateMetadatas (x.session.withFiles files) p.env p.dump w₁
  refine ⟨?_, hbefore.sends_mono.trans hlater, fun hx' hthrough => ?_⟩
  · obtain ⟨files', hfiles'⟩ :=
      (x.session.withFiles files).updateMetadatasToBookkeeper_session p.env p.dump w₁
    exact ⟨_, ht.trans hfiles', rfl⟩
  · obtain ⟨-, hthrough'⟩ := hthrough.split hbefore.sends_mono hlater
    obtain ⟨hbrings, hsession⟩ :=
      brings_updateMetadatas (s := x.session.withFiles files) hx.bookkeepers hthrough'
    rw [hsession] at ht
    refine conveys_reportAll hbk hx' hfiles (fun m hm => ?_) ht (hbefore.trans hbrings)
    exact hrep m.withoutFlags (ht ▸ List.mem_map_of_mem hm)

/-- A report of one record, as it has become. -/
theorem conveys_record (hbk : Bookkeeper.Reads p.dump parse bk bookkeeperId)
    (hx : x.session.Followed bk) (hi : x.session.files[i]? = some m) (hm : m.Evolves m')
    (hrep : m'.Representable)
    (ht : t.session = x.session.withFiles (x.session.files.set i m'.withoutFlags))
    (hbrings : x.session.connections.Brings (x.session.connections.realConnId bk) w
      [x.session.recordMessage p.dump bk m'] w') :
    Conveys cwd parse bookkeeperId bk x t w w' := by
  have hfiles := TransferMetadata.evolves_set hi hm
  have hsend := TransferMetadata.sendable_of_evolves hfiles hx.files
  obtain ⟨hlt, -⟩ := List.getElem?_eq_some_iff.1 hi
  have hi' : (x.session.files.set i m')[i]? = some m' := by simp [hlt]
  have hm' := hsend m' (List.mem_of_getElem? hi')
  have hkeys : t.session.keys = x.session.keys := by
    rw [ht, keys, keys, ← TransferMetadata.keys_of_evolves hfiles, List.map_set]
    exact List.map_set
  refine ⟨?_, hkeys ▸ List.prefix_rfl, _, hbrings, ?_, fun hnodup before hshown => ?_⟩
  · rw [ht]
    refine hx.withFiles fun n hn => ?_
    rcases List.mem_or_eq_of_mem_set hn with hn | rfl
    · exact hx.files n hn
    · exact hm'.congr rfl
  · intro n hn
    rw [List.mem_singleton.1 hn]
    exact (Bookkeeper.reports_recordMessage hbk x.session hrep hm').2
  · have hnodup' : ((x.session.files.set i m').map TransferMetadata.key).Nodup := by
      rw [TransferMetadata.keys_of_evolves hfiles, ← keys, ← hkeys]
      exact hnodup
    have hafter := (hshown.evolves hfiles).report hbk hnodup' hi' hrep hm'
    rw [ht]
    rwa [List.set_set] at hafter

theorem reported_record (hbk : Bookkeeper.Reads p.dump parse bk bookkeeperId)
    (hi : x.session.files[i]? = some m) (hm : m.Evolves m')
    (ht : t.session = x.session.withFiles (x.session.files.set i m'.withoutFlags))
    (hbrings : x.session.connections.Brings (x.session.connections.realConnId bk) w
      [x.session.recordMessage p.dump bk m'] w')
    (hrep : ∀ m ∈ t.session.files, m.Representable) :
    Reported cwd parse bookkeeperId bk x t w w' := by
  refine ⟨⟨_, ht, rfl⟩, hbrings.sends_mono, fun hx' _ => ?_⟩
  obtain ⟨hlt, -⟩ := List.getElem?_eq_some_iff.1 hi
  have hmem : m'.withoutFlags ∈ t.session.files := by
    rw [ht]
    exact List.mem_set hlt _
  have hrep' : m'.withoutFlags.Representable := hrep _ hmem
  exact conveys_record hbk hx' hi hm hrep' ht hbrings

/-! ### Calls -/

/-- An update of the record at a place. -/
theorem updateAt_watched (hx : x.session.Watched bk) (h : x.updateAt p i w = .ok (t, w')) :
    ∃ m, x.session.files[i]? = some m ∧
      t.session = x.session.withFiles (x.session.files.set i m.withoutFlags) ∧
      x.session.connections.Brings (x.session.connections.realConnId bk) w
        [x.session.recordMessage p.dump bk m] w' := by
  rw [OpenSession.updateAt] at h
  cases hi : x.session.files[i]? with
  | none =>
      simp only [hi] at h
      cases h
  | some m =>
      simp only [hi] at h
      cases h
      have hbrings := brings_updateMetadata hx.bookkeepers p.env p.dump w m
      rw [updateMetadata_single hx.bookkeepers] at hbrings ⊢
      exact ⟨m, rfl, rfl, hbrings⟩

theorem reported_updateAt (hbk : Bookkeeper.Reads p.dump parse bk bookkeeperId)
    (hx : x.session.Watched bk) (h : x.updateAt p i w = .ok (t, w'))
    (hrep : ∀ m ∈ t.session.files, m.Representable) :
    Reported cwd parse bookkeeperId bk x t w w' := by
  obtain ⟨m, hi, ht, hbrings⟩ := updateAt_watched hx h
  exact reported_record hbk hi (.refl m) ht hbrings hrep

theorem reported_update (hbk : Bookkeeper.Reads p.dump parse bk bookkeeperId)
    (hx : x.session.Watched bk) {data : String} (h : x.update p data w = .ok (t, w'))
    (hrep : ∀ m ∈ t.session.files, m.Representable) :
    Reported cwd parse bookkeeperId bk x t w w' := by
  rw [OpenSession.update] at h
  split_ifs at h with hdata
  · cases h
    exact reported_updateMetadatas hbk hx (List.forall₂_same.2 fun m _ => .refl m) (.refl _ _ w)
      rfl hrep
  · obtain ⟨i, -, h⟩ := bind_eq_ok.1 h
    exact reported_updateAt hbk hx h hrep

/-- **A command** tells the bookkeeper what it has changed. -/
theorem reported_command (hbk : Bookkeeper.Reads p.dump parse bk bookkeeperId)
    (hI : p.interface.UsesSetters) (hx : x.session.Watched bk) {c : Command} {data : String}
    (h : x.command p c data w = .ok (t, w')) (hrep : ∀ m ∈ t.session.files, m.Representable) :
    Reported cwd parse bookkeeperId bk x t w w' := by
  have hop (g : GroupCommand) (y : Handle σ) (m : TransferMetadata) :
      m.Evolves (g.operation p.interface.throughHandle y m).2.1 := by
    rw [GroupCommand.operation_throughHandle]
    exact Handle.evolves_call (hI g) y m
  rw [OpenSession.command] at h
  split_ifs at h with hdata
  · rw [OpenSession.commandAll_eq] at h
    obtain ⟨q, hrun, hbefore, hfiles⟩ := hx.run_eq_reportAll
      (OpenSession.groupCommand c x.session) p.interface.throughHandle p.env p.dump ⟨w, x.handle⟩
    rw [hrun] at h
    obtain ⟨ht, rfl⟩ := OpenSession.after_eq_ok h
    exact reported_updateMetadatas hbk hx (hfiles (hop _)) hbefore ht hrep
  · obtain ⟨i, -, h⟩ := bind_eq_ok.1 h
    cases hi : x.session.files[i]? with
    | none =>
        simp only [OpenSession.commandAt, hi] at h
        cases h
    | some m =>
        rw [OpenSession.commandAt_eq c hi] at h
        obtain ⟨ht, rfl⟩ := OpenSession.after_eq_ok h
        rcases hx.reports_fileOperation (hop (OpenSession.groupCommand c x.session)) p.env p.dump
            ⟨w, x.handle⟩ m with hrefused | hdone
        · -- refused: the session and the world are as before
          rw [hrefused] at ht ⊢
          obtain ⟨_, rfl⟩ := List.getElem?_eq_some_iff.1 hi
          rw [List.set_getElem_self] at ht
          exact .refl ht w
        · obtain ⟨m', hm, hrecord, hbrings⟩ := hdone
          rw [hrecord] at ht
          exact reported_record hbk hi hm ht hbrings hrep

/-- A record that has been added is reported. -/
theorem reported_added (hbk : Bookkeeper.Reads p.dump parse bk bookkeeperId)
    (hx : x.session.Watched bk) {x₁ : OpenSession σ} {expectedFiles : Finset String}
    (hx₁ : x₁.session = { x.session with transferOptions := { x.session.transferOptions with
      expectedFiles, transfersMeta := x.session.files ++ [m] } })
    (hflags : m.modifiedFields = Finset.univ) (hm : x.session.Followed bk → m.Sendable)
    (h : x₁.updateAt p x.session.files.length w = .ok (t, w'))
    (hrep : ∀ m ∈ t.session.files, m.Representable) :
    Reported cwd parse bookkeeperId bk x t w w' := by
  have hx₁' : x₁.session.Watched bk := by
    rw [hx₁]
    exact ⟨hx.bookkeepers, hx.targets⟩
  obtain ⟨m', hi, ht, hbrings⟩ := updateAt_watched hx₁' h
  have hold : x₁.session.files = x.session.files ++ [m] := by
    rw [hx₁]
    rfl
  obtain rfl : m = m' := by simpa [hold] using hi
  rw [hold, List.set_append_right _ _ le_rfl, Nat.sub_self] at ht
  have hfiles : t.session.files = x.session.files ++ [m.withoutFlags] := by
    rw [ht]
    rfl
  have hrep' : m.Representable := hrep m.withoutFlags (by rw [hfiles]; simp)
  rw [hx₁] at ht hbrings
  refine ⟨⟨_, ht, rfl⟩, hbrings.sends_mono, fun hx' _ => ?_⟩
  refine ⟨?_, ?_, _, hbrings, ?_, fun hnodup before hshown => ?_⟩
  · rw [ht]
    refine ⟨⟨hx.bookkeepers, hx.targets⟩, hx'.protocol, hx'.sourceIp, hx'.ip, fun n hn => ?_⟩
    rcases List.mem_append.1 hn with hn | hn
    · exact hx'.files n hn
    · rw [List.mem_singleton.1 hn]
      exact (hm hx').congr rfl
  · rw [keys, keys, hfiles, List.map_append]
    exact List.prefix_append _ _
  · intro n hn
    rw [List.mem_singleton.1 hn]
    exact (Bookkeeper.reports_recordMessage hbk x.session hrep' (hm hx')).2
  · have hnew : m.key ∉ x.session.files.map TransferMetadata.key := by
      rw [keys, hfiles, List.map_append] at hnodup
      exact fun hmem => (List.nodup_append.1 hnodup).2.2 _ hmem _ List.mem_cons_self rfl
    rw [hfiles]
    exact hshown.enter hbk hnew hflags hrep' (hm hx')

/-- **A record that arrives** is reported, and one that the group does not take makes the first
one be reported again. -/
theorem reported_receiveFile (hbk : Bookkeeper.Reads p.dump parse bk bookkeeperId)
    (hx : x.session.Watched bk) (hm : (SessionAction.receive m).Fresh)
    (h : OpenSession.receiveFile p m x w = .ok (t, w'))
    (hrep : ∀ m ∈ t.session.files, m.Representable) :
    Reported cwd parse bookkeeperId bk x t w w' := by
  obtain ⟨hflags, hpath, hsrc, hdefault⟩ := hm
  rw [OpenSession.receiveFile_eq] at h
  split_ifs at h with hne
  rw [OpenSession.addFile, bind_eq_ok] at h
  obtain ⟨q, hq, h⟩ := h
  cases htakes : OpenSession.takes x.session.transferOptions { m with dest := x.session.ip } with
  | false =>
      rw [OpenSession.addNewFile_of_not_takes htakes] at hq
      split_ifs at hq
      cases hq
      exact reported_updateAt hbk hx h hrep
  | true =>
      rw [OpenSession.addNewFile_of_takes htakes] at hq
      cases hq
      refine reported_added (m := { m with
        dest := x.session.ip, groupId := x.session.transferOptions.groupId })
        hbk hx rfl hflags (fun hx' => ?_) h hrep
      exact ⟨hpath, hsrc, hx'.ip, hdefault, hne⟩

/-! ## Runs -/

/-- **An action is reported.** -/
theorem reported_act (hbk : Bookkeeper.Reads p.dump parse bk bookkeeperId)
    (hI : p.interface.UsesSetters) (hx : x.session.Watched bk) {a : SessionAction} (ha : a.Fresh)
    (h : x.act p a w = .ok (t, w')) (hrep : ∀ m ∈ t.session.files, m.Representable) :
    Reported cwd parse bookkeeperId bk x t w w' := by
  cases a with
  | command c data => exact reported_command hbk hI hx h hrep
  | update data => exact reported_update hbk hx h hrep
  | receive m => exact reported_receiveFile hbk hx ha h hrep
  | change i c =>
      rw [OpenSession.act] at h
      cases hi : x.session.files[i]? with
      | none =>
          simp only [hi] at h
          cases h
      | some m =>
          simp only [hi] at h
          cases h
          have hchange := TransferMetadata.evolves_apply (w.now p.env) c m
          exact .of_evolves (TransferMetadata.evolves_set hi hchange) rfl rfl

/-- **A run is reported.** -/
theorem reported_exec (hbk : Bookkeeper.Reads p.dump parse bk bookkeeperId)
    (hI : p.interface.UsesSetters) (hx : x.session.Watched bk) {l : List SessionAction}
    (hl : ∀ a ∈ l, a.Fresh) (h : exec (OpenSession.step p) (x, w) l = some (t, w')) :
    Reported cwd parse bookkeeperId bk x t w w' := by
  induction l generalizing x w with
  | nil =>
      cases h
      exact .refl rfl _
  | cons a l ih =>
      obtain ⟨ha, hl⟩ := List.forall_mem_cons.1 hl
      obtain ⟨⟨x₁, w₁⟩, hstep, hrest⟩ := exec_cons_eq_some.1 h
      obtain ⟨hact, hrep⟩ := OpenSession.step_eq_some.1 hstep
      have hone : Reported cwd parse bookkeeperId bk x x₁ w w₁ :=
        reported_act hbk hI hx ha hact hrep
      exact hone.trans (ih (hone.like.watched hx) hl hrest)

/-! ### Reports of all -/

/-- After a report of all nothing is flagged. -/
theorem unflagged_updateMetadatas (hx : x.session.Watched bk)
    (hbefore : x.session.connections.Brings (x.session.connections.realConnId bk) w [] w₁)
    (hthrough : Through (x.session.connections.realConnId bk) w
      ((x.session.withFiles files).updateMetadatasToBookkeeper p.env p.dump w₁).1) :
    ∀ m ∈ ((x.session.withFiles files).updateMetadatasToBookkeeper p.env p.dump w₁).2.1.files,
      m.modifiedFields = ∅ := by
  have hlater := sends_mono_updateMetadatas (x.session.withFiles files) p.env p.dump w₁
  obtain ⟨-, hthrough'⟩ := hthrough.split hbefore.sends_mono hlater
  obtain ⟨-, hsession⟩ :=
    brings_updateMetadatas (s := x.session.withFiles files) hx.bookkeepers hthrough'
  rw [hsession]
  intro m hm
  obtain ⟨m', -, rfl⟩ := List.mem_map.1 hm
  rfl

theorem unflagged_act (hx : x.session.Watched bk) {a : SessionAction} (ha : a.reportsAll = true)
    (h : x.act p a w = .ok (t, w'))
    (hthrough : Through (x.session.connections.realConnId bk) w w') :
    ∀ m ∈ t.session.files, m.modifiedFields = ∅ := by
  cases a with
  | command c data =>
      rw [OpenSession.act, OpenSession.command, if_pos (of_decide_eq_true ha),
        OpenSession.commandAll_eq] at h
      obtain ⟨q, hrun, hbefore, -⟩ := hx.run_eq_reportAll
        (OpenSession.groupCommand c x.session) p.interface.throughHandle p.env p.dump ⟨w, x.handle⟩
      rw [hrun] at h
      obtain ⟨ht, rfl⟩ := OpenSession.after_eq_ok h
      rw [ht]
      exact unflagged_updateMetadatas hx hbefore hthrough
  | update data =>
      rw [OpenSession.act, OpenSession.update, if_pos (of_decide_eq_true ha)] at h
      cases h
      exact unflagged_updateMetadatas hx (.refl _ _ w) hthrough
  | receive m => cases ha
  | change i c => cases ha

/-- After a run that has come through and ends with a report of all. -/
theorem unflagged_exec (hbk : Bookkeeper.Reads p.dump parse bk bookkeeperId)
    (hI : p.interface.UsesSetters) (hx : x.session.Watched bk) {l : List SessionAction}
    (hl : ∀ a ∈ l, a.Fresh) (h : exec (OpenSession.step p) (x, w) l = some (t, w'))
    (hlast : ∀ a ∈ l.getLast?, a.reportsAll = true)
    (hthrough : Through (x.session.connections.realConnId bk) w w')
    (hfirst : ∀ m ∈ x.session.files, m.modifiedFields = ∅) :
    ∀ m ∈ t.session.files, m.modifiedFields = ∅ := by
  rcases List.eq_nil_or_concat' l with rfl | ⟨l, a, rfl⟩
  · cases h
    exact hfirst
  · obtain ⟨⟨z, w₂⟩, hbefore, hstep⟩ := exec_concat_eq_some.1 h
    obtain ⟨hl, ha⟩ := List.forall_mem_append.1 hl
    obtain ⟨hact, hrep⟩ := OpenSession.step_eq_some.1 hstep
    have hz : Reported "" parse bookkeeperId bk x z w w₂ := reported_exec hbk hI hx hl hbefore
    have hwatched := hz.like.watched hx
    have hone : Reported "" parse bookkeeperId bk z t w₂ w' :=
      reported_act hbk hI hwatched (ha a List.mem_cons_self) hact hrep
    obtain ⟨-, hend⟩ := hthrough.split hz.sends hone.sends
    refine unflagged_act hwatched (hlast a (by simp)) hact ?_
    rwa [hz.like.connections_eq.1]

end Calls

end Transfer
end SNBModules
