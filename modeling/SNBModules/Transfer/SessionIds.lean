import SNBModules.Transfer.ClientChanges

/-!
# Session ids

Source: `transfer_client.cpp`, the three places that create sessions.

`create_new_transfer` looks for the session first.  A scan asks only whether a
session has the group id of the file, and `NEW_TRANSFER` asks nothing.  In a run
of calls the ids stay different from each other exactly when the sessions of the
last two kinds are made under ids that are free (`session_ids_nodup_iff`).
-/

namespace SNBModules
namespace Transfer

open Lib

variable {σ : Type} {p : Platform σ} {o : Outside σ}

/-! ## What a call adds to the ids -/

/-- An element replaced by one that looks the same. -/
theorem map_set_of_eq {α β : Type} {f : α → β} {l : List α} {i : ℕ} {a b : α}
    (h : l[i]? = some a) (hf : f b = f a) : (l.set i b).map f = l.map f := by
  induction l generalizing i with
  | nil => rfl
  | cons c l ih =>
      cases i with
      | zero =>
          cases h
          simp [hf]
      | succ i => simpa using ih h

namespace Site

/-- The ids of the sessions. -/
def ids (s : Site σ) : List String := s.client.sessionIds

theorem ids_atSession {i : ℕ} {f : OpenSession σ → World → Except Fault (OpenSession σ × World)}
    (hf : OpenSession.KeepsId f) {s t : Site σ} (h : s.atSession i f = .ok t) : t.ids = s.ids := by
  rcases atSession_eq_ok h with rfl | ⟨session, session', w, hi, hcall, rfl⟩
  · rfl
  · exact map_set_of_eq hi (hf _ _ _ _ hcall)

theorem ids_prefix_of_becomes {s t : Site σ} (h : s.Becomes t) : s.ids <+: t.ids := by
  refine h.rel (R := fun s t => s.ids <+: t.ids) (fun _ => List.prefix_refl _)
    (fun _ _ _ => List.IsPrefix.trans) fun s t halters => ?_
  cases halters with
  | rest files w => exact List.prefix_refl _
  | made session w =>
      rw [ids, ids, TransferClient.sessionIds, TransferClient.sessionIds, List.map_append]
      exact List.prefix_append _ _
  | changed w hi hid =>
      have hsame : (s.client.sessions.set _ _).map (fun x => x.session.sessionId) = s.ids :=
        map_set_of_eq hi hid
      exact hsame ▸ List.prefix_refl _

theorem ids_createSession {options : GroupMetadata TransferMetadata} {type : SessionType}
    {id workDir : String} {ip : IPFormat} {destClients : List String} {s t : Site σ}
    (h : s.createSession p o options type id workDir ip destClients = .ok t) :
    t.ids = s.ids ++ [id] := by
  obtain ⟨files, interface, hclient⟩ := createSession_eq_ok h
  simp [ids, TransferClient.sessionIds, hclient, TransferSession.withFiles, newSession]

theorem ids_tellClients (a : NewTransfer) (s : Site σ) : (s.tellClients p a).ids = s.ids := by
  rw [tellClients]
  cases hlast : s.client.sessions.getLast? with
  | none => rfl
  | some last =>
      have hsplit := List.dropLast_append_getLast? last hlast
      have hid := sessionId_tellClients (p := p) s.client a.transferId a.destClients
        (s.world, last.session)
      conv_rhs => rw [ids, TransferClient.sessionIds, ← hsplit]
      simp [ids, TransferClient.sessionIds, hid]

theorem ids_visit_file {path content : String} {q q' : Site σ × List String}
    (h : visit p o (.file path content) q = .ok q') : q'.1.ids = q.1.ids := by
  simp only [visit] at h
  split_ifs at h
  · obtain ⟨r, hr, h⟩ := bind_eq_ok.1 h
    cases h
    obtain ⟨m, -, ⟨-, rfl⟩ | ⟨i, -, hi, -⟩⟩ := scanRecord_eq_ok hr
    · rfl
    · have hids := ids_atSession (OpenSession.keepsId_addFile m) hi
      exact hids
  · cases h
    rfl
  · cases h
    rfl

/-! ## Sessions under free ids -/

/-- If a session is made here, then under an id that no session has. -/
def MakesFree (p : Platform σ) (o : Outside σ) (s : Site σ) (g : GroupMetadata TransferMetadata)
    (type : SessionType) (id workDir : String) : Prop :=
  (s.newSession g type id workDir .default).constructible p.cwd o = true → id ∉ s.ids

theorem nodup_createSession_iff {g : GroupMetadata TransferMetadata} {type : SessionType}
    {id workDir : String} {destClients : List String} {s t : Site σ} (hs : s.ids.Nodup)
    (h : s.createSession p o g type id workDir .default destClients = .ok t) :
    t.ids.Nodup ↔ MakesFree p o s g type id workDir := by
  have hok := createSession_isOk p o g type id workDir .default destClients s
  rw [h] at hok
  rw [ids_createSession h, MakesFree, ← hok, List.nodup_append]
  constructor
  · rintro ⟨-, -, hne⟩ - hmem
    exact hne _ hmem _ List.mem_cons_self rfl
  · refine fun hfree => ⟨hs, List.nodup_singleton id, fun a ha b hb => ?_⟩
    rw [List.mem_singleton.1 hb]
    exact ne_of_mem_of_not_mem ha (hfree rfl)

/-- The session that a group file is given, if it is given one, has a free id. -/
def VisitFresh (p : Platform σ) (o : Outside σ) (q : Site σ × List String) : Visit → Prop
  | .group path content => (insertPath path q.2).2 = true →
      ∀ g, GroupMetadata.ofString p.cwd p.parse content = .ok g → q.1.isActive g.groupId = false →
        MakesFree p o q.1 g .uploader (q.1.client.generateSessionId g.groupId "")
          (appendPath q.1.client.listeningDir ("ses" ++ toString q.1.client.sessions.length))
  | _ => True

/-- One turn of a scan, as a step. -/
def visitStep (p : Platform σ) (o : Outside σ) (q : Site σ × List String) (v : Visit) :
    Option (Site σ × List String) :=
  (visit p o v q).toOption

/-- A turn that ends early makes no session. -/
theorem visitFresh_of_error {v : Visit} {q : Site σ × List String} {f : Fault}
    (h : visit p o v q = .error f) : VisitFresh p o q v := by
  cases v with
  | group path content =>
      intro hnew g hg hactive hopen
      have hok : (q.1.createFileSession p o g).isOk = true :=
        (createSession_isOk p o g _ _ _ _ _ q.1).trans hopen
      have hnot : (q.1.isActive g.groupId = true) = False := by simp [hactive]
      cases hcreate : q.1.createFileSession p o g with
      | error f' =>
          rw [hcreate] at hok
          cases hok
      | ok t =>
          simp [visit, hnew, scanGroup, hg, hnot, hcreate, bind, Except.bind] at h
  | file path content => trivial
  | unreadable => trivial

/-- **One turn keeps the ids different** exactly when its session, if it makes one,
has a free id. -/
theorem nodup_visit_iff {v : Visit} {q q' : Site σ × List String} (hq : q.1.ids.Nodup)
    (h : visit p o v q = .ok q') : q'.1.ids.Nodup ↔ VisitFresh p o q v := by
  cases v with
  | unreadable => cases h
  | file path content =>
      rw [ids_visit_file h]
      exact iff_of_true hq trivial
  | group path content =>
      simp only [visit] at h
      split_ifs at h with hnew
      · obtain ⟨t, ht, h⟩ := bind_eq_ok.1 h
        cases h
        rw [scanGroup, bind_eq_ok] at ht
        obtain ⟨g, hg, ht⟩ := ht
        rw [thrown_eq_ok] at hg
        have huniq : ∀ g', GroupMetadata.ofString p.cwd p.parse content = .ok g' → g' = g :=
          fun g' hg' => Except.ok.inj (hg'.symm.trans hg)
        split_ifs at ht with hactive
        · cases ht
          refine iff_of_true hq fun _ g' hg' hnot => ?_
          rw [huniq g' hg', hactive] at hnot
          cases hnot
        · rw [nodup_createSession_iff hq ht]
          constructor
          · intro hfree _ g' hg' _
            rw [huniq g' hg']
            exact hfree
          · exact fun hfresh => hfresh hnew g hg (Bool.not_eq_true _ ▸ hactive)
      · cases h
        exact iff_of_true hq fun hnew' => absurd hnew' hnew

/-- **A scan keeps the ids different** exactly when all its turns do. -/
theorem nodup_scan_iff (l : List Visit) {q : Site σ × List String} (hq : q.1.ids.Nodup) :
    (runSteps (l.map (visit p o)) q).1.1.ids.Nodup ↔
      Guarded (visitStep p o) (VisitFresh p o) q l := by
  induction l generalizing q with
  | nil => exact iff_of_true hq trivial
  | cons v l ih =>
      rw [List.map_cons, Guarded]
      cases hv : visit p o v q with
      | error f =>
          rw [runSteps_cons_error hv]
          refine iff_of_true hq ⟨visitFresh_of_error hv, fun t ht => ?_⟩
          rw [visitStep, hv] at ht
          cases ht
      | ok q' =>
          have hstep : visitStep p o q v = some q' := by rw [visitStep, hv]; rfl
          rw [runSteps_cons_ok hv, ← nodup_visit_iff hq hv]
          constructor
          · intro h
            have hq' : q'.1.ids.Nodup :=
              h.sublist (ids_prefix_of_becomes (becomes_visits l q')).sublist
            refine ⟨hq', fun t ht => ?_⟩
            rw [hstep] at ht
            cases ht
            exact (ih hq').1 h
          · exact fun h => (ih h.1).2 (h.2 q' hstep)

/-! ## Notifications -/

theorem ids_onSession {f : OpenSession σ → World → Except Fault (OpenSession σ × World)}
    (hf : OpenSession.KeepsId f) {targetId : String} {s t : Site σ}
    (h : onSession targetId f s = .ok t) : t.ids = s.ids := by
  rw [onSession] at h
  cases hget : s.client.getSession targetId with
  | none =>
      simp only [hget] at h
      cases h
      rfl
  | some i =>
      simp only [hget] at h
      exact ids_atSession hf h

theorem ids_onTransferMetadata {targetId data : String} {s t : Site σ}
    (h : onTransferMetadata p targetId data s = .ok t) : t.ids = s.ids := by
  simp only [onTransferMetadata, bind_eq_ok] at h
  obtain ⟨m, -, h⟩ := h
  cases hfor : s.tick.sessionFor targetId with
  | none =>
      simp only [hfor] at h
      cases h
      rfl
  | some i =>
      simp only [hfor] at h
      have hids := ids_atSession (OpenSession.keepsId_receiveFile m) h
      exact hids

theorem ids_shareFile {dest f : String} {s t : Site σ} (h : shareFile p o dest f s = .ok t) :
    t.ids = s.ids := by
  rw [shareFile, bind_eq_ok] at h
  obtain ⟨m, -, h⟩ := h
  cases h
  rfl

/-- A run of one step that keeps the ids. -/
theorem ids_runSteps_single {f : Site σ → Except Fault (Site σ)}
    (hf : ∀ s t, f s = .ok t → t.ids = s.ids) (s : Site σ) : (runSteps [f] s).1.ids = s.ids :=
  runSteps_frame (fun _ hg => List.mem_singleton.1 hg ▸ hf) s

/-- Sharing the files that a scan has found makes no session. -/
theorem ids_onConnectionRequest (folder : Entry) (sourceId : String) (s : Site σ) :
    (s.onConnectionRequest p o folder sourceId).1.ids =
      (s.scanAvailableFiles p o true folder []).1.1.ids := by
  rw [onConnectionRequest]
  rcases s.scanAvailableFiles p o true folder [] with ⟨q, _ | f⟩
  · refine runSteps_frame (fun f hf s t h => ?_) q.1
    rcases List.mem_append.1 hf with hf | hf
    · obtain ⟨path, -, rfl⟩ := List.mem_map.1 hf
      exact ids_shareFile h
    · obtain rfl := List.mem_singleton.1 hf
      cases h
      rfl
  · rfl

theorem nodup_onNewTransfer_iff {targetId data : String} {s : Site σ} (hs : s.ids.Nodup) :
    (runSteps [onNewTransfer p o targetId data] s).1.ids.Nodup ↔
      ∀ g, GroupMetadata.ofString p.cwd p.parse data = .ok g →
        MakesFree p o s g (s.typeFor g.expectedFiles) targetId
          (appendPath s.client.listeningDir g.groupId) := by
  have hbind : onNewTransfer p o targetId data s =
      thrown (GroupMetadata.ofString p.cwd p.parse data) >>= fun g =>
        s.createSession p o g (s.typeFor g.expectedFiles) targetId
          (appendPath s.client.listeningDir g.groupId) .default [] := rfl
  cases hg : GroupMetadata.ofString p.cwd p.parse data with
  | error e =>
      rw [hg] at hbind
      rw [runSteps_cons_error hbind]
      exact iff_of_true hs fun g h => by cases h
  | ok g =>
      rw [hg] at hbind
      have hforall : (∀ g', Except.ok (ε := Exn) g = .ok g' →
          MakesFree p o s g' (s.typeFor g'.expectedFiles) targetId
            (appendPath s.client.listeningDir g'.groupId)) ↔
          MakesFree p o s g (s.typeFor g.expectedFiles) targetId
            (appendPath s.client.listeningDir g.groupId) :=
        ⟨fun h => h g rfl, fun h g' hg' => Except.ok.inj hg' ▸ h⟩
      rw [hforall]
      cases hcreate : s.createSession p o g (s.typeFor g.expectedFiles) targetId
          (appendPath s.client.listeningDir g.groupId) .default [] with
      | error f =>
          rw [runSteps_cons_error (hbind.trans hcreate)]
          refine iff_of_true hs fun hopen => ?_
          rw [← createSession_isOk p o g _ _ _ _ [] s, hcreate] at hopen
          cases hopen
      | ok t =>
          rw [runSteps_cons_ok (hbind.trans hcreate)]
          exact nodup_createSession_iff hs hcreate

/-- What a notification makes, it makes under free ids. -/
def HandlesFresh (p : Platform σ) (o : Outside σ) (folder : Entry) (type : NotificationType)
    (n : NotificationData) (s : Site σ) : Prop :=
  (type = .connectionRequest →
    Guarded (visitStep p o) (VisitFresh p o) (s, []) (folder.visits true)) ∧
  (type = .newTransfer → ∀ g, GroupMetadata.ofString p.cwd p.parse n.data = .ok g →
    MakesFree p o s g (s.typeFor g.expectedFiles) n.targetId
      (appendPath s.client.listeningDir g.groupId))

/-- Only two types of notifications make sessions. -/
theorem ids_handle_of_ne (folder : Entry) {type : NotificationType} (n : NotificationData)
    (s : Site σ) (hrequest : type ≠ .connectionRequest) (hnew : type ≠ .newTransfer) :
    (s.handle p o folder type n).1.ids = s.ids := by
  cases type with
  | connectionRequest => exact absurd rfl hrequest
  | newTransfer => exact absurd rfl hnew
  | transferMetadata => exact ids_runSteps_single (fun _ _ => ids_onTransferMetadata) s
  | startTransfer | pauseTransfer | resumeTransfer | cancelTransfer =>
      exact ids_runSteps_single (fun _ _ => ids_onSession (OpenSession.keepsId_command _ _)) s
  | updateRequest =>
      exact ids_runSteps_single (fun _ _ => ids_onSession (OpenSession.keepsId_update _)) s
  | groupMetadata | transferError => rfl

theorem nodup_handle_iff (folder : Entry) (type : NotificationType) (n : NotificationData)
    {s : Site σ} (hs : s.ids.Nodup) :
    (s.handle p o folder type n).1.ids.Nodup ↔ HandlesFresh p o folder type n s := by
  by_cases hrequest : type = .connectionRequest
  · subst hrequest
    rw [handle, ids_onConnectionRequest]
    refine (nodup_scan_iff (q := (s, [])) _ hs).trans ?_
    simp [HandlesFresh]
  · by_cases hnew : type = .newTransfer
    · subst hnew
      rw [handle, nodup_onNewTransfer_iff hs]
      simp [HandlesFresh]
    · rw [ids_handle_of_ne folder n s hrequest hnew]
      exact iff_of_true hs ⟨fun h => absurd h hrequest, fun h => absurd h hnew⟩

/-! ## Runs of calls -/

/-- The sessions that a scan or a `NEW_TRANSFER` makes have free ids. -/
def Fresh (p : Platform σ) (s : Site σ) : Call σ → Prop
  | .createNewTransfer _ _ => True
  | .scanAvailableFiles o nested folder previousScan =>
      Guarded (visitStep p o) (VisitFresh p o) (s, previousScan) (folder.visits nested)
  | .receive o folder n =>
      TransferClient.accepts s.client.clientId n = true →
        ∀ type, stringToNotification n.notification = some type → HandlesFresh p o folder type n s

theorem containsText_ses (c : TransferClient σ) (transferId destId : String) :
    containsText (c.generateSessionId transferId destId) "ses" = true := by
  simp only [containsText, TransferClient.generateSessionId, String.toList_append,
    decide_eq_true_eq, List.append_assoc]
  exact ⟨(if destId = "" then c.clientId else destId).toList ++ ['_'], transferId.toList, by simp⟩

theorem getSession_generateSessionId (c : TransferClient σ) (transferId destId : String) :
    c.getSession (c.generateSessionId transferId destId) =
      c.sessions.findIdx? fun s => s.session.sessionId = c.generateSessionId transferId destId := by
  rw [TransferClient.getSession, if_pos (containsText_ses c transferId destId)]

/-- **The session is found by its id,** whatever has been called since. -/
theorem getSession_of_prefix {c : TransferClient σ} {ids : List String} {id : String}
    (hses : containsText id "ses" = true) (hfree : id ∉ ids)
    (hkept : ids ++ [id] <+: c.sessionIds) : c.getSession id = some ids.length := by
  obtain ⟨rest, hrest⟩ := hkept
  have hids : c.getSession id = c.sessionIds.findIdx? fun id' => id' = id := by
    rw [TransferClient.getSession, if_pos hses, TransferClient.sessionIds, List.findIdx?_map]
    rfl
  have hnone : ids.findIdx? (fun id' => decide (id' = id)) = none := by
    rw [List.findIdx?_eq_none_iff]
    exact fun id' hid' => decide_eq_false fun heq => hfree (heq ▸ hid')
  rw [hids, ← hrest, List.append_assoc, List.findIdx?_append, hnone]
  simp [List.findIdx?_cons]

theorem ids_launch (a : NewTransfer) (id : String) (g : GroupMetadata TransferMetadata)
    (s : Site σ) :
    (s.launch p o a id g).1.ids = s.ids ∨ (s.launch p o a id g).1.ids = s.ids ++ [id] := by
  have htell : (s.tellBookkeepers p id g).ids = s.ids := by
    rw [ids, client_tellBookkeepers]
    rfl
  rw [launch]
  generalize s.tellBookkeepers p id g = s' at htell ⊢
  cases hcreate : s'.createSession p o g .uploader id
    (appendPath s'.client.listeningDir a.transferId) s'.client.listeningIp a.destClients with
  | error f => exact Or.inl htell
  | ok t =>
      right
      simp only [ids_tellClients, ids_createSession hcreate, htell]

/-- **`create_new_transfer` makes a session under the id of the transfer,** if that is
free. -/
theorem ids_createNewTransfer (a : NewTransfer) (s : Site σ) :
    (s.createNewTransfer p o a).1.ids = s.ids ∨
      s.client.generateSessionId a.transferId "" ∉ s.ids ∧
        (s.createNewTransfer p o a).1.ids =
          s.ids ++ [s.client.generateSessionId a.transferId ""] := by
  have hgenerate := getSession_generateSessionId s.client a.transferId ""
  rw [createNewTransfer]
  generalize s.client.generateSessionId a.transferId "" = id at hgenerate ⊢
  cases hget : s.client.getSession id with
  | some i => exact Or.inl (by simp)
  | none =>
      rw [hget, eq_comm, List.findIdx?_eq_none_iff] at hgenerate
      have hfree : id ∉ s.ids := by
        intro hmem
        obtain ⟨session, hsession, hid⟩ := List.mem_map.1 hmem
        have hne := hgenerate session hsession
        simp [hid] at hne
      simp only [Option.isSome_none, Bool.false_eq_true, if_false]
      cases stringToProtocols a.protocol with
      | none => exact Or.inl rfl
      | some protocol =>
          simp only
          cases s.transferGroup p o a id protocol with
          | error f => exact Or.inl rfl
          | ok g =>
              simp only
              split_ifs
              · exact Or.inl rfl
              · exact (ids_launch a id g s).imp_right fun h => ⟨hfree, h⟩

theorem nodup_createNewTransfer (a : NewTransfer) {s : Site σ} (hs : s.ids.Nodup) :
    (s.createNewTransfer p o a).1.ids.Nodup := by
  rcases ids_createNewTransfer (p := p) (o := o) a s with h | ⟨hfree, h⟩
  · rwa [h]
  · rw [h]
    refine List.nodup_append.2 ⟨hs, List.nodup_singleton _, fun x hx y hy => ?_⟩
    rw [List.mem_singleton.1 hy]
    exact ne_of_mem_of_not_mem hx hfree

/-- **No call takes a session away,** or puts one before those there are. -/
theorem ids_prefix_step {s t : Site σ} {c : Call σ} (h : step p s c = some t) :
    s.ids <+: t.ids :=
  ids_prefix_of_becomes (becomes_step h)

/-- **One call keeps the ids different** exactly when it makes sessions under free ids. -/
theorem nodup_step_iff {s t : Site σ} {c : Call σ} (hs : s.ids.Nodup) (h : step p s c = some t) :
    t.ids.Nodup ↔ Fresh p s c := by
  rw [step] at h
  split_ifs at h
  cases h
  cases c with
  | createNewTransfer o a => exact iff_of_true (nodup_createNewTransfer a hs) trivial
  | scanAvailableFiles o nested folder previousScan =>
      exact nodup_scan_iff (q := (s, previousScan)) _ hs
  | receive o folder n =>
      rw [fst_call_receive, fst_actionOnReceiveNotification, Fresh]
      cases haccepts : TransferClient.accepts s.client.clientId n with
      | false => simpa using hs
      | true =>
          cases htype : stringToNotification n.notification with
          | none => simpa using hs
          | some type => simpa using nodup_handle_iff folder type n hs

/-- **When session ids are unique:** in a run of calls no two sessions ever have the
same id exactly when the sessions for notifications and group files are all made
under ids that are free. -/
theorem session_ids_nodup_iff {s u : Site σ} (hs : s.ids.Nodup) {l : List (Call σ)}
    (hu : exec (step p) s l = some u) :
    Always (step p) (fun s => s.ids.Nodup) s l ↔ Guarded (step p) (Fresh p) s l :=
  always_iff_guarded (fun _ h => h) (fun _ _ _ hs hok h => (nodup_step_iff hs h).2 hok)
    (fun _ _ _ hs hok h hP => hok ((nodup_step_iff hs h).1 hP)) hs hu

/-- The group of a transfer of another client, as `NEW_TRANSFER` brings it. -/
def groupText (transferId : String) : String :=
  (GroupMetadata.new transferId ("client0_ses" ++ transferId) ⟨"10.0.0.1", 5000⟩ .dummy
    .null).exportToString JsonText.dump TransferMetadata.filePath

/-- A transfer that is created here, and one that is received. -/
def createdAndReceived : List (Call Unit) :=
  [.createNewTransfer .plain ⟨"run1", "dummy", [], ["/data/run1.hdf5"], .null⟩,
    .receive .plain (.other "/data")
      ⟨"client0", "client1_sesrun2", "NEW_TRANSFER", groupText "run2"⟩]

theorem session_ids_nodup_iff_two :
    (exec (step .plain) (.plain "client1" ⟨"10.0.0.2", 5001⟩) createdAndReceived).map ids =
      some ["client1_sesrun1", "client1_sesrun2"] ∧
    Guarded (step .plain) (Fresh .plain) (.plain "client1" ⟨"10.0.0.2", 5001⟩)
      createdAndReceived := by
  have hrun : (exec (step .plain) (.plain "client1" ⟨"10.0.0.2", 5001⟩) createdAndReceived).map
      ids = some ["client1_sesrun1", "client1_sesrun2"] := by decide +kernel
  obtain ⟨u, hu, hids⟩ := Option.map_eq_some_iff.1 hrun
  -- no call removes a session
  have hback : ∀ s c t, step Platform.plain s c = some t → t.ids.Nodup → s.ids.Nodup :=
    fun _ _ _ h hnodup => hnodup.sublist (ids_prefix_step h).sublist
  exact ⟨hrun, (session_ids_nodup_iff (by decide) hu).1
    (always_of_last hback hu (by rw [hids]; decide))⟩

/-- **One id, two sessions:** the same `NEW_TRANSFER` received twice, and a transfer
that is sent to the client that created it. -/
theorem same_transfer_twice :
    (exec (step .plain) (.plain "client1" ⟨"10.0.0.2", 5001⟩)
      [.receive .plain (.other "/data")
          ⟨"client0", "client1_sesrun1", "NEW_TRANSFER", groupText "run1"⟩,
        .receive .plain (.other "/data")
          ⟨"client0", "client1_sesrun1", "NEW_TRANSFER", groupText "run1"⟩]).map ids =
      some ["client1_sesrun1", "client1_sesrun1"] ∧
    (exec (step .plain) (.plain "client1" ⟨"10.0.0.2", 5001⟩)
      [.createNewTransfer .plain ⟨"run1", "dummy", ["client1"], ["/data/run1.hdf5"], .null⟩,
        .receive .plain (.other "/data")
          ⟨"client1", "client1_sesrun1", "NEW_TRANSFER", groupText "run1"⟩]).map ids =
      some ["client1_sesrun1", "client1_sesrun1"] ∧
    ¬ ["client1_sesrun1", "client1_sesrun1"].Nodup := by
  decide +kernel

end Site

end Transfer
end SNBModules
