import SNBModules.Transfer.AtomicUpdate
import SNBModules.Transfer.RoundTrip
import SNBModules.Transfer.TransferCommands
import SNBModules.Transfer.WaitingFiles

/-!
# How a bookkeeper learns of the files of a client

Source: `bookkeeper.cpp`, `request_connection_and_available_files` and the case of
`TRANSFER_METADATA`; `transfer_client.cpp`, the case of `CONNECTION_REQUEST`,
`scan_available_files` and `share_available_files`.

The client goes through its listening directory and the folders inside, and sends a record
of each file it finds, and `end`.  The scan visits every file of the tree once
(`visited_perm`), so what it finds are the files of the tree, less the record files that no
session wants (`exec_visits_found`).  In the end the bookkeeper has one record for each of
them and no others of the client, whatever else it is sent in between (`discovery`).
-/

namespace SNBModules
namespace Transfer

open Lib

variable {σ : Type} {p : Platform σ} {o : Outside σ}

/-! ## The files of a tree -/

mutual

/-- The files in a folder and in those inside. -/
def Entry.files : Entry → List String
  | .file path _ => [path]
  | .folder _ entries => filesOf entries
  | .unreadable _ | .other _ => []

/-- The files in these. -/
def filesOf : List Entry → List String
  | [] => []
  | e :: l => e.files ++ filesOf l

end

/-- **The two loops of a scan visit each file of the tree once.**  The induction is on the
tree, list by list. -/
theorem visited_perm : ∀ l : List Entry,
    ((groupVisits l ++ fileVisits true l).filterMap Visit.path?).Perm (filesOf l)
  | [] => List.Perm.refl _
  | .file path content :: l => by
      have ih := visited_perm l
      rw [filesOf, Entry.files, List.singleton_append, groupVisits, fileVisits]
      split_ifs
      · exact ih.cons path
      · rw [List.filterMap_append] at ih ⊢
        exact List.perm_middle.trans (ih.cons path)
  | .folder path entries :: l => by
      have hinside := visited_perm entries
      have ih := visited_perm l
      have hgroup : groupVisits (.folder path entries :: l) = groupVisits l := rfl
      rw [filesOf, Entry.files, hgroup, fileVisits, if_pos rfl, Entry.visits]
      rw [List.filterMap_append] at ih ⊢
      rw [List.filterMap_append]
      refine List.perm_append_comm_assoc _ _ _ |>.trans ?_
      exact hinside.append ih
  | .unreadable path :: l => by
      have ih := visited_perm l
      have hgroup : groupVisits (.unreadable path :: l) = groupVisits l := rfl
      rw [filesOf, Entry.files, hgroup, fileVisits, if_pos rfl, List.nil_append]
      rw [List.filterMap_append] at ih ⊢
      exact ih
  | .other path :: l => by
      have ih := visited_perm l
      have hgroup : groupVisits (.other path :: l) = groupVisits l := rfl
      rw [filesOf, Entry.files, hgroup, fileVisits, List.nil_append]
      exact ih
termination_by l => sizeOf l

/-! ## What a scan finds -/

/-- A new path is put in among the others. -/
theorem insertPath_perm {path : String} {l : List String} (h : ¬ Seen l path) :
    (insertPath path l).1.Perm (path :: l) := by
  induction l with
  | nil => exact List.Perm.refl _
  | cons a l ih =>
      have ha : pathElements path ≠ pathElements a := fun heq => h ⟨a, by simp, heq.symm⟩
      rw [insertPath, if_neg ha]
      split_ifs
      · exact List.Perm.refl _
      · have hl : ¬ Seen l path := fun hseen => by
          obtain ⟨q, hq, heq⟩ := hseen
          exact h ⟨q, List.mem_cons_of_mem _ hq, heq⟩
        exact ((ih hl).cons a).trans (List.Perm.swap path a l)

/-- Put in and taken out again. -/
theorem erasePath_insertPath_perm {path : String} {l : List String} (h : ¬ Seen l path) :
    (erasePath path (insertPath path l).1).Perm l := by
  refine ((insertPath_perm h).filter _).trans ?_
  rw [List.filter_cons_of_neg (by simp)]
  refine (List.filter_eq_self.2 fun q hq => ?_) ▸ List.Perm.refl _
  simpa using fun heq => h ⟨q, hq, heq⟩

namespace Site

/-- **A turn for a new file** keeps it, or drops it again if it is a record file. -/
theorem visit_found {v : Visit} {q q' : Site σ × List String} (h : visit p o v q = .ok q') :
    ∃ path, v.path? = some path ∧ (¬ Seen q.2 path →
      q'.2.Perm (path :: q.2) ∨ extension path = ".tmetadata" ∧ q'.2.Perm q.2) := by
  cases v with
  | unreadable => cases h
  | group path content =>
      refine ⟨path, rfl, fun hnew => Or.inl ?_⟩
      obtain ⟨hinserted, -⟩ := insertPath_of_not_seen hnew
      simp only [visit, hinserted, if_true] at h
      obtain ⟨t, -, h⟩ := bind_eq_ok.1 h
      cases h
      exact insertPath_perm hnew
  | file path content =>
      refine ⟨path, rfl, fun hnew => ?_⟩
      obtain ⟨hinserted, -⟩ := insertPath_of_not_seen hnew
      simp only [visit, hinserted, if_true] at h
      split_ifs at h with hrecord
      · obtain ⟨r, -, h⟩ := bind_eq_ok.1 h
        cases h
        cases r.2 with
        | true => exact Or.inl (insertPath_perm hnew)
        | false => exact Or.inr ⟨hrecord, erasePath_insertPath_perm hnew⟩
      · cases h
        exact Or.inl (insertPath_perm hnew)

/-- **What a run of turns finds:** each file that is no record file, once, and some record
files.  The induction is on the turns. -/
theorem exec_visits_found {l : List Visit} {q q' : Site σ × List String}
    (h : exec (visitStep p o) q l = some q') (hdistinct : DistinctPaths l)
    (hnew : ∀ path ∈ l.filterMap Visit.path?, ¬ Seen q.2 path) :
    ∃ found, found.Sublist (l.filterMap Visit.path?) ∧ q'.2.Perm (found ++ q.2) ∧
      ∀ path ∈ l.filterMap Visit.path?, extension path ≠ ".tmetadata" → path ∈ found := by
  induction l generalizing q with
  | nil =>
      obtain rfl := Option.some.inj h
      exact ⟨[], List.Sublist.refl _, List.Perm.refl _, fun path hpath => absurd hpath (by simp)⟩
  | cons v l ih =>
      obtain ⟨q₁, hstep, hrest⟩ := exec_cons_eq_some.1 h
      obtain ⟨path, hpath, hkept⟩ := visit_found (toOption_eq_some.1 hstep)
      rw [DistinctPaths, List.filterMap_cons_some hpath, List.pairwise_cons] at hdistinct
      rw [List.filterMap_cons_some hpath] at hnew ⊢
      obtain ⟨hother, hdistinct⟩ := hdistinct
      obtain ⟨hpathNew, hnew⟩ := List.forall_mem_cons.1 hnew
      have hseen : q₁.2 ⊆ path :: q.2 := by
        rcases hkept hpathNew with hperm | ⟨-, hperm⟩
        · exact hperm.subset
        · exact List.subset_cons_of_subset _ hperm.subset
      have hnew₁ : ∀ file ∈ l.filterMap Visit.path?, ¬ Seen q₁.2 file := by
        rintro file hfile ⟨a, ha, heq⟩
        rcases List.mem_cons.1 (hseen ha) with rfl | ha
        · exact hother file hfile heq
        · exact hnew file hfile ⟨a, ha, heq⟩
      obtain ⟨found, hsub, hperm, hall⟩ := ih hrest hdistinct hnew₁
      rcases hkept hpathNew with hkeep | ⟨hrecord, hdrop⟩
      · refine ⟨path :: found, hsub.cons_cons path, ?_, fun file hfile hext => ?_⟩
        · exact hperm.trans ((hkeep.append_left found).trans List.perm_middle)
        · rcases List.mem_cons.1 hfile with rfl | hfile
          · exact List.mem_cons_self
          · exact List.mem_cons_of_mem _ (hall file hfile hext)
      · refine ⟨found, hsub.cons path, hperm.trans (hdrop.append_left found),
          fun file hfile hext => ?_⟩
        rcases List.mem_cons.1 hfile with rfl | hfile
        · exact absurd hrecord hext
        · exact hall file hfile hext

end Site

/-! ## What a client shares -/

/-- The notification of a record that is shared. -/
def sharedNotification (p : Platform σ) (clientId dest : String) (m : TransferMetadata) :
    NotificationData :=
  ⟨clientId, dest, notificationToString .transferMetadata, p.dump (m.exportJson true)⟩

/-- The notification that ends the sharing. -/
def endNotification (clientId dest : String) : NotificationData :=
  ⟨clientId, dest, notificationToString .transferMetadata, "end"⟩

/-- The size of a file that has one. -/
def sizeOfFile (o : Outside σ) (f : String) : ℕ :=
  match o.fileSize f with
  | .ok size => size
  | .error _ => 0

/-- The record that is made of a file. -/
def recordOf (o : Outside σ) (ip : IPFormat) (f : String) : TransferMetadata :=
  { TransferMetadata.blank with
    filePath := f
    bytesSize := sizeOfFile o f
    src := ip
    modifiedFields := Finset.univ }

theorem createMetadataFromFile_eq_ok {ip : IPFormat} {f : String} {m : TransferMetadata}
    (hf : RecordedPath f) (h : Site.createMetadataFromFile p o ip f = .ok m) :
    o.fileSize f = .ok (sizeOfFile o f) ∧ m = recordOf o ip f := by
  obtain ⟨size, hsize, h⟩ := bind_eq_ok.1 h
  have hok := thrown_eq_ok.1 hsize
  have hsame : sizeOfFile o f = size := by rw [sizeOfFile, hok]
  have hnew := thrown_eq_ok.1 h
  simp only [TransferMetadata.new, normalised_of_recorded hf, bind, Except.bind] at hnew
  rw [recordOf, hsame]
  exact ⟨hok, (Except.ok.inj hnew).symm⟩

/-- The notifications of these files. -/
def sharedMessages (p : Platform σ) (o : Outside σ) (c : TransferClient σ) (dest : String)
    (files : List String) : List NotificationData :=
  files.map (fun f => sharedNotification p c.clientId dest (recordOf o c.listeningIp f)) ++
    [endNotification c.clientId dest]

namespace Site

/-- What the sharing leaves as it is. -/
structure SharesFrom (s t : Site σ) : Prop where
  clientId_eq : t.client.clientId = s.client.clientId
  listeningIp_eq : t.client.listeningIp = s.client.listeningIp
  connections_eq : t.client.connections = s.client.connections
  files_subset : s.client.availableFiles ⊆ t.client.availableFiles

/-- **One file is shared:** its record is sent. -/
theorem shareFile_eq_ok {dest f : String} {s t : Site σ} (hf : RecordedPath f)
    (h : shareFile p o dest f s = .ok t) :
    SharesFrom s t ∧ f ∈ t.client.availableFiles ∧ o.fileSize f = .ok (sizeOfFile o f) ∧
      s.client.connections.Posts s.world [(dest, sharedNotification p s.client.clientId dest
        (recordOf o s.client.listeningIp f))] t.world := by
  rw [shareFile, bind_eq_ok] at h
  obtain ⟨m, hm, h⟩ := h
  obtain ⟨hsize, rfl⟩ := createMetadataFromFile_eq_ok hf hm
  cases h
  exact ⟨⟨rfl, rfl, rfl, Finset.subset_insert _ _⟩, Finset.mem_insert_self _ _, hsize,
    NotificationInterface.posts_sendNotification ..⟩

/-- **All are shared,** and the end is sent. -/
theorem runSteps_shareFile {dest : String} {files : List String} {s t : Site σ}
    (hfiles : ∀ f ∈ files, RecordedPath f)
    (h : runSteps (files.map (shareFile p o dest) ++
      [fun s => .ok (s.send p .transferMetadata s.client.clientId dest dest "end")]) s =
        (t, none)) :
    SharesFrom s t ∧
      (∀ f ∈ files, f ∈ t.client.availableFiles ∧ o.fileSize f = .ok (sizeOfFile o f)) ∧
      s.client.connections.Posts s.world
        ((sharedMessages p o s.client dest files).map fun n => (dest, n)) t.world := by
  induction files generalizing s with
  | nil =>
      obtain ⟨u, hu, h⟩ := runSteps_cons_eq_none.1 h
      cases hu
      cases h
      refine ⟨⟨rfl, rfl, rfl, Finset.Subset.refl _⟩, fun f hf => absurd hf List.not_mem_nil, ?_⟩
      exact NotificationInterface.posts_sendNotification ..
  | cons f files ih =>
      obtain ⟨hf, hfiles⟩ := List.forall_mem_cons.1 hfiles
      obtain ⟨u, hu, h⟩ := runSteps_cons_eq_none.1 h
      obtain ⟨hfrom, hmem, hsize, hpost⟩ := shareFile_eq_ok hf hu
      obtain ⟨hrest, hall, hposts⟩ := ih hfiles h
      rw [hfrom.connections_eq, sharedMessages, hfrom.clientId_eq, hfrom.listeningIp_eq] at hposts
      refine ⟨⟨hrest.clientId_eq.trans hfrom.clientId_eq,
        hrest.listeningIp_eq.trans hfrom.listeningIp_eq,
        hrest.connections_eq.trans hfrom.connections_eq,
        hfrom.files_subset.trans hrest.files_subset⟩, ?_, hpost.trans hposts⟩
      exact List.forall_mem_cons.2 ⟨⟨hrest.files_subset hmem, hsize⟩, hall⟩

/-- A scan leaves what the client is known by. -/
theorem sharesFrom_of_becomes {s t : Site σ} (h : s.Becomes t) :
    t.client.clientId = s.client.clientId ∧ t.client.listeningIp = s.client.listeningIp := by
  refine h.rel (R := fun s t => t.client.clientId = s.client.clientId ∧
    t.client.listeningIp = s.client.listeningIp) (fun _ => ⟨rfl, rfl⟩)
    (fun _ _ _ h₁ h₂ => ⟨h₂.1.trans h₁.1, h₂.2.trans h₁.2⟩) fun s t halters => ?_
  cases halters <;> exact ⟨rfl, rfl⟩

end Site

/-! ## What a bookkeeper takes down -/

namespace Bookkeeper

/-- What `request_connection_and_available_files` sends to a client. -/
def connectionRequest (bookkeeperId client : String) : NotificationData :=
  ⟨bookkeeperId, client, notificationToString .connectionRequest, bookkeeperId⟩

/-- `request_connection_and_available_files`. -/
def requestConnectionAndAvailableFiles (ni : NotificationInterface) (env : Env)
    (bookkeeperId client : String) (w : World) : World :=
  (ni.sendNotification env .connectionRequest bookkeeperId client client bookkeeperId 1 w).1

variable {cwd : String} {parse : String → Option Json} {b : Bookkeeper}

theorem posts_requestConnectionAndAvailableFiles (ni : NotificationInterface) (env : Env)
    (bookkeeperId client : String) (w : World) :
    ni.Posts w [(client, connectionRequest bookkeeperId client)]
      (requestConnectionAndAvailableFiles ni env bookkeeperId client w) :=
  NotificationInterface.posts_sendNotification ..

/-- **What a run leaves,** from any store that a registry represents. -/
theorem exec_receive_of_rep {events : List (Event RecordId TransferMetadata String)}
    (hrep : Rep (Registry.run RecordId.group linkable .blank events) b) (l : List Receipt)
    (hwf : ∀ rc ∈ l, WellFormed cwd parse b.bookkeeperId rc.notif) :
    ∃ b', exec (Bookkeeper.receive cwd parse) b l = some b' ∧
      Rep (Registry.run RecordId.group linkable .blank
        (events ++ l.map fun rc => event cwd parse rc.notif)) b' := by
  induction l generalizing b events with
  | nil => exact ⟨b, rfl, by rwa [List.map_nil, List.append_nil]⟩
  | cons rc l ih =>
      obtain ⟨hrc, hwf⟩ := List.forall_mem_cons.1 hwf
      have htells := Registry.tells_run RecordId.group linkable TransferMetadata.blank events
      obtain ⟨b₁, hb₁, hid, hrep₁⟩ := hrep.receive rc hrc
        fun e he hlinked => htells.group_known he hlinked
      have hevents : (Registry.run RecordId.group linkable TransferMetadata.blank events).step
          RecordId.group linkable .blank (event cwd parse rc.notif) =
            Registry.run RecordId.group linkable .blank (events ++ [event cwd parse rc.notif]) := by
        rw [Registry.run, Registry.run, List.foldl_append]
        rfl
      rw [hevents] at hrep₁
      obtain ⟨b', hb', hrep'⟩ := ih hrep₁ (hid ▸ hwf)
      rw [List.append_assoc] at hrep'
      exact ⟨b', exec_cons_eq_some.2 ⟨b₁, hb₁, hb'⟩, hrep'⟩

/-- The records of a client, as the registry has them. -/
theorem Rep.clientRecords {r : Registry RecordId TransferMetadata String} (h : Rep r b)
    (client : String) :
    (b.clientView client).map (fun x => x.2.withoutClock) =
      (r.pairs fun x => decide (x.1 = client)).map Prod.snd := by
  rw [clientView, List.map_map, h.transfers client, Registry.pairs, List.map_map]
  exact map_places fun ptr e he => h.deref he

/-- A client that is not known yet has no records. -/
theorem Rep.not_mem_keys {r : Registry RecordId TransferMetadata String} (h : Rep r b)
    {client : String} (hnone : getOrNew [] client b.transfers = []) {x : RecordId}
    (hx : x.1 = client) : x ∉ r.keys := by
  intro hmem
  obtain ⟨e, he, hkey⟩ := List.mem_map.1 hmem
  obtain ⟨ptr, hptr⟩ := List.mem_iff_getElem?.1 he
  have hplace : ptr ∈ places (ofClient client) r.entries :=
    mem_places.2 ⟨e, hptr, decide_eq_true (hkey ▸ hx)⟩
  rw [← h.transfers client, hnone] at hplace
  cases hplace

/-- **A shared record is a report on a key of its own.** -/
theorem event_sharedNotification {p : Platform σ} {o : Outside σ} {ip : IPFormat}
    (hparse : ∀ j, parse (p.dump j) = some j) (hend : parse "end" = none) (hip : ip.WellFormed)
    (hdefault : ip ≠ .default) (cwd clientId bookkeeperId : String) {f : String}
    (hf : RecordedPath f) (hsize : sizeOfFile o f < 2 ^ 64) :
    event cwd parse (sharedNotification p clientId bookkeeperId (recordOf o ip f)) =
        .report (clientId, (recordOf o ip f).key)
          (reading cwd parse (p.dump ((recordOf o ip f).exportJson true))) ∧
      (reading cwd parse (p.dump ((recordOf o ip f).exportJson true)) .blank).withoutFlags =
        (recordOf o ip f).withoutFlags ∧
      WellFormed cwd parse bookkeeperId
        (sharedNotification p clientId bookkeeperId (recordOf o ip f)) := by
  have hblank : TransferMetadata.blank.Representable := by decide
  have hrepresentable : (recordOf o ip f).Representable := ⟨hsize, hblank.2⟩
  obtain ⟨m, hm, hflags⟩ := TransferMetadata.ofString_exportJson (hparse _) hrepresentable hf hip
    IPFormat.default_wellFormed hdefault (Ne.symm hdefault) cwd 0
  have hdata : p.dump ((recordOf o ip f).exportJson true) ≠ "end" := fun heq => by
    have hread := hparse ((recordOf o ip f).exportJson true)
    rw [heq, hend] at hread
    cases hread
  have hkey : m.key = (recordOf o ip f).key :=
    show m.withoutFlags.key = (recordOf o ip f).withoutFlags.key by rw [hflags]
  have hnamed : recordNamed cwd parse
      (sharedNotification p clientId bookkeeperId (recordOf o ip f)) =
        some (clientId, (recordOf o ip f).key) := by
    rw [recordNamed, if_pos ⟨rfl, hdata⟩, ← hkey]
    simp only [sharedNotification, hm]
  refine ⟨?_, ?_, ?_, ?_⟩
  · rw [event, hnamed]
    rfl
  · have hvalue : m.withoutClock =
        reading cwd parse (p.dump ((recordOf o ip f).exportJson true)) .blank :=
      reading_withoutClock (TransferMetadata.ofString_eq_ok.1 hm)
    rw [← hvalue]
    show m.withoutFlags.withoutClock = _
    rw [hflags]
    rfl
  · simp [accepts, sharedNotification, containsText_refl]
  · exact Or.inr ⟨rfl, Or.inr (by rw [hnamed]; rfl)⟩

theorem event_endNotification (cwd clientId bookkeeperId : String) :
    event cwd parse (endNotification clientId bookkeeperId) = .skip ∧
      WellFormed cwd parse bookkeeperId (endNotification clientId bookkeeperId) := by
  refine ⟨?_, ?_, Or.inr ⟨rfl, Or.inl rfl⟩⟩
  · simp [event, recordNamed, groupNamed, endNotification, notificationToString]
  · simp [accepts, endNotification, containsText_refl]

theorem fst_of_recordNamed {n : NotificationData} {x : RecordId}
    (h : recordNamed cwd parse n = some x) : x.1 = n.sourceId := by
  rw [recordNamed] at h
  split_ifs at h
  split at h
  · exact congrArg Prod.fst (Option.some.inj h).symm
  · cases h

/-- What others send is about other keys. -/
theorem reportOf_event_of_ne {client : String} {n : NotificationData} (h : n.sourceId ≠ client) :
    Event.reportOf (fun x : RecordId => decide (x.1 = client)) (event cwd parse n) = none := by
  cases hevent : event cwd parse n with
  | report x u =>
      have hx := fst_of_recordNamed (event_eq_report.1 hevent).1
      rw [Event.reportOf, if_neg (by simpa [hx] using h)]
  | _ => rfl

section Client

variable (cwd parse)

/-- What some messages report on the records of a client. -/
def clientReports (client : String) (msgs : List NotificationData) :
    List (RecordId × (TransferMetadata → TransferMetadata)) :=
  (msgs.map (event cwd parse)).filterMap (Event.reportOf fun x => decide (x.1 = client))

/-- The records of a client, from its messages. -/
def clientPairs (client : String) (msgs : List NotificationData) :
    List (RecordId × TransferMetadata) :=
  (clientReports cwd parse client msgs).foldl (Registry.tell .blank) []

end Client

/-- What is reported on the records of a client, it has sent. -/
theorem clientReports_filter (client : String) (l : List Receipt) :
    clientReports cwd parse client (l.map Receipt.notif) =
      clientReports cwd parse client
        ((l.filter fun rc => rc.notif.sourceId = client).map Receipt.notif) := by
  rw [clientReports, clientReports]
  induction l with
  | nil => rfl
  | cons rc l ih =>
      by_cases hrc : rc.notif.sourceId = client
      · rw [List.filter_cons_of_pos (by simpa using hrc), List.map_cons, List.map_cons,
          List.map_cons, List.map_cons, List.filterMap_cons, List.filterMap_cons, ih]
      · rw [List.filter_cons_of_neg (by simpa using hrc), List.map_cons, List.map_cons,
          List.filterMap_cons_none (reportOf_event_of_ne hrc), ih]

/-- **What a bookkeeper has of a client** that it did not know: what the client has sent it,
whatever else it is sent in between. -/
theorem exec_receive_client (hb : b.Represents) {client : String}
    (hunknown : getOrNew [] client b.transfers = []) {l : List Receipt}
    (hwf : ∀ rc ∈ l, WellFormed cwd parse b.bookkeeperId rc.notif) :
    ∃ b', exec (Bookkeeper.receive cwd parse) b l = some b' ∧
      (b'.clientView client).map (fun x => x.2.withoutClock) =
        (clientPairs cwd parse client
          ((l.filter fun rc => rc.notif.sourceId = client).map Receipt.notif)).map Prod.snd := by
  obtain ⟨events, hrep⟩ := hb
  obtain ⟨b', hb', hrep'⟩ := exec_receive_of_rep hrep l hwf
  refine ⟨b', hb', ?_⟩
  have hnone : (Registry.run RecordId.group linkable TransferMetadata.blank events).pairs
      (fun x : RecordId => decide (x.1 = client)) = [] := by
    rw [Registry.pairs, List.map_eq_nil_iff, List.filter_eq_nil_iff]
    intro e he hclient
    exact hrep.not_mem_keys hunknown (of_decide_eq_true hclient) (List.mem_map_of_mem he)
  rw [hrep'.clientRecords client, Registry.run, List.foldl_append, clientPairs,
    ← clientReports_filter, clientReports, List.map_map]
  refine congrArg (List.map Prod.snd) ((Registry.pairs_foldl_step _ _ _).trans ?_)
  exact congrArg (List.foldl (Registry.tell TransferMetadata.blank) · _) hnone

/-- The files that a client shares, as reports. -/
theorem clientReports_sharedMessages {p : Platform σ} {o : Outside σ} {c : TransferClient σ}
    (hparse : ∀ j, parse (p.dump j) = some j) (hend : parse "end" = none)
    (hip : c.listeningIp.WellFormed) (hdefault : c.listeningIp ≠ .default) (bookkeeperId : String)
    {files : List String} (hpaths : ∀ f ∈ files, RecordedPath f ∧ sizeOfFile o f < 2 ^ 64) :
    clientReports cwd parse c.clientId (sharedMessages p o c bookkeeperId files) =
      files.map fun f => ((c.clientId, (recordOf o c.listeningIp f).key),
        reading cwd parse (p.dump ((recordOf o c.listeningIp f).exportJson true))) := by
  rw [clientReports]
  induction files with
  | nil =>
      have hskip : event cwd parse (endNotification c.clientId bookkeeperId) = .skip :=
        (event_endNotification cwd c.clientId bookkeeperId).1
      simp [sharedMessages, hskip, Event.reportOf]
  | cons f files ih =>
      obtain ⟨⟨hf, hsize⟩, hpaths⟩ := List.forall_mem_cons.1 hpaths
      have hevent := (event_sharedNotification hparse hend hip hdefault cwd c.clientId
        bookkeeperId hf hsize).1
      have hreport : Event.reportOf (fun x : RecordId => decide (x.1 = c.clientId))
          (event cwd parse
            (sharedNotification p c.clientId bookkeeperId (recordOf o c.listeningIp f))) =
          some ((c.clientId, (recordOf o c.listeningIp f).key),
            reading cwd parse (p.dump ((recordOf o c.listeningIp f).exportJson true))) := by
        rw [hevent, Event.reportOf, if_pos (decide_eq_true rfl)]
      rw [sharedMessages, List.map_cons, List.cons_append, List.map_cons,
        List.filterMap_cons_some hreport, List.map_cons]
      exact congrArg _ (ih hpaths)

/-- **What a bookkeeper takes down of the files that a client shares,** among whatever else it
is sent: a record of each, in their order. -/
theorem exec_receive_shared {p : Platform σ} {o : Outside σ} {c : TransferClient σ}
    (hparse : ∀ j, parse (p.dump j) = some j) (hend : parse "end" = none)
    (hip : c.listeningIp.WellFormed) (hdefault : c.listeningIp ≠ .default) {files : List String}
    (hpaths : ∀ f ∈ files, RecordedPath f ∧ sizeOfFile o f < 2 ^ 64)
    (hdistinct : files.Pairwise fun f g => pathElements f ≠ pathElements g)
    (hb : b.Represents) (hunknown : getOrNew [] c.clientId b.transfers = []) {l : List Receipt}
    (hshared : (l.filter fun rc => rc.notif.sourceId = c.clientId).map Receipt.notif =
      sharedMessages p o c b.bookkeeperId files)
    (hothers : ∀ rc ∈ l, rc.notif.sourceId ≠ c.clientId →
      WellFormed cwd parse b.bookkeeperId rc.notif) :
    ∃ b', exec (Bookkeeper.receive cwd parse) b l = some b' ∧
      (b'.clientView c.clientId).map (fun x => x.2.withoutClock.withoutFlags) =
        files.map fun f => (recordOf o c.listeningIp f).withoutFlags := by
  have hwf : ∀ rc ∈ l, WellFormed cwd parse b.bookkeeperId rc.notif := by
    intro rc hrc
    by_cases hsource : rc.notif.sourceId = c.clientId
    · have hmem : rc.notif ∈ sharedMessages p o c b.bookkeeperId files := by
        rw [← hshared]
        exact List.mem_map_of_mem (List.mem_filter.2 ⟨hrc, decide_eq_true hsource⟩)
      rcases List.mem_append.1 hmem with hmem | hmem
      · obtain ⟨f, hf, heq⟩ := List.mem_map.1 hmem
        rw [← heq]
        exact (event_sharedNotification hparse hend hip hdefault cwd c.clientId b.bookkeeperId
          (hpaths f hf).1 (hpaths f hf).2).2.2
      · rw [List.mem_singleton.1 hmem]
        exact (event_endNotification cwd c.clientId b.bookkeeperId).2
    · exact hothers rc hrc hsource
  obtain ⟨b', hb', hview⟩ := exec_receive_client hb hunknown hwf
  refine ⟨b', hb', ?_⟩
  have hnodup : (files.map fun f => ((c.clientId, (recordOf o c.listeningIp f).key),
      reading cwd parse (p.dump ((recordOf o c.listeningIp f).exportJson true)))).Pairwise
        fun (x y : RecordId × (TransferMetadata → TransferMetadata)) => x.1 ≠ y.1 := by
    rw [List.pairwise_map]
    refine hdistinct.imp fun hne heq => hne ?_
    exact congrArg (fun x : RecordId => x.2.1) heq
  rw [hshared, clientPairs, clientReports_sharedMessages hparse hend hip hdefault _ hpaths,
    Registry.foldl_tell_of_new (fun x _ hx => List.not_mem_nil hx) hnodup, List.nil_append,
    List.map_map, List.map_map] at hview
  calc (b'.clientView c.clientId).map (fun x => x.2.withoutClock.withoutFlags)
      = ((b'.clientView c.clientId).map fun x => x.2.withoutClock).map
          TransferMetadata.withoutFlags := by rw [List.map_map]; rfl
    _ = files.map fun f => (reading cwd parse
          (p.dump ((recordOf o c.listeningIp f).exportJson true)) .blank).withoutFlags := by
        rw [hview, List.map_map]
        rfl
    _ = files.map fun f => (recordOf o c.listeningIp f).withoutFlags :=
        List.map_congr_left fun f hf =>
          (event_sharedNotification hparse hend hip hdefault cwd c.clientId b.bookkeeperId
            (hpaths f hf).1 (hpaths f hf).2).2.1

end Bookkeeper

/-! ## Result -/

namespace Site

/-- A connection request is answered in two parts, the scan and the sharing. -/
theorem answered {bookkeeperId client : String} {folder : Entry} {s t : Site σ}
    (h : s.actionOnReceiveNotification p o folder
      (Bookkeeper.connectionRequest bookkeeperId client) = (t, .ok true)) :
    ∃ q, exec (visitStep p o) (s, []) (folder.visits true) = some q ∧
      runSteps (q.2.map (shareFile p o bookkeeperId) ++ [fun s => .ok
        (s.send p .transferMetadata s.client.clientId bookkeeperId bookkeeperId "end")]) q.1 =
          (t, none) := by
  have hhandle : s.onConnectionRequest p o folder bookkeeperId = (t, none) := by
    have hkind : stringToNotification (notificationToString .connectionRequest) =
        some .connectionRequest := stringToNotification_notificationToString _
    simp only [actionOnReceiveNotification, Bookkeeper.connectionRequest, hkind, handle] at h
    split_ifs at h
    · cases (Prod.mk.inj h).2
    · rcases hr : s.onConnectionRequest p o folder bookkeeperId with ⟨u, _ | f⟩
      · rw [hr] at h
        rw [(Prod.mk.inj h).1]
      · rw [hr] at h
        cases (Prod.mk.inj h).2
  rw [onConnectionRequest] at hhandle
  rcases hscan : s.scanAvailableFiles p o true folder [] with ⟨q, _ | f⟩
  · rw [hscan] at hhandle
    exact ⟨q, scanAvailableFiles_eq_none_iff.1 hscan, hhandle⟩
  · rw [hscan] at hhandle
    cases (Prod.mk.inj hhandle).2

end Site

/-- **The discovery of a client's files.**  A bookkeeper that asks a client for its files posts
a connection request.  A client that answers it sends, after the scan, records of files of its
tree and `end`: of every file once that is no record file, each with its size and the client's
address.  A bookkeeper that did not know the client and reads all of it, in whatever order with
messages of others, has these records of the client in the end and no others. -/
theorem discovery {parse : String → Option Json} {s t : Site σ} {client listeningDir : String}
    {entries : List Entry} {b : Bookkeeper} (hparse : ∀ j, parse (p.dump j) = some j)
    (hend : parse "end" = none) (hip : s.client.listeningIp.WellFormed)
    (hdefault : s.client.listeningIp ≠ .default)
    (hsize : ∀ f size, o.fileSize f = .ok size → size < 2 ^ 64)
    (hpaths : ∀ f ∈ filesOf entries, RecordedPath f)
    (hdistinct : (filesOf entries).Pairwise fun f g => pathElements f ≠ pathElements g)
    (hrequest : s.actionOnReceiveNotification p o (.folder listeningDir entries)
      (Bookkeeper.connectionRequest b.bookkeeperId client) = (t, .ok true))
    (hb : b.Represents) (hunknown : getOrNew [] s.client.clientId b.transfers = []) :
    (∀ (ni : NotificationInterface) (env : Env) (w : World),
      ni.Posts w [(client, Bookkeeper.connectionRequest b.bookkeeperId client)]
        (Bookkeeper.requestConnectionAndAvailableFiles ni env b.bookkeeperId client w)) ∧
    ∃ (u : Site σ) (found : List String),
      s.scanAvailableFiles p o true (.folder listeningDir entries) [] = ((u, found), none) ∧
      found.Nodup ∧ found ⊆ filesOf entries ∧
      (∀ f ∈ filesOf entries, extension f ≠ ".tmetadata" → f ∈ found) ∧
      (∀ f ∈ found, f ∈ t.client.availableFiles ∧ o.fileSize f = .ok (sizeOfFile o f)) ∧
      u.client.connections.Posts u.world
        ((sharedMessages p o s.client b.bookkeeperId found).map fun n => (b.bookkeeperId, n))
        t.world ∧
      ∀ (cwd : String) (l : List Receipt),
        (l.filter fun rc => rc.notif.sourceId = s.client.clientId).map Receipt.notif =
          sharedMessages p o s.client b.bookkeeperId found →
        (∀ rc ∈ l, rc.notif.sourceId ≠ s.client.clientId →
          Bookkeeper.WellFormed cwd parse b.bookkeeperId rc.notif) →
        ∃ b', exec (Bookkeeper.receive cwd parse) b l = some b' ∧
          (b'.clientView s.client.clientId).map (fun x => x.2.withoutClock.withoutFlags) =
            found.map fun f => (recordOf o s.client.listeningIp f).withoutFlags := by
  obtain ⟨⟨u, found⟩, hscan, hshare⟩ := Site.answered hrequest
  obtain ⟨hid, hlistening⟩ := Site.sharesFrom_of_becomes
    (exec_rel (R := fun q q' : Site σ × List String => q.1.Becomes q'.1) (fun q => .refl q.1)
      (fun _ _ _ h₁ h₂ => h₁.trans h₂)
      (fun _ _ _ _ hstep => Site.becomes_visit (toOption_eq_some.1 hstep)) hscan)
  have hvisits : (((Entry.folder listeningDir entries).visits true).filterMap Visit.path?).Perm
      (filesOf entries) := by
    rw [Entry.visits]
    exact visited_perm entries
  have hdistinctVisits : DistinctPaths ((Entry.folder listeningDir entries).visits true) :=
    hvisits.symm.pairwise hdistinct fun hne => hne.symm
  obtain ⟨kept, hsub, hperm, hall⟩ := Site.exec_visits_found hscan hdistinctVisits
    fun path _ hseen => by
      obtain ⟨q, hq, -⟩ := hseen
      cases hq
  rw [List.append_nil] at hperm
  have hfound : found.Pairwise fun f g => pathElements f ≠ pathElements g :=
    hperm.symm.pairwise (hdistinctVisits.sublist hsub) fun hne => hne.symm
  have hsubset : found ⊆ filesOf entries := fun f hf =>
    hvisits.subset (hsub.subset (hperm.subset hf))
  obtain ⟨-, hshared, hposts⟩ := Site.runSteps_shareFile (fun f hf => hpaths f (hsubset hf)) hshare
  have hmessages : sharedMessages p o u.client b.bookkeeperId found =
      sharedMessages p o s.client b.bookkeeperId found := by
    rw [sharedMessages, sharedMessages, hid, hlistening]
  rw [hmessages] at hposts
  refine ⟨fun ni env w => Bookkeeper.posts_requestConnectionAndAvailableFiles ni env _ client w,
    u, found, Site.scanAvailableFiles_eq_none_iff.2 hscan, ?_, hsubset, fun f hf hext => ?_,
    hshared, hposts, fun cwd l hl hothers => ?_⟩
  · exact hfound.imp fun hne heq => hne (congrArg pathElements heq)
  · exact hperm.symm.subset (hall f (hvisits.symm.subset hf) hext)
  · refine Bookkeeper.exec_receive_shared hparse hend hip hdefault (fun f hf => ?_) hfound hb
      hunknown hl hothers
    exact ⟨hpaths f (hsubset hf), hsize f _ (hshared f hf).2⟩

/-- A client with an address. -/
def sharingClient : Site Unit := .plain "client1" ⟨"10.0.0.2", 5001⟩

/-- Two files, one of them in a folder inside. -/
def sharedTree : List Entry :=
  [.file "/data/raw0" "", .folder "/data/sub" [.file "/data/sub/raw1" ""]]

/-- What a bookkeeper receives of the client. -/
def sharedReceipts (found : List String) : List Receipt :=
  (sharedMessages .plain .plain sharingClient.client "bookkeeper" found).map fun n => ⟨n, 0, 0⟩

theorem discovery_two_files :
    ∃ (found : List String) (b' : Bookkeeper), (∀ f, f ∈ found ↔ f ∈ filesOf sharedTree) ∧
      exec (Bookkeeper.receive "/" JsonText.parse) (.new "bookkeeper") (sharedReceipts found) =
        some b' ∧
      (b'.clientView "client1").map (fun x => x.2.withoutClock.withoutFlags) =
        found.map fun f => (recordOf Outside.plain ⟨"10.0.0.2", 5001⟩ f).withoutFlags := by
  have hok : (sharingClient.actionOnReceiveNotification .plain .plain (.folder "/data" sharedTree)
      (Bookkeeper.connectionRequest "bookkeeper" "client1")).2 = .ok true := by decide +kernel
  have hip : IPFormat.new "10.0.0.2" 5001 = .ok ⟨"10.0.0.2", 5001⟩ := by decide +kernel
  obtain ⟨-, u, found, -, -, hsubset, hall, -, -, hreads⟩ :=
    discovery (b := .new "bookkeeper") (p := .plain) (o := .plain) (s := sharingClient)
      JsonText.parse_dump (by decide +kernel) (IPFormat.new_wellFormed hip) (by decide)
      (fun _ _ h => by cases h; decide) (by decide) (by decide) (Prod.ext rfl hok)
      ⟨[], Bookkeeper.rep_new "bookkeeper"⟩ rfl
  have hown : ∀ rc ∈ sharedReceipts found,
      rc.notif.sourceId = sharingClient.client.clientId := by
    intro rc hrc
    obtain ⟨n, hn, rfl⟩ := List.mem_map.1 hrc
    rcases List.mem_append.1 hn with hn | hn
    · obtain ⟨f, -, rfl⟩ := List.mem_map.1 hn
      rfl
    · rw [List.mem_singleton.1 hn]
      rfl
  have hfilter : ((sharedReceipts found).filter fun rc =>
        rc.notif.sourceId = sharingClient.client.clientId).map Receipt.notif =
      sharedMessages .plain .plain sharingClient.client "bookkeeper" found := by
    rw [List.filter_eq_self.2 fun rc hrc => decide_eq_true (hown rc hrc), sharedReceipts,
      List.map_map]
    exact List.map_id _
  obtain ⟨b', hb', hview⟩ := hreads "/" (sharedReceipts found) hfilter
    fun rc hrc hne => absurd (hown rc hrc) hne
  refine ⟨found, b', fun f => ⟨fun hf => hsubset hf, fun hf => hall f hf ?_⟩, hb', hview⟩
  have hplain : ∀ f ∈ filesOf sharedTree, extension f ≠ ".tmetadata" := by decide
  exact hplain f hf

end Transfer
end SNBModules
