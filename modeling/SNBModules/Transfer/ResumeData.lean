import SNBModules.Transfer.TorrentSession

/-!
# Where resume data are

Source: `transfer_interface_bittorrent.cpp`, `do_work`, `load_file`, `resume_file` and
`cancel_file`.

The worker writes the resume data of a torrent to `.resume_file_` and its name, as the
message of `pause_file` has it.  `resume_file` and `cancel_file` look for
`.resume_file` and the name, without the underscore.  So the data are not found when
the torrent is gone, and stay where they are when it is cancelled, in every work
directory and under every name (`resume_data_lost`).
-/

namespace SNBModules
namespace Transfer

open Lib TransferSession

/-! ## Paths that differ -/

/-- A directory with the separator that `append` puts after it. -/
def withSeparator (dir : String) : String :=
  if dir = "" ∨ dir.toList.getLast? = some '/' then dir else dir ++ "/"

theorem appendPath_of_relative {name : String} (h : name.toList.head? ≠ some '/') (dir : String) :
    appendPath dir name = withSeparator dir ++ name := by
  rw [appendPath, if_neg h, withSeparator]
  split_ifs <;> rfl

/-- What is appended is not the longer for it when it is absolute. -/
theorem appendPath_length_le (dir name : String) :
    (appendPath dir name).length ≤ (withSeparator dir).length + name.length := by
  by_cases h : name.toList.head? = some '/'
  · rw [appendPath, if_pos h]
    omega
  · rw [appendPath_of_relative h, String.length_append]

/-- The elements of a path are made of what is no separator. -/
theorem flatten_pathElements (path : String) :
    (pathElements path).2.flatten = path.toList.filter (· ≠ '/') := by
  have hsplit : ∀ l : List Char, (l.splitOn '/').flatten = l.filter (· ≠ '/') := by
    intro l
    induction l with
    | nil => rfl
    | cons c l ih =>
        obtain ⟨d, r, hd⟩ := List.exists_cons_of_ne_nil (List.splitOn_ne_nil '/' l)
        rw [List.splitOn_cons_eq_if_modifyHead, List.filter_cons, ← ih, hd]
        by_cases hc : c = '/' <;> simp [hc]
  have hnames : ((path.toList.splitOn '/').filter (· ≠ [])).flatten =
      path.toList.filter (· ≠ '/') := by
    rw [← hsplit, List.flatten_filter_ne_nil]
  simp only [pathElements]
  split_ifs
  · rw [List.flatten_append, hnames]
    simp
  · exact hnames

namespace TorrentSession

/-- The underscore. -/
theorem savedPath_ne_loadedPath (workDir name : String) :
    pathElements (savedPath workDir name) ≠ pathElements (loadedPath workDir name) := by
  intro h
  have hlength := congrArg (fun e => e.2.flatten.length) h
  rw [savedPath, loadedPath, appendPath_of_relative (by simp), appendPath_of_relative (by simp)]
    at hlength
  simp [flatten_pathElements] at hlength

/-- The data of one torrent are where those of another one are looked for, if that has an
underscore before its name. -/
theorem savedPath_eq_loadedPath_iff (workDir torrent name : String) :
    savedPath workDir torrent = loadedPath workDir name ↔ name = "_" ++ torrent := by
  have hsplit : ".resume_file_" ++ torrent = ".resume_file" ++ ("_" ++ torrent) := by
    rw [← String.append_assoc]
    rfl
  rw [savedPath, loadedPath, appendPath_of_relative (by simp), appendPath_of_relative (by simp),
    hsplit]
  constructor
  · intro h
    exact (String.append_right_inj _).1 ((String.append_right_inj _).1 h) |>.symm
  · rintro rfl
    rfl

/-- What `cancel_file` removes is not where the data are. -/
theorem savedPath_ne_removed (workDir name : String) :
    savedPath workDir name ≠ removedPath workDir name ∧
      savedPath workDir name ≠ appendPath workDir name ∧
      savedPath workDir name ≠ appendPath workDir (name ++ ".torrent") := by
  have hsaved : (savedPath workDir name).length =
      (withSeparator workDir).length + (13 + name.length) := by
    rw [savedPath, appendPath_of_relative (by simp), String.length_append, String.length_append]
    rfl
  have hremoved := appendPath_length_le workDir (".resume_file" ++ name)
  have hfile := appendPath_length_le workDir name
  have htorrent := appendPath_length_le workDir (name ++ ".torrent")
  rw [String.length_append, show (".resume_file" : String).length = 12 from rfl] at hremoved
  rw [String.length_append, show (".torrent" : String).length = 8 from rfl] at htorrent
  refine ⟨fun h => ?_, fun h => ?_, fun h => ?_⟩
  · rw [h, removedPath] at hsaved
    omega
  · rw [h] at hsaved
    omega
  · rw [h] at hsaved
    omega

/-! ## Runs -/

/-- All resume data are where `do_work` writes them. -/
def SavedOnly (s : TorrentSession) : Prop :=
  ∀ e ∈ s.disk, ∀ t, e.2 = .resumeData t → e.1 = savedPath s.workDir t

theorem mem_leaveDisk {s : TorrentSession} {e : String × FileData} (h : e ∈ s.leaveDisk) :
    e ∈ s.disk := by
  have hfold : ∀ (entries : List (String × Option ℕ)) (disk : List (String × FileData)),
      e ∈ entries.foldl
          (fun disk e => remove (appendPath s.workDir (e.1 ++ ".torrent")) disk) disk →
        e ∈ disk := by
    intro entries
    induction entries with
    | nil => exact fun _ h => h
    | cons m entries ih => exact fun disk h => (mem_remove.1 (ih _ h)).1
  rw [leaveDisk] at h
  split_ifs at h
  · exact h
  · exact hfold _ _ h

/-- The session adds nothing to the work directory but the data of an alert. -/
theorem mem_diskAfter {s : TorrentSession} {a : BitTorrent.Action} {e : String × FileData}
    (h : e ∈ s.diskAfter a) :
    e ∈ s.disk ∨ ∃ t, e = (savedPath s.workDir t, .resumeData t) := by
  cases a with
  | alert al now =>
      cases al with
      | saveResumeData t =>
          have hmem : e ∈ assign (savedPath s.workDir t) (.resumeData t) s.disk := by
            simp only [diskAfter] at h
            split_ifs at h
            · exact mem_leaveDisk h
            · exact h
          exact (mem_assign hmem).symm.imp_right fun heq => ⟨t, heq⟩
      | saveResumeDataFailed t =>
          simp only [diskAfter] at h
          split_ifs at h
          · exact .inl (mem_leaveDisk h)
          · exact .inl h
      | addTorrent t | torrentPaused t | torrentFinished t | torrentError t => exact .inl h
      | peerConnect | peerError | peerDisconnected | stateUpdate => exact .inl h
  | stop now => exact .inl (mem_leaveDisk h)
  | finish c ok now =>
      cases c with
      | cancel i =>
          simp only [diskAfter] at h
          split at h
          · exact .inl h
          · split_ifs at h <;> exact .inl (mem_remove.1 (mem_remove.1 h).1).1
      | upload i | download i | resume i => exact .inl h
  | upload i loaded now | download i now | resume i found loaded now | resumeThrows i now
  | cancel i now | pause i found now => exact .inl h

/-- Resume data come from `do_work` alone. -/
theorem savedOnly_step {s s' : TorrentSession} {a : TorrentAction} (hs : SavedOnly s)
    (h : step s a = some s') : SavedOnly s' := by
  cases a with
  | session a =>
      obtain ⟨-, -, -, hdir, hdisk⟩ := step_session h
      intro e he t ht
      rw [hdisk] at he
      rw [hdir]
      rcases mem_diskAfter he with he | ⟨t', rfl⟩
      · exact hs e he t ht
      · cases ht
        rfl
  | enter t =>
      obtain rfl := Option.some.inj h
      exact hs
  | drop j | setPaused j paused =>
      simp only [step, Option.ite_none_right_eq_some, Option.some.injEq] at h
      obtain ⟨-, rfl⟩ := h
      exact hs
  | write path isEmpty =>
      obtain rfl := Option.some.inj h
      intro e he t ht
      rcases mem_assign he with rfl | he
      · cases isEmpty <;> cases ht
      · exact hs e he t ht
  | delete path =>
      obtain rfl := Option.some.inj h
      exact fun e he => hs e (mem_remove.1 he).1

/-- `cancel_file` leaves the resume data of its file. -/
theorem lookup_savedPath_cancel {s s' : TorrentSession} {i : ℕ} {ok : Bool} {now : ℤ}
    (h : step s (.session (.finish (.cancel i) ok now)) = some s') {name : String}
    (hname : BitTorrent.nameOf s.session.files i = some name) :
    s'.disk.lookup (savedPath s.workDir name) = s.disk.lookup (savedPath s.workDir name) := by
  obtain ⟨-, -, -, -, hdisk⟩ := step_session h
  obtain ⟨hremoved, hfile, htorrent⟩ := savedPath_ne_removed s.workDir name
  rw [hdisk, diskAfter, hname]
  dsimp only
  split_ifs
  · rw [lookup_remove, if_neg hfile, lookup_remove, if_neg hremoved]
  · rw [lookup_remove, if_neg htorrent, lookup_remove, if_neg hremoved]

/-- **Resume data are not found again,** in any work directory and under no name.  Over
every run from a work directory without resume data: what `resume_file` finds under the
name of its file, if it finds any, are the data of another torrent, and what was saved
for a file that is cancelled is still there afterwards. -/
theorem resume_data_lost (isClient : Bool) (files : List TransferMetadata) (workDir : String)
    (disk : List (String × FileData)) (hdisk : ∀ e ∈ disk, ∀ t, e.2 ≠ .resumeData t)
    {actions : List TorrentAction} {u : TorrentSession}
    (h : exec step (start isClient files workDir disk) actions = some u) (name : String) :
    (pathElements (savedPath workDir name) ≠ pathElements (loadedPath workDir name) ∧
        pathElements (savedPath workDir name) ≠ pathElements (removedPath workDir name)) ∧
      (∀ t, u.disk.lookup (loadedPath u.workDir name) = some (.resumeData t) →
        name = "_" ++ t ∧ t ≠ name) ∧
      ∀ i ok now u', BitTorrent.nameOf u.session.files i = some name →
        step u (.session (.finish (.cancel i) ok now)) = some u' →
          u'.disk.lookup (savedPath u.workDir name) =
            u.disk.lookup (savedPath u.workDir name) := by
  have hstart : SavedOnly (start isClient files workDir disk) :=
    fun e he t ht => absurd ht (hdisk e he t)
  have hsaved : SavedOnly u := exec_invariant (fun _ _ _ hs => savedOnly_step hs) hstart h
  refine ⟨⟨savedPath_ne_loadedPath workDir name, savedPath_ne_loadedPath workDir name⟩,
    fun t ht => ?_, fun i ok now u' hname hstep => lookup_savedPath_cancel hstep hname⟩
  have hpath := hsaved _ (mem_of_lookup ht) t rfl
  have hname := (savedPath_eq_loadedPath_iff u.workDir t name).1 hpath.symm
  refine ⟨hname, fun heq => ?_⟩
  have hlength := congrArg String.length hname
  rw [heq, String.length_append, show ("_" : String).length = 1 from rfl] at hlength
  omega

/-- The paused torrent is dropped. -/
def droppedRun : List TorrentAction :=
  pausedRun ++ [.session (.alert (.saveResumeData "run1.raw") 4000), .drop 0]

theorem resume_data_lost_dropped :
    ∃ u, exec step uploader droppedRun = some u ∧
      (pathElements (savedPath "/work" "run1.raw") ≠ pathElements (loadedPath "/work" "run1.raw") ∧
        pathElements (savedPath "/work" "run1.raw") ≠
          pathElements (removedPath "/work" "run1.raw")) ∧
      (∀ t, u.disk.lookup (loadedPath u.workDir "run1.raw") = some (.resumeData t) →
        "run1.raw" = "_" ++ t ∧ t ≠ "run1.raw") ∧
      ∀ i ok now u', BitTorrent.nameOf u.session.files i = some "run1.raw" →
        step u (.session (.finish (.cancel i) ok now)) = some u' →
          u'.disk.lookup (savedPath u.workDir "run1.raw") =
            u.disk.lookup (savedPath u.workDir "run1.raw") :=
  ⟨_, (Option.some_get (by decide +kernel)).symm,
    resume_data_lost false _ "/work" [] (fun _ h => absurd h List.not_mem_nil)
      (Option.some_get (by decide +kernel)).symm "run1.raw"⟩

/-- It cannot be resumed, and when it is cancelled its data stay. -/
theorem resume_throws_and_data_stay :
    ((exec step uploader (droppedRun ++ [.session (.resumeThrows 0 5000)])).isSome ∧
      ∀ found loaded, exec step uploader
        (droppedRun ++ [.session (.resume 0 found loaded 5000)]) = none) ∧
      (exec step uploader (droppedRun ++ [.session (.cancel 0 5000),
        .session (.finish (.cancel 0) true 6000)])).map TorrentSession.disk =
          some [("/work/.resume_file_run1.raw", .resumeData "run1.raw")] := by
  decide +kernel

end TorrentSession

end Transfer
end SNBModules
