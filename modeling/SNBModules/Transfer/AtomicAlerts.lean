import Mathlib.Data.String.Basic
import SNBModules.Transfer.BitTorrentWorker
import SNBModules.Transfer.FileOutline

/-!
# Alerts that nothing interrupts

Source: `transfer_interface_bittorrent.cpp`, `do_work`.

`BitTorrent.step` takes an alert as one step, and `Worker.step` a lookup.  When no part of
a call comes between the pieces of work that an alert leaves, these are the alert
(`reaches_handle`), so every run of the first machine that finds what it looks up is a run
of the second (`exec_of_exec`).
-/

namespace SNBModules
namespace Transfer

open Lib TransferSession

namespace BitTorrent

/-! ## Changes of a record -/

namespace State

/-- Changes that make the same of the record are the same. -/
theorem modify_congr {s : State} {i : ℕ} {f g : TransferMetadata → TransferMetadata}
    (h : ∀ m, s.files[i]? = some m → f m = g m) : s.modify i f = s.modify i g := by
  have hfiles : s.files.modify i f = s.files.modify i g := by
    refine List.ext_getElem? fun j => ?_
    rw [List.getElem?_modify, List.getElem?_modify]
    cases hj : s.files[j]? with
    | none => rfl
    | some m =>
        by_cases hij : i = j
        · subst hij
          simp [h m hj]
        · simp [hij]
  rw [modify, modify, hfiles]

theorem modify_modify (s : State) (i : ℕ) (f g : TransferMetadata → TransferMetadata) :
    (s.modify i f).modify i g = s.modify i (g ∘ f) := by
  rw [modify, modify, modify]
  dsimp only
  rw [List.modify_modify_eq]

end State

namespace Worker

/-! ## The work of one alert -/

/-- What comes next. -/
theorem reaches_work {w : Worker} {x : Work} {rest : List Work} (htodo : w.todo = x :: rest)
    (hphase : w.session.phase = .working) (hcan : w.can false x = true) (now : ℤ) :
    Reaches step w (perform now false { w with todo := rest } x) := by
  refine Reaches.single (a := .work x false now) ?_
  simp only [step, htodo, true_and]
  exact if_pos ⟨hphase, hcan⟩

/-- A record is shown what a `torrent_status` says when it is not `PAUSED`. -/
theorem isShown_eq {w : Worker} {i : ℕ} {m : TransferMetadata} (hm : w.session.files[i]? = some m) :
    w.isShown i = decide (m.status ≠ .paused) := by
  rw [isShown, hm, Option.any_some]

/-- The last lookup of a turn over a `state_update_alert`. -/
theorem reaches_setBytes (now : ℤ) {w : Worker} {u : TorrentStatus} {rest : List Work} {i : ℕ}
    (htodo : w.todo = .setBytes u :: rest) (hphase : w.session.phase = .working)
    (hi : getOrNew none u.name w.session.filenameToMetadata = some i) :
    Reaches step w { w with
      session := w.session.modify i (·.setBytesTransferred u.totalDone), todo := rest } := by
  have h := reaches_work htodo hphase rfl now
  rw [perform, lookUp_of_some (w := { w with todo := rest }) hi] at h
  exact h

/-- One turn. -/
theorem reaches_update (now : ℤ) {w : Worker} {u : TorrentStatus} {rest : List Work} {i : ℕ}
    (htodo : w.todo = .readStatus u :: .setBytes u :: rest)
    (hphase : w.session.phase = .working)
    (hi : getOrNew none u.name w.session.filenameToMetadata = some i) :
    Reaches step w { w with
      session := w.session.modify i (State.readStatus w.session.isClient now u)
      todo := rest } := by
  have hread := reaches_work htodo hphase rfl now
  rw [perform, lookUp_of_some (w := { w with todo := .setBytes u :: rest }) hi] at hread
  by_cases hskip : ∀ m, w.session.files[i]? = some m →
      m.status = .paused ∨ State.shownAs w.session.isClient u.state = none
  · -- no status is set
    have hcongr : w.session.modify i (State.readStatus w.session.isClient now u) =
        w.session.modify i (·.setBytesTransferred u.totalDone) := by
      refine State.modify_congr fun m hm => ?_
      rcases hskip m hm with hpaused | hnone
      · simp [State.readStatus, hpaused]
      · simp [State.readStatus, hnone]
    rw [hcongr]
    refine Reaches.trans ?_ (reaches_setBytes (w := { w with todo := .setBytes u :: rest }) now rfl
      hphase hi)
    split_ifs at hread with hshown
    · cases hm : w.session.files[i]? with
      | none =>
          have hnot : w.isShown i = false := by rw [isShown, hm, Option.any_none]
          exact absurd (hnot.symm.trans hshown) Bool.false_ne_true
      | some m =>
          have hstatus : m.status ≠ .paused := of_decide_eq_true ((isShown_eq hm).symm.trans hshown)
          rw [(hskip m hm).resolve_left hstatus] at hread
          exact hread
    · exact hread
  · -- one is
    obtain ⟨m, hm⟩ := not_forall.1 hskip
    obtain ⟨hm, hnot⟩ := Classical.not_imp.1 hm
    obtain ⟨hstatus, hshow⟩ := not_or.1 hnot
    obtain ⟨status, hshow⟩ := Option.ne_none_iff_exists'.1 hshow
    have hshown : ({ w with todo := .setBytes u :: rest } : Worker).isShown i = true :=
      (isShown_eq hm).trans (decide_eq_true hstatus)
    have hcongr : w.session.modify i (State.readStatus w.session.isClient now u) =
        (w.session.modify i (·.setStatus now status)).modify i
          (·.setBytesTransferred u.totalDone) := by
      rw [State.modify_modify]
      refine State.modify_congr fun m' hm' => ?_
      obtain rfl : m = m' := Option.some.inj (hm.symm.trans hm')
      simp [State.readStatus, hshow, hstatus]
    rw [if_pos hshown, hshow] at hread
    have hset := reaches_work (w := { w with
      todo := .showStatus u.name status :: .setBytes u :: rest }) rfl hphase rfl now
    rw [perform, lookUp_of_some (w := { w with todo := .setBytes u :: rest }) hi] at hset
    rw [hcongr]
    exact (hread.trans hset).trans (reaches_setBytes (w := { w with
      session := w.session.modify i (·.setStatus now status), todo := .setBytes u :: rest })
      now rfl hphase hi)

/-- The loop over a `state_update_alert`. -/
theorem reaches_updates (now : ℤ) {status : List TorrentStatus} {w : Worker}
    (htodo : w.todo = status.flatMap fun u => [.readStatus u, .setBytes u])
    (hphase : w.session.phase = .working)
    (hfound : ∀ u ∈ status, (getOrNew none u.name w.session.filenameToMetadata).isSome) :
    Reaches step w { w with
      session := status.foldl (State.updateFile now) w.session, todo := [] } := by
  induction status generalizing w with
  | nil =>
      have hw : w = { w with todo := [] } := by
        rw [List.flatMap_nil] at htodo
        rw [← htodo]
      rw [List.foldl_nil]
      exact hw ▸ Reaches.refl w
  | cons u status ih =>
      obtain ⟨i, hi⟩ := Option.isSome_iff_exists.1 (hfound u List.mem_cons_self)
      have hworking : w.session.phase ≠ .fault := by rw [hphase]; decide
      have hturn : State.updateFile now w.session u =
          w.session.modify i (State.readStatus w.session.isClient now u) := by
        rw [State.updateFile, if_neg hworking, State.withFile_of_some hi]
      rw [List.foldl_cons, hturn]
      refine (reaches_update now htodo hphase hi).trans ?_
      exact ih (w := { w with
        session := w.session.modify i (State.readStatus w.session.isClient now u)
        todo := status.flatMap fun u => [.readStatus u, .setBytes u] })
        rfl hphase fun v hv => hfound v (List.mem_cons_of_mem u hv)

/-- The work of a `torrent_finished_alert`. -/
theorem reaches_finish (now : ℤ) {w : Worker} {t : String} {i : ℕ}
    (htodo : w.todo = [.saveResumeData t, .setFinished t, .fetch t, .checkEnd])
    (hphase : w.session.phase = .working) (halive : t ∈ w.handles.alive)
    (hi : getOrNew none t w.session.filenameToMetadata = some i) :
    Reaches step w { w with
      session := (w.session.modify i (State.finishFile now)).checkEnd, todo := [] } := by
  have hsave := reaches_work htodo hphase (by simp [can, halive]) now
  rw [perform, if_neg Bool.false_ne_true] at hsave
  have hset := reaches_work (w := { w with todo := [.setFinished t, .fetch t, .checkEnd] }) rfl
    hphase rfl now
  rw [perform, lookUp_of_some (w := { w with todo := [.fetch t, .checkEnd] }) hi] at hset
  have hfetch := reaches_work (w := { w with
    session := w.session.modify i (·.setStatus now .finished), todo := [.fetch t, .checkEnd] }) rfl
    hphase rfl now
  rw [perform, lookUp_of_some (w := { w with
    session := w.session.modify i (·.setStatus now .finished), todo := [.checkEnd] }) hi] at hfetch
  have hsize := reaches_work (w := { w with
    session := w.session.modify i (·.setStatus now .finished)
    todo := [.setSize t i, .checkEnd] }) rfl hphase rfl now
  rw [perform, lookUp_of_some (w := { w with
    session := w.session.modify i (·.setStatus now .finished), todo := [.checkEnd] }) hi] at hsize
  -- the size is read from the record that it is set in
  have hcongr : (w.session.modify i (·.setStatus now .finished)).modify i
        (·.setBytesTransferred (({ w with
          session := w.session.modify i (·.setStatus now .finished)
          todo := [.checkEnd] } : Worker).size i)) =
      w.session.modify i (State.finishFile now) := by
    rw [State.modify_modify]
    refine State.modify_congr fun m hm => ?_
    have hsize : (w.session.files.modify i (·.setStatus now .finished))[i]? =
        some (m.setStatus now .finished) := by simp [hm]
    simp [State.finishFile, size, State.modify, hsize]
  have hend := reaches_work (w := { w with
    session := w.session.modify i (State.finishFile now), todo := [.checkEnd] }) rfl hphase rfl now
  refine (hsave.trans (hset.trans (hfetch.trans hsize))).trans ?_
  rw [modify, hcongr]
  exact hend

/-- The loop at the label `done`, from an entry on. -/
theorem reaches_close (now : ℤ) (pre : List (String × Option ℕ))
    {post : List (String × Option ℕ)} {w : Worker}
    (hentries : w.session.filenameToMetadata = pre ++ post)
    (hordered : KeysOrdered w.session.filenameToMetadata)
    (hfound : ∀ e ∈ w.session.filenameToMetadata, e.2.isSome) (hlost : w.lost = false)
    (hphase : w.session.phase = .working) :
    Reaches step (w.goTo post.head?) { w with
      session := post.foldl (State.closeEntry now) { w.session with phase := .left }
      todo := [] } := by
  induction post generalizing pre w with
  | nil => exact Reaches.refl _
  | cons e post ih =>
      have he : e ∈ w.session.filenameToMetadata := by rw [hentries]; simp
      obtain ⟨i, hi⟩ := Option.isSome_iff_exists.1 (hfound e he)
      have hlookup : getOrNew none e.1 w.session.filenameToMetadata = some i := by
        rw [getOrNew, hordered.lookup_of_mem he, Option.getD_some, hi]
      have hclose := reaches_work (w := { w with todo := [.close e.1] }) rfl hphase rfl now
      rw [perform, if_neg (by rw [hlost]; decide),
        lookUp_of_some (w := { w with todo := [] }) hlookup] at hclose
      have hnext := reaches_work (w := { w with
        session := w.session.modify i (State.closeFile w.session.isClient now)
        todo := [.next e.1] }) rfl hphase rfl now
      rw [perform, if_neg (by rw [hlost]; decide), if_neg Bool.false_ne_true] at hnext
      have hfind : (w.session.filenameToMetadata.find? fun e' => e.1 < e'.1) = post.head? := by
        rw [hentries] at hordered ⊢
        exact hordered.find?_next
      have hrest := ih (pre ++ [e])
        (w := { w with session := w.session.modify i (State.closeFile w.session.isClient now) })
        (by rw [List.append_assoc]; exact hentries) hordered hfound hlost hphase
      rw [← hfind] at hrest
      have hturn : State.closeEntry now { w.session with phase := .left } e =
          { w.session.modify i (State.closeFile w.session.isClient now) with phase := .left } := by
        rw [State.closeEntry, hi]
        rfl
      rw [List.foldl_cons, hturn]
      refine hclose.trans (hnext.trans ?_)
      exact hrest

/-- The way from the label `done`, when `m_done` is set. -/
theorem reaches_exit (now : ℤ) {w : Worker} (htodo : w.todo = [.exit])
    (hordered : KeysOrdered w.session.filenameToMetadata)
    (hfound : ∀ e ∈ w.session.filenameToMetadata, e.2.isSome) (hlost : w.lost = false)
    (hphase : w.session.phase = .working) :
    Reaches step w { w with
      session := { w.session with done := true }.leave now, todo := [] } := by
  have hexit := reaches_work htodo hphase rfl now
  rw [perform] at hexit
  refine hexit.trans ?_
  exact reaches_close (w := { w with session := { w.session with done := true }, todo := [] }) now
    [] rfl hordered hfound hlost hphase

/-! ## Actions -/

/-- The worker has nothing left to do, and its map and the torrents of the library are in
order. -/
structure Idle (s : State) (w : Worker) : Prop where
  session : w.session = s
  todo : w.todo = []
  lost : w.lost = false
  ordered : KeysOrdered s.filenameToMetadata
  found : ∀ e ∈ s.filenameToMetadata, e.2.isSome
  alive : ∀ t ∈ s.torrents.posted, t ∈ w.handles.alive

/-- **An alert that nothing interrupts** is a run of the worker. -/
theorem reaches_handle {s : State} {w : Worker} (hw : Idle s w) {a : Alert} {now : ℤ}
    (hphase : s.phase = .working) (htell : Tellable s.torrents a)
    (hsafe : (s.handle now a).phase ≠ .fault) :
    Reaches step w { w with
      session := { s.handle now a with torrents := (s.handle now a).torrents.tell a } } := by
  obtain ⟨rfl, htodo, hlost, hordered, hfound, halive⟩ := hw
  have hpop : Reaches step w { w with
      session := { w.session.begin now a with
        torrents := (w.session.begin now a).torrents.tell a }
      todo := a.work w.session.done } :=
    Reaches.single (a := .pop a now) (if_pos ⟨hphase, htodo, htell⟩)
  have hempty : ∀ s : State, ({ w with session := s } : Worker) =
      { w with session := s, todo := [] } := fun s => by rw [← htodo]
  rw [hempty]
  cases a with
  | addTorrent t => exact hpop
  | peerConnect | peerError | peerDisconnected => exact hpop
  | torrentPaused t =>
      have hsave := reaches_work (w := { w with todo := [.saveResumeData t] }) rfl hphase
        (by simp [can, halive t (htell t List.mem_cons_self)]) now
      exact hpop.trans hsave
  | torrentFinished t =>
      obtain ⟨i, hi⟩ := Option.isSome_iff_exists.1 (isSome_of_handle hsafe t List.mem_cons_self)
      rw [State.handle, State.withFile_of_some hi]
      exact hpop.trans (reaches_finish (w := { w with
        session := { w.session with
          finishedTorrents := w.session.finishedTorrents + 1
          torrents := w.session.torrents.tell (.torrentFinished t) }
        todo := Alert.work w.session.done (.torrentFinished t) })
        now rfl hphase (halive t (htell t List.mem_cons_self)) hi)
  | torrentError t =>
      have hcheck := reaches_work (w := { w with
        session := { w.session with
          finishedTorrents := w.session.finishedTorrents + 1
          torrents := w.session.torrents.tell (.torrentError t) }
        todo := [.checkEnd, .saveResumeData t] }) rfl hphase rfl now
      have hsave := reaches_work (w := { w with
        session := { w.session.countEnd with
          torrents := w.session.torrents.tell (.torrentError t) }
        todo := [.saveResumeData t] }) rfl hphase
        (by simp [can, halive t (htell t List.mem_cons_self)]) now
      exact (hpop.trans hcheck).trans hsave
  | saveResumeData t | saveResumeDataFailed t =>
      cases hdone : w.session.done with
      | false =>
          rw [hdone] at hpop
          simp only [State.handle, hdone]
          exact hpop
      | true =>
          rw [hdone] at hpop
          have hset : ({ w.session with done := true } : State) = w.session := by rw [← hdone]
          have hexit := reaches_exit (w := { w with todo := [.exit] }) now rfl hordered hfound hlost
            hphase
          rw [show ({ w with todo := [.exit] } : Worker).session = w.session from rfl,
            hset] at hexit
          simp only [State.handle, hdone, if_true]
          exact hpop.trans hexit
  | stateUpdate status =>
      have hupdate := reaches_updates (w := { w with
        todo := Alert.work w.session.done (.stateUpdate status) }) now rfl hphase fun u hu =>
          isSome_of_handle hsafe u.name (List.mem_map_of_mem hu)
      exact hpop.trans hupdate

/-- The map stays in the order of the names. -/
theorem keysOrdered_enter {entries : List (String × Option ℕ)} (h : KeysOrdered entries)
    (r : Option (String × Option ℕ)) : KeysOrdered (enter r entries) := by
  cases r with
  | none => exact h
  | some r =>
      obtain ⟨name, p⟩ := r
      cases p with
      | none => exact h.remove name
      | some i => exact h.assign name (some i)

/-- What a part of a call asks of the library. -/
theorem posted_of_call {s t : State} {a : Action} (ha : a.file?.isSome)
    (h : BitTorrent.step s a = some t) :
    ∀ name ∈ t.torrents.posted, name ∈ s.torrents.posted ∨ a.posted s.files = some name := by
  intro name hname
  rcases BitTorrent.step_cases h with ⟨i, m, hi, hm, hcall⟩ |
      ⟨c, ok, now, name', rfl, -, hname', rfl⟩ | ⟨al, now, rfl, -⟩ | ⟨now, rfl, -⟩
  · cases a with
    | upload j loaded now =>
        cases hi
        simp only [call, Option.ite_none_right_eq_some, Option.some.injEq] at hcall
        obtain ⟨-, rfl⟩ := hcall
        cases loaded with
        | false => exact Or.inl hname
        | true =>
            refine (Finset.mem_insert.1 hname).symm.imp_right ?_
            rintro rfl
            rw [Action.posted, nameOf, hm]
            rfl
    | download j now | resumeThrows j now | cancel j now =>
        simp only [call, Option.ite_none_right_eq_some, Option.some.injEq] at hcall
        obtain ⟨-, rfl⟩ := hcall
        exact Or.inl hname
    | resume j found loaded now =>
        simp only [call, Option.ite_none_right_eq_some, Option.some.injEq] at hcall
        obtain ⟨-, rfl⟩ := hcall
        cases found <;> cases loaded <;> exact Or.inl hname
    | pause j found now =>
        simp only [call, Option.ite_none_right_eq_some, Option.some.injEq] at hcall
        obtain ⟨-, rfl⟩ := hcall
        cases found <;> exact Or.inl hname
    | finish c ok now | alert al now | stop now => cases hcall
  · cases c with
    | upload i | cancel i => exact Or.inl hname
    | download i =>
        cases ok with
        | false => exact Or.inl hname
        | true =>
            refine (Finset.mem_insert.1 hname).symm.imp_right ?_
            rintro rfl
            exact hname'
    | resume i =>
        refine (Finset.mem_insert.1 hname).symm.imp_right ?_
        rintro rfl
        exact hname'
  · cases ha
  · cases ha

/-- **An action that ends in no fault** is a run of the worker. -/
theorem reaches_of_step {s t : State} {a : Action} {w : Worker} (hw : Idle s w)
    (h : BitTorrent.step s a = some t) (ht : t.phase ≠ .fault) :
    ∃ w', Reaches step w w' ∧ Idle t w' := by
  cases ha : a.file? with
  | some i =>
      obtain ⟨rfl, htodo, hlost, hordered, hfound, halive⟩ := hw
      have hcall : a.file?.isSome := Option.isSome_of_eq_some ha
      have hb := books_of_call hcall h
      have herases : w.erases a = false := by
        rw [erases, place?, htodo]
        rfl
      refine ⟨_, Reaches.single (a := .call a) ((if_pos hcall).trans (congrArg _ h)),
        rfl, htodo, ?_, ?_, ?_, fun name hname => ?_⟩
      · rw [hlost, herases]
        rfl
      · rw [hb.entries]
        exact keysOrdered_enter hordered _
      · rw [hb.entries]
        exact isSome_of_mem_enter hfound
      · rcases posted_of_call hcall h name hname with hposted | hposted
        · exact List.mem_append_right _ (halive name hposted)
        · exact List.mem_append_left _ (Option.mem_toList.2 hposted)
  | none =>
      rcases BitTorrent.step_cases h with ⟨i, m, hi, -⟩ | ⟨c, ok, now, name, rfl, -⟩ |
          ⟨al, now, rfl, hphase, htell, rfl⟩ | ⟨now, rfl, hphase, rfl⟩
      · rw [ha] at hi
        cases hi
      · cases ha
      · have hf := State.handle_frame now hphase hw.found (isSome_of_handle ht)
        have hposted : (((s.handle now al).torrents.tell al).posted : Finset String) =
            s.torrents.posted := by
          rw [hf.torrents]
          cases al <;> rfl
        refine ⟨_, reaches_handle hw hphase htell ht, rfl, hw.todo, hw.lost, ?_, ?_, ?_⟩
        · exact hf.entries.symm ▸ hw.ordered
        · exact hf.entries.symm ▸ hw.found
        · intro name hname
          exact hw.alive name (hposted ▸ hname)
      · obtain ⟨rfl, htodo, hlost, hordered, hfound, halive⟩ := hw
        have hf := State.leave_frame now (s := { w.session with done := true }) hfound
        have hstop : Reaches step w { w with todo := [.exit] } :=
          Reaches.single (a := .stop [])
            (if_pos ⟨hphase, htodo, fun _ h => absurd h List.not_mem_nil⟩)
        refine ⟨_, hstop.trans (reaches_exit (w := { w with todo := [.exit] }) now rfl hordered
          hfound hlost hphase), rfl, rfl, hlost, ?_, ?_, ?_⟩
        · exact hf.entries.symm ▸ hordered
        · exact hf.entries.symm ▸ hfound
        · intro name hname
          exact halive name (hf.torrents ▸ hname)

/-- **The machine with alerts as one step is refined:** where one of its runs ends, if it
has not ended in a fault, a run of the worker ends too. -/
theorem exec_of_exec {isClient : Bool} {files : List TransferMetadata} {actions : List Action}
    {s : State} (h : exec BitTorrent.step (BitTorrent.start isClient files) actions = some s)
    (hs : s.phase ≠ .fault) : ∃ w, Reaches step (start isClient files) w ∧ w.session = s := by
  have hstart : Idle (BitTorrent.start isClient files) (start isClient files) :=
    ⟨rfl, rfl, rfl, keysOrdered_nil, fun _ h => absurd h List.not_mem_nil,
      fun _ h => absurd h (Finset.notMem_empty _)⟩
  have hsimulates : ∀ (s : State) (a : Action) (t : State) (w : Worker),
      (s.phase ≠ .fault → Idle s w) → BitTorrent.step s a = some t →
        ∃ w', Reaches step w w' ∧ (t.phase ≠ .fault → Idle t w') := by
    intro s a t w hR hstep
    by_cases ht : t.phase = .fault
    · exact ⟨w, Reaches.refl w, fun h => absurd ht h⟩
    · obtain ⟨w', hreach, hidle⟩ := reaches_of_step (hR (step_phase hstep ht)) hstep ht
      exact ⟨w', hreach, fun _ => hidle⟩
  obtain ⟨w, hw, hidle⟩ := exec_simulates hsimulates (fun _ => hstart) h
  exact ⟨w, hw, (hidle hs).session⟩

end Worker

end BitTorrent

end Transfer
end SNBModules
