import SNBModules.Transfer.BitTorrentWorker

/-!
# What the BitTorrent worker looks up

Source: `transfer_interface_bittorrent.cpp`, `do_work`, `upload_file`,
`download_file`, `resume_file` and `cancel_file`.

Each lookup of the worker is safe exactly when, at its moment, the last part of a call
to register or erase the name has registered it, and a turn of the loop at the label
`done` exactly when no call has erased its entry since the loop came to it
(`lookups_safe_iff`).  `upload_file` registers too late for the first, and
`cancel_file` erases whenever its second is over.
-/

namespace SNBModules
namespace Transfer

open Lib TransferSession

namespace BitTorrent

/-! ## The order of calls and lookups -/

/-- The parts of calls among the steps. -/
def Move.call? : Move → Option Action
  | call a => some a
  | _ => none

/-- The parts of calls of a run. -/
def calls (moves : List Move) : List Action := moves.filterMap Move.call?

/-- Whether a call has erased the name since the worker's last step. -/
def erasedSince (files : List TransferMetadata) (name : String) (moves : List Move) : Bool :=
  moves.foldl (fun erased move =>
    match move with
    | .call a => erased || a.registration files = some (name, none)
    | .vanish _ => erased
    | .pop .. | .stop _ | .work .. => false) false

/-- The name that a piece of work is looked up by is registered, and its entry has not
been erased. -/
structure Work.Registered (files : List TransferMetadata) (moves : List Move) (x : Work) :
    Prop where
  looked : ∀ name ∈ x.lookup?, (pointerAfter files name (calls moves)).isSome
  entry : ∀ name ∈ x.place?, erasedSince files name moves = false

/-- So it is with each piece of work when it is done. -/
def LookedUpWhileRegistered (files : List TransferMetadata) (moves : List Move) : Prop :=
  ∀ pre x throws now post, moves = pre ++ .work x throws now :: post → x.Registered files pre

/-! ## One piece of work -/

namespace Worker

/-- What a piece of work does not touch, when `rest` is left to do after it: the entries
of the map, the names of the files and what was asked of the library.  What is left then
are lookups, or the turn at an entry that is there. -/
structure Kept (w w' : Worker) : Prop where
  entries : w'.session.filenameToMetadata = w.session.filenameToMetadata
  names : nameOf w'.session.files = nameOf w.session.files
  lost : w'.lost = w.lost
  phase : w'.session.phase ≠ .fault
  behind : ∀ x ∈ w'.todo.tail, x.place? = none
  stands : ∀ name ∈ w'.place?, (getOrNew none name w.session.filenameToMetadata).isSome

/-- Nothing left to do is a turn of the loop at the label `done`. -/
def Straight (todo : List Work) : Prop := ∀ x ∈ todo, x.place? = none

theorem Straight.place? {w : Worker} (h : Straight w.todo) : w.place? = none := by
  rw [Worker.place?]
  cases htodo : w.todo with
  | nil => rfl
  | cons x rest => exact h x (htodo ▸ List.mem_cons_self)

/-- A piece of work that only changes records, with work left that is looked up. -/
theorem Kept.of_straight {w w' : Worker}
    (hentries : w'.session.filenameToMetadata = w.session.filenameToMetadata)
    (hnames : nameOf w'.session.files = nameOf w.session.files) (hlost : w'.lost = w.lost)
    (hphase : w'.session.phase ≠ .fault) (hw' : Straight w'.todo) : Kept w w' := by
  refine ⟨hentries, hnames, hlost, hphase, fun x hx => hw' x (List.mem_of_mem_tail hx),
    fun name hname => ?_⟩
  rw [hw'.place?] at hname
  cases hname

/-- A member of the map is found. -/
theorem isSome_of_mem {entries : List (String × Option ℕ)} (hfound : ∀ e ∈ entries, e.2.isSome)
    {e : String × Option ℕ} (he : e ∈ entries) : (getOrNew none e.1 entries).isSome := by
  rw [getOrNew]
  cases hl : entries.lookup e.1 with
  | none =>
      have hne := List.lookup_eq_none_iff.1 hl e he
      simp at hne
  | some p => exact hfound _ (mem_of_lookup hl)

/-- The loop comes to an entry that is there, or the worker leaves. -/
theorem goTo_kept {w w' : Worker} {e : Option (String × Option ℕ)}
    (hfound : ∀ e ∈ w.session.filenameToMetadata, e.2.isSome)
    (he : ∀ entry ∈ e, entry ∈ w.session.filenameToMetadata)
    (hentries : w'.session.filenameToMetadata = w.session.filenameToMetadata)
    (hnames : nameOf w'.session.files = nameOf w.session.files) (hlost : w'.lost = w.lost)
    (hphase : w'.session.phase ≠ .fault) : Kept w (w'.goTo e) := by
  cases e with
  | none =>
      exact Kept.of_straight hentries hnames hlost (fun h => Phase.noConfusion h)
        fun _ h => absurd h List.not_mem_nil
  | some entry =>
      refine ⟨hentries, hnames, hlost, hphase, fun _ h => absurd h List.not_mem_nil, ?_⟩
      intro name hname
      obtain rfl : entry.1 = name := Option.some.inj hname
      exact isSome_of_mem hfound (he entry rfl)

/-- **A piece of work that finds what it is looked up by,** and its entry, leaves the
map as it is. -/
theorem perform_kept (now : ℤ) (throws : Bool) {w : Worker} {x : Work}
    (hphase : w.session.phase = .working) (hw : Straight w.todo)
    (hfound : ∀ e ∈ w.session.filenameToMetadata, e.2.isSome)
    (hlook : ∀ name ∈ x.lookup?, (getOrNew none name w.session.filenameToMetadata).isSome)
    (hentry : ∀ name ∈ x.place?,
      w.lost = false ∧ (getOrNew none name w.session.filenameToMetadata).isSome) :
    Kept w (perform now throws w x) := by
  have hworking : w.session.phase ≠ .fault := by rw [hphase]; decide
  have hrefl : Kept w w := Kept.of_straight rfl rfl rfl hworking hw
  have hleave : Kept w w.leave :=
    Kept.of_straight rfl rfl rfl (fun h => Phase.noConfusion h) fun _ h => absurd h List.not_mem_nil
  have hmodify : ∀ (i : ℕ) {f : TransferMetadata → TransferMetadata}, KeepsPath f →
      Kept w (w.modify i f) := fun i f hf =>
    Kept.of_straight rfl (nameOf_modify hf w.session.files i) rfl hworking hw
  cases x with
  | saveResumeData t =>
      rw [perform]
      split_ifs
      · exact hleave
      · exact hrefl
  | setFinished t =>
      obtain ⟨i, hi⟩ := Option.isSome_iff_exists.1 (hlook t rfl)
      rw [perform, lookUp_of_some hi]
      exact hmodify i (setStatus_keepsPath now .finished)
  | fetch t =>
      obtain ⟨i, hi⟩ := Option.isSome_iff_exists.1 (hlook t rfl)
      rw [perform, lookUp_of_some hi]
      refine Kept.of_straight rfl rfl rfl hworking fun y hy => ?_
      rcases List.mem_cons.1 hy with rfl | hy
      · rfl
      · exact hw y hy
  | setSize t i =>
      obtain ⟨j, hj⟩ := Option.isSome_iff_exists.1 (hlook t rfl)
      rw [perform, lookUp_of_some hj]
      exact hmodify i fun m => rfl
  | checkEnd => exact Kept.of_straight rfl rfl rfl hworking hw
  | readStatus u =>
      obtain ⟨i, hi⟩ := Option.isSome_iff_exists.1 (hlook u.name rfl)
      rw [perform, lookUp_of_some hi]
      split_ifs
      · refine Kept.of_straight rfl rfl rfl hworking fun y hy => ?_
        rcases List.mem_append.1 hy with hy | hy
        · obtain ⟨status, -, rfl⟩ := Option.map_eq_some_iff.1 (Option.mem_toList.1 hy)
          rfl
        · exact hw y hy
      · exact hrefl
  | showStatus t status =>
      obtain ⟨i, hi⟩ := Option.isSome_iff_exists.1 (hlook t rfl)
      rw [perform, lookUp_of_some hi]
      exact hmodify i (setStatus_keepsPath now status)
  | setBytes u =>
      obtain ⟨i, hi⟩ := Option.isSome_iff_exists.1 (hlook u.name rfl)
      rw [perform, lookUp_of_some hi]
      exact hmodify i fun m => rfl
  | exit => exact goTo_kept hfound (fun e he => List.mem_of_mem_head? he) rfl rfl rfl hworking
  | close name =>
      obtain ⟨hlost, hsome⟩ := hentry name rfl
      obtain ⟨i, hi⟩ := Option.isSome_iff_exists.1 hsome
      rw [perform, hlost, if_neg Bool.false_ne_true, lookUp_of_some hi]
      refine ⟨rfl, nameOf_modify (State.closeFile_keepsPath _ now) w.session.files i, rfl, hworking,
        fun _ h => absurd h List.not_mem_nil, fun name' hname' => ?_⟩
      obtain rfl : name = name' := Option.some.inj hname'
      exact hsome
  | next name =>
      obtain ⟨hlost, -⟩ := hentry name rfl
      rw [perform, hlost, if_neg Bool.false_ne_true]
      split_ifs
      · exact hleave
      · exact goTo_kept hfound (fun e he => List.mem_of_find?_eq_some he) rfl rfl rfl hworking

/-- One that does not find it ends in a fault. -/
theorem perform_fault (now : ℤ) (throws : Bool) {w : Worker} {x : Work}
    (h : (∃ name ∈ x.lookup?, getOrNew none name w.session.filenameToMetadata = none) ∨
      (x.place?.isSome ∧ w.lost = true)) :
    (perform now throws w x).session.phase = .fault := by
  rcases h with ⟨name, hname, hnone⟩ | ⟨hentry, hlost⟩
  · cases x with
    | setFinished t | fetch t | setSize t i | showStatus t status =>
        obtain rfl : t = name := Option.some.inj hname
        exact lookUp_of_none hnone _
    | readStatus u | setBytes u =>
        obtain rfl : u.name = name := Option.some.inj hname
        exact lookUp_of_none hnone _
    | saveResumeData | checkEnd | exit | close | next => cases hname
  · cases x with
    | close name | next name =>
        rw [perform, hlost, if_pos rfl]
        rfl
    | saveResumeData | setFinished | fetch | setSize | checkEnd | readStatus | showStatus | setBytes
    | exit => cases hentry

/-! ## Runs -/

/-- The map as the calls have made it, and the worker as it stands in its loops. -/
structure Tracked (files : List TransferMetadata) (moves : List Move) (w : Worker) : Prop where
  pointers : ∀ name,
    getOrNew none name w.session.filenameToMetadata = pointerAfter files name (calls moves)
  found : ∀ e ∈ w.session.filenameToMetadata, e.2.isSome
  names : nameOf w.session.files = nameOf files
  behind : Straight w.todo.tail
  lost : ∀ name ∈ w.place?, w.lost = erasedSince files name moves
  astray : w.lost = true → w.place?.isSome
  stands : ∀ name ∈ w.place?, w.lost = false →
    (getOrNew none name w.session.filenameToMetadata).isSome

theorem tracked_start (isClient : Bool) (files : List TransferMetadata) :
    Tracked files [] (start isClient files) where
  pointers _ := rfl
  found _ h := absurd h List.not_mem_nil
  names := rfl
  behind _ h := absurd h List.not_mem_nil
  lost _ h := absurd h (Option.not_mem_none _)
  astray h := absurd h Bool.false_ne_true
  stands _ h := absurd h (Option.not_mem_none _)

theorem calls_concat (moves : List Move) (move : Move) :
    calls (moves ++ [move]) = calls moves ++ move.call?.toList := by
  rw [calls, calls, List.filterMap_append]
  cases move <;> rfl

/-- What the worker does as soon as it has an alert. -/
theorem begin_books (now : ℤ) (s : State) (a : Alert) : Books s (s.begin now a) none := by
  cases a <;> exact ⟨rfl, rfl, rfl, rfl⟩

theorem straight_work (done : Bool) (a : Alert) : Straight (a.work done) := by
  intro x hx
  cases a with
  | stateUpdate status =>
      obtain ⟨u, -, hu⟩ := List.mem_flatMap.1 hx
      simp only [List.mem_cons, List.not_mem_nil, or_false] at hu
      rcases hu with rfl | rfl <;> rfl
  | saveResumeData t | saveResumeDataFailed t =>
      cases done with
      | false => cases hx
      | true =>
          obtain rfl := List.mem_singleton.1 hx
          rfl
  | torrentPaused t | torrentFinished t | torrentError t =>
      simp only [Alert.work, List.mem_cons, List.not_mem_nil, or_false] at hx
      rcases hx with rfl | rfl | rfl | rfl <;> rfl
  | addTorrent | peerConnect | peerError | peerDisconnected => cases hx

theorem erasedSince_call (files : List TransferMetadata) (name : String) (moves : List Move)
    (a : Action) : erasedSince files name (moves ++ [.call a]) =
      (erasedSince files name moves || a.registration files = some (name, none)) := by
  rw [erasedSince, erasedSince, List.foldl_concat]

/-- A registration that does not erase the name leaves it found. -/
theorem isSome_under {name : String} {p : Option ℕ} {r : Option (String × Option ℕ)}
    (hp : p.isSome) (hr : r ≠ some (name, none)) : (under name p r).isSome := by
  cases r with
  | none => exact hp
  | some r =>
      obtain ⟨name', p'⟩ := r
      rw [under]
      split_ifs with hname
      · subst hname
        cases p' with
        | none => exact absurd rfl hr
        | some i => rfl
      · exact hp

namespace Tracked

variable {files : List TransferMetadata} {moves : List Move} {w : Worker}

/-- A part of a call. -/
theorem call (h : Tracked files moves w) {a : Action} (ha : a.file?.isSome) {s : State}
    (hs : BitTorrent.step w.session a = some s) (handles : Handles) :
    Tracked files (moves ++ [.call a])
      { w with session := s, lost := w.lost || w.erases a, handles := handles } := by
  have hb := books_of_call ha hs
  have hr := registration_congr h.names a
  have herases : ∀ name ∈ w.place?,
      w.erases a = decide (a.registration files = some (name, none)) := by
    intro name hname
    rw [erases, Option.mem_def.1 hname, Option.any_some, hr]
  refine ⟨fun name => ?_, ?_, hb.names.trans h.names, h.behind, fun name hname => ?_,
    fun hlost => ?_, fun name hname hlost => ?_⟩
  · rw [hb.entries, getOrNew_enter, h.pointers, hr, calls_concat, pointerAfter, pointerAfter,
      List.foldl_append]
    rfl
  · rw [hb.entries]
    exact isSome_of_mem_enter h.found
  · rw [erasedSince_call, ← h.lost name hname, ← herases name hname]
  · rcases (Bool.or_eq_true _ _).mp hlost with hlost | hlost
    · exact h.astray hlost
    · exact Option.isSome_of_any hlost
  · obtain ⟨hkept, hnot⟩ := Bool.or_eq_false_iff.1 hlost
    rw [hb.entries, getOrNew_enter]
    refine isSome_under (h.stands name hname hkept) fun herased => ?_
    rw [herases name hname, ← hr, decide_eq_false_iff_not] at hnot
    exact hnot herased

/-- What the worker has left to do when it begins with an alert, or to leave. -/
theorem straight (h : Tracked files moves w) (htodo : w.todo = []) {s : State}
    (hb : Books w.session s none) {todo : List Work} (hstraight : Straight todo) {move : Move}
    (hmove : move.call? = none) :
    Tracked files (moves ++ [move]) { w with session := s, todo := todo } := by
  have hnone : w.place? = none := by
    rw [place?, htodo]
    rfl
  have hlost : w.lost = false := by
    rw [← Bool.not_eq_true]
    intro hlost
    have hsome := h.astray hlost
    rw [hnone] at hsome
    cases hsome
  have hnone' : ({ w with session := s, todo := todo } : Worker).place? = none :=
    Straight.place? hstraight
  refine ⟨fun name => ?_, ?_, hb.names.trans h.names,
    fun x hx => hstraight x (List.mem_of_mem_tail hx), fun name hname => ?_, fun h => ?_,
    fun name hname => ?_⟩
  · rw [calls_concat, hmove, Option.toList_none, List.append_nil, ← h.pointers]
    exact congrArg _ hb.entries
  · rw [show ({ w with session := s, todo := todo } : Worker).session.filenameToMetadata =
      w.session.filenameToMetadata from hb.entries]
    exact h.found
  · rw [hnone'] at hname
    cases hname
  · exact absurd (hlost.symm.trans h) Bool.false_ne_true
  · rw [hnone'] at hname
    cases hname

/-- A piece of work that is looked up by what is registered. -/
theorem work (h : Tracked files moves w) {x : Work} {rest : List Work}
    (htodo : w.todo = x :: rest) (hphase : w.session.phase = .working)
    (hx : x.Registered files moves) (throws : Bool) (now : ℤ) :
    Kept { w with todo := rest } (perform now throws { w with todo := rest } x) ∧
      Tracked files (moves ++ [.work x throws now])
        (perform now throws { w with todo := rest } x) := by
  have hplace : w.place? = x.place? := by
    rw [place?, htodo]
    rfl
  have hrest : Straight rest := by
    have hbehind := h.behind
    rwa [htodo] at hbehind
  have hlost : w.lost = false := by
    cases hl : w.lost with
    | false => rfl
    | true =>
        obtain ⟨name, hname⟩ := Option.isSome_iff_exists.1 (h.astray hl)
        rw [← hl, h.lost name hname]
        exact hx.entry name (hplace ▸ hname)
  have hkept := perform_kept (w := { w with todo := rest }) (x := x) now throws hphase hrest h.found
    (fun name hname => h.pointers name ▸ hx.looked name hname)
    (fun name hname => ⟨hlost, h.stands name (hplace.symm ▸ hname) hlost⟩)
  refine ⟨hkept, fun name => ?_, ?_, hkept.names.trans h.names, hkept.behind, fun name hname => ?_,
    fun hl => ?_, fun name hname _ => ?_⟩
  · rw [calls_concat, show Move.call? (.work x throws now) = none from rfl, Option.toList_none,
      List.append_nil, ← h.pointers]
    exact congrArg _ hkept.entries
  · rw [hkept.entries]
    exact h.found
  · rw [hkept.lost, erasedSince, List.foldl_concat]
    exact hlost
  · exact absurd (hlost.symm.trans (hkept.lost.symm.trans hl)) Bool.false_ne_true
  · rw [hkept.entries]
    exact hkept.stands name hname

/-- One that is not ends in a fault. -/
theorem work_fault (h : Tracked files moves w) {x : Work} {rest : List Work}
    (htodo : w.todo = x :: rest) (hx : ¬ x.Registered files moves) (throws : Bool) (now : ℤ) :
    (perform now throws { w with todo := rest } x).session.phase = .fault := by
  have hplace : w.place? = x.place? := by
    rw [place?, htodo]
    rfl
  refine perform_fault now throws ?_
  by_contra hno
  obtain ⟨hlook, hentry⟩ := not_or.1 hno
  refine hx ⟨fun name hname => ?_, fun name hname => ?_⟩
  · rw [← h.pointers, Option.isSome_iff_ne_none]
    exact fun hnone => hlook ⟨name, hname, hnone⟩
  · rw [← h.lost name (hplace.symm ▸ hname), ← Bool.not_eq_true]
    exact fun hlost => hentry ⟨Option.isSome_of_mem hname, hlost⟩

/-- A torrent that the library lets go of. -/
theorem vanish (h : Tracked files moves w) (t : String) (handles : Handles) :
    Tracked files (moves ++ [.vanish t]) { w with handles := handles } := by
  refine ⟨fun name => ?_, h.found, h.names, h.behind, fun name hname => ?_, h.astray, h.stands⟩
  · rw [calls_concat, show Move.call? (.vanish t) = none from rfl, Option.toList_none,
      List.append_nil]
    exact h.pointers name
  · rw [erasedSince, List.foldl_concat]
    exact h.lost name hname

/-- **One step,** which is looked up by what is registered if it is a piece of work. -/
theorem step (h : Tracked files moves w) (hsafe : w.session.phase ≠ .fault) {move : Move}
    {w' : Worker} (hstep : Worker.step w move = some w')
    (hx : ∀ x throws now, move = .work x throws now → x.Registered files moves) :
    Tracked files (moves ++ [move]) w' ∧ w'.session.phase ≠ .fault := by
  rcases step_cases hstep with ⟨a, s, rfl, ha, hs, rfl⟩ | ⟨t, handles, rfl, rfl⟩ |
      ⟨a, now, rfl, hphase, htodo, rfl⟩ | ⟨handles, rfl, hphase, htodo, rfl⟩ |
      ⟨x, throws, now, rest, rfl, htodo, hphase, rfl⟩
  · exact ⟨h.call ha hs _, (books_of_call ha hs).phase.symm ▸ hsafe⟩
  · exact ⟨h.vanish t handles, hsafe⟩
  · have hb := begin_books now w.session a
    exact ⟨h.straight htodo (s := { w.session.begin now a with
      torrents := (w.session.begin now a).torrents.tell a })
      ⟨hb.entries, hb.names, hb.isClient, hb.phase⟩ (straight_work _ a) rfl,
      hb.phase.symm ▸ hsafe⟩
  · refine ⟨h.straight htodo ⟨rfl, rfl, rfl, rfl⟩ (fun x hx => ?_) rfl, hsafe⟩
    rcases List.mem_append.1 hx with hx | hx
    · obtain ⟨t, -, rfl⟩ := List.mem_map.1 hx
      rfl
    · obtain rfl := List.mem_singleton.1 hx
      rfl
  · obtain ⟨hkept, hwork⟩ := h.work htodo hphase (hx x throws now rfl) throws now
    exact ⟨hwork, hkept.phase⟩

/-- A step that is not ends in a fault. -/
theorem step_fault (h : Tracked files moves w) {x : Work} {throws : Bool} {now : ℤ} {w' : Worker}
    (hstep : Worker.step w (.work x throws now) = some w') (hx : ¬ x.Registered files moves) :
    w'.session.phase = .fault := by
  rcases step_cases hstep with ⟨a, s, hmove, -⟩ | ⟨t, handles, hmove, -⟩ | ⟨a, now', hmove, -⟩ |
      ⟨handles, hmove, -⟩ | ⟨x', throws', now', rest, hmove, htodo, hphase, rfl⟩
  · cases hmove
  · cases hmove
  · cases hmove
  · cases hmove
  · cases hmove
    exact h.work_fault htodo hx throws now

end Tracked

theorem lookedUp_concat {files : List TransferMetadata} {moves : List Move} {move : Move} :
    LookedUpWhileRegistered files (moves ++ [move]) ↔ LookedUpWhileRegistered files moves ∧
      ∀ x throws now, move = .work x throws now → x.Registered files moves := by
  constructor
  · intro h
    refine ⟨fun pre x throws now post hmoves => ?_, fun x throws now hmove => ?_⟩
    · refine h pre x throws now (post ++ [move]) ?_
      rw [hmoves, List.append_assoc, List.cons_append]
    · exact h moves x throws now [] (by rw [hmove])
  · rintro ⟨h, hlast⟩ pre x throws now post hmoves
    rcases List.eq_nil_or_concat post with rfl | ⟨post, last, rfl⟩
    · obtain ⟨rfl, hmove⟩ := List.append_inj' hmoves rfl
      exact hlast x throws now (List.cons.inj hmove).1
    · rw [List.concat_eq_append, ← List.cons_append, ← List.append_assoc] at hmoves
      exact h pre x throws now post (List.append_inj' hmoves rfl).1

/-- A run whose lookups are of what is registered. -/
theorem tracked_of_exec {isClient : Bool} {files : List TransferMetadata} {moves : List Move}
    {w : Worker} (hrun : exec step (start isClient files) moves = some w)
    (h : LookedUpWhileRegistered files moves) :
    Tracked files moves w ∧ w.session.phase ≠ .fault := by
  induction moves using List.reverseRecOn generalizing w with
  | nil =>
      obtain rfl := Option.some.inj hrun
      exact ⟨tracked_start isClient files, fun hfault => Phase.noConfusion hfault⟩
  | append_singleton moves move ih =>
      obtain ⟨u, hu, hstep⟩ := exec_concat_eq_some.1 hrun
      obtain ⟨hbefore, hlast⟩ := lookedUp_concat.1 h
      obtain ⟨htracked, hsafe⟩ := ih hu hbefore
      exact htracked.step hsafe hstep hlast

/-- **The lookups of the worker are safe exactly when** each of them is of a name that
is registered.  For every interleaving of the parts of the calls of a session with the
pieces of the worker's handling of alerts, also of torrents that were removed: every
access to `m_filename_to_metadata` in the loop and at the exit finds an entry with a
pointer that is not null, if and only if, at each lookup, the last part of a call to
register the name or to erase it has registered it, and the exit stands at no entry that
is erased. -/
theorem lookups_safe_iff {isClient : Bool} {files : List TransferMetadata} {moves : List Move}
    {w : Worker} (hrun : exec step (start isClient files) moves = some w) :
    Always step (fun w => w.session.phase ≠ .fault) (start isClient files) moves ↔
      LookedUpWhileRegistered files moves := by
  rw [always_iff_initial]
  constructor
  · intro h
    induction moves using List.reverseRecOn generalizing w with
    | nil =>
        intro pre x throws now post hmoves
        exact absurd (List.append_eq_nil_iff.1 hmoves.symm).2 (List.cons_ne_nil _ _)
    | append_singleton moves move ih =>
        obtain ⟨u, hu, hstep⟩ := exec_concat_eq_some.1 hrun
        have hbefore := ih hu fun pre post t hmoves ht => by
          refine h pre (post ++ [move]) t ?_ ht
          rw [hmoves, List.append_assoc]
        refine lookedUp_concat.2 ⟨hbefore, ?_⟩
        rintro x throws now rfl
        by_contra hx
        exact h _ [] w (List.append_nil _).symm hrun
          ((tracked_of_exec hu hbefore).1.step_fault hstep hx)
  · intro h pre post t hmoves ht
    refine (tracked_of_exec ht fun pre' x throws now post' hpre => ?_).2
    refine h pre' x throws now (post' ++ post) ?_
    rw [hmoves, hpre, List.append_assoc, List.cons_append]

/-! ### Two files -/

/-- A download whose alerts come while it is registered, up to the end of its worker; the
magnet link of another one is refused meanwhile. -/
def servedDownload : List Move :=
  [.call (.download 0 1000), .call (.finish (.download 0) true 1000),
    .pop (.addTorrent "run1.raw") 1200,
    .pop (.stateUpdate [⟨"run1.raw", .downloading, 2048⟩]) 1400,
    .work (.readStatus ⟨"run1.raw", .downloading, 2048⟩) false 1400,
    .work (.showStatus "run1.raw" .downloading) false 1400, .call (.download 1 1400),
    .work (.setBytes ⟨"run1.raw", .downloading, 2048⟩) false 1400,
    .call (.finish (.download 1) false 2000), .pop (.torrentFinished "run1.raw") 3000,
    .work (.saveResumeData "run1.raw") false 3000, .work (.setFinished "run1.raw") false 3000,
    .work (.fetch "run1.raw") false 3000, .work (.setSize "run1.raw" 0) false 3000,
    .work .checkEnd false 3000, .pop (.saveResumeData "run1.raw") 3100,
    .work .exit false 3100, .work (.close "run1.raw") false 3100,
    .work (.next "run1.raw") false 3100]

/-- It is served. -/
theorem lookups_safe_iff_servedDownload :
    Always step (fun w => w.session.phase ≠ .fault) (start true twoFiles) servedDownload ∧
      LookedUpWhileRegistered twoFiles servedDownload := by
  have hsafe : Always step (fun w => w.session.phase ≠ .fault) (start true twoFiles)
      servedDownload := by decide +kernel
  have hrun : exec step (start true twoFiles) servedDownload =
      some ((exec step (start true twoFiles) servedDownload).get (by decide +kernel)) :=
    (Option.some_get _).symm
  exact ⟨hsafe, (lookups_safe_iff hrun).1 hsafe⟩

/-- A download that was added. -/
def added : List Move :=
  [.call (.download 0 1000), .call (.finish (.download 0) true 1000),
    .pop (.addTorrent "run1.raw") 1100]

/-- **Accesses to nothing:** an uploader is told of its torrent before `upload_file`
has registered the file; a downloader is told of one that `cancel_file` has erased, or
erases between two lookups of an alert; and the loop at the label `done` stands at an
entry that it erases. -/
theorem lookups_of_nothing :
    ¬ Always step (fun w => w.session.phase ≠ .fault) (start false twoFiles)
        [.call (.upload 0 true 1000), .pop (.addTorrent "run1.raw") 1100,
          .pop (.stateUpdate [⟨"run1.raw", .seeding, 4096⟩]) 1200,
          .work (.readStatus ⟨"run1.raw", .seeding, 4096⟩) false 1200] ∧
    ¬ Always step (fun w => w.session.phase ≠ .fault) (start true twoFiles)
        (added ++ [.call (.cancel 0 2000), .call (.finish (.cancel 0) true 3000),
          .pop (.stateUpdate [⟨"run1.raw", .downloading, 2048⟩]) 3000,
          .work (.readStatus ⟨"run1.raw", .downloading, 2048⟩) false 3000]) ∧
    ¬ Always step (fun w => w.session.phase ≠ .fault) (start true twoFiles)
        (added ++ [.call (.cancel 0 2000),
          .pop (.stateUpdate [⟨"run1.raw", .downloading, 2048⟩]) 3000,
          .work (.readStatus ⟨"run1.raw", .downloading, 2048⟩) false 3000,
          .call (.finish (.cancel 0) true 3000),
          .work (.showStatus "run1.raw" .downloading) false 3000]) ∧
    ¬ Always step (fun w => w.session.phase ≠ .fault) (start true twoFiles)
        (added ++ [.call (.cancel 0 2000), .stop [], .work .exit false 3000,
          .call (.finish (.cancel 0) true 3000), .work (.close "run1.raw") false 3000]) := by
  refine ⟨?_, ?_, ?_, ?_⟩ <;> decide +kernel

/-- The torrent is gone: `save_resume_data` throws, and the worker ends before a lookup. -/
example :
    ((exec step (start true twoFiles)
        (added ++ [.call (.cancel 0 2000), .vanish "run1.raw",
          .call (.finish (.cancel 0) true 3000), .pop (.torrentFinished "run1.raw") 3000,
          .work (.saveResumeData "run1.raw") true 3000])).map fun w =>
            (w.session.phase, w.todo)) = some (.left, []) := by
  decide +kernel

end Worker

end BitTorrent

end Transfer
end SNBModules
