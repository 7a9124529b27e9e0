import SNBModules.Transfer.BitTorrentCalls

/-!
# The BitTorrent worker, one lookup at a time

Source: `transfer_interface_bittorrent.cpp`, `do_work` and `cancel_file`.

Nothing keeps the calls away while `do_work` serves an alert: `cancel_file` can erase
a name between two of its lookups, or the entry at which the loop at the label `done`
stands.  So an alert is taken apart here.  The worker pops it and has then work left
to do, of which a step is one piece: a lookup, an entry of that loop, or a
`save_resume_data`.  The last throws when the library has let go of the torrent, and
the worker ends then without that loop.  `exec_of_step` has the actions of
`BitTorrent.step` as runs of such steps.

A call that throws between its two parts is one whose second part does not come.
-/

namespace SNBModules
namespace Transfer

open Lib TransferSession

namespace BitTorrent

/-! ## Work -/

/-- What is left to do for an alert, or before the worker leaves.  `fetch` is the
pointer that `set_bytes_transferred` is called through, and `setSize` the lookup of its
argument; `close` and `next` are a turn of the loop at the label `done`. -/
inductive Work where
  | saveResumeData (torrent : String)
  | setFinished (torrent : String)
  | fetch (torrent : String)
  | setSize (torrent : String) (i : ℕ)
  | checkEnd
  | readStatus (u : TorrentStatus)
  | showStatus (torrent : String) (status : Status)
  | setBytes (u : TorrentStatus)
  | exit
  | close (name : String)
  | next (name : String)
  deriving DecidableEq, Repr

namespace Work

/-- The name that a piece of work is looked up by. -/
def lookup? : Work → Option String
  | setFinished t | fetch t | setSize t _ | showStatus t _ => some t
  | readStatus u | setBytes u => some u.name
  | _ => none

/-- The entry that the loop at the label `done` stands at. -/
def place? : Work → Option String
  | close name | next name => some name
  | _ => none

end Work

/-- What an alert leaves to do. -/
def Alert.work (done : Bool) : Alert → List Work
  | torrentPaused t => [.saveResumeData t]
  | torrentFinished t => [.saveResumeData t, .setFinished t, .fetch t, .checkEnd]
  | torrentError t => [.checkEnd, .saveResumeData t]
  | saveResumeData _ | saveResumeDataFailed _ => if done then [.exit] else []
  | stateUpdate status => status.flatMap fun u => [.readStatus u, .setBytes u]
  | addTorrent _ | peerConnect | peerError | peerDisconnected => []

/-! ## The state -/

/-- The torrents behind the handles of the library: those that are there, those that
`cancel_file` has asked it to remove, and those that it has let go of. -/
structure Handles where
  alive : List String
  removing : List String
  gone : List String
  deriving DecidableEq

/-- A session with what its worker has left to do.  `lost` is set when the entry that
the loop at the label `done` stands at has been erased. -/
structure Worker where
  session : State
  todo : List Work
  lost : Bool
  handles : Handles
  deriving DecidableEq

namespace State

/-- What the worker does as soon as it has popped an alert. -/
def begin (now : ℤ) (s : State) : Alert → State
  | .torrentFinished _ | .torrentError _ =>
      { s with finishedTorrents := s.finishedTorrents + 1 }
  | .torrentPaused _ | .saveResumeData _ | .saveResumeDataFailed _ | .stateUpdate _ => s
  | a => s.handle now a

/-- `m_done`, if all torrents have ended. -/
def checkEnd (s : State) : State :=
  { s with done := s.done || (s.finishedTorrents = s.torrentNum && s.isClient) }

end State

namespace Worker

/-- A session before its first call. -/
def start (isClient : Bool) (files : List TransferMetadata) : Worker :=
  ⟨BitTorrent.start isClient files, [], false, ⟨[], [], []⟩⟩

/-! ## Pieces of work -/

/-- The worker uses a pointer that is null or an entry that is not there. -/
def fault (w : Worker) : Worker :=
  { w with session := { w.session with phase := .fault }, todo := [] }

/-- The worker ends. -/
def leave (w : Worker) : Worker :=
  { w with session := { w.session with phase := .left }, todo := [] }

/-- `m_filename_to_metadata[name]->`, with what is done with the pointer. -/
def lookUp (name : String) (w : Worker) (f : ℕ → Worker) : Worker :=
  match getOrNew none name w.session.filenameToMetadata with
  | some i => f i
  | none =>
      { w with
        session := { w.session with
          filenameToMetadata := assign name none w.session.filenameToMetadata } }.fault

/-- A lookup that finds a pointer. -/
theorem lookUp_of_some {name : String} {w : Worker} {i : ℕ}
    (h : getOrNew none name w.session.filenameToMetadata = some i) (f : ℕ → Worker) :
    w.lookUp name f = f i := by
  rw [lookUp, h]

/-- A lookup that finds none. -/
theorem lookUp_of_none {name : String} {w : Worker}
    (h : getOrNew none name w.session.filenameToMetadata = none) (f : ℕ → Worker) :
    (w.lookUp name f).session.phase = .fault := by
  rw [lookUp, h]
  rfl

/-- Work on a record of the session. -/
def modify (i : ℕ) (f : TransferMetadata → TransferMetadata) (w : Worker) : Worker :=
  { w with session := w.session.modify i f }

/-- `get_size` of a record. -/
def size (w : Worker) (i : ℕ) : ℕ := (w.session.files[i]?.map (·.bytesSize)).getD 0

/-- Whether a record is shown what a `torrent_status` says. -/
def isShown (w : Worker) (i : ℕ) : Bool := w.session.files[i]?.any (·.status ≠ .paused)

/-- The loop at the label `done` at an entry, or at its end. -/
def goTo (w : Worker) : Option (String × Option ℕ) → Worker
  | some e => { w with todo := [.close e.1] }
  | none => w.leave

/-- One piece of work, where `w` has left to do what comes after it. -/
def perform (now : ℤ) (throws : Bool) (w : Worker) : Work → Worker
  | .saveResumeData _ => if throws then w.leave else w
  | .setFinished t => w.lookUp t fun i => w.modify i (·.setStatus now .finished)
  | .fetch t => w.lookUp t fun i => { w with todo := .setSize t i :: w.todo }
  | .setSize t i => w.lookUp t fun j => w.modify i (·.setBytesTransferred (w.size j))
  | .checkEnd => { w with session := w.session.checkEnd }
  | .readStatus u => w.lookUp u.name fun i =>
      if w.isShown i then
        { w with
          todo := ((State.shownAs w.session.isClient u.state).map (.showStatus u.name)).toList ++
            w.todo }
      else w
  | .showStatus t status => w.lookUp t fun i => w.modify i (·.setStatus now status)
  | .setBytes u => w.lookUp u.name fun i => w.modify i (·.setBytesTransferred u.totalDone)
  | .exit =>
      { w with session := { w.session with done := true } }.goTo
        w.session.filenameToMetadata.head?
  | .close name =>
      if w.lost then w.fault
      else w.lookUp name fun i =>
        { w.modify i (State.closeFile w.session.isClient now) with todo := [.next name] }
  -- the name is read again for the torrent file of an uploader, and removing it may throw
  | .next name =>
      if w.lost then w.fault
      else if throws then w.leave
      else w.goTo (w.session.filenameToMetadata.find? fun e => name < e.1)

/-- Whether a piece of work can throw, and whether it can do without. -/
def can (w : Worker) (throws : Bool) : Work → Bool
  | .saveResumeData t => if throws then t ∈ w.handles.gone else t ∈ w.handles.alive
  | .next _ => !throws || !w.session.isClient
  | _ => !throws

end Worker

/-! ## Steps -/

/-- The torrent that an action hands to `async_add_torrent`. -/
def Action.posted (files : List TransferMetadata) : Action → Option String
  | .upload i true _ | .finish (.download i) true _ | .finish (.resume i) _ _ => nameOf files i
  | _ => none

/-- The torrent that an action asks the library to remove. -/
def Action.removed (files : List TransferMetadata) : Action → Option String
  | .cancel i _ => nameOf files i
  | _ => none

/-- The torrents after a part of a call. -/
def Handles.after (files : List TransferMetadata) (a : Action) (h : Handles) : Handles :=
  { h with
    alive := (a.posted files).toList ++ h.alive
    removing := (a.removed files).toList ++ h.removing }

/-- A part of a call, a torrent that the library lets go of, an alert that the worker
pops, the end of the session with the torrents that `get_torrents` has, or a piece of
work. -/
inductive Move where
  | call (a : Action)
  | vanish (torrent : String)
  | pop (a : Alert) (now : ℤ)
  | stop (handles : List String)
  | work (x : Work) (throws : Bool) (now : ℤ)
  deriving DecidableEq, Repr

namespace Worker

/-- The entry that the loop at the label `done` stands at, if the worker is there. -/
def place? (w : Worker) : Option String := w.todo.head?.bind Work.place?

/-- Whether a part of a call erases it. -/
def erases (w : Worker) (a : Action) : Bool :=
  w.place?.any fun name => a.registration w.session.files = some (name, none)

/-- One step. -/
def step (w : Worker) : Move → Option Worker
  | .call a =>
      if a.file?.isSome then
        (BitTorrent.step w.session a).map fun s =>
          { w with
            session := s
            lost := w.lost || w.erases a
            handles := w.handles.after w.session.files a }
      else none
  | .vanish t =>
      if t ∈ w.handles.removing ∧ t ∈ w.handles.alive then
        some { w with
          handles := { w.handles with
            alive := w.handles.alive.erase t, gone := t :: w.handles.gone } }
      else none
  | .pop a now =>
      if w.session.phase = .working ∧ w.todo = [] ∧ Tellable w.session.torrents a then
        let s := w.session.begin now a
        some { w with
          session := { s with torrents := s.torrents.tell a }
          todo := a.work w.session.done }
      else none
  | .stop handles =>
      if w.session.phase = .working ∧ w.todo = [] ∧ ∀ t ∈ handles, t ∈ w.handles.alive then
        some { w with todo := handles.map .saveResumeData ++ [.exit] }
      else none
  | .work x throws now =>
      match w.todo with
      | [] => none
      | y :: rest =>
          if x = y ∧ w.session.phase = .working ∧ w.can throws x then
            some (perform now throws { w with todo := rest } x)
          else none

/-- **What a step can be.** -/
theorem step_cases {w w' : Worker} {move : Move} (h : step w move = some w') :
    (∃ a s, move = .call a ∧ a.file?.isSome ∧ BitTorrent.step w.session a = some s ∧
      w' = { w with
        session := s
        lost := w.lost || w.erases a
        handles := w.handles.after w.session.files a }) ∨
    (∃ t handles, move = .vanish t ∧ w' = { w with handles := handles }) ∨
    (∃ a now, move = .pop a now ∧ w.session.phase = .working ∧ w.todo = [] ∧
      w' = { w with
        session := { w.session.begin now a with
          torrents := (w.session.begin now a).torrents.tell a }
        todo := a.work w.session.done }) ∨
    (∃ handles, move = .stop handles ∧ w.session.phase = .working ∧ w.todo = [] ∧
      w' = { w with todo := handles.map .saveResumeData ++ [.exit] }) ∨
    (∃ x throws now rest, move = .work x throws now ∧ w.todo = x :: rest ∧
      w.session.phase = .working ∧ w' = perform now throws { w with todo := rest } x) := by
  cases move with
  | call a =>
      simp only [step, Option.ite_none_right_eq_some, Option.map_eq_some_iff] at h
      obtain ⟨ha, s, hs, rfl⟩ := h
      exact Or.inl ⟨a, s, rfl, ha, hs, rfl⟩
  | vanish t =>
      simp only [step, Option.ite_none_right_eq_some, Option.some.injEq] at h
      obtain ⟨-, rfl⟩ := h
      exact Or.inr (Or.inl ⟨t, _, rfl, rfl⟩)
  | pop a now =>
      simp only [step, Option.ite_none_right_eq_some, Option.some.injEq] at h
      obtain ⟨⟨hphase, htodo, -⟩, rfl⟩ := h
      exact Or.inr (Or.inr (Or.inl ⟨a, now, rfl, hphase, htodo, rfl⟩))
  | stop handles =>
      simp only [step, Option.ite_none_right_eq_some, Option.some.injEq] at h
      obtain ⟨⟨hphase, htodo, -⟩, rfl⟩ := h
      exact Or.inr (Or.inr (Or.inr (Or.inl ⟨handles, rfl, hphase, htodo, rfl⟩)))
  | work x throws now =>
      rw [step] at h
      cases htodo : w.todo with
      | nil =>
          rw [htodo] at h
          cases h
      | cons y rest =>
          simp only [htodo, Option.ite_none_right_eq_some, Option.some.injEq] at h
          obtain ⟨⟨rfl, hphase, -⟩, rfl⟩ := h
          exact Or.inr (Or.inr (Or.inr (Or.inr ⟨x, throws, now, rest, rfl, rfl, hphase, rfl⟩)))

end Worker

end BitTorrent

end Transfer
end SNBModules
