import SNBModules.Transfer.BitTorrent

/-!
# What the calls enter for the BitTorrent worker

Source: `transfer_interface_bittorrent.cpp`, `upload_file`, `download_file`,
`resume_file` and `cancel_file`.

What `m_filename_to_metadata` has under a name is a matter of the calls alone: the
last of them that registers or erases the name decides (`pointerAfter`).
`download_file` and `resume_file` register before they add the torrent, but
`upload_file` adds it first, and `cancel_file` erases the name while alerts of the
torrent may still wait.
-/

namespace SNBModules
namespace Transfer

open Lib TransferSession

namespace BitTorrent

open State

/-! ## Registrations -/

/-- The entry that an action makes, as the pointer to a file, or erases. -/
def Action.registration (files : List TransferMetadata) : Action → Option (String × Option ℕ)
  | .download i _ | .resume i false true _ | .finish (.upload i) _ _ =>
      (nameOf files i).map fun name => (name, some i)
  | .finish (.download i) false _ | .finish (.cancel i) _ _ =>
      (nameOf files i).map fun name => (name, none)
  | _ => none

/-- The map after a registration. -/
def enter : Option (String × Option ℕ) → List (String × Option ℕ) → List (String × Option ℕ)
  | some (name, some i), entries => assign name (some i) entries
  | some (name, none), entries => remove name entries
  | none, entries => entries

/-- What is under a name after a registration, when `p` was before. -/
def under (name : String) (p : Option ℕ) : Option (String × Option ℕ) → Option ℕ
  | some (name', p') => if name = name' then p' else p
  | none => p

/-- The pointer that the actions leave under a name. -/
def pointerAfter (files : List TransferMetadata) (name : String) (actions : List Action) :
    Option ℕ :=
  actions.foldl (fun p a => under name p (a.registration files)) none

/-- The map has what it was told. -/
theorem getOrNew_enter (r : Option (String × Option ℕ)) (name : String)
    (entries : List (String × Option ℕ)) :
    getOrNew none name (enter r entries) = under name (getOrNew none name entries) r := by
  cases r with
  | none => rfl
  | some r =>
      obtain ⟨name', p⟩ := r
      cases p with
      | none =>
          rw [enter, under, getOrNew, lookup_remove]
          split_ifs <;> rfl
      | some i => exact getOrNew_assign none name' name (some i) entries

/-- No null pointer is entered. -/
theorem isSome_of_mem_enter {r : Option (String × Option ℕ)} {entries : List (String × Option ℕ)}
    (h : ∀ e ∈ entries, e.2.isSome) : ∀ e ∈ enter r entries, e.2.isSome := by
  intro e he
  cases r with
  | none => exact h e he
  | some r =>
      obtain ⟨name, p⟩ := r
      cases p with
      | none => exact h e (mem_remove.1 he).1
      | some i =>
          rcases mem_assign he with rfl | he
          · rfl
          · exact h e he

/-! ## One action -/

/-- The states differ in the calls that are going on, the torrents that are paused and
what the library was asked for, if at all. -/
def Alike (s t : State) : Prop :=
  ∃ pending paused posted,
    t = { s with
      pending := pending, paused := paused, torrents := { s.torrents with posted := posted } }

theorem Alike.refl (s : State) : Alike s s := ⟨s.pending, s.paused, s.torrents.posted, rfl⟩

theorem alike_await (c : Pending) (s : State) : Alike s (s.await c) :=
  ⟨c :: s.pending, s.paused, s.torrents.posted, rfl⟩

theorem alike_post (name : String) (s : State) : Alike s (s.post name) :=
  ⟨s.pending, s.paused, insert name s.torrents.posted, rfl⟩

theorem alike_paused (paused : ℤ) (s : State) : Alike s { s with paused := paused } :=
  ⟨s.pending, paused, s.torrents.posted, rfl⟩

theorem Alike.trans {s t u : State} (h : Alike s t) (h' : Alike t u) : Alike s u := by
  obtain ⟨_, _, _, rfl⟩ := h
  obtain ⟨pending, paused, posted, rfl⟩ := h'
  exact ⟨pending, paused, posted, rfl⟩

/-- **What the first part of a call does.**  The record was not `FINISHED` and gets
another status, and then the file is registered, or the call fails, or neither. -/
theorem call_cases {s s' : State} {m : TransferMetadata} {a : Action} {i : ℕ}
    (hi : a.file? = some i) (hm : s.files[i]? = some m) (h : call s m a = some s') :
    ∃ now status t, m.status ≠ .finished ∧ status ≠ .finished ∧
      Alike (s.modify i (·.setStatus now status)) t ∧
      (a.registration s.files = none ∧ (s' = t ∨ ∃ errorCode, s' = t.fail i now errorCode) ∨
        a.registration s.files = some (fileName m.filePath, some i) ∧
          s' = t.register (fileName m.filePath) i) := by
  have hname : nameOf s.files i = some (fileName m.filePath) := by rw [nameOf, hm]; rfl
  have hother : ∀ {status : Status}, m.status = status → status ≠ .finished →
      m.status ≠ .finished := fun h hne => h ▸ hne
  cases a with
  | upload j loaded now =>
      cases hi
      simp only [call, Option.ite_none_right_eq_some, Option.some.injEq] at h
      obtain ⟨hwaiting, rfl⟩ := h
      have hne := hother hwaiting (by decide)
      cases loaded with
      | true =>
          exact ⟨now, .uploading, _, hne, by decide, (alike_post _ _).trans (alike_await _ _),
            Or.inl ⟨rfl, Or.inl rfl⟩⟩
      | false =>
          exact ⟨now, .uploading, _, hne, by decide, Alike.refl _,
            Or.inl ⟨rfl, Or.inr ⟨"failed to add torrent to session", rfl⟩⟩⟩
  | download j now =>
      cases hi
      simp only [call, Option.ite_none_right_eq_some, Option.some.injEq] at h
      obtain ⟨hwaiting, rfl⟩ := h
      refine ⟨now, .downloading, _, hother hwaiting (by decide), by decide,
        alike_await (.download i) _, Or.inr ⟨?_, rfl⟩⟩
      rw [Action.registration, hname]
      rfl
  | resume j found loaded now =>
      cases hi
      simp only [call, Option.ite_none_right_eq_some, Option.some.injEq] at h
      obtain ⟨hpaused, rfl⟩ := h
      have hne := hother hpaused (by decide)
      have hne' : resumedStatus s.type ≠ .finished := by cases s.type <;> decide
      cases found with
      | true =>
          exact ⟨now, resumedStatus s.type, _, hne, hne', alike_paused (s.paused - 1) _,
            Or.inl ⟨rfl, Or.inl rfl⟩⟩
      | false =>
          cases loaded with
          | true =>
              refine ⟨now, resumedStatus s.type, _, hne, hne', alike_await (.resume i) _,
                Or.inr ⟨?_, rfl⟩⟩
              rw [Action.registration, hname]
              rfl
          | false =>
              exact ⟨now, resumedStatus s.type, _, hne, hne', Alike.refl _,
                Or.inl ⟨rfl, Or.inr ⟨"failed to load resume data", rfl⟩⟩⟩
  | resumeThrows j now =>
      cases hi
      simp only [call, Option.ite_none_right_eq_some, Option.some.injEq] at h
      obtain ⟨hpaused, rfl⟩ := h
      have hne' : resumedStatus s.type ≠ .finished := by cases s.type <;> decide
      exact ⟨now, resumedStatus s.type, _, hother hpaused (by decide), hne', Alike.refl _,
        Or.inl ⟨rfl, Or.inl rfl⟩⟩
  | cancel j now =>
      cases hi
      simp only [call, Option.ite_none_right_eq_some, Option.some.injEq] at h
      obtain ⟨hcancel, rfl⟩ := h
      have hne : m.status ≠ .finished := fun hfin => by
        rw [hfin] at hcancel
        exact absurd hcancel (by decide)
      exact ⟨now, .cancelled, _, hne, by decide, alike_await (.cancel i) _,
        Or.inl ⟨rfl, Or.inl rfl⟩⟩
  | pause j found now =>
      cases hi
      simp only [call, Option.ite_none_right_eq_some, Option.some.injEq] at h
      obtain ⟨hpause, rfl⟩ := h
      have hne : m.status ≠ .finished := fun hfin => by
        rw [hfin] at hpause
        exact absurd hpause (by decide)
      cases found with
      | true =>
          exact ⟨now, .paused, _, hne, by decide, alike_paused (s.paused + 1) _,
            Or.inl ⟨rfl, Or.inl rfl⟩⟩
      | false =>
          exact ⟨now, .paused, _, hne, by decide, Alike.refl _, Or.inl ⟨rfl, Or.inl rfl⟩⟩
  | finish c ok now => cases h
  | alert a now => cases h
  | stop now => cases h

/-- What a call does to the map, with the names of the files, the type of the session
and the worker as they were. -/
structure Books (s s' : State) (r : Option (String × Option ℕ)) : Prop where
  entries : s'.filenameToMetadata = enter r s.filenameToMetadata
  names : nameOf s'.files = nameOf s.files
  isClient : s'.isClient = s.isClient
  phase : s'.phase = s.phase

theorem fail_keepsPath (now : ℤ) (errorCode : String) :
    KeepsPath fun m => (m.setErrorCode errorCode).setStatus now .error :=
  fun m => setStatus_keepsPath now .error (m.setErrorCode errorCode)

/-- The first part of a call. -/
theorem call_books {s s' : State} {m : TransferMetadata} {a : Action} {i : ℕ}
    (hi : a.file? = some i) (hm : s.files[i]? = some m) (h : call s m a = some s') :
    Books s s' (a.registration s.files) := by
  obtain ⟨now, status, t, -, -, ⟨pending, paused, posted, rfl⟩, hcase⟩ := call_cases hi hm h
  have hstatus := nameOf_modify (setStatus_keepsPath now status) s.files i
  rcases hcase with ⟨hr, rfl | ⟨errorCode, rfl⟩⟩ | ⟨hr, rfl⟩
  · rw [hr]
    exact ⟨rfl, hstatus, rfl, rfl⟩
  · rw [hr]
    exact ⟨rfl, (nameOf_modify (fail_keepsPath now errorCode) _ i).trans hstatus, rfl, rfl⟩
  · rw [hr]
    exact ⟨rfl, hstatus, rfl, rfl⟩

/-- The second part of a call. -/
theorem complete_books {s : State} {c : Pending} {name : String}
    (hname : nameOf s.files c.file = some name) (ok : Bool) (now : ℤ) :
    Books s (complete s name ok now c) ((Action.finish c ok now).registration s.files) := by
  cases c with
  | upload i =>
      refine ⟨?_, rfl, rfl, rfl⟩
      rw [Action.registration, show nameOf s.files i = some name from hname]
      rfl
  | download i =>
      cases ok with
      | true => exact ⟨rfl, rfl, rfl, rfl⟩
      | false =>
          refine ⟨?_, nameOf_modify (fail_keepsPath now _) s.files i, rfl, rfl⟩
          rw [Action.registration, show nameOf s.files i = some name from hname]
          rfl
  | resume i => exact ⟨rfl, rfl, rfl, rfl⟩
  | cancel i =>
      refine ⟨?_, rfl, rfl, rfl⟩
      rw [Action.registration, show nameOf s.files i = some name from hname]
      rfl

/-- A part of a call books what it does. -/
theorem books_of_call {s s' : State} {a : Action} (ha : a.file?.isSome) (h : step s a = some s') :
    Books s s' (a.registration s.files) := by
  rcases step_cases h with ⟨i, m, hi, hm, hcall⟩ | ⟨c, ok, now, name, rfl, -, hname, rfl⟩ |
      ⟨al, now, rfl, -⟩ | ⟨now, rfl, -⟩
  · exact call_books hi hm hcall
  · have hb := complete_books (s := { s with pending := s.pending.erase c }) hname ok now
    exact ⟨hb.entries, hb.names, hb.isClient, hb.phase⟩
  · cases ha
  · cases ha

/-- No action leads out of a fault. -/
theorem step_phase {s s' : State} {a : Action} (h : step s a = some s') (hs' : s'.phase ≠ .fault) :
    s.phase ≠ .fault := by
  have hworking : s.phase = .working → s.phase ≠ .fault := fun hphase hfault =>
    Phase.noConfusion (hphase.symm.trans hfault)
  cases ha : a.file? with
  | some i => exact (books_of_call (Option.isSome_of_eq_some ha) h).phase ▸ hs'
  | none =>
      rcases step_cases h with ⟨i, m, hi, -⟩ | ⟨c, ok, now, name, rfl, -⟩ |
          ⟨al, now, rfl, hphase, -⟩ | ⟨now, rfl, hphase, -⟩
      · rw [ha] at hi
        cases hi
      · cases ha
      · exact hworking hphase
      · exact hworking hphase

/-- An alert that ends in no fault was looked up by names that are there. -/
theorem isSome_of_handle {now : ℤ} {a : Alert} {s : State}
    (h : (s.handle now a).phase ≠ .fault) :
    ∀ name ∈ a.lookups, (getOrNew none name s.filenameToMetadata).isSome := by
  intro name hname
  rw [Option.isSome_iff_ne_none]
  exact fun hnone => h (handle_missing now ⟨name, hname, hnone⟩)

/-- The names of the files are what a registration reads of them. -/
theorem registration_congr {files files' : List TransferMetadata}
    (h : nameOf files = nameOf files') (a : Action) :
    a.registration files = a.registration files' := by
  simp only [Action.registration, h]

/-! ### Two files -/

/-- The files of a session that has not begun. -/
def twoFiles : List TransferMetadata :=
  [{ TransferMetadata.blank with filePath := "/data/run1.raw", bytesSize := 4096 },
    { TransferMetadata.blank with filePath := "/data/run2.raw", bytesSize := 4096 }]

end BitTorrent

end Transfer
end SNBModules
