import SNBModules.Transfer.BookkeeperUpdates
import SNBModules.Transfer.ExportImport
import SNBModules.Transfer.JsonText

/-!
# Replicas of a record

Source: `transfer_metadata.cpp`, `export_to_string_partial` and `from_string`;
the setters of `transfer_metadata.hpp`.

A replica starts from the full export of a record and reads the partial exports
that follow.  A partial export carries the flagged fields, and `set_status`
flags the status alone: the times that it writes at the sender are not sent, and
the `set_status` of the replica writes the clock of the replica instead.  The
replica agrees with the sender after every message exactly in the runs whose
messages carry what has changed and leave nothing to that clock
(`replica_converges_iff`).
-/

namespace SNBModules
namespace Transfer

open Lib

/-! ## What a message leaves -/

namespace TransferMetadata

/-- The addresses of `m` can be read, and the setters of `r` take them. -/
def accepts (r m : TransferMetadata) : Bool :=
  match IPFormat.new m.src.getIpPort 0, IPFormat.new m.dest.getIpPort 0 with
  | .ok src, .ok dest => src ≠ r.dest ∧ dest ≠ src
  | _, _ => false

/-- The fields of a message that are read before it is rejected, if it is: all
of them, those before the addresses, or none. -/
def arriving (cwd : String) (m r : TransferMetadata) (c : Finset Field) : Finset Field :=
  if (normalised cwd m.filePath).isOk then
    if r.accepts m then c else c.filter (· ∈ sizeFields)
  else ∅

/-- The value of a field that does not arrive: the one that the reader had, unless
a status has arrived that writes the field. -/
def kept (now : ℤ) (m r : TransferMetadata) (c : Finset Field) (x : Field) : Scalar :=
  if .status ∈ c then ((writtenTime now m.status r x).map Scalar.number).getD (r.value x)
  else r.value x

theorem dest_storeAll (now : ℤ) (m : TransferMetadata) (c : Finset Field) (l : List Field)
    (r : TransferMetadata) : (storeAll now m c l r).dest = r.dest := by
  have hstore : ∀ r x, (store now m r x).dest = r.dest := by
    intro r x
    cases x with
    | status =>
        simp only [store, setStatus, flag]
        split_ifs <;> rfl
    | _ => rfl
  induction l generalizing r with
  | nil => rfl
  | cons x l ih =>
      refine (ih _).trans ?_
      by_cases hx : x ∈ c <;> simp [hx, hstore]

/-- The times that a status writes depend on the times there are. -/
theorem kept_congr {r r' : TransferMetadata} {x : Field} (hx : r.value x = r'.value x)
    (hstart : r.value .startTime = r'.value .startTime)
    (hduration : r.value .duration = r'.value .duration) (now : ℤ) (m : TransferMetadata)
    (c : Finset Field) : kept now m r c x = kept now m r' c x := by
  have hstart : r.startTime = r'.startTime := Scalar.number.inj hstart
  have hduration : r.duration = r'.duration := Scalar.number.inj hduration
  have htime : writtenTime now m.status r x = writtenTime now m.status r' x := by
    cases x <;> simp [writtenTime, hstart, hduration]
  rw [kept, kept, htime, hx]

/-- No status writes the fields before the addresses. -/
theorem kept_of_mem_sizeFields {x : Field} (hx : x ∈ sizeFields) (now : ℤ)
    (m r : TransferMetadata) (c : Finset Field) : kept now m r c x = r.value x := by
  have htime : writtenTime now m.status r x = none := by
    cases x <;> first | rfl | simp [sizeFields] at hx
  simp [kept, htime]

section Addresses

variable {m r : TransferMetadata} {c : Finset Field} {j : Json}

theorem readMember_address {k text : String} (h : j.member? k = some (.string text))
    (put : IPFormat → TransferMetadata → Except Exn TransferMetadata) (r : TransferMetadata) :
    j.readMember k getAddress put r = IPFormat.new text 0 >>= fun a => put a r := by
  rw [Json.readMember, h]
  rfl

theorem addressSteps_of_accepts (hj : m.Carries c j) (h : r.accepts m = true) :
    ∃ src dest, runSteps (addressSteps j) r = ({ r with src, dest }, none) := by
  rw [accepts] at h
  cases hsrc : IPFormat.new m.src.getIpPort 0 with
  | error e => simp [hsrc] at h
  | ok src =>
      cases hdest : IPFormat.new m.dest.getIpPort 0 with
      | error e => simp [hsrc, hdest] at h
      | ok dest =>
          simp only [hsrc, hdest, decide_eq_true_eq] at h
          refine ⟨src, dest, ?_⟩
          rw [addressSteps, runSteps_cons_ok (t := { r with src }), runSteps_cons_ok]
          · rfl
          · rw [readMember_address hj.destination, hdest]
            exact setDest_eq_ok.2 ⟨h.2, rfl⟩
          · rw [readMember_address hj.source, hsrc]
            exact setSrc_eq_ok.2 ⟨h.1, rfl⟩

/-- Rejected addresses end the reading and leave the values. -/
theorem addressSteps_of_not_accepts (hj : m.Carries c j) (h : r.accepts m = false) :
    ∃ r' e, runSteps (addressSteps j) r = (r', some e) ∧ ∀ x, r'.value x = r.value x := by
  rw [accepts] at h
  cases hsrc : IPFormat.new m.src.getIpPort 0 with
  | error e =>
      refine ⟨r, e, runSteps_cons_error ?_, fun _ => rfl⟩
      rw [readMember_address hj.source, hsrc]
      rfl
  | ok src =>
      by_cases hne : src ≠ r.dest
      · have hset : j.readMember "source" getAddress setSrc r = .ok { r with src } := by
          rw [readMember_address hj.source, hsrc]
          exact setSrc_eq_ok.2 ⟨hne, rfl⟩
        have hvalue : ∀ x, ({ r with src } : TransferMetadata).value x = r.value x :=
          fun x => by cases x <;> rfl
        cases hdest : IPFormat.new m.dest.getIpPort 0 with
        | error e =>
            refine ⟨{ r with src }, e, ?_, hvalue⟩
            rw [addressSteps, runSteps_cons_ok hset]
            refine runSteps_cons_error ?_
            rw [readMember_address hj.destination, hdest]
            rfl
        | ok dest =>
            have heq : dest = src := by
              by_contra hd
              simp [hsrc, hdest, hne, hd] at h
            refine ⟨{ r with src },
              .invalidArgument "The destination cannot be equal to the source", ?_, hvalue⟩
            rw [addressSteps, runSteps_cons_ok hset]
            refine runSteps_cons_error ?_
            rw [readMember_address hj.destination, hdest]
            exact if_neg (not_not.2 heq)
      · refine ⟨r, .invalidArgument "The source cannot be equal to the destination",
          runSteps_cons_error ?_, fun _ => rfl⟩
        rw [readMember_address hj.source, hsrc]
        exact if_neg hne

end Addresses

section Message

variable {m : TransferMetadata} {c : Finset Field} {j : Json}

/-- The values after the status and the fields behind it. -/
theorem value_lateFields (now : ℤ) (m r : TransferMetadata) (c : Finset Field) (x : Field) :
    (storeAll now m c timeFields
        ((storeAll now m c [.status, .magnetLink] r).setGroupId m.groupId)).value x =
      if x ∈ c ∧ x ∉ sizeFields then m.value x else kept now m r c x := by
  have hgroup : ∀ r : TransferMetadata, (r.setGroupId m.groupId).value x = r.value x :=
    fun r => by cases x <;> rfl
  have hfirst : storeAll now m c [.status, .magnetLink] r =
      storeAll now m c [.magnetLink] (if .status ∈ c then r.setStatus now m.status else r) := rfl
  rw [value_storeAll (by decide), hgroup, hfirst, value_storeAll (by decide), kept]
  by_cases hs : .status ∈ c
  · rw [if_pos hs, if_pos hs, value_setStatus]
    cases x <;> simp [timeFields, sizeFields, hs, writtenTime, value]
  · rw [if_neg hs, if_neg hs]
    cases x <;> simp [timeFields, sizeFields, hs]

/-- **What a message leaves:** the values that arrive, and what is kept elsewhere.
All fields arrive unless something is thrown. -/
theorem fromStringSteps_spec (hj : m.Carries c j) (hm : m.Representable) (cwd : String) (now : ℤ)
    (r : TransferMetadata) :
    (∀ x, (runSteps (fromStringSteps cwd now j) r).1.value x =
      if x ∈ arriving cwd m r c then m.value x else kept now m r (arriving cwd m r c) x) ∧
      ((runSteps (fromStringSteps cwd now j) r).2 = none → arriving cwd m r c = c) := by
  have hsize := runSteps_sizeSteps hj hm cwd now r
  rw [fromStringSteps, arriving]
  cases hpath : normalised cwd m.filePath with
  | error e =>
      simp only [hpath] at hsize
      rw [runSteps_append_error hsize]
      simp [Except.isOk, Except.toBool, kept]
  | ok filePath =>
      simp only [hpath] at hsize
      rw [runSteps_append_ok hsize]
      generalize hr₁ : storeAll now m c sizeFields { r with filePath } = r₁
      have hvalue : ∀ y, r₁.value y = if y ∈ sizeFields ∧ y ∈ c then m.value y else r.value y := by
        intro y
        rw [← hr₁, value_storeAll (by decide)]
        cases y <;> rfl
      have haccepts : r₁.accepts m = r.accepts m := by
        have hdest : r₁.dest = r.dest := by rw [← hr₁, dest_storeAll]
        rw [accepts, accepts, hdest]
      cases ha : r.accepts m with
      | false =>
          obtain ⟨r₂, e, hrun, hsame⟩ := addressSteps_of_not_accepts hj (haccepts.trans ha)
          rw [runSteps_append_error hrun]
          refine ⟨fun x => ?_, fun h => by cases h⟩
          rw [hsame, hvalue]
          cases x <;> simp [Except.isOk, Except.toBool, kept, sizeFields]
      | true =>
          obtain ⟨src, dest, hrun⟩ := addressSteps_of_accepts hj (haccepts.trans ha)
          rw [runSteps_append_ok hrun, runSteps_statusSteps hj hm]
          simp only [Except.isOk, Except.toBool, if_true]
          refine ⟨fun x => ?_, fun _ => trivial⟩
          have hvalue₂ : ∀ y, ({ r₁ with src, dest } : TransferMetadata).value y = r₁.value y :=
            fun y => by cases y <;> rfl
          rw [value_lateFields]
          by_cases hx : x ∈ sizeFields
          · rw [kept_of_mem_sizeFields hx, kept_of_mem_sizeFields hx, hvalue₂, hvalue]
            simp [hx]
          · have hkept : kept now m { r₁ with src, dest } c x = kept now m r c x := kept_congr
              ((hvalue₂ x).trans ((hvalue x).trans (if_neg fun h => hx h.1)))
              ((hvalue₂ _).trans (hvalue _)) ((hvalue₂ _).trans (hvalue _)) now m c
            rw [hkept]
            simp [hx]

end Message

end TransferMetadata

/-! ## A sender and a replica -/

/-- The setters of the identifying fields, which are not flagged. -/
inductive Relabel where
  | filePath (path : String)
  | groupId (groupId : String)
  | source (source : IPFormat)
  | destination (dest : IPFormat)

/-- The call, in the working directory `cwd`; one that throws changes nothing. -/
def Relabel.apply (cwd : String) (m : TransferMetadata) (c : Relabel) : TransferMetadata :=
  let call := match c with
    | .filePath x => m.setFilePath cwd x
    | .groupId x => .ok (m.setGroupId x)
    | .source a => m.setSrc a
    | .destination a => m.setDest a
  match call with
  | .ok m' => m'
  | .error _ => m

/-- A record, what it was when it was last exported, and a replica of it. -/
structure Replication where
  sender : TransferMetadata
  exported : TransferMetadata
  replica : TransferMetadata

/-- What happens to them: calls of the setters, with the clock at `now`, and a
partial export that the replica reads when its clock is at `now`. -/
inductive Replication.Event where
  | change (now : ℤ) (c : Change)
  | relabel (c : Relabel)
  | message (now : ℤ)

namespace Replication

/-- The sender after its full export, and a replica that was made of it. -/
def start (dump : Json → String) (m r : TransferMetadata) : Replication :=
  ⟨(m.exportToStringPartial dump true).2, m, r⟩

section Steps

variable (here there : String) (dump : Json → String) (parse : String → Option Json)

/-- One event; `here` and `there` are the working directories of the two sides.  A
change is possible when its numbers are of the types they have in the source. -/
def step (s : Replication) : Event → Option Replication
  | .change now c =>
      let m := c.apply now s.sender
      if m.Representable then some { s with sender := m } else none
  | .relabel c => some { s with sender := c.apply here s.sender }
  | .message now =>
      let message := s.sender.exportToStringPartial dump false
      some ⟨message.2, s.sender, (s.replica.fromString there parse now message.1).1⟩

/-- The replica has the values that the sender had at the last export. -/
def InStep (s : Replication) : Prop := ∀ x : Field, s.replica.value x = s.exported.value x

instance : DecidablePred InStep := fun s =>
  inferInstanceAs (Decidable (∀ x : Field, s.replica.value x = s.exported.value x))

/-- A field that does not arrive with a message has not changed since the last
one, or is a time that an arriving status makes the replica take from its clock,
and takes with the value that the sender has. -/
def Conveyed (s : Replication) : Event → Prop
  | .message now =>
      let arriving := s.sender.arriving there s.replica s.sender.modifiedFields
      ∀ x ∉ arriving, s.sender.value x = s.sender.kept now s.exported arriving x
  | _ => True

instance (s : Replication) : DecidablePred (Conveyed there s)
  | .message now =>
      inferInstanceAs (Decidable (∀ x ∉ s.sender.arriving there s.replica s.sender.modifiedFields,
        s.sender.value x = s.sender.kept now s.exported
          (s.sender.arriving there s.replica s.sender.modifiedFields) x))
  | .change .. | .relabel _ => inferInstanceAs (Decidable True)

end Steps

theorem representable_relabel {m : TransferMetadata} (hm : m.Representable) (cwd : String)
    (c : Relabel) : (c.apply cwd m).Representable := by
  cases c with
  | filePath x =>
      simp only [Relabel.apply, TransferMetadata.setFilePath]
      cases normalised cwd x <;> exact hm
  | groupId x => exact hm
  | source a =>
      simp only [Relabel.apply, TransferMetadata.setSrc]
      split_ifs <;> exact hm
  | destination a =>
      simp only [Relabel.apply, TransferMetadata.setDest]
      split_ifs <;> exact hm

section Runs

variable {here there : String} {dump : Json → String} {parse : String → Option Json}

/-- A replica that was made of the full export of a record has its values. -/
theorem inStep_start {m r : TransferMetadata} {now : ℤ}
    (hjson : parse (dump (m.exportJson true)) = some (m.exportJson true)) (hm : m.Representable)
    (hr : TransferMetadata.ofString there parse now (dump (m.exportJson true)) = .ok r) :
    (start dump m r).InStep := by
  rw [TransferMetadata.ofString_eq_ok, TransferMetadata.fromString, hjson] at hr
  change runSteps _ _ = (r, none) at hr
  obtain ⟨hvalue, harriving⟩ := TransferMetadata.fromStringSteps_spec
    (m.exportJson_carries true) hm there now TransferMetadata.blank
  intro x
  have hx := hvalue x
  rw [harriving (congrArg Prod.snd hr), hr] at hx
  exact hx.trans (if_pos (Finset.mem_univ x))

/-- **A message keeps the replica in step exactly when it conveys the changes.** -/
theorem inStep_message {s t : Replication} {now : ℤ}
    (hjson : parse (dump (s.sender.exportJson false)) = some (s.sender.exportJson false))
    (hm : s.sender.Representable) (hs : s.InStep)
    (ht : step here there dump parse s (.message now) = some t) :
    t.InStep ↔ Conveyed there s (.message now) := by
  cases ht
  have hvalue := (TransferMetadata.fromStringSteps_spec (s.sender.exportJson_carries false) hm
    there now s.replica).1
  have hkept := fun x c => TransferMetadata.kept_congr (hs x) (hs .startTime) (hs .duration) now
    s.sender c
  have hcarried : s.sender.carried false = s.sender.modifiedFields := rfl
  rw [hcarried] at hvalue
  simp only [InStep, Conveyed, TransferMetadata.exportToStringPartial, TransferMetadata.fromString,
    hjson, hvalue, hkept]
  refine forall_congr' fun x => ?_
  split_ifs with hx
  · exact iff_of_true rfl fun h => absurd hx h
  · exact ⟨fun h _ => h.symm, fun h => (h hx).symm⟩

/-- **When replicas converge:** the replica has the values of the sender after every
message of a run exactly when every message of the run conveys the changes. -/
theorem replica_converges_iff
    (hjson : ∀ (m : TransferMetadata) (forceAll : Bool),
      parse (dump (m.exportJson forceAll)) = some (m.exportJson forceAll))
    {m r : TransferMetadata} (hm : m.Representable) {now : ℤ}
    (hr : TransferMetadata.ofString there parse now (dump (m.exportJson true)) = .ok r)
    {l : List Event} {u : Replication}
    (hu : exec (step here there dump parse) (start dump m r) l = some u) :
    Always (step here there dump parse) InStep (start dump m r) l ↔
      Guarded (step here there dump parse) (Conveyed there) (start dump m r) l := by
  have hchange : ∀ (s : Replication) (a : Event) (t : Replication),
      s.InStep ∧ s.sender.Representable → step here there dump parse s a = some t →
      t.sender.Representable ∧ (t.InStep ↔ Conveyed there s a) := by
    rintro s a t ⟨hs, hrep⟩ ht
    cases a with
    | change now c =>
        simp only [step, Option.ite_none_right_eq_some, Option.some.injEq] at ht
        obtain ⟨hc, rfl⟩ := ht
        exact ⟨hc, iff_of_true hs trivial⟩
    | relabel c =>
        cases ht
        exact ⟨representable_relabel hrep here c, iff_of_true hs trivial⟩
    | message now =>
        have hmessage := inStep_message (hjson s.sender false) hrep hs ht
        cases ht
        exact ⟨hrep, hmessage⟩
  refine always_iff_guarded (I := fun s => s.InStep ∧ s.sender.Representable)
    (fun s h => h.1) (fun s a t hs hok ht => ?_) (fun s a t hs hok ht => ?_)
    ⟨inStep_start (hjson m true) hm hr, hm⟩ hu
  · obtain ⟨hrep, hiff⟩ := hchange s a t hs ht
    exact ⟨hiff.2 hok, hrep⟩
  · exact fun hP => hok ((hchange s a t hs ht).2.1 hP)

end Runs

/-- A file that has just been registered. -/
def newFile : TransferMetadata :=
  { TransferMetadata.blank with
    filePath := "/data/run1.hdf5", bytesSize := 100, src := ⟨"10.0.0.1", 5000⟩
    dest := ⟨"10.0.0.2", 5001⟩, groupId := "run1", modifiedFields := Finset.univ }

/-- What a receiver makes of its full export. -/
def newFileCopy : TransferMetadata :=
  { newFile with modifiedFields := Field.all.foldl (fun fields x => insert x fields) ∅ }

theorem newFile_read (now : ℤ) :
    TransferMetadata.ofString "/" JsonText.parse now (JsonText.dump (newFile.exportJson true)) =
      .ok newFileCopy := by
  rw [TransferMetadata.ofString, TransferMetadata.fromString, JsonText.parse_dump]
  rfl

/-- A start whose time is set by its own setter too is conveyed. -/
theorem replica_converges_iff_start_time :
    (exec (step "/" "/" JsonText.dump JsonText.parse) (start JsonText.dump newFile newFileCopy)
      [.change 10 (.status .downloading), .change 10 (.startTime 10), .message 20]).isSome = true ∧
    Always (step "/" "/" JsonText.dump JsonText.parse) InStep
      (start JsonText.dump newFile newFileCopy)
      [.change 10 (.status .downloading), .change 10 (.startTime 10), .message 20] := by
  have hrun : (exec (step "/" "/" JsonText.dump JsonText.parse)
      (start JsonText.dump newFile newFileCopy)
      [.change 10 (.status .downloading), .change 10 (.startTime 10), .message 20]).isSome =
        true := by decide +kernel
  obtain ⟨u, hu⟩ := Option.isSome_iff_exists.1 hrun
  exact ⟨hrun, (replica_converges_iff (fun m forceAll => JsonText.parse_dump _) (by decide)
    (newFile_read 5) hu).2 (by decide +kernel)⟩

/-- **The start of a transfer is not conveyed:** a replica whose clock shows 20 when
it reads that the transfer is on has 20 for the start that the sender has at 10. -/
theorem start_time_not_conveyed :
    TransferMetadata.ofString "/" JsonText.parse 5 (JsonText.dump (newFile.exportJson true)) =
        .ok newFileCopy ∧
      (exec (step "/" "/" JsonText.dump JsonText.parse) (start JsonText.dump newFile newFileCopy)
        [.change 10 (.status .downloading), .message 20]).map
          (fun s => (s.exported.startTime, s.replica.startTime)) = some (10, 20) ∧
      ¬ Always (step "/" "/" JsonText.dump JsonText.parse) InStep
        (start JsonText.dump newFile newFileCopy)
        [.change 10 (.status .downloading), .message 20] := by
  have hend : (exec (step "/" "/" JsonText.dump JsonText.parse)
      (start JsonText.dump newFile newFileCopy)
      [.change 10 (.status .downloading), .message 20]).map
        (fun s => (s.exported.startTime, s.replica.startTime)) = some (10, 20) := by decide +kernel
  refine ⟨newFile_read 5, hend, fun h => ?_⟩
  obtain ⟨u, hu, htimes⟩ := Option.map_eq_some_iff.1 hend
  have hvalue := h.last hu .startTime
  simp [TransferMetadata.value, (Prod.mk.inj htimes).1, (Prod.mk.inj htimes).2] at hvalue

end Replication

end Transfer
end SNBModules
