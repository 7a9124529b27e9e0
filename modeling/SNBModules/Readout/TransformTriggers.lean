import Mathlib.Algebra.Order.Ring.Int
import Mathlib.Data.List.Basic
import Mathlib.Data.List.Chain

/-!
# The triggers of a transform

Source: `python/snbmodules/simple_transform_test_gen.py`, `get_file_info` and
`generate_transform_objs`.

A transform reads recorded files and writes what lies in the windows of its
triggers, so a timestamp outside them is lost.  Of a file only its first and its
last timestamp count.  There is one window for everything, three consecutive
ones, or, in the mode `per-file`, one for each file; but the trigger objects of
this mode are named by their start, and of several files that start at the same
time only the first gets a window, wherever the others end.

The loops over the files look for the earliest and the latest of a list of
timestamps with -1 for none so far (`extremum`).
-/

namespace SNBModules
namespace Readout

/-! ### The code -/

/-- A loop that keeps the best value so far; -1 is none. -/
def extremum (better : ℤ → ℤ → Prop) [DecidableRel better] (l : List ℤ) : ℤ :=
  l.foldl (fun best x => if best = -1 ∨ better x best then x else best) (-1)

def earliest (l : List ℤ) : ℤ := extremum (· < ·) l

def latest (l : List ℤ) : ℤ := extremum (· > ·) l

/-- The entry of `file_infos` for a file: its first and its last timestamp. -/
structure FileInfo where
  first : ℤ
  last : ℤ
  deriving DecidableEq, Repr

/-- `get_file_info`, from the timestamps of the frames of a file. -/
def getFileInfo (timestamps : List ℤ) : FileInfo := ⟨earliest timestamps, latest timestamps⟩

/-- The values of the dictionary `file_infos`: one for each file name, in the order
in which the names come first. -/
def fileInfos (info : String → FileInfo) (files : List String) : List FileInfo :=
  files.eraseDups.map info

/-- `FixedTimeTCConf`. -/
structure FixedTimeTC where
  timestampStart : ℤ
  timestampEnd : ℤ
  deriving DecidableEq, Repr

/-- The mode `per-file`. -/
def perFile (infos : List FileInfo) : List FixedTimeTC :=
  infos.foldl
    (fun triggers i =>
      if triggers.any (·.timestampStart = i.first) then triggers
      else triggers ++ [⟨i.first, i.last⟩])
    []

/-- The mode `aligned-chunks`. -/
def alignedChunks (infos : List FileInfo) : List FixedTimeTC :=
  let earliestStart := earliest (infos.map FileInfo.first)
  let latestStart := latest (infos.map FileInfo.first)
  let earliestEnd := earliest (infos.map FileInfo.last)
  let latestEnd := latest (infos.map FileInfo.last)
  let earliestEnd := if earliestEnd < latestStart then latestStart else earliestEnd
  let start := ⟨earliestStart, latestStart⟩
  let body := ⟨latestStart, earliestEnd⟩
  let last := ⟨earliestEnd, latestEnd⟩
  if earliestEnd > latestStart then [start, body, last] else [start, last]

/-- One big trigger. -/
def singleTrigger (infos : List FileInfo) : List FixedTimeTC :=
  [⟨earliest (infos.map FileInfo.first), latest (infos.map FileInfo.last)⟩]

/-- The triggers that `generate_transform_objs` makes. -/
def triggers (triggerMode : String) (infos : List FileInfo) : List FixedTimeTC :=
  if triggerMode = "per-file" then perFile infos
  else if triggerMode = "aligned-chunks" then alignedChunks infos
  else singleTrigger infos

/-! ### The loops -/

section Extremum

variable {better : ℤ → ℤ → Prop} [DecidableRel better]

/-- The loop from a value that is not -1: it ends with that value or one of the
list, and none of them is better. -/
theorem foldl_extremum (hasymm : ∀ x y, better x y → ¬ better y x)
    (hneg : ∀ x y z, ¬ better x y → ¬ better y z → ¬ better x z) {l : List ℤ} {best : ℤ}
    (hbest : 0 ≤ best) (hl : ∀ x ∈ l, 0 ≤ x) :
    let r := l.foldl (fun best x => if best = -1 ∨ better x best then x else best) best
    r ∈ best :: l ∧ ∀ x ∈ best :: l, ¬ better x r := by
  induction l generalizing best with
  | nil =>
      refine ⟨List.mem_singleton_self _, fun x hx => ?_⟩
      obtain rfl := List.mem_singleton.1 hx
      exact fun h => hasymm _ _ h h
  | cons a l ih =>
      obtain ⟨ha, hl⟩ := List.forall_mem_cons.1 hl
      have hnot : best ≠ -1 := by omega
      rw [List.foldl_cons]
      by_cases hab : better a best
      · rw [if_pos (Or.inr hab)]
        obtain ⟨hmem, hall⟩ := ih ha hl
        have hhead := hall a List.mem_cons_self
        refine ⟨List.mem_cons_of_mem _ hmem, fun x hx => ?_⟩
        rcases List.mem_cons.1 hx with rfl | hx
        · exact hneg _ _ _ (hasymm _ _ hab) hhead
        · exact hall x hx
      · rw [if_neg (not_or.2 ⟨hnot, hab⟩)]
        obtain ⟨hmem, hall⟩ := ih hbest hl
        have hhead := hall best List.mem_cons_self
        refine ⟨?_, fun x hx => ?_⟩
        · rcases List.mem_cons.1 hmem with hmem | hmem
          · exact List.mem_cons.2 (Or.inl hmem)
          · exact List.mem_cons_of_mem _ (List.mem_cons_of_mem _ hmem)
        · rcases List.mem_cons.1 hx with rfl | hx
          · exact hhead
          · rcases List.mem_cons.1 hx with rfl | hx
            · exact hneg _ _ _ hab hhead
            · exact hall x (List.mem_cons_of_mem _ hx)

/-- On timestamps that are not negative -1 only stands before the first. -/
theorem extremum_spec (hasymm : ∀ x y, better x y → ¬ better y x)
    (hneg : ∀ x y z, ¬ better x y → ¬ better y z → ¬ better x z) {l : List ℤ} (hne : l ≠ [])
    (hl : ∀ x ∈ l, 0 ≤ x) : extremum better l ∈ l ∧ ∀ x ∈ l, ¬ better x (extremum better l) := by
  obtain ⟨a, l, rfl⟩ := List.exists_cons_of_ne_nil hne
  obtain ⟨ha, hl⟩ := List.forall_mem_cons.1 hl
  rw [extremum, List.foldl_cons, if_pos (Or.inl rfl)]
  exact foldl_extremum hasymm hneg ha hl

end Extremum

theorem earliest_spec {l : List ℤ} (hne : l ≠ []) (hl : ∀ x ∈ l, 0 ≤ x) :
    earliest l ∈ l ∧ ∀ x ∈ l, earliest l ≤ x := by
  have hasymm : ∀ x y : ℤ, x < y → ¬ y < x := fun x y h => by omega
  obtain ⟨hmem, hall⟩ := extremum_spec hasymm (fun x y z hxy hyz => by omega) hne hl
  exact ⟨hmem, fun x hx => Int.not_lt.1 (hall x hx)⟩

theorem latest_spec {l : List ℤ} (hne : l ≠ []) (hl : ∀ x ∈ l, 0 ≤ x) :
    latest l ∈ l ∧ ∀ x ∈ l, x ≤ latest l := by
  have hasymm : ∀ x y : ℤ, x > y → ¬ y > x := fun x y h => by omega
  obtain ⟨hmem, hall⟩ := extremum_spec hasymm (fun x y z hxy hyz => by omega) hne hl
  exact ⟨hmem, fun x hx => Int.not_lt.1 (hall x hx)⟩

/-- The first and the last timestamp of a file with frames. -/
theorem getFileInfo_spec {timestamps : List ℤ} (hne : timestamps ≠ [])
    (h : ∀ ts ∈ timestamps, 0 ≤ ts) :
    0 ≤ (getFileInfo timestamps).first ∧
      (getFileInfo timestamps).first ≤ (getFileInfo timestamps).last ∧
      ∀ ts ∈ timestamps,
        (getFileInfo timestamps).first ≤ ts ∧ ts ≤ (getFileInfo timestamps).last := by
  obtain ⟨hfirst, hle⟩ := earliest_spec hne h
  obtain ⟨hlast, hge⟩ := latest_spec hne h
  exact ⟨h _ hfirst, hle _ hlast, fun ts hts => ⟨hle ts hts, hge ts hts⟩⟩

/-! ### What the windows cover -/

/-- The timestamp is in the window. -/
def FixedTimeTC.Contains (w : FixedTimeTC) (t : ℤ) : Prop :=
  w.timestampStart ≤ t ∧ t ≤ w.timestampEnd

/-- What the windows of a mode are for: they cover every file, have nothing
before the earliest first or after the latest last timestamp, and those of
`aligned-chunks` follow each other. -/
structure Coverage (triggerMode : String) (infos : List FileInfo) (windows : List FixedTimeTC) :
    Prop where
  covered : ∀ i ∈ infos, ∀ t, i.first ≤ t → t ≤ i.last → ∃ w ∈ windows, w.Contains t
  within : ∀ w ∈ windows, (∃ i ∈ infos, i.first ≤ w.timestampStart) ∧
    w.timestampStart ≤ w.timestampEnd ∧ ∃ i ∈ infos, w.timestampEnd ≤ i.last
  consecutive : triggerMode = "aligned-chunks" →
    windows.IsChain fun v w => v.timestampEnd = w.timestampStart

/-- Files with frames. -/
def Recorded (infos : List FileInfo) : Prop :=
  infos ≠ [] ∧ ∀ i ∈ infos, 0 ≤ i.first ∧ i.first ≤ i.last

instance (infos : List FileInfo) : Decidable (Recorded infos) :=
  inferInstanceAs (Decidable (_ ∧ _))

namespace Recorded

variable {infos : List FileInfo}

theorem earliest_first (h : Recorded infos) :
    (∃ i ∈ infos, i.first = earliest (infos.map FileInfo.first)) ∧
      ∀ i ∈ infos, earliest (infos.map FileInfo.first) ≤ i.first := by
  obtain ⟨hmem, hall⟩ := earliest_spec (l := infos.map FileInfo.first) (by simpa using h.1)
    (by simpa using fun i hi => (h.2 i hi).1)
  exact ⟨List.mem_map.1 hmem, fun i hi => hall _ (List.mem_map_of_mem hi)⟩

theorem latest_first (h : Recorded infos) :
    (∃ i ∈ infos, i.first = latest (infos.map FileInfo.first)) ∧
      ∀ i ∈ infos, i.first ≤ latest (infos.map FileInfo.first) := by
  obtain ⟨hmem, hall⟩ := latest_spec (l := infos.map FileInfo.first) (by simpa using h.1)
    (by simpa using fun i hi => (h.2 i hi).1)
  exact ⟨List.mem_map.1 hmem, fun i hi => hall _ (List.mem_map_of_mem hi)⟩

theorem last_nonneg (h : Recorded infos) : ∀ x ∈ infos.map FileInfo.last, 0 ≤ x := by
  intro x hx
  obtain ⟨i, hi, rfl⟩ := List.mem_map.1 hx
  exact (h.2 i hi).1.trans (h.2 i hi).2

theorem earliest_last (h : Recorded infos) :
    (∃ i ∈ infos, i.last = earliest (infos.map FileInfo.last)) ∧
      ∀ i ∈ infos, earliest (infos.map FileInfo.last) ≤ i.last := by
  obtain ⟨hmem, hall⟩ := earliest_spec (l := infos.map FileInfo.last) (by simpa using h.1)
    h.last_nonneg
  exact ⟨List.mem_map.1 hmem, fun i hi => hall _ (List.mem_map_of_mem hi)⟩

theorem latest_last (h : Recorded infos) :
    (∃ i ∈ infos, i.last = latest (infos.map FileInfo.last)) ∧
      ∀ i ∈ infos, i.last ≤ latest (infos.map FileInfo.last) := by
  obtain ⟨hmem, hall⟩ := latest_spec (l := infos.map FileInfo.last) (by simpa using h.1)
    h.last_nonneg
  exact ⟨List.mem_map.1 hmem, fun i hi => hall _ (List.mem_map_of_mem hi)⟩

/-- One window over everything. -/
theorem coverage_singleTrigger (h : Recorded infos) {triggerMode : String}
    (hmode : triggerMode ≠ "aligned-chunks") :
    Coverage triggerMode infos (singleTrigger infos) where
  covered i hi t hfirst hlast := ⟨_, List.mem_singleton_self _,
    (h.earliest_first.2 i hi).trans hfirst, hlast.trans (h.latest_last.2 i hi)⟩
  within w hw := by
    obtain rfl := List.mem_singleton.1 hw
    obtain ⟨⟨i, hi, hi'⟩, hes⟩ := h.earliest_first
    obtain ⟨⟨j, hj, hj'⟩, hle⟩ := h.latest_last
    exact ⟨⟨i, hi, hi'.le⟩, ((hes i hi).trans (h.2 i hi).2).trans (hle i hi), j, hj, hj'.ge⟩
  consecutive hm := absurd hm hmode

/-- Three windows, or two when the body would be empty: the boundary that is
assigned again lies between the latest first and the latest last timestamp. -/
theorem coverage_alignedChunks (h : Recorded infos) (triggerMode : String) :
    Coverage triggerMode infos (alignedChunks infos) := by
  obtain ⟨⟨k, hk, hk'⟩, hes⟩ := h.earliest_first
  obtain ⟨⟨i, hi, hi'⟩, hls⟩ := h.latest_first
  obtain ⟨-, hee⟩ := h.earliest_last
  obtain ⟨⟨j, hj, hj'⟩, hle⟩ := h.latest_last
  have hstart := (hes i hi).trans_eq hi'
  have hend := (hee j hj).trans (hle j hj)
  have hboth := (h.2 i hi).2.trans (hle i hi)
  have hcovered : ∀ k ∈ infos, ∀ t, k.first ≤ t → t ≤ k.last →
      earliest (infos.map FileInfo.first) ≤ t ∧ t ≤ latest (infos.map FileInfo.last) :=
    fun k hk t hfirst hlast => ⟨(hes k hk).trans hfirst, hlast.trans (hle k hk)⟩
  unfold alignedChunks
  generalize earliest (infos.map FileInfo.first) = es at *
  generalize latest (infos.map FileInfo.first) = ls at *
  generalize earliest (infos.map FileInfo.last) = ee at *
  generalize latest (infos.map FileInfo.last) = le at *
  have hboundary : ls ≤ (if ee < ls then ls else ee) ∧ (if ee < ls then ls else ee) ≤ le := by
    split <;> omega
  dsimp only
  generalize (if ee < ls then ls else ee) = boundary at *
  obtain ⟨hlow, hhigh⟩ := hboundary
  have hin : ∀ w : FixedTimeTC, es ≤ w.timestampStart → w.timestampStart ≤ w.timestampEnd →
      w.timestampEnd ≤ le → (∃ i ∈ infos, i.first ≤ w.timestampStart) ∧
        w.timestampStart ≤ w.timestampEnd ∧ ∃ i ∈ infos, w.timestampEnd ≤ i.last :=
    fun w h₁ h₂ h₃ => ⟨⟨k, hk, hk'.le.trans h₁⟩, h₂, j, hj, h₃.trans hj'.ge⟩
  by_cases hbody : boundary > ls
  · rw [if_pos hbody]
    refine ⟨fun k hk t hfirst hlast => ?_, fun w hw => ?_, fun _ => ?_⟩
    · obtain ⟨hle, hge⟩ := hcovered k hk t hfirst hlast
      rcases Int.lt_or_le ls t with hlt | hle'
      · rcases Int.lt_or_le boundary t with hlt' | hle''
        · exact ⟨⟨boundary, le⟩, by simp, hlt'.le, hge⟩
        · exact ⟨⟨ls, boundary⟩, by simp, hlt.le, hle''⟩
      · exact ⟨⟨es, ls⟩, by simp, hle, hle'⟩
    · simp only [List.mem_cons, List.not_mem_nil, or_false] at hw
      rcases hw with rfl | rfl | rfl
      · exact hin _ (Int.le_refl _) hstart (hlow.trans hhigh)
      · exact hin _ hstart hlow hhigh
      · exact hin _ (hstart.trans hlow) hhigh (Int.le_refl _)
    · simp
  · obtain rfl : boundary = ls := Int.le_antisymm (Int.not_lt.1 hbody) hlow
    rw [if_neg hbody]
    refine ⟨fun k hk t hfirst hlast => ?_, fun w hw => ?_, fun _ => ?_⟩
    · obtain ⟨hle, hge⟩ := hcovered k hk t hfirst hlast
      rcases Int.lt_or_le boundary t with hlt | hle'
      · exact ⟨⟨boundary, le⟩, by simp, hlt.le, hge⟩
      · exact ⟨⟨es, boundary⟩, by simp, hle, hle'⟩
    · simp only [List.mem_cons, List.not_mem_nil, or_false] at hw
      rcases hw with rfl | rfl
      · exact hin _ (Int.le_refl _) hstart hhigh
      · exact hin _ hstart hhigh (Int.le_refl _)
    · simp

end Recorded

/-! ### A window for each start -/

/-- The first of the files that start when it does. -/
def Leading (infos : List FileInfo) (i : FileInfo) : Prop :=
  infos.find? (·.first = i.first) = some i

instance (infos : List FileInfo) (i : FileInfo) : Decidable (Leading infos i) :=
  inferInstanceAs (Decidable (_ = _))

theorem Leading.mem {infos : List FileInfo} {i : FileInfo} (h : Leading infos i) : i ∈ infos :=
  List.mem_of_find?_eq_some h

/-- Every file has one that leads it. -/
theorem exists_leading {infos : List FileInfo} {i : FileInfo} (h : i ∈ infos) :
    ∃ k, Leading infos k ∧ k.first = i.first := by
  obtain ⟨k, hk⟩ := Option.isSome_iff_exists.1
    ((List.find?_isSome (p := fun k => decide (k.first = i.first))).2 ⟨i, h, by simp⟩)
  have heq : k.first = i.first := by simpa using List.find?_some hk
  exact ⟨k, by rwa [Leading, heq], heq⟩

/-- One more file leads if none of the others starts when it does. -/
theorem leading_concat {infos : List FileInfo} {i j : FileInfo} :
    Leading (infos ++ [j]) i ↔ Leading infos i ∨ (i = j ∧ ∀ k ∈ infos, k.first ≠ j.first) := by
  rw [Leading, Leading, List.find?_append]
  cases hfind : infos.find? (·.first = i.first) with
  | some k =>
      obtain ⟨hk, hmem⟩ : k.first = i.first ∧ k ∈ infos :=
        ⟨by simpa using List.find?_some hfind, List.mem_of_find?_eq_some hfind⟩
      rw [Option.some_or]
      refine ⟨Or.inl, fun h => h.resolve_right ?_⟩
      rintro ⟨rfl, hall⟩
      exact hall k hmem hk
  | none =>
      have hnone : ∀ k ∈ infos, k.first ≠ i.first := by simpa using List.find?_eq_none.1 hfind
      rw [Option.none_or, List.find?_singleton]
      by_cases hij : j.first = i.first
      · simp only [hij, decide_true, if_true, Option.some.injEq, reduceCtorEq, false_or]
        exact ⟨fun h => ⟨h.symm, hnone⟩, fun h => h.1.symm⟩
      · simp only [hij, decide_false, Bool.false_eq_true, if_false, reduceCtorEq, false_or]
        exact ⟨False.elim, fun h => hij (congrArg FileInfo.first h.1).symm⟩

/-- The mode `per-file` makes the windows of the leading files. -/
theorem mem_perFile {infos : List FileInfo} {w : FixedTimeTC} :
    w ∈ perFile infos ↔ ∃ i, Leading infos i ∧ w = ⟨i.first, i.last⟩ := by
  induction infos using List.reverseRecOn generalizing w with
  | nil => simp [perFile, Leading]
  | append_singleton infos j ih =>
      have hturn : perFile (infos ++ [j]) =
          if (perFile infos).any (·.timestampStart = j.first) then perFile infos
          else perFile infos ++ [⟨j.first, j.last⟩] := by
        rw [perFile, List.foldl_append]
        rfl
      have hany : (perFile infos).any (·.timestampStart = j.first) = true ↔
          ∃ k ∈ infos, k.first = j.first := by
        rw [List.any_eq_true]
        constructor
        · rintro ⟨v, hv, hstart⟩
          obtain ⟨i, hi, rfl⟩ := ih.1 hv
          exact ⟨i, hi.mem, of_decide_eq_true hstart⟩
        · rintro ⟨k, hk, hfirst⟩
          obtain ⟨i, hi, heq⟩ := exists_leading hk
          exact ⟨_, ih.2 ⟨i, hi, rfl⟩, decide_eq_true (heq.trans hfirst)⟩
      rw [hturn]
      by_cases hold : (perFile infos).any (·.timestampStart = j.first) = true
      · obtain ⟨k, hk, hfirst⟩ := hany.1 hold
        have hleading : ∀ i, Leading (infos ++ [j]) i ↔ Leading infos i := fun i =>
          leading_concat.trans (or_iff_left fun h => h.2 k hk hfirst)
        rw [if_pos hold, ih]
        simp only [hleading]
      · have hnew : ∀ k ∈ infos, k.first ≠ j.first := fun k hk h => hold (hany.2 ⟨k, hk, h⟩)
        rw [if_neg hold, List.mem_append, List.mem_singleton, ih]
        constructor
        · rintro (⟨i, hi, rfl⟩ | rfl)
          · exact ⟨i, leading_concat.2 (Or.inl hi), rfl⟩
          · exact ⟨j, leading_concat.2 (Or.inr ⟨rfl, hnew⟩), rfl⟩
        · rintro ⟨i, hi, rfl⟩
          rcases leading_concat.1 hi with hi | ⟨rfl, -⟩
          · exact Or.inl ⟨i, hi, rfl⟩
          · exact Or.inr rfl

/-- Where the window of a leading file ends inside another file, that of some
leading file goes on. -/
def GoesOn (infos : List FileInfo) : Prop :=
  ∀ i ∈ infos, ∀ k ∈ infos, Leading infos k → i.first ≤ k.last → k.last < i.last →
    ∃ n ∈ infos, Leading infos n ∧ n.first ≤ k.last + 1 ∧ k.last + 1 ≤ n.last

instance (infos : List FileInfo) : Decidable (GoesOn infos) :=
  inferInstanceAs (Decidable (∀ i ∈ infos, ∀ k ∈ infos, Leading infos k → i.first ≤ k.last →
    k.last < i.last → ∃ n ∈ infos, _ ∧ _ ∧ _))

/-- The windows of the leading files cover all files exactly when they go on. -/
theorem coverage_perFile_iff {infos : List FileInfo} (h : Recorded infos) {triggerMode : String}
    (hmode : triggerMode ≠ "aligned-chunks") :
    Coverage triggerMode infos (perFile infos) ↔ GoesOn infos := by
  constructor
  · intro hcov i hi k _ _ hfirst hlast
    obtain ⟨w, hw, hle, hge⟩ := hcov.covered i hi (k.last + 1) (by omega) (by omega)
    obtain ⟨n, hn, rfl⟩ := mem_perFile.1 hw
    exact ⟨n, hn.mem, hn, hle, hge⟩
  · intro hgo
    refine ⟨fun i hi t hfirst hlast => ?_, fun w hw => ?_, fun hm => absurd hm hmode⟩
    · obtain ⟨d, rfl⟩ := Int.le.dest hfirst
      induction d with
      | zero =>
          obtain ⟨k, hk, heq⟩ := exists_leading hi
          have hrange := (h.2 k hk.mem).2
          exact ⟨_, mem_perFile.2 ⟨k, hk, rfl⟩, by simp [FixedTimeTC.Contains, heq ▸ hrange, heq]⟩
      | succ d ih =>
          -- the window that has the timestamp before has this one too, or ends there
          obtain ⟨w, hw, hle, hge⟩ := ih (by omega) (by push_cast at hlast; omega)
          obtain ⟨k, hk, rfl⟩ := mem_perFile.1 hw
          rcases Int.lt_or_le (i.first + d) k.last with hlt | hle'
          · exact ⟨_, hw, by push_cast; dsimp only at hle; omega, by push_cast; omega⟩
          · have heq : i.first + d = k.last := Int.le_antisymm hge hle'
            obtain ⟨n, -, hn, hn₁, hn₂⟩ := hgo i hi k hk.mem hk (by omega)
              (by push_cast at hlast; omega)
            exact ⟨_, mem_perFile.2 ⟨n, hn, rfl⟩, by push_cast; omega, by push_cast; omega⟩
    · obtain ⟨i, hi, rfl⟩ := mem_perFile.1 hw
      exact ⟨⟨i, hi.mem, Int.le_refl _⟩, (h.2 i hi.mem).2, i, hi.mem, Int.le_refl _⟩

/-- **The triggers of a transform.**  For every list of files that is not empty,
with timestamps that are not negative and a first one that is not after the
last: the windows cover every file, stay within the files and follow each other
in the mode `aligned-chunks`; and in the mode `per-file` they do so exactly when,
where the window of a leading file ends inside another file, that of some leading
file goes on. -/
theorem coverage_iff (info : String → FileInfo) {files : List String} (hne : files ≠ [])
    (h : ∀ name ∈ files, 0 ≤ (info name).first ∧ (info name).first ≤ (info name).last)
    (triggerMode : String) :
    Coverage triggerMode (fileInfos info files) (triggers triggerMode (fileInfos info files)) ↔
      (triggerMode = "per-file" → GoesOn (fileInfos info files)) := by
  have hrec : Recorded (fileInfos info files) := by
    refine ⟨?_, fun i hi => ?_⟩
    · obtain ⟨name, hname⟩ := List.exists_mem_of_ne_nil _ hne
      exact List.ne_nil_of_mem (List.mem_map_of_mem (List.mem_eraseDups.2 hname))
    · obtain ⟨name, hname, rfl⟩ := List.mem_map.1 hi
      exact h name (List.mem_eraseDups.1 hname)
  unfold triggers
  by_cases hper : triggerMode = "per-file"
  · have hmode : triggerMode ≠ "aligned-chunks" := by rw [hper]; decide
    rw [if_pos hper, coverage_perFile_iff hrec hmode]
    exact ⟨fun hg _ => hg, fun hg => hg hper⟩
  · rw [if_neg hper]
    by_cases hmode : triggerMode = "aligned-chunks"
    · rw [if_pos hmode]
      exact iff_of_true (hrec.coverage_alignedChunks triggerMode) fun hm => absurd hm hper
    · rw [if_neg hmode]
      exact iff_of_true (hrec.coverage_singleTrigger hmode) fun hm => absurd hm hper

/-- Two files, that of the name "a" from 0 to 10, and another one. -/
def twoFiles (other : FileInfo) (name : String) : FileInfo := if name = "a" then ⟨0, 10⟩ else other

theorem coverage_iff_two_starts :
    Coverage "per-file" (fileInfos (twoFiles ⟨5, 20⟩) ["a", "b"])
      (triggers "per-file" (fileInfos (twoFiles ⟨5, 20⟩) ["a", "b"])) :=
  (coverage_iff (twoFiles ⟨5, 20⟩) (List.cons_ne_nil _ _) (by decide) "per-file").2
    fun _ => by decide

/-- Of two files that start at 0 the one that comes first ends at 10: the
timestamps of the other from 11 to 20 are in no window. -/
theorem same_start_not_covered :
    Recorded (fileInfos (twoFiles ⟨0, 20⟩) ["a", "b"]) ∧
      triggers "per-file" (fileInfos (twoFiles ⟨0, 20⟩) ["a", "b"]) = [⟨0, 10⟩] ∧
      ¬ Coverage "per-file" (fileInfos (twoFiles ⟨0, 20⟩) ["a", "b"])
        (triggers "per-file" (fileInfos (twoFiles ⟨0, 20⟩) ["a", "b"])) := by
  have hwindows : triggers "per-file" (fileInfos (twoFiles ⟨0, 20⟩) ["a", "b"]) = [⟨0, 10⟩] := by
    decide
  refine ⟨by decide, hwindows, fun h => ?_⟩
  obtain ⟨w, hw, -, hge⟩ := h.covered ⟨0, 20⟩ (by decide) 15 (by decide) (by decide)
  rw [hwindows] at hw
  obtain rfl := List.mem_singleton.1 hw
  exact absurd hge (by decide)

end Readout
end SNBModules
