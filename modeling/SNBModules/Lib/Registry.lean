import Mathlib.Data.List.Induction
import Mathlib.Data.List.Nodup
import Mathlib.Tactic.SplitIfs

/-!
# Registries of keyed records

A registry hears two kinds of events in any order: that a group exists
(`announce`), and what a record is to be updated with (`report`).  The first
report on a key enters a record, which belongs to the group of its key from then
on if that group is known by then, and never if it is not.

`Tells` says what a registry holds after a list of events, in terms of the list
alone.  Two lists of the same events, in which the reports on each key stand in the
same order, then leave the same records when both have linked all they could
(`Tells.entries_perm`), which is a matter of the order alone (`Tells.allLinked_iff`).

`places` are the positions at which the entries of a list pass a test: what a
program holds that keeps its records behind pointers.
-/

namespace SNBModules
namespace Lib

/-- What a registry hears. -/
inductive Event (κ ν γ : Type*) where
  | announce (g : γ)
  | report (k : κ) (u : ν → ν)
  | skip

/-- A record, and whether it was linked to its group. -/
structure Entry (κ ν : Type*) where
  key : κ
  value : ν
  linked : Bool

/-- The records in the order in which they were entered, one a key, and the groups
that were announced. -/
structure Registry (κ ν γ : Type*) where
  entries : List (Entry κ ν)
  known : List γ
  nodup : (entries.map Entry.key).Nodup

variable {κ ν γ : Type*}

/-! ## What is heard -/

/-- The group of the key can be linked to, and was announced before each report on
the key. -/
def AnnouncedFirst (group : κ → γ) (linkable : γ → Bool) (k : κ) (l : List (Event κ ν γ)) : Prop :=
  ∀ pre u post, l = pre ++ .report k u :: post →
    linkable (group k) = true ∧ .announce (group k) ∈ pre

section AnnouncedFirst

variable {group : κ → γ} {linkable : γ → Bool} {k : κ} {l : List (Event κ ν γ)}

/-- One more event: a report on the key needs the announcement before it. -/
theorem announcedFirst_concat {a : Event κ ν γ} :
    AnnouncedFirst group linkable k (l ++ [a]) ↔ AnnouncedFirst group linkable k l ∧
      ∀ u, a = .report k u → linkable (group k) = true ∧ .announce (group k) ∈ l := by
  constructor
  · intro h
    refine ⟨fun pre u post hl => ?_, fun u ha => ?_⟩
    · exact h pre u (post ++ [a]) (by simp [hl])
    · exact h l u [] (by simp [ha])
  · rintro ⟨hl, ha⟩ pre u post heq
    rcases List.eq_nil_or_concat post with rfl | ⟨post, b, rfl⟩
    · obtain ⟨rfl, hab⟩ := List.append_inj' heq rfl
      exact ha u (List.singleton_inj.1 hab)
    · have heq' : l ++ [a] = (pre ++ .report k u :: post) ++ [b] := by simpa using heq
      exact hl pre u post (List.append_inj' heq' rfl).1

/-- The group of a key that was announced first was announced. -/
theorem AnnouncedFirst.announced (h : AnnouncedFirst group linkable k l)
    (hk : ∃ u, .report k u ∈ l) : linkable (group k) = true ∧ .announce (group k) ∈ l := by
  obtain ⟨u, hu⟩ := hk
  obtain ⟨pre, post, rfl⟩ := List.append_of_mem hu
  obtain ⟨hlink, hpre⟩ := h pre u post rfl
  exact ⟨hlink, List.mem_append_left _ hpre⟩

end AnnouncedFirst

namespace Registry

/-- The keys of the records. -/
def keys (r : Registry κ ν γ) : List κ := r.entries.map Entry.key

/-- Nothing was heard yet. -/
def empty : Registry κ ν γ := ⟨[], [], List.nodup_nil⟩

/-- A group exists. -/
def announce (g : γ) (r : Registry κ ν γ) : Registry κ ν γ := { r with known := g :: r.known }

theorem nodup_enter {r : Registry κ ν γ} {e : Entry κ ν} (h : e.key ∉ r.keys) :
    ((r.entries ++ [e]).map Entry.key).Nodup := by
  rw [List.map_append, List.map_singleton, ← List.concat_eq_append]
  exact List.Nodup.concat h r.nodup

/-- A report on a new key. -/
def enter (r : Registry κ ν γ) (e : Entry κ ν) (h : e.key ∉ r.keys) : Registry κ ν γ where
  entries := r.entries ++ [e]
  known := r.known
  nodup := nodup_enter h

section Links

variable [DecidableEq γ] {group : κ → γ} {linkable : γ → Bool}

/-- Whether a record that is entered now is linked to its group. -/
def links (group : κ → γ) (linkable : γ → Bool) (r : Registry κ ν γ) (k : κ) : Bool :=
  linkable (group k) && decide (group k ∈ r.known)

theorem links_eq_true {r : Registry κ ν γ} {k : κ} :
    r.links group linkable k = true ↔ linkable (group k) = true ∧ group k ∈ r.known := by
  rw [links, Bool.and_eq_true, decide_eq_true_iff]

end Links

end Registry

/-- The key and the update of a report on one of these keys. -/
def Event.reportOf (mine : κ → Bool) : Event κ ν γ → Option (κ × (ν → ν))
  | .report k u => if mine k then some (k, u) else none
  | _ => none

/-- The key and the value of a record. -/
def Entry.pair (e : Entry κ ν) : κ × ν := (e.key, e.value)

/-- The records of these keys. -/
def Registry.pairs (mine : κ → Bool) (r : Registry κ ν γ) : List (κ × ν) :=
  (r.entries.filter fun e => mine e.key).map Entry.pair

theorem Registry.mem_pairs_keys {mine : κ → Bool} {r : Registry κ ν γ} {k : κ} :
    k ∈ (r.pairs mine).map Prod.fst ↔ k ∈ r.keys ∧ mine k = true := by
  simp only [Registry.pairs, Registry.keys, List.map_map, List.mem_map, List.mem_filter]
  constructor
  · rintro ⟨e, ⟨he, hmine⟩, rfl⟩
    exact ⟨⟨e, he, rfl⟩, hmine⟩
  · rintro ⟨⟨e, he, rfl⟩, hmine⟩
    exact ⟨e, ⟨he, hmine⟩, rfl⟩

variable [DecidableEq κ]

/-- What an event has to say about the key `k`. -/
def Event.updateOf (k : κ) : Event κ ν γ → Option (ν → ν)
  | .report k' u => if k' = k then some u else none
  | _ => none

/-- The reports on the key `k`, in order. -/
def updates (k : κ) (l : List (Event κ ν γ)) : List (ν → ν) := l.filterMap (Event.updateOf k)

@[simp] theorem updates_concat (k : κ) (l : List (Event κ ν γ)) (a : Event κ ν γ) :
    updates k (l ++ [a]) = updates k l ++ (a.updateOf k).toList := by
  rw [updates, List.filterMap_append, updates]
  cases h : a.updateOf k <;> simp [h]

/-- Nothing was said about a key that was not reported on. -/
theorem updates_eq_nil {k : κ} {l : List (Event κ ν γ)} (h : ¬ ∃ u, .report k u ∈ l) :
    updates k l = [] := by
  rw [updates, List.filterMap_eq_nil_iff]
  intro a ha
  cases a with
  | report k' u =>
      rw [Event.updateOf, if_neg]
      rintro rfl
      exact h ⟨u, ha⟩
  | _ => rfl

/-! ## Steps -/

/-- The record after a report on the key `k`. -/
def Entry.update (k : κ) (u : ν → ν) (e : Entry κ ν) : Entry κ ν :=
  if e.key = k then { e with value := u e.value } else e

@[simp] theorem Entry.update_key (k : κ) (u : ν → ν) (e : Entry κ ν) :
    (e.update k u).key = e.key := by
  rw [update]
  split_ifs <;> rfl

@[simp] theorem Entry.update_linked (k : κ) (u : ν → ν) (e : Entry κ ν) :
    (e.update k u).linked = e.linked := by
  rw [update]
  split_ifs <;> rfl

namespace Registry

theorem keys_update (k : κ) (u : ν → ν) (l : List (Entry κ ν)) :
    (l.map (Entry.update k u)).map Entry.key = l.map Entry.key := by
  rw [List.map_map]
  exact List.map_congr_left fun e _ => e.update_key k u

/-- A report on a known key. -/
def update (k : κ) (u : ν → ν) (r : Registry κ ν γ) : Registry κ ν γ where
  entries := r.entries.map (Entry.update k u)
  known := r.known
  nodup := (keys_update k u r.entries).symm ▸ r.nodup

/-- What the registry holds after the events. -/
structure Tells (group : κ → γ) (linkable : γ → Bool) (new : ν) (l : List (Event κ ν γ))
    (r : Registry κ ν γ) : Prop where
  known : ∀ g, g ∈ r.known ↔ .announce g ∈ l
  keys : ∀ k, k ∈ r.keys ↔ ∃ u, .report k u ∈ l
  value : ∀ e ∈ r.entries, e.value = (updates e.key l).foldl (fun v u => u v) new
  linked : ∀ e ∈ r.entries, e.linked = true ↔ AnnouncedFirst group linkable e.key l

variable {group : κ → γ} {linkable : γ → Bool} {new : ν}

theorem tells_empty : Tells group linkable new [] (empty : Registry κ ν γ) where
  known g := by simp [empty]
  keys k := by simp [empty, Registry.keys]
  value e he := by simp [empty] at he
  linked e he := by simp [empty] at he

/-- An event that is no report changes no record and no reports. -/
theorem Tells.of_no_report {l : List (Event κ ν γ)} {r r' : Registry κ ν γ} {a : Event κ ν γ}
    (h : Tells group linkable new l r) (ha : ∀ k u, a ≠ .report k u)
    (hentries : r'.entries = r.entries) (hknown : ∀ g, g ∈ r'.known ↔ .announce g ∈ l ++ [a]) :
    Tells group linkable new (l ++ [a]) r' where
  known := hknown
  keys k := by
    rw [Registry.keys, hentries]
    refine (h.keys k).trans (exists_congr fun u => ?_)
    simp [(ha k u).symm]
  value e he := by
    have hnone : a.updateOf e.key = none := by
      cases a with
      | report k u => exact absurd rfl (ha k u)
      | _ => rfl
    rw [updates_concat, hnone, h.value e (hentries ▸ he)]
    simp
  linked e he := by
    rw [h.linked e (hentries ▸ he), announcedFirst_concat]
    exact ⟨fun hf => ⟨hf, fun u hu => absurd hu (ha _ u)⟩, And.left⟩

/-- A report on a known key updates its record, and leaves it linked or not. -/
theorem Tells.update {l : List (Event κ ν γ)} {r : Registry κ ν γ}
    (h : Tells group linkable new l r) {k : κ} (hk : k ∈ r.keys) (u : ν → ν) :
    Tells group linkable new (l ++ [.report k u]) (r.update k u) where
  known g := by
    refine (h.known g).trans ?_
    simp
  keys k' := by
    rw [Registry.keys, Registry.update, keys_update]
    refine (h.keys k').trans ?_
    simp only [List.mem_append, List.mem_singleton, Event.report.injEq, exists_or]
    refine ⟨Or.inl, fun hor => hor.elim id ?_⟩
    rintro ⟨_, rfl, _⟩
    exact (h.keys k').1 hk
  value e' he' := by
    obtain ⟨e, he, rfl⟩ := List.mem_map.1 he'
    rw [Entry.update_key, updates_concat, List.foldl_append, ← h.value e he, Entry.update,
      Event.updateOf]
    by_cases hek : e.key = k
    · rw [if_pos hek, if_pos hek.symm]
      rfl
    · rw [if_neg hek, if_neg (Ne.symm hek)]
      rfl
  linked e' he' := by
    obtain ⟨e, he, rfl⟩ := List.mem_map.1 he'
    rw [Entry.update_key, Entry.update_linked, h.linked e he, announcedFirst_concat]
    refine ⟨fun hf => ⟨hf, ?_⟩, And.left⟩
    intro _ _
    exact hf.announced ((h.keys e.key).1 (List.mem_map_of_mem he))

/-! ## Runs -/

section Run

variable [DecidableEq γ] (group linkable new)

/-- What an event does. -/
def step (r : Registry κ ν γ) : Event κ ν γ → Registry κ ν γ
  | .announce g => r.announce g
  | .report k u =>
      if h : k ∈ r.keys then r.update k u
      else r.enter ⟨k, u new, r.links group linkable k⟩ h
  | .skip => r

/-- The registry after a list of events. -/
def run (l : List (Event κ ν γ)) : Registry κ ν γ := l.foldl (step group linkable new) empty

variable {group linkable new}

/-- A report on a new key enters its record. -/
theorem Tells.enter {l : List (Event κ ν γ)} {r : Registry κ ν γ}
    (h : Tells group linkable new l r) {k : κ} (hk : k ∉ r.keys) (u : ν → ν) :
    Tells group linkable new (l ++ [.report k u])
      (r.enter ⟨k, u new, r.links group linkable k⟩ hk) where
  known g := by
    refine (h.known g).trans ?_
    simp
  keys k' := by
    have hkeys : (r.enter ⟨k, u new, r.links group linkable k⟩ hk).keys = r.keys ++ [k] := by
      simp [Registry.keys, Registry.enter]
    rw [hkeys, List.mem_append, h.keys k', List.mem_singleton]
    simp [exists_or]
  value e he := by
    rw [updates_concat, List.foldl_append]
    rcases List.mem_append.1 he with he | he
    · have hne : k ≠ e.key := fun heq => hk (heq ▸ List.mem_map_of_mem he)
      rw [← h.value e he, Event.updateOf, if_neg hne]
      rfl
    · obtain rfl := List.mem_singleton.1 he
      rw [updates_eq_nil ((h.keys k).not.1 hk), Event.updateOf, if_pos rfl]
      rfl
  linked e he := by
    rw [announcedFirst_concat]
    rcases List.mem_append.1 he with he | he
    · have hne : k ≠ e.key := fun heq => hk (heq ▸ List.mem_map_of_mem he)
      rw [h.linked e he]
      refine ⟨fun hf => ⟨hf, fun u' hu' => ?_⟩, And.left⟩
      cases hu'
      exact absurd rfl hne
    · obtain rfl := List.mem_singleton.1 he
      have hfirst : AnnouncedFirst group linkable k l := by
        rintro pre u' post rfl
        exact absurd ⟨u', by simp⟩ ((h.keys k).not.1 hk)
      refine links_eq_true.trans ?_
      rw [h.known]
      exact ⟨fun hl => ⟨hfirst, fun _ _ => hl⟩, fun hl => hl.2 u rfl⟩

/-- One event. -/
theorem Tells.step {l : List (Event κ ν γ)} {r : Registry κ ν γ}
    (h : Tells group linkable new l r) (a : Event κ ν γ) :
    Tells group linkable new (l ++ [a]) (r.step group linkable new a) := by
  cases a with
  | announce g =>
      refine h.of_no_report (by simp) rfl fun g' => ?_
      simp [Registry.step, Registry.announce, h.known, or_comm]
  | report k u =>
      rw [Registry.step]
      split_ifs with hk
      · exact h.update hk u
      · exact h.enter hk u
  | skip => exact h.of_no_report (by simp) rfl fun g => by simp [Registry.step, h.known]

/-- **What a run leaves,** in terms of the events alone. -/
theorem tells_run (group : κ → γ) (linkable : γ → Bool) (new : ν) (l : List (Event κ ν γ)) :
    Tells group linkable new l (run group linkable new l) := by
  induction l using List.reverseRecOn with
  | nil => exact tells_empty
  | append_singleton l a ih =>
      rw [run, List.foldl_append]
      exact ih.step a

end Run

/-! ## The records of some keys -/

/-- One report: the record with that key is updated, or entered behind the others. -/
def tell (new : ν) (l : List (κ × ν)) (x : κ × (ν → ν)) : List (κ × ν) :=
  if x.1 ∈ l.map Prod.fst then l.map fun y => if y.1 = x.1 then (y.1, x.2 y.2) else y
  else l ++ [(x.1, x.2 new)]

/-- An update, as these records have it. -/
theorem pairs_update (mine : κ → Bool) (k : κ) (u : ν → ν) (r : Registry κ ν γ) :
    (r.update k u).pairs mine =
      (r.pairs mine).map fun y => if y.1 = k then (y.1, u y.2) else y := by
  have hkey : (fun e : Entry κ ν => mine e.key) ∘ Entry.update k u = fun e => mine e.key := by
    funext e
    rw [Function.comp_apply, Entry.update_key]
  rw [pairs, pairs, update, List.filter_map, hkey, List.map_map, List.map_map]
  refine List.map_congr_left fun e _ => ?_
  by_cases he : e.key = k <;> simp [Entry.update, Entry.pair, he]

/-- **An event changes these records** if it is a report on one of them. -/
theorem pairs_step [DecidableEq γ] (mine : κ → Bool) (r : Registry κ ν γ) (a : Event κ ν γ) :
    (r.step group linkable new a).pairs mine =
      (a.reportOf mine).toList.foldl (tell new) (r.pairs mine) := by
  cases a with
  | announce g => rfl
  | skip => rfl
  | report k u =>
      rw [step, Event.reportOf]
      by_cases hk : mine k = true
      · rw [if_pos hk, Option.toList_some, List.foldl_cons, List.foldl_nil, tell]
        have hmem : k ∈ (r.pairs mine).map Prod.fst ↔ k ∈ r.keys :=
          mem_pairs_keys.trans (and_iff_left hk)
        split_ifs with hknown hpair hpair
        · exact pairs_update mine k u r
        · exact absurd (hmem.2 hknown) hpair
        · exact absurd (hmem.1 hpair) hknown
        · simp [pairs, enter, hk, Entry.pair]
      · rw [if_neg hk, Option.toList_none, List.foldl_nil]
        split_ifs with hknown
        · rw [pairs_update]
          refine (List.map_congr_left fun y hy => ?_).trans (List.map_id _)
          have hmine : mine y.1 = true := (mem_pairs_keys.1 (List.mem_map_of_mem hy)).2
          rw [if_neg fun heq => hk (by rw [← heq]; exact hmine), id_eq]
        · simp [pairs, enter, hk]

/-- **What a registry says of these keys** depends on the reports on them alone, whatever else
is heard in between. -/
theorem pairs_foldl_step [DecidableEq γ] (mine : κ → Bool) (l : List (Event κ ν γ))
    (r : Registry κ ν γ) :
    (l.foldl (step group linkable new) r).pairs mine =
      (l.filterMap (Event.reportOf mine)).foldl (tell new) (r.pairs mine) := by
  induction l generalizing r with
  | nil => rfl
  | cons a l ih =>
      rw [List.foldl_cons, ih, pairs_step]
      cases h : a.reportOf mine with
      | none => rw [List.filterMap_cons_none h, Option.toList_none, List.foldl_nil]
      | some x => rw [List.filterMap_cons_some h, List.foldl_cons, Option.toList_some,
          List.foldl_cons, List.foldl_nil]

/-- Reports on new keys, one on each, enter their records in order. -/
theorem foldl_tell_of_new {l : List (κ × (ν → ν))} {s : List (κ × ν)}
    (hnew : ∀ x ∈ l, x.1 ∉ s.map Prod.fst) (hnodup : l.Pairwise fun x y => x.1 ≠ y.1) :
    l.foldl (tell new) s = s ++ l.map fun x => (x.1, x.2 new) := by
  induction l generalizing s with
  | nil => exact (List.append_nil _).symm
  | cons x l ih =>
      obtain ⟨hfresh, hnew⟩ := List.forall_mem_cons.1 hnew
      obtain ⟨hother, hnodup⟩ := List.pairwise_cons.1 hnodup
      rw [List.foldl_cons, tell, if_neg hfresh, ih (fun y hy hmem => ?_) hnodup, List.map_cons,
        List.append_assoc, List.singleton_append]
      rw [List.map_append, List.mem_append] at hmem
      rcases hmem with hmem | hmem
      · exact hnew y hy hmem
      · exact hother y hy (List.mem_singleton.1 hmem).symm

/-- A report on a known key changes the record that is there. -/
theorem tell_of_getElem? {l : List (κ × ν)} (hnodup : (l.map Prod.fst).Nodup) {i : ℕ} {y : κ × ν}
    (hi : l[i]? = some y) (u : ν → ν) : tell new l (y.1, u) = l.set i (y.1, u y.2) := by
  rw [tell, if_pos (List.mem_map_of_mem (List.mem_of_getElem? hi))]
  refine List.ext_getElem? fun j => ?_
  rw [List.getElem?_map]
  by_cases hij : i = j
  · subst hij
    obtain ⟨hlt, -⟩ := List.getElem?_eq_some_iff.1 hi
    rw [List.getElem?_set_self hlt, hi, Option.map_some, if_pos rfl]
  · rw [List.getElem?_set_ne hij]
    cases hj : l[j]? with
    | none => rfl
    | some z =>
        have hne : z.1 ≠ y.1 := by
          intro heq
          obtain ⟨hlt, -⟩ := List.getElem?_eq_some_iff.1 hi
          refine hij ((List.getElem?_inj (by rwa [List.length_map]) hnodup).1 ?_)
          rw [List.getElem?_map, List.getElem?_map, hi, hj, Option.map_some, Option.map_some, heq]
        rw [Option.map_some, if_neg hne]

/-! ## Order -/

/-- A linked record is in a group that is known. -/
theorem Tells.group_known {l : List (Event κ ν γ)} {r : Registry κ ν γ}
    (h : Tells group linkable new l r) {e : Entry κ ν} (he : e ∈ r.entries)
    (hlinked : e.linked = true) : group e.key ∈ r.known := by
  have hreport := (h.keys e.key).1 (List.mem_map_of_mem he)
  rw [h.known]
  exact (((h.linked e he).1 hlinked).announced hreport).2

/-- Every record whose group is known is linked to it. -/
def AllLinked (group : κ → γ) (r : Registry κ ν γ) : Prop :=
  ∀ e ∈ r.entries, group e.key ∈ r.known → e.linked = true

/-- **A registry has linked all it could** exactly when each group was announced
before the reports on its records. -/
theorem Tells.allLinked_iff {l : List (Event κ ν γ)} {r : Registry κ ν γ}
    (h : Tells group linkable new l r) :
    r.AllLinked group ↔ ∀ k, .announce (group k) ∈ l → AnnouncedFirst group linkable k l := by
  constructor
  · rintro hlinked k hann pre u post rfl
    obtain ⟨e, he, rfl⟩ := List.mem_map.1 ((h.keys k).2 ⟨u, by simp⟩)
    exact (h.linked e he).1 (hlinked e he ((h.known _).2 hann)) pre u post rfl
  · intro hfirst e he hknown
    rw [h.linked e he]
    exact hfirst e.key ((h.known _).1 hknown)

/-- **The records do not depend on the order,** as long as the reports on each key
stay in their order and all are linked that could be. -/
theorem Tells.entries_perm {l m : List (Event κ ν γ)} {r s : Registry κ ν γ}
    (hr : Tells group linkable new l r) (hs : Tells group linkable new m s) (hperm : l.Perm m)
    (hupdates : ∀ k, updates k l = updates k m) (hrl : r.AllLinked group)
    (hsl : s.AllLinked group) : r.entries.Perm s.entries := by
  have hsub : ∀ {l m : List (Event κ ν γ)} {r s : Registry κ ν γ},
      Tells group linkable new l r → Tells group linkable new m s → l.Perm m →
      (∀ k, updates k l = updates k m) → r.AllLinked group → s.AllLinked group →
      ∀ e ∈ r.entries, e ∈ s.entries := by
    intro l m r s hr hs hperm hupdates hrl hsl e he
    obtain ⟨u, hu⟩ := (hr.keys e.key).1 (List.mem_map_of_mem he)
    obtain ⟨e', he', hkey⟩ := List.mem_map.1 ((hs.keys e.key).2 ⟨u, hperm.mem_iff.1 hu⟩)
    have hvalue : e'.value = e.value := by
      rw [hs.value e' he', hr.value e he, hkey, hupdates]
    have hknown : group e.key ∈ r.known ↔ group e.key ∈ s.known := by
      rw [hr.known, hs.known, hperm.mem_iff]
    have hlink : e'.linked = e.linked := by
      rw [Bool.eq_iff_iff]
      constructor
      · intro h'
        exact hrl e he (hknown.2 (hkey ▸ hs.group_known he' h'))
      · intro h
        exact hsl e' he' (hkey.symm ▸ hknown.1 (hr.group_known he h))
    have heq : e' = e := by
      cases e
      cases e'
      simp_all
    exact heq ▸ he'
  rw [List.perm_ext_iff_of_nodup r.nodup.of_map s.nodup.of_map]
  intro e
  exact ⟨hsub hr hs hperm hupdates hrl hsl e,
    hsub hs hr hperm.symm (fun k => (hupdates k).symm) hsl hrl e⟩

end Registry

/-! ## Places -/

/-- The places of the records that pass a test. -/
def places {α : Type} (p : α → Bool) (l : List α) : List ℕ :=
  (List.range l.length).filter fun i => l[i]?.any p

theorem mem_places {α : Type} {p : α → Bool} {l : List α} {i : ℕ} :
    i ∈ places p l ↔ ∃ a, l[i]? = some a ∧ p a = true := by
  rw [places, List.mem_filter, List.mem_range]
  constructor
  · rintro ⟨hi, hp⟩
    rw [List.getElem?_eq_getElem hi] at hp ⊢
    exact ⟨_, rfl, hp⟩
  · rintro ⟨a, ha, hp⟩
    exact ⟨(List.getElem?_eq_some_iff.1 ha).1, by simpa [ha] using hp⟩

theorem places_concat {α : Type} (p : α → Bool) (l : List α) (a : α) :
    places p (l ++ [a]) = places p l ++ if p a then [l.length] else [] := by
  have hold : (List.range l.length).filter (fun i => (l ++ [a])[i]?.any p) = places p l := by
    refine List.filter_congr fun i hi => ?_
    rw [List.getElem?_append_left (List.mem_range.1 hi)]
  rw [places, List.length_append, List.length_singleton, List.range_succ, List.filter_append, hold]
  cases h : p a <;> simp [h]

theorem places_map {α : Type} {p : α → Bool} {f : α → α} (h : ∀ a, p (f a) = p a) (l : List α) :
    places p (l.map f) = places p l := by
  rw [places, List.length_map]
  refine List.filter_congr fun i _ => ?_
  rw [List.getElem?_map]
  cases l[i]? with
  | none => rfl
  | some a => exact h a

/-- Reading at the places of a list gives the records that pass the test. -/
theorem map_places {α β : Type} {p : α → Bool} {f : α → β} {g : ℕ → β} {l : List α}
    (h : ∀ i a, l[i]? = some a → g i = f a) : (places p l).map g = (l.filter p).map f := by
  induction l using List.reverseRecOn with
  | nil => rfl
  | append_singleton l a ih =>
      have hl : ∀ i b, l[i]? = some b → g i = f b := fun i b hb =>
        h i b (by rw [List.getElem?_append_left (List.getElem?_eq_some_iff.1 hb).1, hb])
      have ha : g l.length = f a := h _ a (by simp)
      rw [places_concat, List.map_append, ih hl, List.filter_append, List.map_append]
      cases hp : p a <;> simp [hp, ha]

end Lib
end SNBModules
