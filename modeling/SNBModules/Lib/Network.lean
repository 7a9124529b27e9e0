import Mathlib.Data.List.Count
import SNBModules.Lib.Runs

/-!
# Nodes with inboxes

A node of a network has a state and an inbox, and reads the messages of its inbox in
the order in which they came.  It acts on an order from outside, or reads the first
message; either may change its state and send messages, each on a connection.  What is
sent on the connection of a node goes to the end of its inbox, and what is sent on any
other leaves the network.

One of the nodes may lead, and alone be given orders.  Let `R` relate the state of the
leader to that of a follower.  When what an order sends to a follower brings one that is
in relation back into relation, and reading it sends nothing into an inbox (`Leads`),
then what waits in the inboxes leads every follower into relation (`InStep`), whatever
the order in which the inboxes are read in between (`Leads.always_inStep`).
-/

namespace SNBModules
namespace Lib

variable {ι S K M A : Type*}

/-- What the nodes do: on an order, and on a message that they read.  Both give the new
state and what is sent. -/
structure Protocol (ι S K M A : Type*) where
  conn : ι → K
  act : ι → A → S → Option (S × List (K × M))
  read : ι → M → S → Option (S × List (K × M))

/-- A node, and the messages that wait for it. -/
structure Inbox (S M : Type*) where
  state : S
  waiting : List M

/-- What happens in a network. -/
inductive NetEvent (ι A : Type*) where
  | order (i : ι) (a : A)
  | deliver (i : ι)
  deriving DecidableEq, Repr

namespace Protocol

variable (P : Protocol ι S K M A)

section Step

variable [DecidableEq K]

/-- What comes to a node of all that is sent. -/
def arrivals (i : ι) (out : List (K × M)) : List M :=
  (out.filter fun m => m.1 = P.conn i).map Prod.snd

/-- The network after a node has gone to `t`, with `rest` in its inbox, and has sent
`out`. -/
def put [DecidableEq ι] (N : ι → Inbox S M) (i : ι) (t : S) (rest : List M)
    (out : List (K × M)) : ι → Inbox S M := fun j =>
  if j = i then ⟨t, rest ++ P.arrivals i out⟩
  else ⟨(N j).state, (N j).waiting ++ P.arrivals j out⟩

/-- One event. -/
def step [DecidableEq ι] (N : ι → Inbox S M) : NetEvent ι A → Option (ι → Inbox S M)
  | .order i a => (P.act i a (N i).state).map fun q => P.put N i q.1 (N i).waiting q.2
  | .deliver i =>
      match (N i).waiting with
      | [] => none
      | m :: rest => (P.read i m (N i).state).map fun q => P.put N i q.1 rest q.2

/-- Sending that comes to no node. -/
def Silent (out : List (K × M)) : Prop := ∀ j, P.arrivals j out = []

/-- The node reads the messages one after the other, and sends nothing to a node. -/
inductive Reads (i : ι) : S → List M → S → Prop
  | nil (s : S) : Reads i s [] s
  | cons {s t u : S} {m : M} {l : List M} {out : List (K × M)} (hread : P.read i m s = some (t, out))
      (hout : P.Silent out) (hrest : Reads i t l u) : Reads i s (m :: l) u

end Step

variable {P} [DecidableEq K]

/-! ## Reading -/

@[simp] theorem arrivals_nil (i : ι) : P.arrivals i [] = [] := rfl

theorem arrivals_append (i : ι) (out out' : List (K × M)) :
    P.arrivals i (out ++ out') = P.arrivals i out ++ P.arrivals i out' := by
  simp [arrivals]

theorem Reads.append {i : ι} {s t u : S} {l l' : List M} (h : P.Reads i s l t)
    (h' : P.Reads i t l' u) : P.Reads i s (l ++ l') u := by
  induction h with
  | nil s => exact h'
  | cons hread hout _ ih => exact .cons hread hout (ih h')

/-- Reading one message. -/
theorem Reads.single {i : ι} {s t : S} {m : M} {out : List (K × M)}
    (hread : P.read i m s = some (t, out)) (hout : P.Silent out) : P.Reads i s [m] t :=
  .cons hread hout (.nil t)

/-- What the other nodes have, when nothing comes to a node. -/
theorem put_of_silent [DecidableEq ι] {N : ι → Inbox S M} {i : ι} {t : S} {rest : List M} {out : List (K × M)}
    (hout : P.Silent out) (j : ι) :
    P.put N i t rest out j = if j = i then ⟨t, rest⟩ else N j := by
  rw [put]
  split_ifs
  · rw [hout i, List.append_nil]
  · rw [hout j, List.append_nil]

/-! ## A leader -/

section Leader

variable (P) (leader : ι) (I : S → Prop) (R : ι → S → S → Prop) (ok : S → A → Prop)

/-- The orders in `ok`, given to a leader in `I`, bring the followers that are in relation
with it back into relation. -/
structure Leads : Prop where
  keeps : ∀ {s t a out}, I s → ok s a → P.act leader a s = some (t, out) → I t
  own : ∀ {s t a out}, I s → ok s a → P.act leader a s = some (t, out) →
    P.arrivals leader out = []
  follows : ∀ {s t a out i u}, I s → ok s a → P.act leader a s = some (t, out) → i ≠ leader →
    R i s u → ∃ v, P.Reads i u (P.arrivals i out) v ∧ R i t v

/-- Every follower is in relation with the leader once it has read what waits for it. -/
structure InStep (N : ι → Inbox S M) : Prop where
  waiting_eq : (N leader).waiting = []
  inv : I (N leader).state
  follower : ∀ i, i ≠ leader → ∃ v, P.Reads i (N i).state (N i).waiting v ∧
    R i (N leader).state v

/-- The orders of a network with a leader are given to it alone, and are in `ok`. -/
def Led (N : ι → Inbox S M) : NetEvent ι A → Prop
  | .order i a => i = leader ∧ ok (N leader).state a
  | .deliver _ => True

end Leader

variable {leader : ι} {I : S → Prop} {R : ι → S → S → Prop} {ok : S → A → Prop}
  {N N' : ι → Inbox S M}

/-- A follower with nothing left to read is in relation with the leader. -/
theorem InStep.related (hN : P.InStep leader I R N) {i : ι} (hi : i ≠ leader)
    (hwaiting : (N i).waiting = []) : R i (N leader).state (N i).state := by
  obtain ⟨v, hv, hR⟩ := hN.follower i hi
  rw [hwaiting] at hv
  cases hv
  exact hR

variable [DecidableEq ι]

/-- An order keeps the followers in step: what it sends waits behind the rest. -/
theorem Leads.inStep_order (h : P.Leads leader I R ok) (hN : P.InStep leader I R N) {a : A}
    (hok : ok (N leader).state a) (hstep : P.step N (.order leader a) = some N') :
    P.InStep leader I R N' := by
  obtain ⟨⟨t, out⟩, hact, rfl⟩ := Option.map_eq_some_iff.1 hstep
  refine ⟨?_, ?_, fun i hi => ?_⟩
  · simp [put, hN.waiting_eq, h.own hN.inv hok hact]
  · simpa [put] using h.keeps hN.inv hok hact
  · obtain ⟨v, hv, hR⟩ := hN.follower i hi
    obtain ⟨v', hv', hR'⟩ := h.follows hN.inv hok hact hi hR
    refine ⟨v', ?_, by simpa [put] using hR'⟩
    simp only [put, if_neg hi]
    exact hv.append hv'

/-- **A message that is read** takes nothing else away, and sends nothing to a node. -/
theorem InStep.deliver (hN : P.InStep leader I R N) {i : ι} {m : M} {rest : List M}
    (hi : (N i).waiting = m :: rest) :
    ∃ t, P.step N (.deliver i) = some (Function.update N i ⟨t, rest⟩) ∧
      P.InStep leader I R (Function.update N i ⟨t, rest⟩) := by
  have hne : i ≠ leader := fun h => by
    rw [h, hN.waiting_eq] at hi
    cases hi
  obtain ⟨v, hv, hR⟩ := hN.follower i hne
  rw [hi] at hv
  cases hv with
  | @cons _ t _ _ _ out hread hout hrest =>
      refine ⟨t, ?_, ⟨?_, ?_, fun j hj => ?_⟩⟩
      · rw [step, hi]
        simp only [hread, Option.map_some]
        refine congrArg some (funext fun j => ?_)
        rw [put_of_silent hout, Function.update_apply]
      · rw [Function.update_of_ne hne.symm, hN.waiting_eq]
      · rw [Function.update_of_ne hne.symm]
        exact hN.inv
      · rw [Function.update_of_ne hne.symm]
        by_cases hji : j = i
        · subst hji
          rw [Function.update_self]
          exact ⟨v, hrest, hR⟩
        · rw [Function.update_of_ne hji]
          exact hN.follower j hj

/-- Nothing happens at a node whose inbox is empty. -/
theorem deliver_eq_none {i : ι} (hi : (N i).waiting = []) : P.step N (.deliver i) = none := by
  rw [step, hi]

/-- **One event keeps the followers in step.** -/
theorem Leads.inStep_step (h : P.Leads leader I R ok) {e : NetEvent ι A}
    (hN : P.InStep leader I R N) (he : Led leader ok N e) (hstep : P.step N e = some N') :
    P.InStep leader I R N' := by
  cases e with
  | order i a =>
      obtain ⟨rfl, hok⟩ := he
      exact h.inStep_order hN hok hstep
  | deliver i =>
      cases hi : (N i).waiting with
      | nil =>
          rw [deliver_eq_none hi] at hstep
          cases hstep
      | cons m rest =>
          obtain ⟨t, ht, hN'⟩ := hN.deliver hi
          obtain rfl := Option.some.inj (ht.symm.trans hstep)
          exact hN'

/-- **The followers stay in step,** whatever the order of the events. -/
theorem Leads.always_inStep (h : P.Leads leader I R ok) (hN : P.InStep leader I R N)
    {l : List (NetEvent ι A)} (hl : Guarded P.step (Led leader ok) N l) :
    Always P.step (P.InStep leader I R) N l :=
  always_of_guarded (fun _ _ _ => h.inStep_step) hN hl

/-! ## Reading all that waits -/

/-- **Deliveries alone:** each takes one message from one inbox, and the leader stays as
it is. -/
theorem InStep.deliveries (hN : P.InStep leader I R N) {l : List ι}
    (hrun : exec P.step N (l.map .deliver) = some N') :
    P.InStep leader I R N' ∧ N' leader = N leader ∧
      ∀ i, (N' i).waiting.length + l.count i = (N i).waiting.length := by
  induction l generalizing N with
  | nil =>
      obtain rfl := Option.some.inj hrun
      exact ⟨hN, rfl, fun i => rfl⟩
  | cons j l ih =>
      obtain ⟨N₁, hstep, hrun⟩ := exec_cons_eq_some.1 hrun
      cases hj : (N j).waiting with
      | nil =>
          rw [deliver_eq_none hj] at hstep
          cases hstep
      | cons m rest =>
          obtain ⟨t, ht, hN₁⟩ := hN.deliver hj
          obtain rfl := Option.some.inj (ht.symm.trans hstep)
          have hne : leader ≠ j := fun h => by
            rw [← h, hN.waiting_eq] at hj
            cases hj
          obtain ⟨hN', hleader, hcount⟩ := ih hN₁ hrun
          refine ⟨hN', hleader.trans (Function.update_of_ne hne _ _), fun i => ?_⟩
          have hi := hcount i
          by_cases hij : i = j
          · subst hij
            simp only [Function.update_self] at hi
            rw [List.count_cons_self, hj, List.length_cons]
            omega
          · rw [Function.update_of_ne hij] at hi
            rw [List.count_cons_of_ne (Ne.symm hij)]
            exact hi

/-- **Deliveries come to an end,** each inbox after as many as it has messages, and when
none is possible any more every follower is in relation with the leader. -/
theorem InStep.drained (hN : P.InStep leader I R N) {l : List ι}
    (hrun : exec P.step N (l.map .deliver) = some N') :
    (∀ i, l.count i ≤ (N i).waiting.length) ∧
      ((∀ i, P.step N' (.deliver i) = none) →
        ∀ i, i ≠ leader → R i (N leader).state (N' i).state) := by
  obtain ⟨hN', hleader, hcount⟩ := hN.deliveries hrun
  refine ⟨fun i => by have := hcount i; omega, fun hstuck i hi => ?_⟩
  rw [← hleader]
  refine hN'.related hi ?_
  cases hwaiting : (N' i).waiting with
  | nil => rfl
  | cons m rest =>
      obtain ⟨t, ht, -⟩ := hN'.deliver hwaiting
      rw [hstuck i] at ht
      cases ht

/-! ## Nodes that send nothing -/

/-- A node in `J` that reads a message in `ok` sends nothing to a node, and stays in `J`. -/
def Mute (P : Protocol ι S K M A) (J : S → Prop) (ok : M → Prop) : Prop :=
  ∀ i s m t out, J s → ok m → P.read i m s = some (t, out) → P.Silent out ∧ J t

/-- **Among nodes that send nothing,** deliveries take what waits, and bring nothing new. -/
theorem Mute.deliveries {J : S → Prop} {ok : M → Prop} (h : Mute P J ok)
    (hJ : ∀ i, J (N i).state) (hok : ∀ i, ∀ m ∈ (N i).waiting, ok m) {l : List ι}
    (hrun : exec P.step N (l.map .deliver) = some N') :
    ∀ i, J (N' i).state ∧ (N' i).waiting = (N i).waiting.drop (l.count i) ∧
      l.count i ≤ (N i).waiting.length := by
  induction l generalizing N with
  | nil =>
      obtain rfl := Option.some.inj hrun
      exact fun i => ⟨hJ i, rfl, Nat.zero_le _⟩
  | cons j l ih =>
      obtain ⟨N₁, hstep, hrun⟩ := exec_cons_eq_some.1 hrun
      cases hj : (N j).waiting with
      | nil =>
          rw [deliver_eq_none hj] at hstep
          cases hstep
      | cons m rest =>
          rw [step, hj] at hstep
          obtain ⟨⟨t, out⟩, hread, rfl⟩ := Option.map_eq_some_iff.1 hstep
          obtain ⟨hout, ht⟩ :=
            h j _ m t out (hJ j) (hok j m (hj ▸ List.mem_cons_self)) hread
          have hput : ∀ i, P.put N j t rest out i = if i = j then ⟨t, rest⟩ else N i :=
            put_of_silent hout
          have hrest := ih (fun i => ?_) (fun i m' hm' => ?_) hrun
          · intro i
            obtain ⟨hJ', hdrop, hle⟩ := hrest i
            rw [hput] at hdrop hle
            by_cases hij : i = j
            · subst hij
              rw [if_pos rfl] at hdrop hle
              rw [List.count_cons_self, hj, List.drop_succ_cons, List.length_cons]
              exact ⟨hJ', hdrop, Nat.succ_le_succ hle⟩
            · rw [if_neg hij] at hdrop hle
              rw [List.count_cons_of_ne (Ne.symm hij)]
              exact ⟨hJ', hdrop, hle⟩
          · rw [hput]
            split_ifs
            · exact ht
            · exact hJ i
          · rw [hput] at hm'
            split_ifs at hm' with hij
            · subst hij
              exact hok i m' (hj ▸ List.mem_cons_of_mem _ hm')
            · exact hok i m' hm'

end Protocol

end Lib
end SNBModules
