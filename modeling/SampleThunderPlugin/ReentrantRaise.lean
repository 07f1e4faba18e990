import SampleThunderPlugin.NotificationThreads
import Mathlib.Algebra.Order.BigOperators.Group.Finset
import Mathlib.Data.Set.Finite.Lattice

/-! One raise whose callbacks call back. The mutex lets its owner in again, so a callback
may Register and Unregister on the object while the loop stands on the node that called it.
A turn of the loop is the call, the changes made from inside it, and the advance. -/
namespace ReentrantRaise

open NotificationThreads (Change)

/-- What a callback does the k-th time the raise calls it. Each one acts at most once. -/
structure Behaviour (N : Type) where
  calls : N → ℕ → List (Change N)
  once : ∀ n j k, calls n j ≠ [] → calls n k ≠ [] → j = k

inductive Event (N : Type) where
  | called (n : N)
  | changed (c : Change N)
  deriving DecidableEq, Repr

inductive Status where
  | running (it : ℕ)
  | finished
  | dangling
  deriving DecidableEq, Repr

structure Raise (N : Type) where
  plugin : SamplePluginImplementation N
  status : Status
  history : List (Event N)

def statusAt : Option ℕ → Status
  | none => .finished
  | some it => .running it

variable {N : Type}

/-- Every Unregister of n comes after a call of n. -/
def Kept (n : N) (h : List (Event N)) : Prop :=
  ∀ pre post, h = pre ++ .changed (.unregister n) :: post → .called n ∈ pre

theorem Kept.of_append {n : N} {h g : List (Event N)} (hk : Kept n (h ++ g)) : Kept n h := by
  rintro pre post rfl
  exact hk pre (post ++ g) (by simp)

theorem Kept.append_of_called {n : N} {h : List (Event N)} (hk : Kept n h)
    (hc : .called n ∈ h) (g : List (Event N)) : Kept n (h ++ g) := by
  intro pre post heq
  rcases List.append_eq_append_iff.mp heq with ⟨a, rfl, -⟩ | ⟨c, rfl, hg⟩
  · exact List.mem_append_left _ hc
  · cases c with
    | nil => simpa using hc
    | cons e c =>
      obtain ⟨rfl, -⟩ := List.cons.inj hg
      exact hk pre c rfl

variable [DecidableEq N]

def timesCalled (n : N) (h : List (Event N)) : ℕ := h.count (.called n)

def begin (p : SamplePluginImplementation N) : Raise N :=
  ⟨p, statusAt p.notificationCallbacks.front, []⟩

/-- The callback is copied out of the node before the call; the node itself is needed again
to advance, and using it once it is erased is undefined. -/
def turn (b : Behaviour N) (r : Raise N) : Raise N :=
  match r.status with
  | .finished | .dangling => r
  | .running it =>
    match r.plugin.notificationCallbacks.deref it with
    | none => { r with status := .dangling }
    | some n =>
      let calls := b.calls n (timesCalled n r.history)
      let plugin := calls.foldl Change.run r.plugin
      { plugin := plugin
        status :=
          match plugin.notificationCallbacks.deref it with
          | none => .dangling
          | some _ => statusAt (plugin.notificationCallbacks.next it)
        history := r.history ++ .called n :: calls.map .changed }

/-- The raise after k turns. -/
def after (b : Behaviour N) (p : SamplePluginImplementation N) : ℕ → Raise N
  | 0 => begin p
  | k + 1 => turn b (after b p k)

/-- No erased node is used, the loop ends, and whoever was registered from the start and not
unregistered before its turn has been called exactly once. -/
def RaiseCorrect (b : Behaviour N) (p : SamplePluginImplementation N) : Prop :=
  (∀ k, (after b p k).status ≠ .dangling) ∧
    ∃ k, (after b p k).status = .finished ∧
      ∀ n ∈ p.callbacks, Kept n (after b p k).history → timesCalled n (after b p k).history = 1

def AtTurn (b : Behaviour N) (p : SamplePluginImplementation N) (k : ℕ) (n : N) : Prop :=
  ∃ it, (after b p k).status = .running it ∧
    (after b p k).plugin.notificationCallbacks.deref it = some n

/-- The raises that stay clear of the defect: on its turn nobody unregisters itself, nobody
who was there from the start has a second turn, and finitely many callbacks take part. -/
structure Benign (b : Behaviour N) (p : SamplePluginImplementation N) : Prop where
  self : ∀ k n, AtTurn b p k n →
    .unregister n ∉ b.calls n (timesCalled n (after b p k).history)
  again : ∀ k n, AtTurn b p k n → n ∈ p.callbacks → Kept n (after b p k).history →
    .called n ∉ (after b p k).history
  finite : {n | ∃ k, AtTurn b p k n}.Finite

theorem run_deref {p : SamplePluginImplementation N} (hp : p.Invariant) {it : ℕ} {n : N}
    (h : p.notificationCallbacks.deref it = some n) (c : Change N) :
    (c.run p).notificationCallbacks.deref it =
      if c = .unregister n then none else some n := by
  cases c with
  | register m =>
    simp only [Change.run, reduceCtorEq, if_false]
    by_cases hm : m ∈ p.callbacks
    · rw [SamplePluginImplementation.register_of_mem hm, h]
    · rw [SamplePluginImplementation.register_of_notMem hm]
      exact StableList.deref_pushBack h m
  | unregister m =>
    simp only [Change.run, NotificationThreads.Change.unregister.injEq]
    by_cases hm : m ∈ p.callbacks
    · obtain ⟨itr, hf, hu⟩ := SamplePluginImplementation.unregister_of_mem hm
      have hitr := StableList.deref_of_find hf
      rw [hu]
      by_cases hmn : m = n
      · subst m
        rw [if_pos rfl, StableList.iterator_unique hp.nodup h hitr]
        exact StableList.deref_erase_self _ _
      · rw [if_neg hmn]
        refine StableList.deref_erase_of_ne h fun hit => hmn ?_
        rw [hit, hitr] at h
        exact Option.some.inj h
    · have hmn : m ≠ n := fun hmn => hm (hmn ▸ StableList.deref_mem_values h)
      rw [SamplePluginImplementation.unregister_of_notMem hm, if_neg hmn, h]

theorem run_deref_none {p : SamplePluginImplementation N} {it : ℕ}
    (h : p.notificationCallbacks.deref it = none) (hit : it < p.notificationCallbacks.fresh)
    (c : Change N) : (c.run p).notificationCallbacks.deref it = none := by
  cases c with
  | register m =>
    by_cases hm : m ∈ p.callbacks
    · rw [Change.run, SamplePluginImplementation.register_of_mem hm, h]
    · rw [Change.run, SamplePluginImplementation.register_of_notMem hm]
      exact StableList.deref_pushBack_none h hit m
  | unregister m =>
    by_cases hm : m ∈ p.callbacks
    · obtain ⟨itr, -, hu⟩ := SamplePluginImplementation.unregister_of_mem hm
      rw [Change.run, hu]
      exact StableList.deref_erase_none h itr
    · rw [Change.run, SamplePluginImplementation.unregister_of_notMem hm, h]

theorem run_fresh (p : SamplePluginImplementation N) (c : Change N) :
    p.notificationCallbacks.fresh ≤ (c.run p).notificationCallbacks.fresh ∧
      (c.run p).notificationCallbacks.fresh ≤ p.notificationCallbacks.fresh + 1 := by
  cases c with
  | register m =>
    by_cases hm : m ∈ p.callbacks
    · rw [Change.run, SamplePluginImplementation.register_of_mem hm]
      omega
    · rw [Change.run, SamplePluginImplementation.register_of_notMem hm]
      simp [StableList.pushBack]
  | unregister m =>
    by_cases hm : m ∈ p.callbacks
    · obtain ⟨itr, -, hu⟩ := SamplePluginImplementation.unregister_of_mem hm
      rw [Change.run, hu]
      simp [StableList.erase]
    · rw [Change.run, SamplePluginImplementation.unregister_of_notMem hm]
      omega

section Changes
variable (cs : List (Change N))

theorem runs_invariant {p : SamplePluginImplementation N} (hp : p.Invariant) :
    (cs.foldl Change.run p).Invariant := by
  induction cs generalizing p with
  | nil => exact hp
  | cons c cs ih => exact ih (NotificationThreads.change_invariant hp c)

theorem runs_fresh (p : SamplePluginImplementation N) :
    p.notificationCallbacks.fresh ≤ (cs.foldl Change.run p).notificationCallbacks.fresh ∧
      (cs.foldl Change.run p).notificationCallbacks.fresh ≤
        p.notificationCallbacks.fresh + cs.length := by
  induction cs generalizing p with
  | nil => simp
  | cons c cs ih =>
    have hc := run_fresh p c
    have hcs := ih (c.run p)
    rw [List.foldl_cons, List.length_cons]
    omega

theorem runs_deref_none {p : SamplePluginImplementation N} {it : ℕ}
    (h : p.notificationCallbacks.deref it = none)
    (hit : it < p.notificationCallbacks.fresh) :
    (cs.foldl Change.run p).notificationCallbacks.deref it = none := by
  induction cs generalizing p with
  | nil => exact h
  | cons c cs ih =>
    exact ih (run_deref_none h hit c) (Nat.lt_of_lt_of_le hit (run_fresh p c).1)

theorem runs_deref {p : SamplePluginImplementation N} (hp : p.Invariant) {it : ℕ} {n : N}
    (h : p.notificationCallbacks.deref it = some n) :
    (cs.foldl Change.run p).notificationCallbacks.deref it =
      if .unregister n ∈ cs then none else some n := by
  induction cs generalizing p with
  | nil => simpa using h
  | cons c cs ih =>
    have hc := run_deref hp h c
    have hp' := NotificationThreads.change_invariant hp c
    rw [List.foldl_cons]
    by_cases hn : c = .unregister n
    · rw [if_pos hn] at hc
      have hit := Nat.lt_of_lt_of_le (StableList.node_lt_fresh h) (run_fresh p c).1
      rw [runs_deref_none cs hc hit, if_pos (by simp [hn])]
    · rw [if_neg hn] at hc
      rw [ih hp' hc]
      simp [Ne.symm hn]

end Changes

section Turns
variable {b : Behaviour N} {p : SamplePluginImplementation N}

theorem timesCalled_turn (m n : N) (h : List (Event N)) (cs : List (Change N)) :
    timesCalled m (h ++ .called n :: cs.map .changed) =
      timesCalled m h + if m = n then 1 else 0 := by
  have hcs : (cs.map Event.changed).count (.called m) = 0 := by
    rw [List.count_eq_zero]
    simp
  rw [timesCalled, timesCalled, List.count_append, List.count_cons, hcs]
  by_cases hmn : m = n
  · simp [hmn]
  · simp [hmn, Ne.symm hmn]

theorem timesCalled_pos {n : N} {h : List (Event N)} : 0 < timesCalled n h ↔ .called n ∈ h :=
  List.count_pos_iff

/-- Between turns the plugin's own invariant holds and the loop stands on a live node. -/
structure Sound (r : Raise N) : Prop where
  plugin : r.plugin.Invariant
  live : ∀ it, r.status = .running it → ∃ n, r.plugin.notificationCallbacks.deref it = some n

theorem turn_eq {r : Raise N} {it : ℕ} {n : N} (hs : r.status = .running it)
    (hd : r.plugin.notificationCallbacks.deref it = some n) :
    turn b r =
      { plugin := (b.calls n (timesCalled n r.history)).foldl Change.run r.plugin
        status :=
          match ((b.calls n (timesCalled n r.history)).foldl Change.run
            r.plugin).notificationCallbacks.deref it with
          | none => .dangling
          | some _ => statusAt (((b.calls n (timesCalled n r.history)).foldl Change.run
              r.plugin).notificationCallbacks.next it)
        history := r.history ++
          .called n :: (b.calls n (timesCalled n r.history)).map .changed } := by
  simp only [turn, hs, hd]

theorem turn_stopped {r : Raise N} (hs : ∀ it, r.status ≠ .running it) : turn b r = r := by
  cases h : r.status with
  | running it => exact absurd h (hs it)
  | finished => simp only [turn, h]
  | dangling => simp only [turn, h]

theorem turn_status {r : Raise N} (hr : Sound r) {it : ℕ} {n : N} (hs : r.status = .running it)
    (hd : r.plugin.notificationCallbacks.deref it = some n) :
    (turn b r).status =
      if .unregister n ∈ b.calls n (timesCalled n r.history) then .dangling
      else statusAt (((b.calls n (timesCalled n r.history)).foldl Change.run
        r.plugin).notificationCallbacks.next it) := by
  rw [turn_eq hs hd]
  simp only
  rw [runs_deref _ hr.plugin hd]
  split_ifs <;> rfl

theorem begin_sound (hp : p.Invariant) : Sound (begin p) := by
  refine ⟨hp, ?_⟩
  intro it hit
  cases hf : p.notificationCallbacks.front with
  | none => simp [begin, statusAt, hf] at hit
  | some i =>
    simp only [begin, hf, statusAt, Status.running.injEq] at hit
    exact hit ▸ StableList.front_deref hf

theorem turn_sound {r : Raise N} (hr : Sound r) : Sound (turn b r) := by
  cases hs : r.status with
  | finished => rwa [turn_stopped (by simp [hs])]
  | dangling => rwa [turn_stopped (by simp [hs])]
  | running it =>
    obtain ⟨n, hd⟩ := hr.live it hs
    constructor
    · rw [turn_eq hs hd]
      exact runs_invariant _ hr.plugin
    · intro j hj
      rw [turn_status hr hs hd] at hj
      split_ifs at hj
      rw [turn_eq hs hd]
      simp only
      cases hnext : ((b.calls n (timesCalled n r.history)).foldl Change.run
        r.plugin).notificationCallbacks.next it with
      | none => simp [hnext, statusAt] at hj
      | some i =>
        simp only [hnext, statusAt, Status.running.injEq] at hj
        exact hj ▸ (StableList.next_spec hnext).2

theorem after_sound (hp : p.Invariant) (k : ℕ) : Sound (after b p k) := by
  induction k with
  | zero => exact begin_sound hp
  | succ k ih => exact turn_sound ih

/-- A raise takes one more turn or has come to its end. -/
theorem atTurn_or_stopped (hp : p.Invariant) (k : ℕ) :
    (∃ n, AtTurn b p k n) ∨ after b p (k + 1) = after b p k := by
  cases hs : (after b p k).status with
  | finished => exact Or.inr (turn_stopped (by simp [hs]))
  | dangling => exact Or.inr (turn_stopped (by simp [hs]))
  | running it =>
    obtain ⟨n, hn⟩ := (after_sound hp k).live it hs
    exact Or.inl ⟨n, it, hs, hn⟩

theorem atTurn_unique {k : ℕ} {m n : N} (hm : AtTurn b p k m) (hn : AtTurn b p k n) :
    m = n := by
  obtain ⟨i, hi, hm⟩ := hm
  obtain ⟨j, hj, hn⟩ := hn
  obtain rfl := Status.running.inj (hi.symm.trans hj)
  exact Option.some.inj (hm.symm.trans hn)

theorem history_succ {k : ℕ} {n : N} (h : AtTurn b p k n) :
    (after b p (k + 1)).history = (after b p k).history ++ .called n ::
      (b.calls n (timesCalled n (after b p k).history)).map .changed := by
  obtain ⟨it, hs, hd⟩ := h
  rw [after, turn_eq hs hd]

theorem after_stopped {k : ℕ} (hs : ∀ it, (after b p k).status ≠ .running it) (j : ℕ) :
    after b p (k + j) = after b p k := by
  induction j with
  | zero => rfl
  | succ j ih => rw [← Nat.add_assoc, after, ih, turn_stopped hs]

end Turns

theorem history_grows {b : Behaviour N} {p : SamplePluginImplementation N} (hp : p.Invariant)
    (j i : ℕ) : ∃ g, (after b p (j + i)).history = (after b p j).history ++ g := by
  induction i with
  | zero => exact ⟨[], by simp⟩
  | succ i ih =>
    obtain ⟨g, hg⟩ := ih
    rcases atTurn_or_stopped (b := b) hp (j + i) with ⟨m, hm⟩ | hstop
    · exact ⟨_, by rw [← Nat.add_assoc, history_succ hm, hg, List.append_assoc]⟩
    · exact ⟨g, by rw [← Nat.add_assoc, hstop, hg]⟩

section Safety
variable {b : Behaviour N} {p : SamplePluginImplementation N}

/-- If nobody unregisters itself on its turn, no erased node is ever used. -/
theorem never_dangling (hp : p.Invariant)
    (hself : ∀ k n, AtTurn b p k n →
      .unregister n ∉ b.calls n (timesCalled n (after b p k).history)) (k : ℕ) :
    (after b p k).status ≠ .dangling := by
  induction k with
  | zero => cases h : p.notificationCallbacks.front <;> simp [after, begin, statusAt, h]
  | succ k ih =>
    rw [after]
    cases hs : (after b p k).status with
    | finished => simp [turn_stopped, hs]
    | dangling => exact absurd hs ih
    | running it =>
      obtain ⟨n, hd⟩ := (after_sound hp k).live it hs
      rw [turn_status (after_sound hp k) hs hd, if_neg (hself k n ⟨it, hs, hd⟩)]
      cases ((b.calls n (timesCalled n (after b p k).history)).foldl Change.run
        (after b p k).plugin).notificationCallbacks.next it <;> simp [statusAt]

def Placed (r : Raise N) (n : N) : Prop :=
  .called n ∈ r.history ∨ .changed (.unregister n) ∈ r.history ∨
    ∃ i it, r.plugin.notificationCallbacks.deref i = some n ∧ r.status = .running it ∧ it ≤ i

omit [DecidableEq N] in
theorem begin_placed {n : N} (hn : n ∈ p.callbacks) : Placed (begin p) n := by
  obtain ⟨i, hi⟩ := StableList.mem_values.mp hn
  have hd := StableList.deref_eq_some.mpr hi
  cases hf : p.notificationCallbacks.front with
  | none =>
    have hnil : p.callbacks = [] := StableList.front_eq_none.mp hf
    simp [hnil] at hn
  | some it =>
    exact Or.inr (Or.inr ⟨i, it, hd, by simp [begin, statusAt, hf],
      StableList.front_le_of_node hf hd⟩)

theorem turn_placed {r : Raise N} (hr : Sound r) {n : N} (h : Placed r n)
    (hsafe : (turn b r).status ≠ .dangling) : Placed (turn b r) n := by
  cases hs : r.status with
  | finished => rwa [turn_stopped (by simp [hs])]
  | dangling => rwa [turn_stopped (by simp [hs])]
  | running it =>
    obtain ⟨m, hd⟩ := hr.live it hs
    rw [turn_status hr hs hd] at hsafe
    have hhist : (turn b r).history = r.history ++ .called m ::
        (b.calls m (timesCalled m r.history)).map .changed := by rw [turn_eq hs hd]
    rcases h with hc | hu | ⟨i, it', hi, hit, hle⟩
    · exact Or.inl (by rw [hhist]; exact List.mem_append_left _ hc)
    · exact Or.inr (Or.inl (by rw [hhist]; exact List.mem_append_left _ hu))
    · obtain rfl := Status.running.inj (hit.symm.trans hs)
      -- it is n's turn, or n is still ahead and stays so unless it is unregistered
      rcases Nat.eq_or_lt_of_le hle with rfl | hlt
      · obtain rfl := Option.some.inj (hi.symm.trans hd)
        exact Or.inl (by rw [hhist]; simp)
      · by_cases hu : .unregister n ∈ b.calls m (timesCalled m r.history)
        · refine Or.inr (Or.inl ?_)
          rw [hhist]
          exact List.mem_append_right _ (List.mem_cons_of_mem _ (List.mem_map_of_mem hu))
        · have hnode := runs_deref (b.calls m (timesCalled m r.history)) hr.plugin hi
          rw [if_neg hu] at hnode
          split_ifs at hsafe with hself
          · exact absurd rfl hsafe
          · cases hnext : ((b.calls m (timesCalled m r.history)).foldl Change.run
              r.plugin).notificationCallbacks.next it' with
            | none =>
              have hle' := StableList.next_eq_none hnext hnode
              omega
            | some j =>
              refine Or.inr (Or.inr ⟨i, j, ?_, ?_, StableList.next_le_of_node hnext hnode hlt⟩)
              · rw [turn_eq hs hd]
                exact hnode
              · rw [turn_status hr hs hd, if_neg hself, hnext, statusAt]

theorem after_placed (hp : p.Invariant) (hsafe : ∀ k, (after b p k).status ≠ .dangling)
    {n : N} (hn : n ∈ p.callbacks) (k : ℕ) : Placed (after b p k) n := by
  induction k with
  | zero => exact begin_placed hn
  | succ k ih => exact turn_placed (after_sound hp k) ih (hsafe (k + 1))

theorem kept_called (hp : p.Invariant) (hsafe : ∀ k, (after b p k).status ≠ .dangling)
    {n : N} (hn : n ∈ p.callbacks) {k : ℕ} (hk : (after b p k).status = .finished)
    (hkept : Kept n (after b p k).history) : .called n ∈ (after b p k).history := by
  rcases after_placed hp hsafe hn k with hc | hu | ⟨i, it, -, hit, -⟩
  · exact hc
  · obtain ⟨pre, post, hh⟩ := List.append_of_mem hu
    rw [hh]
    exact List.mem_append_left _ (hkept pre post hh)
  · rw [hk] at hit
    cases hit

theorem kept_called_once (hp : p.Invariant)
    (hagain : ∀ k n, AtTurn b p k n → n ∈ p.callbacks → Kept n (after b p k).history →
      .called n ∉ (after b p k).history)
    {n : N} (hn : n ∈ p.callbacks) (k : ℕ) (hkept : Kept n (after b p k).history) :
    timesCalled n (after b p k).history ≤ 1 := by
  induction k with
  | zero => simp [after, begin, timesCalled]
  | succ k ih =>
    rcases atTurn_or_stopped (b := b) hp k with ⟨m, hm⟩ | hstop
    · rw [history_succ hm] at hkept ⊢
      have hkept' := hkept.of_append
      rw [timesCalled_turn]
      split_ifs with hnm
      · subst hnm
        have hzero := hagain k n hm hn hkept'
        rw [← timesCalled_pos] at hzero
        omega
      · exact ih hkept'
    · rw [hstop] at hkept ⊢
      exact ih hkept

end Safety

section Termination
variable {b : Behaviour N} {p : SamplePluginImplementation N}

def spent (b : Behaviour N) (F : Finset N) (h : List (Event N)) : ℕ :=
  ∑ n ∈ F, ∑ j ∈ Finset.range (timesCalled n h), (b.calls n j).length

theorem spent_turn {F : Finset N} {n : N} (hn : n ∈ F) (h : List (Event N)) :
    spent b F (h ++ .called n :: (b.calls n (timesCalled n h)).map .changed) =
      spent b F h + (b.calls n (timesCalled n h)).length := by
  have hrest : ∀ m ∈ F.erase n,
      ∑ j ∈ Finset.range (timesCalled m (h ++ .called n ::
        (b.calls n (timesCalled n h)).map .changed)), (b.calls m j).length =
      ∑ j ∈ Finset.range (timesCalled m h), (b.calls m j).length := by
    intro m hm
    rw [timesCalled_turn, if_neg (Finset.ne_of_mem_erase hm), Nat.add_zero]
  rw [spent, spent, ← Finset.add_sum_erase F _ hn, ← Finset.add_sum_erase F _ hn,
    Finset.sum_congr rfl hrest, timesCalled_turn, if_pos rfl, Finset.sum_range_succ]
  omega

omit [DecidableEq N] in
theorem calls_bounded (b : Behaviour N) (n : N) :
    ∃ B, ∀ m, ∑ j ∈ Finset.range m, (b.calls n j).length ≤ B := by
  by_cases hcalls : ∃ k, b.calls n k ≠ []
  · obtain ⟨k, hk⟩ := hcalls
    refine ⟨(b.calls n k).length, ?_⟩
    intro m
    have hzero : ∀ j ∈ Finset.range m, j ≠ k → (b.calls n j).length = 0 := by
      intro j _ hj
      by_contra hne
      exact hj (b.once n j k (fun h => hne (by rw [h]; rfl)) hk)
    by_cases hm : k ∈ Finset.range m
    · rw [Finset.sum_eq_single_of_mem k hm hzero]
    · rw [Finset.sum_eq_zero fun j hj => hzero j hj fun hjk => hm (hjk ▸ hj)]
      exact Nat.zero_le _
  · push Not at hcalls
    exact ⟨0, fun m => by simp [hcalls]⟩

theorem spent_bounded (b : Behaviour N) (F : Finset N) : ∃ B, ∀ h, spent b F h ≤ B := by
  choose B hB using calls_bounded b
  exact ⟨∑ n ∈ F, B n, fun h => Finset.sum_le_sum fun n _ => hB n _⟩

theorem fresh_le_spent (hp : p.Invariant) {F : Finset N}
    (hF : ∀ k n, AtTurn b p k n → n ∈ F) (k : ℕ) :
    (after b p k).plugin.notificationCallbacks.fresh ≤
      p.notificationCallbacks.fresh + spent b F (after b p k).history := by
  induction k with
  | zero => exact Nat.le_add_right _ _
  | succ k ih =>
    rcases atTurn_or_stopped (b := b) hp k with ⟨n, it, hs, hd⟩ | hstop
    · have hgrow := (runs_fresh (b.calls n (timesCalled n (after b p k).history))
        (after b p k).plugin).2
      have hspent := spent_turn (b := b) (hF k n ⟨it, hs, hd⟩) (after b p k).history
      rw [after, turn_eq hs hd]
      simp only
      omega
    · rwa [hstop]

theorem turns_le_iterator (hp : p.Invariant)
    (hrun : ∀ k, ∃ it, (after b p k).status = .running it) (k : ℕ) :
    ∀ it, (after b p k).status = .running it → k ≤ it := by
  induction k with
  | zero => exact fun it _ => Nat.zero_le it
  | succ k ih =>
    intro it hit
    obtain ⟨prev, hs⟩ := hrun k
    obtain ⟨n, hd⟩ := (after_sound hp k).live prev hs
    rw [after, turn_status (after_sound hp k) hs hd] at hit
    split_ifs at hit
    cases hnext : ((b.calls n (timesCalled n (after b p k).history)).foldl Change.run
      (after b p k).plugin).notificationCallbacks.next prev with
    | none => simp [hnext, statusAt] at hit
    | some j =>
      simp only [hnext, statusAt, Status.running.injEq] at hit
      have hlt := (StableList.next_spec hnext).1
      have hle := ih prev hs
      omega

theorem finishes (hp : p.Invariant) (hsafe : ∀ k, (after b p k).status ≠ .dangling)
    (hfin : {n | ∃ k, AtTurn b p k n}.Finite) : ∃ k, (after b p k).status = .finished := by
  by_contra hnever
  push Not at hnever
  have hrun : ∀ k, ∃ it, (after b p k).status = .running it := by
    intro k
    cases h : (after b p k).status with
    | running it => exact ⟨it, rfl⟩
    | finished => exact absurd h (hnever k)
    | dangling => exact absurd h (hsafe k)
  have hF : ∀ k n, AtTurn b p k n → n ∈ hfin.toFinset :=
    fun k n h => hfin.mem_toFinset.mpr ⟨k, h⟩
  obtain ⟨B, hB⟩ := spent_bounded b hfin.toFinset
  -- after this many turns the iterator would be past every node there can be
  obtain ⟨it, hs⟩ := hrun (p.notificationCallbacks.fresh + B)
  obtain ⟨n, hd⟩ := (after_sound hp _).live it hs
  have hlow := turns_le_iterator hp hrun _ it hs
  have hnode := StableList.node_lt_fresh hd
  have hfresh := fresh_le_spent hp hF (p.notificationCallbacks.fresh + B)
  have hspent := hB (after b p (p.notificationCallbacks.fresh + B)).history
  omega

theorem turn_before_end {j k : ℕ} {n : N} (hj : AtTurn b p j n)
    (hk : (after b p k).status = .finished) : j < k := by
  by_contra hle
  obtain ⟨it, hs, -⟩ := hj
  obtain ⟨d, rfl⟩ := Nat.exists_eq_add_of_le (Nat.not_lt.mp hle)
  rw [after_stopped (by simp [hk]), hk] at hs
  cases hs

theorem finite_of_finished {k : ℕ} (hk : (after b p k).status = .finished) :
    {n | ∃ j, AtTurn b p j n}.Finite := by
  have hsub : {n | ∃ j, AtTurn b p j n} ⊆ ⋃ j ∈ Finset.range k, {n | AtTurn b p j n} := by
    rintro n ⟨j, hj⟩
    simp only [Finset.mem_range, Set.mem_iUnion]
    exact ⟨j, turn_before_end hj hk, hj⟩
  refine Set.Finite.subset ((Finset.range k).finite_toSet.biUnion fun j _ => ?_) hsub
  exact Set.Subsingleton.finite fun m hm n hn => atTurn_unique hm hn

end Termination

/-- A raise whose callbacks call back goes right exactly when it stays benign. -/
theorem raise_correct_iff_benign {p : SamplePluginImplementation N} (hp : p.Invariant)
    (b : Behaviour N) : RaiseCorrect b p ↔ Benign b p := by
  constructor
  · rintro ⟨hsafe, k, hk, honce⟩
    refine ⟨?_, ?_, finite_of_finished hk⟩
    · intro j n hj hself
      obtain ⟨it, hs, hd⟩ := hj
      refine hsafe (j + 1) ?_
      rw [after, turn_status (after_sound hp j) hs hd, if_pos hself]
    · intro j n hj hn hkept hcalled
      obtain ⟨d, rfl⟩ := Nat.exists_eq_add_of_le (Nat.succ_le_of_lt (turn_before_end hj hk))
      obtain ⟨g, hg⟩ := history_grows (b := b) hp (j + 1) d
      -- the second turn of n is in the history for good
      have hturn := history_succ hj
      have hend : Kept n (after b p (j + 1 + d)).history := by
        rw [hg, hturn, List.append_assoc]
        exact hkept.append_of_called hcalled _
      have hone := honce n hn hend
      have hpos := timesCalled_pos.mpr hcalled
      have hcount := timesCalled_turn n n (after b p j).history
        (b.calls n (timesCalled n (after b p j).history))
      rw [if_pos rfl, ← hturn] at hcount
      rw [hg, timesCalled, List.count_append] at hone
      rw [timesCalled] at hcount
      omega
  · intro h
    have hsafe := never_dangling hp h.self
    obtain ⟨k, hk⟩ := finishes hp hsafe h.finite
    refine ⟨hsafe, k, hk, ?_⟩
    intro n hn hkept
    have hpos := timesCalled_pos.mpr (kept_called hp hsafe hn hk hkept)
    have hle := kept_called_once hp h.again hn k hkept
    omega

/-- Callbacks 1 and 2 are registered and 1 unregisters itself when it is first called. -/
def selfUnregistering : Behaviour ℕ where
  calls n k := if n = 1 ∧ k = 0 then [.unregister 1] else []
  once n j k hj hk := by
    simp only [ne_eq, ite_eq_right_iff, reduceCtorEq, imp_false, not_not] at hj hk
    omega

def twoCallbacks : SamplePluginImplementation ℕ :=
  (SamplePluginImplementation.initial.register 1).register 2

theorem twoCallbacks_invariant : twoCallbacks.Invariant :=
  SamplePluginImplementation.register_invariant
    (SamplePluginImplementation.register_invariant
      SamplePluginImplementation.initial_invariant 1) 2

theorem self_unregister_dangles :
    twoCallbacks.Invariant ∧ ¬ RaiseCorrect selfUnregistering twoCallbacks := by
  refine ⟨twoCallbacks_invariant, fun h => ?_⟩
  exact h.1 1 rfl

end ReentrantRaise
