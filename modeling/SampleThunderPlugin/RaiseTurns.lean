import SampleThunderPlugin.ReentrantRaise

/-! Who may get a turn in a raise whose callbacks call back, read off the list and the
behaviours alone: whoever is registered at the start, whoever somebody's turn registers, and
once more whoever turns both unregister and register. -/
namespace RaiseTurns

open NotificationThreads (Change)
open ReentrantRaise

variable {N : Type} [DecidableEq N]

/-- The callback may be called for the (k+1)-th time. -/
inductive MayTurn (b : Behaviour N) (p : SamplePluginImplementation N) : N → ℕ → Prop where
  | start {n} (hn : n ∈ p.callbacks) : MayTurn b p n 0
  | registered {m n k} (hm : MayTurn b p m k) (hr : .register n ∈ b.calls m k) : MayTurn b p n 0
  | again {l m n i j k} (hn : MayTurn b p n k) (hl : MayTurn b p l i)
      (hu : .unregister n ∈ b.calls l i) (hm : MayTurn b p m j)
      (hr : .register n ∈ b.calls m j) : MayTurn b p n (k + 1)

/-- In no turn there may be does a callback unregister itself, nobody of the start may have a
second turn, and finitely many callbacks may have one. -/
structure Tame (b : Behaviour N) (p : SamplePluginImplementation N) : Prop where
  self : ∀ n k, MayTurn b p n k → .unregister n ∉ b.calls n k
  again : ∀ n ∈ p.callbacks, ¬ MayTurn b p n 1
  finite : {n | MayTurn b p n 0}.Finite

theorem run_deref_inv {p : SamplePluginImplementation N} {it : ℕ} {n : N} {c : Change N}
    (h : (c.run p).notificationCallbacks.deref it = some n) :
    p.notificationCallbacks.deref it = some n ∨
      (c = .register n ∧ p.notificationCallbacks.fresh ≤ it) := by
  cases c with
  | register m =>
    by_cases hm : m ∈ p.callbacks
    · rw [Change.run, SamplePluginImplementation.register_of_mem hm] at h
      exact Or.inl h
    · rw [Change.run, SamplePluginImplementation.register_of_notMem hm] at h
      rcases StableList.deref_of_pushBack h with hold | ⟨rfl, rfl⟩
      · exact Or.inl hold
      · exact Or.inr ⟨rfl, Nat.le_refl _⟩
  | unregister m =>
    by_cases hm : m ∈ p.callbacks
    · obtain ⟨itr, -, hu⟩ := SamplePluginImplementation.unregister_of_mem hm
      rw [Change.run, hu] at h
      exact Or.inl (StableList.deref_of_erase h)
    · rw [Change.run, SamplePluginImplementation.unregister_of_notMem hm] at h
      exact Or.inl h

section Changes
variable (cs : List (Change N))

theorem runs_deref_inv {p : SamplePluginImplementation N} {it : ℕ} {n : N}
    (h : (cs.foldl Change.run p).notificationCallbacks.deref it = some n) :
    p.notificationCallbacks.deref it = some n ∨
      (.register n ∈ cs ∧ p.notificationCallbacks.fresh ≤ it) := by
  induction cs generalizing p with
  | nil => exact Or.inl h
  | cons c cs ih =>
    rcases ih h with hnode | ⟨hmem, hfresh⟩
    · rcases run_deref_inv hnode with hold | ⟨rfl, hfresh⟩
      · exact Or.inl hold
      · exact Or.inr ⟨List.mem_cons_self, hfresh⟩
    · have hgrow := (run_fresh p c).1
      exact Or.inr ⟨List.mem_cons_of_mem c hmem, by omega⟩

theorem runs_stay {p : SamplePluginImplementation N} (hp : p.Invariant) {n : N}
    (hn : n ∈ p.callbacks) (hu : .unregister n ∉ cs) :
    n ∈ (cs.foldl Change.run p).callbacks := by
  obtain ⟨i, hi⟩ := StableList.mem_values.mp hn
  have hnode := runs_deref cs hp (StableList.deref_eq_some.mpr hi)
  rw [if_neg hu] at hnode
  exact StableList.deref_mem_values hnode

theorem runs_registered {p : SamplePluginImplementation N} (hp : p.Invariant) {n : N}
    (hr : .register n ∈ cs) (hu : .unregister n ∉ cs) :
    n ∈ (cs.foldl Change.run p).callbacks := by
  induction cs generalizing p with
  | nil => cases hr
  | cons c cs ih =>
    have hp' := NotificationThreads.change_invariant hp c
    have hu' : .unregister n ∉ cs := fun hm => hu (List.mem_cons_of_mem c hm)
    rcases List.mem_cons.mp hr with rfl | hr
    · refine runs_stay cs hp' ?_ hu'
      exact (NotificationThreads.mem_change hp _ n).mpr (Or.inl rfl)
    · exact ih hp' hr hu'

end Changes

def Behind (r : Raise N) (i : ℕ) : Prop := ∀ it, r.status = .running it → i < it

/-- What the history says about the nodes: a callback that was not registered in the raise
has the node it had at the start; a callback that was called and not unregistered, or not
registered, has its node behind the loop; and whoever is behind the loop was called. -/
structure Accounted (p : SamplePluginImplementation N) (r : Raise N) : Prop where
  original : ∀ n i, .changed (.register n) ∉ r.history →
    r.plugin.notificationCallbacks.deref i = some n → p.notificationCallbacks.deref i = some n
  kept : ∀ n, .called n ∈ r.history → .changed (.unregister n) ∉ r.history →
    ∃ i, r.plugin.notificationCallbacks.deref i = some n ∧ Behind r i
  first : ∀ n, .called n ∈ r.history → .changed (.register n) ∉ r.history →
    ∃ i, p.notificationCallbacks.deref i = some n ∧ Behind r i
  passed : r.status ≠ .dangling → ∀ n i, r.plugin.notificationCallbacks.deref i = some n →
    Behind r i → .called n ∈ r.history

section Turns
variable {b : Behaviour N} {p : SamplePluginImplementation N}

omit [DecidableEq N] in
theorem begin_accounted (p : SamplePluginImplementation N) : Accounted p (begin p) where
  original := fun _ _ _ h => h
  kept := fun n h => by cases h
  first := fun n h => by cases h
  passed := by
    intro _ n i hi hb
    cases hf : p.notificationCallbacks.front with
    | none =>
      have hnil : p.callbacks = [] := StableList.front_eq_none.mp hf
      have hn : n ∈ p.callbacks := StableList.deref_mem_values hi
      simp [hnil] at hn
    | some it =>
      have hlt := hb it (by simp [begin, statusAt, hf])
      have hle := StableList.front_le_of_node hf hi
      omega

section Running
variable {r : Raise N} {it : ℕ} {m : N} (hr : Sound r) (hs : r.status = .running it)
  (hd : r.plugin.notificationCallbacks.deref it = some m)
include hr hs hd

theorem behind_turn {i : ℕ} (hi : i ≤ it) : Behind (turn b r) i := by
  intro j hj
  rw [turn_status hr hs hd] at hj
  split_ifs at hj
  cases hnext : ((b.calls m (timesCalled m r.history)).foldl Change.run
    r.plugin).notificationCallbacks.next it with
  | none => simp [hnext, statusAt] at hj
  | some k =>
    simp only [hnext, statusAt, Status.running.injEq] at hj
    have hlt := (StableList.next_spec hnext).1
    omega

theorem le_of_behind_turn {i : ℕ} {n : N} (hsafe : (turn b r).status ≠ .dangling)
    (hn : (turn b r).plugin.notificationCallbacks.deref i = some n)
    (hb : Behind (turn b r) i) : i ≤ it := by
  rw [turn_eq hs hd] at hn
  simp only at hn
  unfold Behind at hb
  rw [turn_status hr hs hd] at hb hsafe
  split_ifs at hb hsafe with hself
  · exact absurd rfl hsafe
  cases hnext : ((b.calls m (timesCalled m r.history)).foldl Change.run
    r.plugin).notificationCallbacks.next it with
  | none => exact StableList.next_eq_none hnext hn
  | some k =>
    have hlt := hb k (by rw [hnext]; rfl)
    by_contra hle
    have hk := StableList.next_le_of_node hnext hn (Nat.not_le.mp hle)
    omega

theorem turn_accounted_running (h : Accounted p r) : Accounted p (turn b r) := by
  have hbehind {i : ℕ} (hb : Behind r i) : Behind (turn b r) i :=
    behind_turn hr hs hd (Nat.le_of_lt (hb it hs))
  have hself : Behind (turn b r) it := behind_turn hr hs hd (Nat.le_refl it)
  have hturn : turn b r = _ := turn_eq hs hd
  have hhist : (turn b r).history = r.history ++
      .called m :: (b.calls m (timesCalled m r.history)).map .changed := by rw [hturn]
  have hplugin : (turn b r).plugin =
      (b.calls m (timesCalled m r.history)).foldl Change.run r.plugin := by rw [hturn]
  have hold (c : Change N) (hc : .changed c ∉ (turn b r).history) :
      .changed c ∉ r.history ∧ c ∉ b.calls m (timesCalled m r.history) := by
    rw [hhist] at hc
    simpa using hc
  have hcalled {n : N} (hc : .called n ∈ (turn b r).history) : .called n ∈ r.history ∨ n = m := by
    rw [hhist] at hc
    simpa using hc
  refine ⟨?_, ?_, ?_, ?_⟩
  · intro n i hn hi
    obtain ⟨hn, hcs⟩ := hold _ hn
    rw [hplugin] at hi
    rcases runs_deref_inv _ hi with hi | ⟨hmem, -⟩
    · exact h.original n i hn hi
    · exact absurd hmem hcs
  · intro n hc hn
    obtain ⟨hn, hcs⟩ := hold _ hn
    rw [hplugin]
    rcases hcalled hc with hc | rfl
    · obtain ⟨i, hi, hb⟩ := h.kept n hc hn
      exact ⟨i, by rw [runs_deref _ hr.plugin hi, if_neg hcs], hbehind hb⟩
    · exact ⟨it, by rw [runs_deref _ hr.plugin hd, if_neg hcs], hself⟩
  · intro n hc hn
    obtain ⟨hn, -⟩ := hold _ hn
    rcases hcalled hc with hc | rfl
    · obtain ⟨i, hi, hb⟩ := h.first n hc hn
      exact ⟨i, hi, hbehind hb⟩
    · exact ⟨it, h.original n it hn hd, hself⟩
  · intro hsafe n i hi hb
    have hle := le_of_behind_turn hr hs hd hsafe hi hb
    have hfresh := StableList.node_lt_fresh hd
    rw [hplugin] at hi
    rw [hhist]
    rcases runs_deref_inv _ hi with hi | ⟨-, hnew⟩
    · rcases Nat.eq_or_lt_of_le hle with rfl | hlt
      · obtain rfl := Option.some.inj (hi.symm.trans hd)
        simp
      · refine List.mem_append_left _ (h.passed (by simp [hs]) n i hi ?_)
        intro j hj
        obtain rfl := Status.running.inj (hj.symm.trans hs)
        exact hlt
    · -- a node made in this turn is newer than the iterator
      omega

end Running

theorem after_accounted (hp : p.Invariant) (k : ℕ) : Accounted p (after b p k) := by
  induction k with
  | zero => exact begin_accounted p
  | succ k ih =>
    rw [after]
    cases hs : (after b p k).status with
    | finished => rwa [turn_stopped (by simp [hs])]
    | dangling => rwa [turn_stopped (by simp [hs])]
    | running it =>
      obtain ⟨m, hd⟩ := (after_sound hp k).live it hs
      exact turn_accounted_running (after_sound hp k) hs hd ih

theorem history_change (hp : p.Invariant) {k : ℕ} {c : Change N}
    (hc : .changed c ∈ (after b p k).history) :
    ∃ j m, j < k ∧ AtTurn b p j m ∧ c ∈ b.calls m (timesCalled m (after b p j).history) := by
  induction k with
  | zero => cases hc
  | succ k ih =>
    have hearlier (h : .changed c ∈ (after b p k).history) :
        ∃ j m, j < k + 1 ∧ AtTurn b p j m ∧
          c ∈ b.calls m (timesCalled m (after b p j).history) := by
      obtain ⟨j, m, hj, hm⟩ := ih h
      exact ⟨j, m, Nat.lt_succ_of_lt hj, hm⟩
    rcases atTurn_or_stopped (b := b) hp k with ⟨m, hm⟩ | hstop
    · rw [history_succ hm] at hc
      rcases List.mem_append.mp hc with hc | hc
      · exact hearlier hc
      · exact ⟨k, m, Nat.lt_succ_self k, hm, by simpa using hc⟩
    · rw [hstop] at hc
      exact hearlier hc

theorem history_called (hp : p.Invariant) {k c : ℕ} {n : N}
    (hc : c < timesCalled n (after b p k).history) :
    ∃ j, j < k ∧ AtTurn b p j n ∧ timesCalled n (after b p j).history = c := by
  induction k with
  | zero => simp [after, begin, timesCalled] at hc
  | succ k ih =>
    have hearlier (h : c < timesCalled n (after b p k).history) :
        ∃ j, j < k + 1 ∧ AtTurn b p j n ∧ timesCalled n (after b p j).history = c := by
      obtain ⟨j, hj, hn⟩ := ih h
      exact ⟨j, Nat.lt_succ_of_lt hj, hn⟩
    rcases atTurn_or_stopped (b := b) hp k with ⟨m, hm⟩ | hstop
    · rw [history_succ hm, timesCalled_turn] at hc
      rcases Nat.lt_or_ge c (timesCalled n (after b p k).history) with hlt | hge
      · exact hearlier hlt
      · split_ifs at hc with hnm
        · subst hnm
          exact ⟨k, Nat.lt_succ_self k, hm, by omega⟩
        · omega
    · rw [hstop] at hc
      exact hearlier hc

theorem second_turn (hp : p.Invariant) {k : ℕ} {n : N} (h : AtTurn b p k n)
    (hc : .called n ∈ (after b p k).history) :
    .changed (.unregister n) ∈ (after b p k).history ∧
      .changed (.register n) ∈ (after b p k).history := by
  have ha := after_accounted (b := b) hp k
  obtain ⟨it, hs, hd⟩ := h
  constructor
  · by_contra hu
    obtain ⟨i, hi, hb⟩ := ha.kept n hc hu
    have hsame := StableList.iterator_unique (after_sound hp k).plugin.nodup hi hd
    have hlt := hb it hs
    omega
  · by_contra hr
    obtain ⟨i, hi, hb⟩ := ha.first n hc hr
    have hsame := StableList.iterator_unique hp.nodup hi (ha.original n it hr hd)
    have hlt := hb it hs
    omega

theorem atTurn_may (hp : p.Invariant) {k : ℕ} {n : N} (h : AtTurn b p k n) :
    MayTurn b p n (timesCalled n (after b p k).history) := by
  -- on the turn: whatever brought n to it was done in earlier ones
  induction k using Nat.strongRecOn generalizing n with
  | ind k ih =>
    cases hcount : timesCalled n (after b p k).history with
    | zero =>
      by_cases hr : .changed (.register n) ∈ (after b p k).history
      · obtain ⟨j, m, hj, hm, hmem⟩ := history_change hp hr
        exact .registered (ih j hj hm) hmem
      · obtain ⟨it, -, hd⟩ := h
        have horiginal := (after_accounted hp k).original n it hr hd
        exact .start (StableList.deref_mem_values horiginal)
    | succ c =>
      have hlt : c < timesCalled n (after b p k).history := by omega
      obtain ⟨hu, hr⟩ := second_turn hp h (timesCalled_pos.mp (by omega))
      obtain ⟨i, hi, hn, hcalls⟩ := history_called hp hlt
      obtain ⟨j, l, hj, hl, hunregister⟩ := history_change hp hu
      obtain ⟨j', m, hj', hm, hregister⟩ := history_change hp hr
      have hearlier := ih i hi hn
      rw [hcalls] at hearlier
      exact .again hearlier (ih j hj hl) hunregister (ih j' hj' hm) hregister

omit [DecidableEq N] in
theorem may_earlier {n : N} {k j : ℕ} (h : MayTurn b p n k) (hj : j ≤ k) : MayTurn b p n j := by
  induction k with
  | zero =>
    obtain rfl := Nat.le_zero.mp hj
    exact h
  | succ k ih =>
    rcases Nat.eq_or_lt_of_le hj with rfl | hlt
    · exact h
    · cases h with
      | again hn hl hu hm hr => exact ih hn (Nat.le_of_lt_succ hlt)

theorem Tame.benign (hp : p.Invariant) (h : Tame b p) : Benign b p where
  self := fun _ n hn => h.self n _ (atTurn_may hp hn)
  again := by
    intro k n hn hstart _ hc
    have hpos := timesCalled_pos.mpr hc
    exact h.again n hstart (may_earlier (atTurn_may hp hn) hpos)
  finite := by
    refine h.finite.subset ?_
    rintro n ⟨k, hn⟩
    exact may_earlier (atTurn_may hp hn) (Nat.zero_le _)

end Turns

section Converse
variable {b : Behaviour N} {p : SamplePluginImplementation N}

theorem has_turn (hp : p.Invariant) (hcorrect : RaiseCorrect b p) {n : N}
    (hn : ∀ k, .changed (.unregister n) ∉ (after b p k).history) {j : ℕ}
    (hj : n ∈ (after b p j).plugin.callbacks) :
    ∃ k, AtTurn b p k n ∧ timesCalled n (after b p k).history = 0 := by
  obtain ⟨hsafe, e, he, -⟩ := hcorrect
  have hstays (d : ℕ) : n ∈ (after b p (j + d)).plugin.callbacks := by
    induction d with
    | zero => exact hj
    | succ d ih =>
      rw [← Nat.add_assoc]
      rcases atTurn_or_stopped (b := b) hp (j + d) with ⟨m, it, hs, hd⟩ | hstop
      · have hhist := hn (j + d + 1)
        rw [history_succ ⟨it, hs, hd⟩] at hhist
        rw [after, turn_eq hs hd]
        refine runs_stay _ (after_sound hp (j + d)).plugin ih fun hu => hhist ?_
        simp [hu]
      · rwa [hstop]
  have hend : (after b p (j + e)).status = .finished := by
    rw [Nat.add_comm, after_stopped (by simp [he]), he]
  obtain ⟨i, hi⟩ := StableList.mem_values.mp (hstays e)
  have hcalled := (after_accounted hp (j + e)).passed (hsafe (j + e)) n i
    (StableList.deref_eq_some.mpr hi) (by
      intro it hit
      rw [hend] at hit
      cases hit)
  obtain ⟨k, -, hk⟩ := history_called hp (timesCalled_pos.mpr hcalled)
  exact ⟨k, hk⟩

/-- Where nobody unregisters anybody else, whoever may get a turn gets it, and one only. -/
theorem may_turns (hp : p.Invariant) (hcorrect : RaiseCorrect b p)
    (hown : ∀ m k n, .unregister n ∈ b.calls m k → n = m) {n : N} {k : ℕ}
    (h : MayTurn b p n k) :
    k = 0 ∧ ∃ j, AtTurn b p j n ∧ timesCalled n (after b p j).history = 0 := by
  have hself := ((raise_correct_iff_benign hp b).mp hcorrect).self
  have hnever (n : N) (k : ℕ) : .changed (.unregister n) ∉ (after b p k).history := by
    intro hu
    obtain ⟨j, m, -, hm, hmem⟩ := history_change hp hu
    obtain rfl := hown m _ n hmem
    exact hself j n hm hmem
  induction h with
  | start hn => exact ⟨rfl, has_turn hp hcorrect (hnever _) (j := 0) hn⟩
  | @registered m n k hm hr ih =>
    obtain ⟨rfl, j, hj, hcount⟩ := ih
    refine ⟨rfl, has_turn hp hcorrect (hnever n) (j := j + 1) ?_⟩
    have hhist := hnever n (j + 1)
    rw [history_succ hj, hcount] at hhist
    obtain ⟨it, hs, hd⟩ := hj
    rw [after, turn_eq hs hd, hcount]
    exact runs_registered _ (after_sound hp j).plugin hr fun hu => hhist (by simp [hu])
  | @again l m n i j k hn hl hu hm hr ihn ihl ihm =>
    obtain ⟨rfl, t, ht, hcount⟩ := ihl
    obtain rfl := hown l 0 n hu
    exact absurd (hcount ▸ hu) (hself t n ht)

end Converse

/-- A raise goes right wherever every turn there may be is tame; and where callbacks
unregister nobody but themselves, nowhere else. -/
theorem raise_correct_of_tame {p : SamplePluginImplementation N} (hp : p.Invariant)
    (b : Behaviour N) :
    (Tame b p → RaiseCorrect b p) ∧
    ((∀ m k n, .unregister n ∈ b.calls m k → n = m) → RaiseCorrect b p → Tame b p) := by
  constructor
  · intro h
    exact (raise_correct_iff_benign hp b).mpr (h.benign hp)
  · intro hown hcorrect
    have hbenign := (raise_correct_iff_benign hp b).mp hcorrect
    refine ⟨?_, ?_, ?_⟩
    · intro n k hn hu
      obtain ⟨rfl, j, hj, hcount⟩ := may_turns hp hcorrect hown hn
      exact hbenign.self j n hj (hcount.symm ▸ hu)
    · intro n _ hn
      have hfirst := (may_turns hp hcorrect hown hn).1
      omega
    · refine hbenign.finite.subset ?_
      intro n hn
      obtain ⟨-, j, hj, -⟩ := may_turns hp hcorrect hown hn
      exact ⟨j, hj⟩

/-- On its first call 2 unregisters 1, which has had its turn, and 3, which has not, and
registers 4. -/
def rearrange (n k : ℕ) : List (Change ℕ) :=
  if n = 2 ∧ k = 0 then [.unregister 1, .unregister 3, .register 4] else []

theorem rearrange_once (n j k : ℕ) (hj : rearrange n j ≠ []) (hk : rearrange n k ≠ []) :
    j = k := by
  unfold rearrange at hj hk
  split_ifs at hj hk <;> simp at hj hk
  omega

def rearranging : Behaviour ℕ := ⟨rearrange, rearrange_once⟩

def threeCallbacks : SamplePluginImplementation ℕ :=
  ((SamplePluginImplementation.initial.register 1).register 2).register 3

theorem threeCallbacks_invariant : threeCallbacks.Invariant :=
  SamplePluginImplementation.register_invariant
    (SamplePluginImplementation.register_invariant
      (SamplePluginImplementation.register_invariant
        SamplePluginImplementation.initial_invariant 1) 2) 3

theorem raise_correct_of_tame_rearranging : RaiseCorrect rearranging threeCallbacks ∧
    (after rearranging threeCallbacks 3).history = [.called 1, .called 2,
      .changed (.unregister 1), .changed (.unregister 3), .changed (.register 4), .called 4] := by
  have hmay {n k : ℕ} (h : MayTurn rearranging threeCallbacks n k) : k = 0 ∧ n ≤ 4 := by
    induction h with
    | @start n hn =>
      have hlist : threeCallbacks.callbacks = [1, 2, 3] := by decide
      rw [hlist] at hn
      simp only [List.mem_cons, List.not_mem_nil, or_false] at hn
      omega
    | @registered m n k hm hr ih =>
      simp only [rearranging, rearrange] at hr
      split_ifs at hr <;> simp at hr
      omega
    | @again l m n i j k hn hl hu hm hr ihn ihl ihm =>
      simp only [rearranging, rearrange] at hu hr
      split_ifs at hu hr <;> simp at hu hr
      omega
  refine ⟨(raise_correct_of_tame threeCallbacks_invariant rearranging).1 ⟨?_, ?_, ?_⟩, by decide⟩
  · intro n k hn hu
    simp only [rearranging, rearrange] at hu
    split_ifs at hu <;> simp at hu
    omega
  · intro n _ hn
    have hfirst := (hmay hn).1
    omega
  · exact (Set.finite_le_nat 4).subset fun n hn => (hmay hn).2

end RaiseTurns
