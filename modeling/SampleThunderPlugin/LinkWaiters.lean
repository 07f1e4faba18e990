import SampleThunderPlugin.InterleavedThreads
import SampleThunderPlugin.LinkEstablishment
import SampleThunderPlugin.RunSimulation

/-! The threads in WaitForLinkEstablish once no new call comes in, with StateChange events and
the clock going on as they like. Nobody relies on a notification: every wait can end by its
timeout alone. -/
namespace LinkWaiters

open LabelledRuns InterleavedThreads LinkEstablishment
open scoped BigOperators

variable {T : Type}

def Holds : Pc → Prop
  | .locked _ | .relocked _ _ => True
  | _ => False

def stepsLeft : Pc → ℕ
  | .idle => 0
  | .locking _ => 5
  | .locked _ => 4
  | .waiting _ => 3
  | .woken _ _ => 2
  | .relocked _ _ => 1

def isCall : Event T → Bool
  | .call _ _ => true
  | _ => false

def moves : Event T → Bool
  | .tick | .stateChange none => false
  | _ => true

/-- The steps a thread takes of its own, without a notification or a spurious wakeup. -/
def Own : Event T → Prop
  | .lock _ | .waitFor _ | .timeout _ | .relock _ | .returned _ _ => True
  | _ => False

/-- What goes on without StateChange events, spurious wakeups and new calls. -/
def ByClock (e : Event T) : Prop := Own e ∨ e = .tick

/-- The lock is free, and who has not returned waits for a moment still ahead. -/
def Settled (s : State T) : Prop :=
  s.lock = none ∧ ∀ t, s.pc t = .idle ∨ ∃ deadline, s.pc t = .waiting deadline ∧ s.now < deadline

def remaining [Fintype T] (s : State T) : ℕ := ∑ t, stepsLeft (s.pc t)

variable [DecidableEq T]

abbrev QuietStep : State T → Event T → State T → Prop := Guarded (fun _ e => ¬ isCall e) Step

def LockOwned (s : State T) : Prop := Owned Holds s.lock s.pc

theorem step_owned {s u : State T} {e : Event T} (h : LockOwned s) (hstep : Step s e u) :
    LockOwned u := by
  cases hstep with
  | tick => exact h
  | unheard hw => exact h
  | notify t deadline hp => exact Owned.move h (by rw [hp]; exact Iff.rfl)
  | call t timeoutMs hp => exact Owned.move h (by rw [hp]; exact Iff.rfl)
  | lock t timeoutMs hp hl => exact Owned.take h hl trivial
  | waitFor t timeoutMs hp => exact Owned.drop h (by rw [hp]; trivial) id
  | timeout t deadline hp hd => exact Owned.move h (by rw [hp]; exact Iff.rfl)
  | spurious t deadline hp => exact Owned.move h (by rw [hp]; exact Iff.rfl)
  | relock t cause deadline hp hl => exact Owned.take h hl trivial
  | returned t cause deadline hp => exact Owned.drop h (by rw [hp]; trivial) id

theorem run_owned {s u : State T} {es : List (Event T)} (h : Run Step s es u)
    (hs : LockOwned s) : LockOwned u :=
  h.invariant (fun _ _ _ hi hstep => step_owned hi hstep) hs

theorem quiet_remaining [Fintype T] {s u : State T} {e : Event T} (h : QuietStep s e u) :
    if moves e then remaining u < remaining s else remaining u ≤ remaining s := by
  obtain ⟨he, hstep⟩ := h
  have hmove (t : T) (pc : Pc) (hlt : stepsLeft pc < stepsLeft (s.pc t)) :
      ∑ v, stepsLeft (Function.update s.pc t pc v) < ∑ v, stepsLeft (s.pc v) := by
    have hsum := sum_update_weight stepsLeft s.pc t pc
    omega
  cases hstep with
  | tick => exact le_rfl
  | unheard hw => exact le_rfl
  | call t timeoutMs hp => exact absurd rfl he
  | notify t deadline hp => exact hmove t _ (by simp [hp, stepsLeft])
  | lock t timeoutMs hp hl => exact hmove t _ (by simp [hp, stepsLeft])
  | waitFor t timeoutMs hp => exact hmove t _ (by simp [hp, stepsLeft])
  | timeout t deadline hp hd => exact hmove t _ (by simp [hp, stepsLeft])
  | spurious t deadline hp => exact hmove t _ (by simp [hp, stepsLeft])
  | relock t cause deadline hp hl => exact hmove t _ (by simp [hp, stepsLeft])
  | returned t cause deadline hp => exact hmove t _ (by simp [hp, stepsLeft])

theorem own_step_exists {s : State T} (h : LockOwned s) (hs : ¬ Settled s) :
    ∃ e u, Step s e u ∧ Own e := by
  cases hl : s.lock with
  | some t =>
    have hin : Holds (s.pc t) := (h t).mpr hl
    cases hp : s.pc t with
    | locked timeoutMs => exact ⟨_, _, .waitFor s t timeoutMs hp, trivial⟩
    | relocked cause deadline => exact ⟨_, _, .returned s t cause deadline hp, trivial⟩
    | _ => rw [hp] at hin; exact hin.elim
  | none =>
    have hbusy : ∃ t, s.pc t ≠ .idle ∧ ∀ deadline, s.pc t = .waiting deadline →
        deadline ≤ s.now := by
      by_contra hn
      push Not at hn
      refine hs ⟨hl, fun t => ?_⟩
      by_cases ht : s.pc t = .idle
      · exact Or.inl ht
      · exact Or.inr (hn t ht)
    obtain ⟨t, ht, hwait⟩ := hbusy
    have hout : ¬ Holds (s.pc t) := by simp [h t, hl]
    cases hp : s.pc t with
    | idle => exact absurd hp ht
    | locking timeoutMs => exact ⟨_, _, .lock s t timeoutMs hp hl, trivial⟩
    | waiting deadline => exact ⟨_, _, .timeout s t deadline hp (hwait deadline hp), trivial⟩
    | woken cause deadline => exact ⟨_, _, .relock s t cause deadline hp hl, trivial⟩
    | _ => rw [hp] at hout; exact absurd trivial hout

omit [DecidableEq T] in
theorem own_quiet {e : Event T} (h : Own e) : ¬ isCall e ∧ moves e := by
  cases e with
  | stateChange woken => exact h.elim
  | _ => first | exact h.elim | exact ⟨by simp [isCall], rfl⟩

theorem tick_reaches (s : State T) (k : ℕ) :
    Reaches Step ByClock s { s with now := s.now + k } := by
  induction k with
  | zero => simpa using Reaches.refl
  | succ k ih =>
    have hnext := ih.next (.tick _) (Or.inr rfl)
    simpa [Int.add_assoc] using hnext

theorem settled_goes_on {s : State T} (hs : Settled s) (hbusy : ∃ t, s.pc t ≠ .idle) :
    ∃ u e v, Reaches Step ByClock s u ∧ u.pc = s.pc ∧ u.lock = s.lock ∧ Step u e v ∧ Own e := by
  obtain ⟨t, ht⟩ := hbusy
  obtain ⟨deadline, hp, hd⟩ := (hs.2 t).resolve_left ht
  have htick := tick_reaches s (deadline - s.now).toNat
  exact ⟨_, _, _, htick, rfl, rfl, .timeout _ t deadline hp (by simp only; omega), trivial⟩

/-- By the clock alone every call returns: each wait ends by its timeout. -/
theorem all_return [Fintype T] {s : State T} (h : LockOwned s) :
    ∃ u, Reaches Step ByClock s u ∧ ∀ t, u.pc t = .idle := by
  induction hn : remaining s using Nat.strongRecOn generalizing s with
  | ind n ih =>
    have hnext {u v : State T} {e : Event T} (hr : Reaches Step ByClock s u)
        (ho : LockOwned u) (hle : remaining u ≤ remaining s) (hv : Step u e v) (he : Own e) :
        ∃ u, Reaches Step ByClock s u ∧ ∀ t, u.pc t = .idle := by
      obtain ⟨hquiet, hmoves⟩ := own_quiet he
      have hlt := quiet_remaining (show QuietStep u e v from ⟨hquiet, hv⟩)
      rw [if_pos hmoves] at hlt
      obtain ⟨w, hw, hidle⟩ := ih (remaining v) (by omega) (step_owned ho hv) rfl
      exact ⟨w, (hr.next hv (Or.inl he)).trans hw, hidle⟩
    by_cases hidle : ∀ t, s.pc t = .idle
    · exact ⟨s, .refl, hidle⟩
    push Not at hidle
    by_cases hs : Settled s
    · obtain ⟨u, e, v, hr, hpc, hl, hv, he⟩ := settled_goes_on hs hidle
      have ho : LockOwned u := by
        unfold LockOwned
        rw [hpc, hl]
        exact h
      exact hnext hr ho (by simp only [remaining, hpc]; omega) hv he
    · obtain ⟨e, v, hv, he⟩ := own_step_exists h hs
      exact hnext .refl h le_rfl hv he

/-- In every reachable state at most one thread is between taking _lock and giving it up, and
it is its owner. Once no new call comes in, whatever StateChange events and ticks there are:
finitely many threads take at most `remaining s` steps; unless the lock is free and everybody
has returned or waits for a deadline still ahead, some thread can step without being woken.
And by the threads' own steps and the clock alone, with no StateChange and no spurious wakeup,
every call returns. -/
theorem waits_end [Fintype T] {es : List (Event T)} {s : State T} (h : Run Step start es s) :
    Owned Holds s.lock s.pc ∧
    (∀ fs u, Run QuietStep s fs u → fs.countP moves ≤ remaining s) ∧
    (∀ fs u, Run QuietStep s fs u → ¬ Settled u → ∃ e v, Step u e v ∧ Own e) ∧
    ∃ u, Reaches Step ByClock s u ∧ ∀ t, u.pc t = .idle := by
  have ho : LockOwned s := run_owned h fun t => ⟨fun hh => hh.elim, fun hl => by cases hl⟩
  refine ⟨ho, ?_, ?_, all_return ho⟩
  · intro fs u hr
    have hb := hr.bounded_count (fun _ => True) remaining moves (fun _ _ _ _ _ => trivial)
      (fun _ _ _ _ hv => quiet_remaining hv) trivial
    omega
  · intro fs u hr hu
    exact own_step_exists (run_owned (hr.mono fun _ _ _ hv => hv.2) ho) hu

/-- One thread waits for two seconds and another is still to wait; eight steps are left, and
no StateChange is needed to bring both of them back. -/
theorem waits_end_of_two : ∃ (es : List (Event (Fin 2))) (s : State (Fin 2)),
    Run Step start es s ∧ s.pc 0 = .waiting 2000 ∧
      (∀ fs u, Run QuietStep s fs u → fs.countP moves ≤ 8) ∧
      ∃ u, Reaches Step ByClock s u ∧ ∀ t, u.pc t = .idle := by
  have h₁ := Run.single (Step.call (start (T := Fin 2)) 0 2000 rfl)
  have h₂ := h₁.tail (.call _ 1 10 rfl)
  have h₃ := h₂.tail (.lock _ 0 2000 rfl rfl)
  have h₄ := h₃.tail (.waitFor _ 0 2000 rfl)
  have hend := waits_end h₄
  exact ⟨_, _, h₄, rfl, hend.2.1, hend.2.2.2⟩

end LinkWaiters
