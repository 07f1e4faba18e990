import SampleThunderPlugin.NotificationThreads
import SampleThunderPlugin.RunSimulation
import SampleThunderPlugin.InterleavedThreads

/-! The threads of NotificationThreads once no new call comes in. A waiting raise is charged
for the callbacks it may find: those in the list now and those of every Register still to
make its change. Callbacks return and do not call back, as in NotificationThreads. -/
namespace NotificationProgress

open LabelledRuns InterleavedThreads NotificationThreads
open scoped BigOperators

variable {T N : Type}

def IsCall : Event T N → Prop
  | .call _ _ | .greet _ _ _ _ => True
  | _ => False

def registering : Pc N → ℕ
  | .atLock (.change (.register _)) | .changing (.register _) => 1
  | _ => 0

/-- The steps a thread that stands here has left, where no raise finds more than bound. -/
def stepsLeft (bound : ℕ) : Pc N → ℕ
  | .idle | .dangling => 0
  | .atLock .raise => 2 * bound + 2
  | .atLock (.change _) => 3
  | .changing _ => 2
  | .changed _ | .raised _ _ => 1
  | .looping taken called _ => 2 * (taken.length - called.length) + 1
  | .calling taken called _ => 2 * (taken.length - called.length) + 2

theorem stepsLeft_mono {b c : ℕ} (h : b ≤ c) (pc : Pc N) : stepsLeft b pc ≤ stepsLeft c pc := by
  cases pc with
  | atLock work =>
    cases work with
    | change c => exact le_rfl
    | raise => simp only [stepsLeft]; omega
  | _ => exact le_rfl

theorem stepsLeft_loopAt (bound : ℕ) (taken called : List N) (it : Option ℕ) :
    stepsLeft bound (loopAt taken called it) ≤ 2 * (taken.length - called.length) + 1 := by
  cases it with
  | none => simp [loopAt, stepsLeft]
  | some it => simp [loopAt, stepsLeft]

theorem registering_loopAt (taken called : List N) (it : Option ℕ) :
    registering (loopAt taken called it) = 0 := by
  cases it <;> rfl

@[simp] theorem goto_plugin [DecidableEq T] (s : State T N) (t : T) (pc : Pc N) :
    (s.goto t pc).plugin = s.plugin := rfl

section Quiet
variable [DecidableEq N]

theorem change_length (p : SamplePluginImplementation N) (c : Change N) :
    (c.run p).callbacks.length ≤ p.callbacks.length + registering (.changing c) := by
  cases c with
  | register n =>
    simp only [Change.run, SamplePluginImplementation.register_callbacks,
      SubscriptionRoster.apply, registering]
    split
    · omega
    · simp
  | unregister n =>
    simp only [Change.run, SamplePluginImplementation.unregister_callbacks,
      SubscriptionRoster.apply, registering]
    exact (List.erase_sublist).length_le

variable [DecidableEq T]

/-- What a step that is no call does, where no raise finds more than bound: one thread moves
and has fewer steps left, and the list grows by no more than a Register pays for. -/
theorem quiet_step {s u : State T N} {e : Event T N} (hi : Invariant s) (h : Step s e u)
    (he : ¬ IsCall e) {bound : ℕ} (hb : s.plugin.callbacks.length ≤ bound) :
    ∃ t pc, u.pc = Function.update s.pc t pc ∧
      stepsLeft bound pc < stepsLeft bound (s.pc t) ∧
      u.plugin.callbacks.length + registering pc ≤
        s.plugin.callbacks.length + registering (s.pc t) := by
  cases h with
  | call t c hp => exact absurd trivial he
  | greet t distribution message result reply p hp hg => exact absurd trivial he
  | lockChange t c hp hm =>
    refine ⟨t, _, rfl, by simp [hp, stepsLeft], ?_⟩
    rw [hp]
    cases c <;> exact le_rfl
  | lockRaise t hp hm =>
    refine ⟨t, _, rfl, ?_, by simp [registering_loopAt]⟩
    have hl := stepsLeft_loopAt bound s.plugin.callbacks []
      s.plugin.notificationCallbacks.front
    simp only [List.length_nil] at hl
    rw [hp, stepsLeft]
    omega
  | change t c hp =>
    refine ⟨t, _, rfl, by simp [hp, stepsLeft], ?_⟩
    rw [hp]
    exact change_length s.plugin c
  | deliver t taken called it n hp hd =>
    have hs := hi.sound t
    rw [hp] at hs
    obtain ⟨-, -, hr⟩ := hs
    have hlen := congrArg List.length hr
    rw [StableList.rest_deref hd] at hlen
    refine ⟨t, _, rfl, ?_, by simp [hp, registering]⟩
    simp only [List.length_append, List.length_cons] at hlen
    simp only [hp, stepsLeft, List.length_append, List.length_singleton]
    omega
  | returned t taken called it n hp hd =>
    refine ⟨t, _, rfl, ?_, by simp [hp, registering_loopAt]⟩
    have hl := stepsLeft_loopAt bound taken called
      (s.plugin.notificationCallbacks.next it)
    rw [hp, stepsLeft]
    omega
  | unlockChange t c hp => exact ⟨t, _, rfl, by simp [hp, stepsLeft], Nat.le_add_right _ _⟩
  | unlockRaise t taken called hp =>
    exact ⟨t, _, rfl, by simp [hp, stepsLeft], Nat.le_add_right _ _⟩
  | dangle t taken called it hp hd =>
    exact absurd (.dangle s t taken called it hp hd) (no_dangle hi)

end Quiet

section Finitely
variable [Fintype T]

def mayFind (s : State T N) : ℕ := s.plugin.callbacks.length + ∑ t, registering (s.pc t)

def remaining (s : State T N) : ℕ := ∑ t, stepsLeft (mayFind s) (s.pc t)

variable [DecidableEq T] [DecidableEq N]

theorem quiet_remaining {s u : State T N} {e : Event T N} (hi : Invariant s) (h : Step s e u)
    (he : ¬ IsCall e) : remaining u < remaining s := by
  have hfits : s.plugin.callbacks.length ≤ mayFind s := Nat.le_add_right _ _
  obtain ⟨t, pc, hpc, hlt, hlen⟩ := quiet_step hi h he hfits
  simp only [remaining, mayFind, hpc]
  exact sum_weight_lt (fun _ _ => stepsLeft_mono) hlt hlen

end Finitely

def Settled (s : State T N) : Prop := s.mutex = none ∧ ∀ t, s.pc t = .idle

variable [DecidableEq T] [DecidableEq N]

abbrev QuietStep : State T N → Event T N → State T N → Prop :=
  Guarded (fun _ e => ¬ IsCall e) Step

/-- The holder of the mutex can always go on, and while nobody holds it anybody can take it. -/
theorem quiet_live {s : State T N} (hi : Invariant s) (hs : ¬ Settled s) :
    ∃ e u, QuietStep s e u := by
  cases hm : s.mutex with
  | none =>
    have hbusy : ∃ t, s.pc t ≠ .idle := by
      by_contra hn
      push Not at hn
      exact hs ⟨hm, hn⟩
    obtain ⟨t, ht⟩ := hbusy
    have hout : ¬ (s.pc t).Holds := by simp [hi.owner t, hm]
    have hsound := hi.sound t
    cases hp : s.pc t with
    | idle => exact absurd hp ht
    | dangling => rw [hp] at hsound; exact hsound.elim
    | atLock work =>
      cases work with
      | change c => exact ⟨_, _, id, .lockChange s t c hp hm⟩
      | raise => exact ⟨_, _, id, .lockRaise s t hp hm⟩
    | _ => rw [hp] at hout; exact absurd trivial hout
  | some t =>
    have hin : (s.pc t).Holds := (hi.owner t).mpr hm
    have hsound := hi.sound t
    cases hp : s.pc t with
    | changing c => exact ⟨_, _, id, .change s t c hp⟩
    | changed c => exact ⟨_, _, id, .unlockChange s t c hp⟩
    | raised taken called => exact ⟨_, _, id, .unlockRaise s t taken called hp⟩
    | looping taken called it =>
      rw [hp] at hsound
      obtain ⟨-, ⟨n, hn⟩, -⟩ := hsound
      exact ⟨_, _, id, .deliver s t taken called it n hp hn⟩
    | calling taken called it =>
      rw [hp] at hsound
      obtain ⟨-, ⟨n, hn⟩, -⟩ := hsound
      exact ⟨_, _, id, .returned s t taken called it n hp hn⟩
    | _ => rw [hp] at hin; exact hin.elim

/-- Once no new call comes in, every schedule of finitely many threads is over within
`remaining s` steps; none is stuck while a thread has not returned or the mutex is held; and
so all calls return. -/
theorem calls_all_return [Fintype T] (greetings : List String) {es : List (Event T N)}
    {s : State T N} (h : Run Step (start greetings) es s) :
    Settles QuietStep s (remaining s) Settled := by
  apply settles_of_measure Invariant remaining
  · exact fun _ _ _ hi hstep => step_preserves_invariant hi hstep.2
  · exact fun _ _ _ hi hstep => quiet_remaining hi hstep.2 hstep.1
  · exact fun _ hi hs => quiet_live hi hs
  · exact run_invariant h (start_invariant greetings)

/-- Thread 0 is about to register the first callback and thread 1 to raise its greeting: with
four steps of the raise over one callback charged, seven steps settle them. -/
theorem calls_all_return_of_two : ∃ (es : List (Event (Fin 2) ℕ)) (s : State (Fin 2) ℕ),
    Run Step (start ["Hello"]) es s ∧ s.pc 1 = .atLock .raise ∧
      Settles QuietStep s 7 Settled := by
  have h₁ := Run.single (Step.call (start (T := Fin 2) (N := ℕ) ["Hello"]) 0 (.register 7) rfl)
  have h₂ := h₁.tail (.greet _ 1 (.favouring 0) "World" "" _ _ rfl rfl)
  exact ⟨_, _, h₂, rfl, calls_all_return ["Hello"] h₂⟩

end NotificationProgress
