import SampleThunderPlugin.NotificationThreads

/-! What a callback that stays registered hears of the Greets of each thread. The plugin's
own sink is one between Initialize and Deinitialize, when nobody else passes it. -/
namespace GreetingEvents

open LabelledRuns InterleavedThreads NotificationThreads

variable {T N : Type}

/-- The thread may yet take n off the list. -/
def Withdraws (n : N) (pc : Pc N) : Prop :=
  pc = .atLock (.change (.unregister n)) ∨ pc = .changing (.unregister n)

structure Stays (n : N) (s : State T N) : Prop where
  registered : n ∈ s.plugin.callbacks
  kept : ∀ t, ¬ Withdraws n (s.pc t)

section Counts
variable [DecidableEq T] [DecidableEq N]

def greets (greetings : List String) : Event T N → Bool
  | .greet _ _ message _ => message ≠ "" ∧ greetings ≠ []
  | _ => false

def hears (n : N) : Event T N → Bool
  | .deliver _ m => m = n
  | _ => false

def byThread (t : T) (kind : Event T N → Bool) (e : Event T N) : Bool := e.actor == t && kind e

/-- One for a Greet that has its greeting and has not called n yet. -/
def owed (n : N) : Pc N → ℕ
  | .atLock .raise => 1
  | .looping _ called _ | .calling _ called _ | .raised _ called => if n ∈ called then 0 else 1
  | _ => 0

omit [DecidableEq T] in
theorem owed_loopAt (n : N) (taken called : List N) (it : Option ℕ) :
    owed n (loopAt taken called it) = if n ∈ called then 0 else 1 := by
  cases it <;> rfl

omit [DecidableEq T] [DecidableEq N] in
theorem next_not_called {p : SamplePluginImplementation N} {taken called : List N} {it : ℕ}
    {n : N} (hn : p.callbacks.Nodup) (hs : (Pc.looping taken called it).Sound p)
    (hd : p.notificationCallbacks.deref it = some n) : n ∉ called := by
  obtain ⟨rfl, -, hr⟩ := hs
  rw [← hr, StableList.rest_deref hd, List.nodup_append] at hn
  exact fun hm => hn.2.2 n hm n List.mem_cons_self rfl

omit [DecidableEq N] in
theorem greet_succeeds {p q : SamplePluginImplementation N} {distribution : UniformInt}
    {message result : String} {reply : SamplePluginImplementation.Reply N}
    (h : p.greet distribution message result = .ok (reply, q)) :
    q.greetings = p.greetings ∧ (reply.code = .errorNone ↔ message ≠ "" ∧ p.greetings ≠ []) := by
  rcases SamplePluginImplementation.greet_cases distribution p message result with
    ⟨hm, hg⟩ | ⟨hm, hnone, hg⟩ | ⟨hm, greeting, hsome, hg⟩ <;> rw [hg] at h <;> cases h
  · simp [hm]
  · simp [hnone]
  · have hne := List.ne_nil_of_mem (List.mem_of_getElem? hsome)
    simp [hm, hne]

variable {greetings : List String} {n : N} {s u : State T N} {e : Event T N}

theorem step_greetings (hstep : Step s e u) : u.plugin.greetings = s.plugin.greetings := by
  cases hstep with
  | greet t distribution message result reply p hp hg => exact (greet_succeeds hg).1
  | change t c hp =>
    cases c with
    | register m => exact SamplePluginImplementation.register_greetings s.plugin m
    | unregister m => exact SamplePluginImplementation.unregister_greetings s.plugin m
  | _ => rfl

theorem run_greetings {es : List (Event T N)} (h : Run Step s es u) :
    u.plugin.greetings = s.plugin.greetings := by
  induction h with
  | refl => rfl
  | tail _ hstep ih => exact (step_greetings hstep).trans ih

omit [DecidableEq N] in
theorem goto_kept (h : Stays n s) {t : T} {pc : Pc N} (hpc : ¬ Withdraws n pc) (v : T) :
    ¬ Withdraws n ((s.goto t pc).pc v) := by
  rcases eq_or_ne v t with rfl | hv
  · simpa only [State.goto, Function.update_self] using hpc
  · simpa only [State.goto, Function.update_of_ne hv] using h.kept v

theorem step_stays (hi : Invariant s) (h : Stays n s) (hstep : Step s e u)
    (he : ∀ t, e ≠ .call t (.unregister n)) : Stays n u := by
  cases hstep with
  | call t c hp =>
    refine ⟨h.registered, goto_kept h ?_⟩
    rintro (hc | hc) <;> cases hc
    exact he t rfl
  | greet t distribution message result reply p hp hg =>
    obtain ⟨hnodes, -, -⟩ := SamplePluginImplementation.greet_frame hg
    have hcallbacks : p.callbacks = s.plugin.callbacks := congrArg StableList.values hnodes
    refine ⟨hcallbacks ▸ h.registered, goto_kept h ?_⟩
    split <;> simp [Withdraws]
  | lockChange t c hp hm =>
    refine ⟨h.registered, goto_kept h ?_⟩
    rintro (hc | hc) <;> cases hc
    exact h.kept t (Or.inl hp)
  | lockRaise t hp hm =>
    refine ⟨h.registered, goto_kept h ?_⟩
    cases s.plugin.notificationCallbacks.front <;> simp [loopAt, Withdraws]
  | change t c hp =>
    have hc : c ≠ .unregister n := by
      rintro rfl
      exact h.kept t (Or.inr hp)
    exact ⟨(mem_change hi.plugin c n).mpr (Or.inr ⟨hc, h.registered⟩),
      goto_kept h (by simp [Withdraws])⟩
  | returned t taken called it m hp hd =>
    refine ⟨h.registered, goto_kept h ?_⟩
    cases s.plugin.notificationCallbacks.next it <;> simp [loopAt, Withdraws]
  | _ => exact ⟨h.registered, goto_kept h (by simp [Withdraws])⟩

/-- What a thread owes grows with its Greets and shrinks with its calls of n, by one each. -/
theorem step_owed (hi : Invariant s) (hg : s.plugin.greetings = greetings) (h : Stays n s)
    (hstep : Step s e u) (t : T) :
    (if byThread t (greets greetings) e then 1 else 0) + owed n (s.pc t) =
      (if byThread t (hears n) e then 1 else 0) + owed n (u.pc t) := by
  by_cases ht : t = e.actor
  · subst ht
    simp only [byThread, beq_self_eq_true, Bool.true_and]
    cases hstep with
    | greet v distribution message result reply p hp hreply =>
      have hsucceeds := (greet_succeeds hreply).2
      rw [hg] at hsucceeds
      by_cases hc : reply.code = .errorNone
      · simp [greets, hears, owed, Event.actor, hp, hc, State.goto, hsucceeds.mp hc]
      · have hnot : greets (T := T) (N := N) greetings (.greet v distribution message result) =
            false := by
          simpa [greets] using mt hsucceeds.mpr hc
        simp [hnot, hears, owed, Event.actor, hp, hc, State.goto]
    | lockRaise v hp hm =>
      simp only [Event.actor, hp, State.goto, Function.update_self, owed_loopAt]
      rfl
    | deliver v taken called it m hp hd =>
      have hsound := hi.sound v
      rw [hp] at hsound
      have hnew := next_not_called hi.plugin.nodup hsound hd
      rcases eq_or_ne m n with rfl | hm
      · simp [greets, hears, owed, Event.actor, hp, State.goto, hnew]
      · simp [greets, hears, owed, Event.actor, hp, State.goto, hm, Ne.symm hm]
    | returned v taken called it m hp hd =>
      simp only [Event.actor, hp, State.goto, Function.update_self, owed_loopAt]
      rfl
    | unlockRaise v taken called hp =>
      -- the raise has called everything it took, n included
      have hsound := hi.sound v
      rw [hp] at hsound
      obtain ⟨rfl, rfl⟩ := hsound
      simp [greets, hears, owed, Event.actor, hp, State.goto, h.registered]
    | dangle v taken called it hp hd =>
      exact absurd (.dangle s v taken called it hp hd) (no_dangle hi)
    | call v c hp => simp [greets, hears, owed, Event.actor, hp, State.goto]
    | lockChange v c hp hm => simp [greets, hears, owed, Event.actor, hp, State.goto]
    | change v c hp => simp [greets, hears, owed, Event.actor, hp, State.goto]
    | unlockChange v c hp => simp [greets, hears, owed, Event.actor, hp, State.goto]
  · rw [step_other hstep ht]
    have hactor : (e.actor == t) = false := by simpa using Ne.symm ht
    simp [byThread, hactor]

/-- As long as n stays registered, it hears of every Greet of every thread that succeeds, once,
of no other, and from the thread that greets: a thread that is between two calls has made as
many calls of n as it made successful Greets, and one that is not owes it at most the call of
the Greet it is in. Between two moments at which no thread is in a call, n has been called as
often in all as Greets succeeded. -/
theorem greetings_heard_once {es₀ es : List (Event T N)}
    (h₀ : Run Step (start greetings) es₀ s) (hn : Stays n s) (h : Run Step s es u)
    (he : ∀ t, Event.call t (.unregister n) ∉ es) :
    n ∈ u.plugin.callbacks ∧
    (∀ t, es.countP (byThread t (greets greetings)) + owed n (s.pc t) =
        es.countP (byThread t (hears n)) + owed n (u.pc t) ∧
      (s.pc t = .idle → u.pc t = .idle →
        es.countP (byThread t (hears n)) = es.countP (byThread t (greets greetings)))) ∧
    ((∀ t, s.pc t = .idle) → (∀ t, u.pc t = .idle) →
      es.countP (hears n) = es.countP (greets greetings)) := by
  have hs := run_invariant h₀ (start_invariant greetings)
  have hg : s.plugin.greetings = greetings := run_greetings h₀
  have hrun : Stays n u ∧ ∀ t, es.countP (byThread t (greets greetings)) + owed n (s.pc t) =
      es.countP (byThread t (hears n)) + owed n (u.pc t) := by
    induction h with
    | refl => exact ⟨hn, fun _ => rfl⟩
    | @tail v w es e hr hstep ih =>
      obtain ⟨hstays, hcount⟩ := ih fun t hm => he t (List.mem_append_left _ hm)
      have hi := run_invariant hr hs
      refine ⟨step_stays hi hstays hstep fun t hm => he t (by simp [hm]), ?_⟩
      intro t
      have hbefore := hcount t
      have hnow := step_owed hi ((run_greetings hr).trans hg) hstays hstep t
      simp only [List.countP_append, List.countP_singleton]
      omega
  have hidle (t : T) (hp : s.pc t = .idle) (hq : u.pc t = .idle) :
      es.countP (byThread t (hears n)) = es.countP (byThread t (greets greetings)) := by
    have hcount := hrun.2 t
    simp only [hp, hq, owed] at hcount
    omega
  refine ⟨hrun.1.registered, fun t => ⟨hrun.2 t, hidle t⟩, ?_⟩
  intro hp hq
  apply countP_eq_of_threads Event.actor
  intro t
  exact hidle t (hp t) (hq t)

end Counts

private def watched : State ℕ ℕ :=
  ⟨(start ["Hello"] : State ℕ ℕ).plugin.register 7, none, fun _ => .idle⟩

private theorem start_reaches_watched :
    ∃ es, Run Step (start ["Hello"] : State ℕ ℕ) es watched := by
  have h₁ := Run.single (Step.call (start (T := ℕ) (N := ℕ) ["Hello"]) 0 (.register 7) rfl)
  have h₂ := h₁.tail (.lockChange _ 0 _ rfl rfl)
  have h₃ := h₂.tail (.change _ 0 _ rfl)
  have h₄ := h₃.tail (.unlockChange _ 0 _ rfl)
  have hidle : Function.update (Function.update (Function.update (Function.update
      (fun _ : ℕ => (Pc.idle : Pc ℕ)) 0 (.atLock (.change (.register 7)))) 0
      (.changing (.register 7))) 0 (.changed (.register 7))) 0 .idle = fun _ => .idle := by
    simp
  rw [watched, ← hidle]
  exact ⟨_, h₄⟩

/-- Thread 1 greets without a message, is refused, and greets again with one. -/
theorem greetings_heard_once_after_refusal : ∃ (es : List (Event ℕ ℕ)) (u : State ℕ ℕ),
    Run Step watched es u ∧ es.length = 6 ∧ es.countP (greets ["Hello"]) = 1 ∧
      es.countP (hears 7) = es.countP (greets ["Hello"]) := by
  obtain ⟨es₀, h₀⟩ := start_reaches_watched
  have h₁ := Run.single (Step.greet watched 1 (.favouring 0) "" "" _ _ rfl rfl)
  have h₂ := h₁.tail (.greet _ 1 (.favouring 0) "World" "" _ _ rfl rfl)
  have h₃ := h₂.tail (.lockRaise _ 1 rfl rfl)
  have h₄ := h₃.tail (.deliver _ 1 [7] [] 0 7 rfl rfl)
  have h₅ := h₄.tail (.returned _ 1 [7] [7] 0 7 rfl rfl)
  have h₆ := h₅.tail (.unlockRaise _ 1 [7] [7] rfl)
  have hstays : Stays 7 watched :=
    ⟨List.mem_cons_self, fun t => by simp [Withdraws, watched]⟩
  have hheard := greetings_heard_once h₀ hstays h₆ (by simp)
  refine ⟨_, _, h₆, rfl, rfl, hheard.2.2 (fun _ => rfl) fun t => ?_⟩
  rcases eq_or_ne t 1 with rfl | ht
  · rfl
  · simp [State.goto, watched]

end GreetingEvents
