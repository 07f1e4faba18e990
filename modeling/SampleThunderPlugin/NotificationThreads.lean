import SampleThunderPlugin.InterleavedThreads
import SampleThunderPlugin.LabelledRuns
import SampleThunderPlugin.SamplePluginImplementation

/-! Threads that call Register, Unregister and Greet on one object and contend for
_notificationMutex. Taking it, the list change with its AddRef or Release, each
SomethingHappend call and its return, and dropping it are separate steps of any thread.
A callback does not call back into the plugin from the thread that delivers to it. -/
namespace NotificationThreads

open LabelledRuns InterleavedThreads

inductive Change (N : Type) where
  | register (notification : N)
  | unregister (notification : N)
  deriving DecidableEq, Repr

inductive Work (N : Type) where
  | change (c : Change N)
  | raise
  deriving DecidableEq, Repr

/-- Where a thread stands. The lists of a raise are history: the callbacks it found when it
took the mutex and the calls it has made since. No step reads them. -/
inductive Pc (N : Type) where
  | idle
  | atLock (work : Work N)
  | changing (c : Change N)
  | changed (c : Change N)
  | looping (taken called : List N) (it : ℕ)
  | calling (taken called : List N) (it : ℕ)
  | raised (taken called : List N)
  | dangling
  deriving DecidableEq, Repr

structure State (T N : Type) where
  plugin : SamplePluginImplementation N
  mutex : Option T
  pc : T → Pc N

inductive Event (T N : Type) where
  | call (t : T) (c : Change N)
  | greet (t : T) (distribution : UniformInt) (message result : String)
  | lock (t : T) (work : Work N)
  | change (t : T) (c : Change N)
  | deliver (t : T) (n : N)
  | returned (t : T)
  | unlock (t : T) (work : Work N)
  | dangle (t : T)

/-- A raise calls the node at the iterator, or is over at the end. -/
def loopAt {N : Type} (taken called : List N) : Option ℕ → Pc N
  | none => .raised taken called
  | some it => .looping taken called it

variable {T N : Type}

def Change.run [DecidableEq N] (p : SamplePluginImplementation N) :
    Change N → SamplePluginImplementation N
  | .register n => p.register n
  | .unregister n => p.unregister n

def start (greetings : List String) : State T N :=
  ⟨{ SamplePluginImplementation.initial with greetings := greetings }, none, fun _ => .idle⟩

def State.goto [DecidableEq T] (s : State T N) (t : T) (pc : Pc N) : State T N :=
  { s with pc := Function.update s.pc t pc }

/-- Greet decides on its reply before it raises, and raises only on success. Using an
erased node, to call through it or to advance, leaves the thread dangling. -/
inductive Step [DecidableEq T] [DecidableEq N] : State T N → Event T N → State T N → Prop where
  | call (s t c) (hp : s.pc t = .idle) : Step s (.call t c) (s.goto t (.atLock (.change c)))
  | greet (s t distribution message result reply p) (hp : s.pc t = .idle)
      (hg : s.plugin.greet distribution message result = .ok (reply, p)) :
      Step s (.greet t distribution message result)
        { s.goto t (if reply.code = .errorNone then .atLock .raise else .idle) with plugin := p }
  | lockChange (s t c) (hp : s.pc t = .atLock (.change c)) (hm : s.mutex = none) :
      Step s (.lock t (.change c)) { s.goto t (.changing c) with mutex := some t }
  | lockRaise (s t) (hp : s.pc t = .atLock .raise) (hm : s.mutex = none) :
      Step s (.lock t .raise)
        { s.goto t (loopAt s.plugin.callbacks [] s.plugin.notificationCallbacks.front) with
          mutex := some t }
  | change (s t c) (hp : s.pc t = .changing c) :
      Step s (.change t c) { s.goto t (.changed c) with plugin := c.run s.plugin }
  | deliver (s t taken called it n) (hp : s.pc t = .looping taken called it)
      (hd : s.plugin.notificationCallbacks.deref it = some n) :
      Step s (.deliver t n) (s.goto t (.calling taken (called ++ [n]) it))
  | returned (s t taken called it n) (hp : s.pc t = .calling taken called it)
      (hd : s.plugin.notificationCallbacks.deref it = some n) :
      Step s (.returned t)
        (s.goto t (loopAt taken called (s.plugin.notificationCallbacks.next it)))
  | unlockChange (s t c) (hp : s.pc t = .changed c) :
      Step s (.unlock t (.change c)) { s.goto t .idle with mutex := none }
  | unlockRaise (s t taken called) (hp : s.pc t = .raised taken called) :
      Step s (.unlock t .raise) { s.goto t .idle with mutex := none }
  | dangle (s t taken called it)
      (hp : s.pc t = .looping taken called it ∨ s.pc t = .calling taken called it)
      (hd : s.plugin.notificationCallbacks.deref it = none) :
      Step s (.dangle t) (s.goto t .dangling)

def Pc.Holds : Pc N → Prop
  | .idle | .atLock _ | .dangling => False
  | _ => True

/-- What a thread between Lock and Unlock may rely on. -/
def Pc.Sound (p : SamplePluginImplementation N) : Pc N → Prop
  | .changed (.unregister n) => n ∉ p.callbacks
  | .looping taken called it => taken = p.callbacks ∧
      (∃ n, p.notificationCallbacks.deref it = some n) ∧
      called ++ p.notificationCallbacks.rest (some it) = taken
  | .calling taken called it => taken = p.callbacks ∧
      (∃ n, p.notificationCallbacks.deref it = some n) ∧
      called ++ p.notificationCallbacks.rest (p.notificationCallbacks.next it) = taken
  | .raised taken called => taken = p.callbacks ∧ called = taken
  | .dangling => False
  | _ => True

structure Invariant [DecidableEq N] (s : State T N) : Prop where
  plugin : s.plugin.Invariant
  owner : ∀ t, (s.pc t).Holds ↔ s.mutex = some t
  sound : ∀ t, (s.pc t).Sound s.plugin

theorem start_invariant [DecidableEq N] (greetings : List String) :
    Invariant (start greetings : State T N) where
  plugin := ⟨List.nodup_nil, ReferenceLedger.oneEach_empty⟩
  owner := fun _ => ⟨fun h => h.elim, fun h => by cases h⟩
  sound := fun _ => trivial

theorem sound_of_not_holds {p q : SamplePluginImplementation N} {pc : Pc N}
    (h : ¬ pc.Holds) (hs : pc.Sound p) : pc.Sound q := by
  cases pc with
  | idle => trivial
  | atLock => trivial
  | dangling => exact hs.elim
  | changing => exact absurd trivial h
  | changed => exact absurd trivial h
  | looping => exact absurd trivial h
  | calling => exact absurd trivial h
  | raised => exact absurd trivial h

theorem sound_congr {p q : SamplePluginImplementation N} {pc : Pc N}
    (h : q.notificationCallbacks = p.notificationCallbacks) (hs : pc.Sound p) : pc.Sound q := by
  have hc : q.callbacks = p.callbacks := congrArg StableList.values h
  cases pc with
  | changed c =>
    cases c with
    | register n => trivial
    | unregister n => simpa [Pc.Sound, hc] using hs
  | looping => simpa [Pc.Sound, hc, h] using hs
  | calling => simpa [Pc.Sound, hc, h] using hs
  | raised => simpa only [Pc.Sound, hc] using hs
  | dangling => exact hs.elim
  | _ => trivial

theorem loopAt_holds (taken called : List N) (it : Option ℕ) :
    (loopAt taken called it).Holds := by
  cases it <;> trivial

theorem loopAt_sound {p : SamplePluginImplementation N} {called : List N} {it : Option ℕ}
    (hn : ∀ i, it = some i → ∃ n, p.notificationCallbacks.deref i = some n)
    (hr : called ++ p.notificationCallbacks.rest it = p.callbacks) :
    (loopAt p.callbacks called it).Sound p := by
  cases it with
  | none => exact ⟨rfl, by simpa using hr⟩
  | some i => exact ⟨rfl, hn i rfl, hr⟩

def deliveriesOf [DecidableEq T] (t : T) (es : List (Event T N)) : List N :=
  es.filterMap fun e =>
    match e with
    | .deliver u n => if u = t then some n else none
    | _ => none

theorem deliveriesOf_append [DecidableEq T] (t : T) (es fs : List (Event T N)) :
    deliveriesOf t (es ++ fs) = deliveriesOf t es ++ deliveriesOf t fs :=
  List.filterMap_append

def Pc.Raising (taken called : List N) : Pc N → Prop
  | .looping taken' called' _ | .calling taken' called' _ | .raised taken' called' =>
    taken' = taken ∧ called' = called
  | _ => False

theorem loopAt_raising (taken called : List N) (it : Option ℕ) :
    (loopAt taken called it).Raising taken called := by
  cases it <;> exact ⟨rfl, rfl⟩

variable [DecidableEq T] [DecidableEq N]

private theorem goto_sound {s : State T N} (h : Invariant s) {t : T} {pc : Pc N}
    (hpc : pc.Sound s.plugin) (u : T) : ((s.goto t pc).pc u).Sound s.plugin := by
  by_cases hu : u = t
  · subst u
    simpa only [State.goto, Function.update_self] using hpc
  · simpa [State.goto, hu] using h.sound u

theorem change_invariant {p : SamplePluginImplementation N} (h : p.Invariant) (c : Change N) :
    (c.run p).Invariant := by
  cases c with
  | register n => exact SamplePluginImplementation.register_invariant h n
  | unregister n => exact SamplePluginImplementation.unregister_invariant h n

omit [DecidableEq T] in
theorem mem_change {p : SamplePluginImplementation N} (h : p.Invariant) (c : Change N) (n : N) :
    n ∈ (c.run p).callbacks ↔
      c = .register n ∨ (c ≠ .unregister n ∧ n ∈ p.callbacks) := by
  cases c with
  | register m =>
    rw [Change.run, SamplePluginImplementation.mem_register]
    simp [eq_comm]
  | unregister m =>
    rw [Change.run, SamplePluginImplementation.mem_unregister h.nodup]
    simp [eq_comm]

theorem changed_sound {p : SamplePluginImplementation N} (h : p.Invariant) (c : Change N) :
    (Pc.changed c).Sound (c.run p) := by
  cases c with
  | register n => trivial
  | unregister n =>
    simp [Pc.Sound, Change.run, SamplePluginImplementation.mem_unregister h.nodup]

theorem no_dangle {s u : State T N} {t : T} (h : Invariant s) : ¬ Step s (.dangle t) u := by
  intro hstep
  cases hstep with
  | dangle t taken called it hp hd =>
    have hs := h.sound t
    rcases hp with hp | hp <;> rw [hp] at hs <;> obtain ⟨-, ⟨n, hn⟩, -⟩ := hs <;>
      rw [hd] at hn <;> cases hn

theorem step_preserves_invariant {s u : State T N} {e : Event T N} (h : Invariant s)
    (hstep : Step s e u) : Invariant u := by
  have ho : Owned Pc.Holds s.mutex s.pc := h.owner
  cases hstep with
  | call t c hp => exact ⟨h.plugin, ho.move (by simp [hp, Pc.Holds]), goto_sound h trivial⟩
  | greet t d m r reply p hp hg =>
    obtain ⟨hn, hr, -⟩ := SamplePluginImplementation.greet_frame hg
    have hc : p.callbacks = s.plugin.callbacks := congrArg StableList.values hn
    refine ⟨⟨hc ▸ h.plugin.nodup, hc ▸ hr ▸ h.plugin.refs⟩,
      ho.move ?_, fun v => sound_congr hn (goto_sound h ?_ v)⟩
    · split <;> simp [hp, Pc.Holds]
    · split <;> trivial
  | lockChange t c hp hm =>
    exact ⟨h.plugin, ho.take hm trivial, goto_sound h trivial⟩
  | lockRaise t hp hm =>
    refine ⟨h.plugin, ho.take hm (loopAt_holds _ _ _), goto_sound h (loopAt_sound ?_ ?_)⟩
    · exact fun i hi => StableList.front_deref hi
    · exact StableList.rest_front _
  | change t c hp =>
    refine ⟨change_invariant h.plugin c, ho.move (by simp [hp, Pc.Holds]), fun v => ?_⟩
    by_cases hv : v = t
    · subst v
      simpa [State.goto] using changed_sound h.plugin c
    · have hnot : ¬ (s.pc v).Holds := by
        intro hh
        exact hv (ho.exclusive hh (by rw [hp]; trivial))
      simpa [State.goto, hv] using sound_of_not_holds hnot (h.sound v)
  | deliver t taken called it n hp hd =>
    have hs := h.sound t
    rw [hp] at hs
    obtain ⟨htaken, hn, hr⟩ := hs
    refine ⟨h.plugin, ho.move (by simp [hp, Pc.Holds]), goto_sound h ⟨htaken, hn, ?_⟩⟩
    rw [← hr, StableList.rest_deref hd]
    simp
  | returned t taken called it n hp hd =>
    have hs := h.sound t
    rw [hp] at hs
    obtain ⟨rfl, -, hr⟩ := hs
    refine ⟨h.plugin, ho.move ?_, goto_sound h (loopAt_sound ?_ hr)⟩
    · simpa [hp, Pc.Holds] using loopAt_holds _ _ _
    · exact fun i hi => (StableList.next_spec hi).2
  | unlockChange t c hp =>
    exact ⟨h.plugin, ho.drop (by rw [hp]; trivial) id, goto_sound h trivial⟩
  | unlockRaise t taken called hp =>
    exact ⟨h.plugin, ho.drop (by rw [hp]; trivial) id, goto_sound h trivial⟩
  | dangle t taken called it hp hd => exact absurd (.dangle s t taken called it hp hd) (no_dangle h)

theorem run_invariant {s u : State T N} {es : List (Event T N)} (h : Run Step s es u)
    (hs : Invariant s) : Invariant u :=
  h.invariant (fun _ _ _ hi hstep => step_preserves_invariant hi hstep) hs

def Event.actor : Event T N → T
  | .call t _ | .greet t _ _ _ | .lock t _ | .change t _ | .deliver t _ | .returned t
  | .unlock t _ | .dangle t => t

theorem step_other {s u : State T N} {e : Event T N} {t : T} (h : Step s e u)
    (ht : t ≠ e.actor) : u.pc t = s.pc t := by
  cases h <;> exact Function.update_of_ne ht _ _

theorem raising_step {s u : State T N} {e : Event T N} {t : T} {taken called : List N}
    (hi : Invariant s) (h : (s.pc t).Raising taken called) (he : e ≠ .unlock t .raise)
    (hstep : Step s e u) : (u.pc t).Raising taken (called ++ deliveriesOf t [e]) := by
  by_cases ht : t = e.actor
  · subst ht
    cases hstep with
    | call t c hp => simp [Event.actor, hp, Pc.Raising] at h
    | greet t d m r reply p hp hg => simp [Event.actor, hp, Pc.Raising] at h
    | lockChange t c hp hm => simp [Event.actor, hp, Pc.Raising] at h
    | lockRaise t hp hm => simp [Event.actor, hp, Pc.Raising] at h
    | change t c hp => simp [Event.actor, hp, Pc.Raising] at h
    | unlockChange t c hp => simp [Event.actor, hp, Pc.Raising] at h
    | unlockRaise t taken called hp => exact absurd rfl he
    | deliver t taken' called' it n hp hd =>
      simp only [Event.actor, hp, Pc.Raising] at h
      obtain ⟨rfl, rfl⟩ := h
      simp [Event.actor, State.goto, Pc.Raising, deliveriesOf]
    | returned t taken' called' it n hp hd =>
      simp only [Event.actor, hp, Pc.Raising] at h
      obtain ⟨rfl, rfl⟩ := h
      simpa [Event.actor, State.goto, deliveriesOf] using loopAt_raising _ _ _
    | dangle t taken' called' it hp hd =>
      exact absurd (.dangle s t taken' called' it hp hd) (no_dangle hi)
  · rw [step_other hstep ht]
    have hnone : deliveriesOf t [e] = [] := by
      cases e with
      | deliver v n => simp [deliveriesOf, show v ≠ t from Ne.symm ht]
      | _ => rfl
    rwa [hnone, List.append_nil]

theorem raising_run {s u : State T N} {es : List (Event T N)} {t : T} {taken called : List N}
    (hr : Run Step s es u) (hi : Invariant s) (h : (s.pc t).Raising taken called)
    (he : ∀ e ∈ es, e ≠ .unlock t .raise) :
    (u.pc t).Raising taken (called ++ deliveriesOf t es) := by
  induction hr with
  | refl => simpa [deliveriesOf] using h
  | tail hr hstep ih =>
    rw [deliveriesOf_append, ← List.append_assoc]
    exact raising_step (run_invariant hr hi) (ih fun e hm => he e (by simp [hm]))
      (he _ (by simp)) hstep

/-- A raise calls what it found when it took the mutex, once each and in order. -/
theorem raise_delivers_snapshot {s s' q q' : State T N} {es : List (Event T N)} {t : T}
    (hi : Invariant s) (hlock : Step s (.lock t .raise) s') (hr : Run Step s' es q)
    (he : ∀ e ∈ es, e ≠ .unlock t .raise) (hunlock : Step q (.unlock t .raise) q') :
    deliveriesOf t es = s.plugin.callbacks := by
  have hi' := step_preserves_invariant hi hlock
  have hbegin : (s'.pc t).Raising s.plugin.callbacks [] := by
    cases hlock
    simpa [State.goto] using loopAt_raising _ _ _
  have hend := raising_run hr hi' hbegin he
  have hs := (run_invariant hr hi').sound t
  cases hunlock with
  | unlockRaise t taken called hp =>
    rw [hp] at hend hs
    obtain ⟨rfl, hcalled⟩ := hend
    rw [List.nil_append] at hcalled
    rw [← hcalled, hs.2]

theorem deliver_mem {s u : State T N} {t : T} {n : N} (h : Step s (.deliver t n) u) :
    n ∈ s.plugin.callbacks := by
  cases h with
  | deliver t taken called it n hp hd => exact StableList.deref_mem_values hd

theorem stays_out {s u : State T N} {e : Event T N} {n : N} (h : Step s e u)
    (hn : n ∉ s.plugin.callbacks) (he : ∀ t, e ≠ .change t (.register n)) :
    n ∉ u.plugin.callbacks := by
  cases h with
  | greet t d m r reply p hp hg =>
    obtain ⟨hc, -, -⟩ := SamplePluginImplementation.greet_frame hg
    have hv : p.callbacks = s.plugin.callbacks := congrArg StableList.values hc
    exact fun hm => hn (hv ▸ hm)
  | change t c hp =>
    cases c with
    | register m =>
      have hm : n ≠ m := fun h => he t (by rw [h])
      simp only [Change.run, SamplePluginImplementation.register_callbacks,
        SubscriptionRoster.apply]
      split <;> simp [hn, hm]
    | unregister m =>
      simp only [Change.run, SamplePluginImplementation.unregister_callbacks,
        SubscriptionRoster.apply]
      exact fun h => hn (List.mem_of_mem_erase h)
  | _ => exact hn

/-- After Unregister has dropped the mutex its callback is called again only once a
Register of it has made its change. -/
theorem quiet_until_registered {s s' q q' : State T N} {es : List (Event T N)} {t u : T}
    {n : N} (hi : Invariant s) (hunlock : Step s (.unlock t (.change (.unregister n))) s')
    (hr : Run Step s' es q) (hd : Step q (.deliver u n) q') :
    ∃ v, Event.change v (.register n) ∈ es := by
  have hout : n ∉ s'.plugin.callbacks := by
    have hs := hi.sound t
    cases hunlock with
    | unlockChange t c hp => rwa [hp] at hs
  have hended := Run.ended_before (fun _ => True) (fun r => n ∉ r.plugin.callbacks)
    (fun e => ∃ v, e = Event.change v (.register n)) (fun _ _ _ _ _ => trivial)
    (fun r e w _ hp hb hstep => stays_out hstep hp fun v hv => hb ⟨v, hv⟩)
    hr trivial hout hd (fun r w _ hp hstep => hp (deliver_mem hstep))
  obtain ⟨e, he, v, rfl⟩ := hended
  exact ⟨v, he⟩

/-- In every reachable state the node a raise is about to call is in the list with a
reference held on it; a raise that takes the mutex here delivers exactly what it finds; and
an Unregister that drops the mutex here silences its callback until it is registered again. -/
theorem threads_deliver_safely (greetings : List String) {es : List (Event T N)}
    {s : State T N} (h : Run Step (start greetings) es s) :
    (∀ t, s.pc t ≠ .dangling) ∧
    (∀ t taken called it, s.pc t = .looping taken called it →
      ∃ n, s.plugin.notificationCallbacks.deref it = some n ∧ n ∈ s.plugin.callbacks ∧
        s.plugin.refs.balance n = 1) ∧
    (∀ t fs s' q q', Step s (.lock t .raise) s' → Run Step s' fs q →
      (∀ e ∈ fs, e ≠ .unlock t .raise) → Step q (.unlock t .raise) q' →
      s.plugin.callbacks.Nodup ∧ deliveriesOf t fs = s.plugin.callbacks) ∧
    (∀ t u n fs s' q q', Step s (.unlock t (.change (.unregister n))) s' → Run Step s' fs q →
      Step q (.deliver u n) q' → ∃ v, Event.change v (.register n) ∈ fs) := by
  have hi := run_invariant h (start_invariant greetings)
  refine ⟨?_, ?_, ?_, ?_⟩
  · intro t ht
    have hs := hi.sound t
    rw [ht] at hs
    exact hs
  · intro t taken called it ht
    have hs := hi.sound t
    rw [ht] at hs
    obtain ⟨-, ⟨n, hn⟩, -⟩ := hs
    have hm : n ∈ s.plugin.callbacks := StableList.deref_mem_values hn
    exact ⟨n, hn, hm, by rw [hi.plugin.refs n, if_pos hm]⟩
  · exact fun t fs s' q q' hl hr he hu => ⟨hi.plugin.nodup, raise_delivers_snapshot hi hl hr he hu⟩
  · exact fun t u n fs s' q q' hu hr hd => quiet_until_registered hi hu hr hd

/-- Thread 0 registers callback 7, then thread 1 greets and stands before its first call. -/
theorem threads_deliver_safely_at_first_call :
    ∃ (es : List (Event ℕ ℕ)) (s : State ℕ ℕ), Run Step (start ["Hello"]) es s ∧
      s.pc 1 = .looping [7] [] 0 ∧ ∃ n, s.plugin.notificationCallbacks.deref 0 = some n ∧
        n ∈ s.plugin.callbacks ∧ s.plugin.refs.balance n = 1 := by
  have h₁ := Run.single (Step.call (start (T := ℕ) (N := ℕ) ["Hello"]) 0 (.register 7) rfl)
  have h₂ := h₁.tail (.lockChange _ 0 _ rfl rfl)
  have h₃ := h₂.tail (.change _ 0 _ rfl)
  have h₄ := h₃.tail (.unlockChange _ 0 _ rfl)
  have h₅ := h₄.tail (.greet _ 1 (.favouring 0) "World" "" _ _ rfl rfl)
  have h₆ := h₅.tail (.lockRaise _ 1 rfl rfl)
  exact ⟨_, _, h₆, rfl, (threads_deliver_safely ["Hello"] h₆).2.1 1 [7] [] 0 rfl⟩

end NotificationThreads
