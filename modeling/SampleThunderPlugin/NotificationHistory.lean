import SampleThunderPlugin.Linearization
import SampleThunderPlugin.NotificationThreads

/-! The concurrent requests of NotificationThreads against the object that serves them one
at a time. A Register or Unregister takes effect with its list change, a Greet that succeeds
when it takes _notificationMutex, a refused Greet at once. The frame of a Greet keeps its
parameters and the reply it has already decided on. -/
namespace NotificationHistory

open LabelledRuns Linearization NotificationThreads
open SamplePluginImplementation (Reply Request)

inductive Operation (N : Type) where
  | change (c : Change N)
  | greet (message result : String)
  deriving DecidableEq, Repr

/-- The parameters of a Greet as they were given and the text it leaves in result. -/
structure Frame where
  message : String
  given : String
  result : String
  deriving DecidableEq, Repr

structure Calls (T N : Type) where
  threads : State T N
  frame : T → Frame

variable {T N : Type}

def Operation.request (distribution : UniformInt) : Operation N → Request N
  | .change (.register n) => .register n
  | .change (.unregister n) => .unregister n
  | .greet message result => .greet distribution message result

def finished : Reply N := ⟨.errorNone, "", []⟩

def greeted (frame : Frame) (called : List N) : Reply N :=
  ⟨.errorNone, frame.result, called.map fun callback => (callback, .excitingThingHappened)⟩

def calledBy : Pc N → List N
  | .looping _ called _ | .calling _ called _ | .raised _ called => called
  | _ => []

/-- The stage of a call that stands here. A raise is answered with what it took. -/
def stageOf (frame : Frame) : Pc N → Stage (Operation N) (Reply N)
  | .idle | .dangling => .idle
  | .atLock (.change c) | .changing c => .called (.change c)
  | .atLock .raise => .called (.greet frame.message frame.given)
  | .changed c => .done (.change c) finished
  | .looping taken _ _ | .calling taken _ _ | .raised taken _ =>
    .done (.greet frame.message frame.given) (greeted frame taken)

def stages (s : Calls T N) (t : T) : Stage (Operation N) (Reply N) :=
  stageOf (s.frame t) (s.threads.pc t)

/-- The same object up to the numbers drawn: a Greet draws before it takes effect. -/
def Agrees (p q : SamplePluginImplementation N) : Prop := ∃ draws, q = { p with draws := draws }

def Decided (p : SamplePluginImplementation N) (frame : Frame) : Prop :=
  ∃ distribution reply q, p.greet distribution frame.message frame.given = .ok (reply, q) ∧
    reply.code = .errorNone ∧ reply.result = frame.result

def startPlugin (greetings : List String) : SamplePluginImplementation N :=
  { SamplePluginImplementation.initial with greetings := greetings }

def deliveries (es : List (Event T N)) : List N :=
  es.filterMap fun e =>
    match e with
    | .deliver _ n => some n
    | _ => none

def callsOf (xs : List (Operation N × Reply N)) : List N :=
  xs.flatMap fun x => x.2.delivered.map Prod.fst

def toCall (p : SamplePluginImplementation N) : Pc N → List N
  | .looping _ _ it => p.notificationCallbacks.rest (some it)
  | .calling _ _ it => p.notificationCallbacks.rest (p.notificationCallbacks.next it)
  | _ => []

def pending (s : State T N) : List N :=
  match s.mutex with
  | none => []
  | some t => toCall s.plugin (s.pc t)

theorem loopAt_stage (frame : Frame) (taken called : List N) (it : Option ℕ) :
    stageOf frame (loopAt taken called it) =
      .done (.greet frame.message frame.given) (greeted frame taken) := by
  cases it <;> rfl

theorem greet_agrees {p q : SamplePluginImplementation N} {distribution : UniformInt}
    {message result : String} {reply : Reply N}
    (h : p.greet distribution message result = .ok (reply, q)) : Agrees p q := by
  rcases SamplePluginImplementation.greet_cases distribution p message result with
    ⟨-, hg⟩ | ⟨-, -, hg⟩ | ⟨-, greeting, -, hg⟩ <;> rw [hg] at h <;> cases h <;> exact ⟨_, rfl⟩

theorem greet_refused {p q : SamplePluginImplementation N} {distribution : UniformInt}
    {message result : String} {reply : Reply N}
    (h : p.greet distribution message result = .ok (reply, q)) (hc : reply.code ≠ .errorNone) :
    q = p ∧ ∀ r : SamplePluginImplementation N, r.greetings = p.greetings →
      r.greet distribution message result = .ok (reply, r) := by
  rcases SamplePluginImplementation.greet_cases distribution p message result with
    ⟨hm, hg⟩ | ⟨hm, hn, hg⟩ | ⟨-, greeting, -, hg⟩ <;> rw [hg] at h <;> cases h
  · exact ⟨rfl, fun r _ => by simp [SamplePluginImplementation.greet, hm]⟩
  · exact ⟨rfl, fun r hr => by simp [SamplePluginImplementation.greet, hm, hr, hn]⟩
  · exact absurd rfl hc

theorem greet_replay {p q r : SamplePluginImplementation N} {distribution : UniformInt}
    {message result : String} {reply : Reply N} (hr : r.greetings = p.greetings)
    (h : p.greet distribution message result = .ok (reply, q)) :
    ∃ reply' q', r.greet distribution message result = .ok (reply', q') ∧
      reply'.code = reply.code ∧ reply'.result = reply.result ∧ Agrees r q' ∧
      (reply.code = .errorNone → reply'.delivered =
        r.callbacks.map fun callback => (callback, .excitingThingHappened)) := by
  rcases SamplePluginImplementation.greet_cases distribution p message result with
    ⟨hm, hg⟩ | ⟨hm, hn, hg⟩ | ⟨hm, greeting, hn, hg⟩ <;> rw [hg] at h <;> cases h <;>
    rcases SamplePluginImplementation.greet_cases distribution r message result with
      ⟨km, kg⟩ | ⟨km, kn, kg⟩ | ⟨km, greeting', kn, kg⟩
  · exact ⟨_, _, kg, rfl, rfl, ⟨_, rfl⟩, by simp⟩
  · exact absurd hm km
  · exact absurd hm km
  · exact absurd km hm
  · exact ⟨_, _, kg, rfl, rfl, ⟨_, rfl⟩, by simp⟩
  · rw [hr, hn] at kn
    simp at kn
  · exact absurd km hm
  · rw [← hr, kn] at hn
    simp at hn
  · rw [hr, hn] at kn
    obtain rfl := Option.some.inj kn
    exact ⟨_, _, kg, rfl, rfl, ⟨_, rfl⟩, fun _ => rfl⟩

theorem decided_congr {p q : SamplePluginImplementation N} {frame : Frame}
    (hg : q.greetings = p.greetings) (h : Decided p frame) : Decided q frame := by
  obtain ⟨distribution, reply, p', hp, hc, hr⟩ := h
  obtain ⟨reply', q', hq, hc', hr', -⟩ := greet_replay hg hp
  exact ⟨distribution, reply', q', hq, hc'.trans hc, hr'.trans hr⟩

theorem decided_serves {p q : SamplePluginImplementation N} {frame : Frame}
    (h : Decided p frame) (hq : Agrees p q) :
    ∃ distribution b, q.greet distribution frame.message frame.given =
      .ok (greeted frame p.callbacks, b) ∧ Agrees p b := by
  obtain ⟨draws, rfl⟩ := hq
  obtain ⟨distribution, reply, p', hp, hc, hr⟩ := h
  obtain ⟨⟨code, result, delivered⟩, b, hb, hc', hr', ⟨draws', hd'⟩, hd⟩ :=
    greet_replay (p := p) (r := { p with draws := draws }) rfl hp
  refine ⟨distribution, b, ?_, draws', hd'⟩
  simp only at hc' hr' hd
  rw [hb, hc', hr', hc, hr, hd hc]
  rfl

theorem toCall_loopAt (p : SamplePluginImplementation N) (taken called : List N)
    (it : Option ℕ) : toCall p (loopAt taken called it) = p.notificationCallbacks.rest it := by
  cases it <;> rfl

theorem callsOf_greeted (op : Operation N) (frame : Frame) (ns : List N) :
    callsOf [(op, greeted frame ns)] = ns := by
  simp [callsOf, greeted, Function.comp_def]

theorem pending_of_owner {s : State T N} {t : T} {pc : Pc N} (hm : s.mutex = some t)
    (hp : s.pc t = pc) : pending s = toCall s.plugin pc := by
  simp only [pending, hm, hp]

theorem greet_calls {p q : SamplePluginImplementation N} {distribution : UniformInt}
    {message result : String} {reply : Reply N} (op : Operation N)
    (h : p.greet distribution message result = .ok (reply, q)) (hc : reply.code ≠ .errorNone) :
    callsOf [(op, reply)] = [] := by
  rcases SamplePluginImplementation.greet_cases distribution p message result with
    ⟨-, hg⟩ | ⟨-, -, hg⟩ | ⟨-, greeting, -, hg⟩ <;> rw [hg] at h <;> cases h
  · rfl
  · rfl
  · exact absurd rfl hc

section Sequential
variable [DecidableEq N]

/-- The sequential object: any draw may decide the text of a greeting. -/
def Serves (fromString : SamplePluginConfiguration → String → SamplePluginConfiguration)
    (p : SamplePluginImplementation N) (x : Operation N × Reply N)
    (q : SamplePluginImplementation N) : Prop :=
  ∃ distribution, p.serve fromString (x.1.request distribution) = .ok (x.2, q)

theorem change_agrees {p q : SamplePluginImplementation N} (h : Agrees p q) (c : Change N) :
    Agrees (c.run p) (c.run q) := by
  obtain ⟨draws, rfl⟩ := h
  refine ⟨draws, ?_⟩
  cases c with
  | register n =>
    simp only [Change.run, SamplePluginImplementation.register]
    split <;> rfl
  | unregister n =>
    simp only [Change.run, SamplePluginImplementation.unregister]
    split <;> rfl

theorem change_greetings (p : SamplePluginImplementation N) (c : Change N) :
    (c.run p).greetings = p.greetings := by
  cases c with
  | register n => exact SamplePluginImplementation.register_greetings p n
  | unregister n => exact SamplePluginImplementation.unregister_greetings p n

variable (fromString : SamplePluginConfiguration → String → SamplePluginConfiguration)

theorem change_serves (p : SamplePluginImplementation N) (c : Change N) :
    Serves fromString p (.change c, finished) (c.run p) := by
  cases c <;> exact ⟨.favouring 0, rfl⟩

theorem serves_serveAll {p q : SamplePluginImplementation N} {xs : List (Operation N × Reply N)}
    (h : Run (Serves fromString) p xs q) :
    ∃ qs, p.serveAll fromString qs = .ok (xs.map Prod.snd, q) ∧
      List.Forall₂ (fun x r => ∃ distribution, r = x.1.request distribution) xs qs := by
  induction xs generalizing p with
  | nil =>
    obtain rfl := h.nil_inv
    exact ⟨[], rfl, .nil⟩
  | cons x xs ih =>
    obtain ⟨r, ⟨distribution, hx⟩, hr⟩ := h.cons_inv
    obtain ⟨qs, hqs, hf⟩ := ih hr
    refine ⟨x.1.request distribution :: qs, ?_, .cons ⟨distribution, rfl⟩ hf⟩
    rw [SamplePluginImplementation.serveAll_cons fromString hx, hqs]
    rfl

end Sequential

section Moving
variable [DecidableEq T]

theorem stages_goto {s : Calls T N} {threads : State T N} {t : T} {pc : Pc N}
    (h : threads.pc = (s.threads.goto t pc).pc) :
    stages ⟨threads, s.frame⟩ = Function.update (stages s) t (stageOf (s.frame t) pc) := by
  funext u
  rcases eq_or_ne u t with rfl | hu
  · simp [stages, h, State.goto]
  · simp [stages, h, State.goto, hu]

theorem pending_other {s u : State T N} {t : T} {pc : Pc N} (ht : s.mutex ≠ some t)
    (hm : u.mutex = s.mutex) (hpc : u.pc = (s.goto t pc).pc)
    (hn : u.plugin.notificationCallbacks = s.plugin.notificationCallbacks) :
    pending u = pending s := by
  cases hs : s.mutex with
  | none => simp only [pending, hm, hs]
  | some v =>
    have hv : v ≠ t := fun h => ht (h ▸ hs)
    have hpcv : u.pc v = s.pc v := by simp [hpc, State.goto, hv]
    simp only [pending, hm, hs, hpcv]
    cases s.pc v <;> simp [toCall, hn]

end Moving

variable [DecidableEq T] [DecidableEq N]

def frameAfter (s : Calls T N) : Event T N → T → Frame
  | .greet t distribution message result =>
    match s.threads.plugin.greet distribution message result with
    | .ok (reply, _) => Function.update s.frame t ⟨message, result, reply.result⟩
    | .error _ => s.frame
  | _ => s.frame

def CallStep (s : Calls T N) (e : Event T N) (u : Calls T N) : Prop :=
  Step s.threads e u.threads ∧ u.frame = frameAfter s e

def begin (greetings : List String) : Calls T N := ⟨start greetings, fun _ => ⟨"", "", ""⟩⟩

/-- The calls, effects and answers of each step. The answer of a Greet lists the callbacks
it has really called. -/
def mark (s : Calls T N) : Event T N → List (Mark T (Operation N) (Reply N))
  | .call t c => [.call t (.change c)]
  | .greet t distribution message result =>
    match s.threads.plugin.greet distribution message result with
    | .ok (reply, _) =>
      if reply.code = .errorNone then [.call t (.greet message result)]
      else [.call t (.greet message result), .effect t (.greet message result) reply,
        .answer t reply]
    | .error _ => []
  | .change t c => [.effect t (.change c) finished]
  | .lock t .raise => [.effect t (.greet (s.frame t).message (s.frame t).given)
      (greeted (s.frame t) s.threads.plugin.callbacks)]
  | .unlock t (.change _) => [.answer t finished]
  | .unlock t .raise => [.answer t (greeted (s.frame t) (calledBy (s.threads.pc t)))]
  | _ => []

structure Simulates (s : Calls T N)
    (a : Atomic (SamplePluginImplementation N) T (Operation N) (Reply N)) : Prop where
  invariant : Invariant s.threads
  object : Agrees s.threads.plugin a.object
  stage : a.stage = stages s
  decided : ∀ t, s.threads.pc t = .atLock .raise → Decided s.threads.plugin (s.frame t)

theorem simulates_goto {s : Calls T N} {threads : State T N} {t : T} {pc : Pc N}
    {a : Atomic (SamplePluginImplementation N) T (Operation N) (Reply N)}
    {b : SamplePluginImplementation N} (h : Simulates s a) (hi : Invariant threads)
    (hb : Agrees threads.plugin b) (hg : threads.plugin.greetings = s.threads.plugin.greetings)
    (hpc : threads.pc = (s.threads.goto t pc).pc) (hraise : pc ≠ .atLock .raise) :
    Simulates ⟨threads, s.frame⟩ ⟨b, Function.update a.stage t (stageOf (s.frame t) pc)⟩ where
  invariant := hi
  object := hb
  stage := by
    rw [stages_goto hpc]
    exact congrArg (Function.update · t _) h.stage
  decided := by
    intro u hu
    refine decided_congr hg (h.decided u ?_)
    rcases eq_or_ne u t with rfl | hut
    · simp only [hpc, State.goto, Function.update_self] at hu
      exact absurd hu hraise
    · simpa only [hpc, State.goto, Function.update_of_ne hut] using hu

theorem simulates_silent {s : Calls T N} {threads : State T N} {t : T} {pc : Pc N}
    {a : Atomic (SamplePluginImplementation N) T (Operation N) (Reply N)} (h : Simulates s a)
    (hi : Invariant threads) (hplugin : threads.plugin = s.threads.plugin)
    (hpc : threads.pc = (s.threads.goto t pc).pc)
    (hstage : stageOf (s.frame t) pc = stageOf (s.frame t) (s.threads.pc t))
    (hraise : pc ≠ .atLock .raise) : Simulates ⟨threads, s.frame⟩ a := by
  have hs := simulates_goto h hi (hplugin ▸ h.object) (by rw [hplugin]) hpc hraise
  have ha : Function.update a.stage t (stageOf (s.frame t) pc) = a.stage := by
    rw [hstage, h.stage]
    exact Function.update_eq_self t (stages s)
  rwa [ha] at hs

omit [DecidableEq T] in
theorem stage_at {s : Calls T N}
    {a : Atomic (SamplePluginImplementation N) T (Operation N) (Reply N)} (h : Simulates s a)
    {t : T} {pc : Pc N} (hp : s.threads.pc t = pc) : a.stage t = stageOf (s.frame t) pc := by
  rw [h.stage, ← hp]
  rfl

theorem overlapping_run :
    ∃ (es : List (Event ℕ ℕ)) (s : Calls ℕ ℕ) (ms : List (Mark ℕ (Operation ℕ) (Reply ℕ))),
      Recorded CallStep mark (begin ["Hello"]) es ms s ∧
      effects ms = [(.change (.register 7), finished), (.greet "World" "",
        ⟨.errorNone, "Hello, World", [(7, .excitingThingHappened)]⟩)] := by
  have h₀ : Recorded CallStep mark (begin (T := ℕ) (N := ℕ) ["Hello"]) [] [] _ := .refl _
  have h₁ := h₀.tail (v := ⟨_, _⟩) ⟨.greet _ 1 (.favouring 0) "World" "" _ _ rfl rfl, rfl⟩
  have h₂ := h₁.tail (v := ⟨_, _⟩) ⟨.call _ 0 (.register 7) rfl, rfl⟩
  have h₃ := h₂.tail (v := ⟨_, _⟩) ⟨.lockChange _ 0 _ rfl rfl, rfl⟩
  have h₄ := h₃.tail (v := ⟨_, _⟩) ⟨.change _ 0 _ rfl, rfl⟩
  have h₅ := h₄.tail (v := ⟨_, _⟩) ⟨.unlockChange _ 0 _ rfl, rfl⟩
  have h₆ := h₅.tail (v := ⟨_, _⟩) ⟨.lockRaise _ 1 rfl rfl, rfl⟩
  exact ⟨_, _, _, h₆, rfl⟩

section Simulation
variable (fromString : SamplePluginConfiguration → String → SamplePluginConfiguration)

theorem refused_simulated {s u : Calls T N}
    {a : Atomic (SamplePluginImplementation N) T (Operation N) (Reply N)} {t : T}
    {distribution : UniformInt} {message result : String} {reply : Reply N}
    {p : SamplePluginImplementation N} (h : Simulates s a) (hp : s.threads.pc t = .idle)
    (hg : s.threads.plugin.greet distribution message result = .ok (reply, p))
    (hc : reply.code ≠ .errorNone) (hi : Invariant u.threads)
    (hu : u.threads = { s.threads.goto t .idle with plugin := p })
    (hf : u.frame = Function.update s.frame t ⟨message, result, reply.result⟩) :
    ∃ b, Run (AtomicStep (Serves fromString)) a
      [.call t (.greet message result), .effect t (.greet message result) reply,
        .answer t reply] b ∧ Simulates u b := by
  obtain ⟨rfl, hrefuse⟩ := greet_refused hg hc
  obtain ⟨draws, ho⟩ := h.object
  have hserve : Serves fromString a.object (.greet message result, reply) a.object :=
    ⟨distribution, hrefuse a.object (by rw [ho])⟩
  have h₁ : AtomicStep (Serves fromString) a (.call t (.greet message result)) _ :=
    .call a t (.greet message result) (stage_at h hp)
  have h₂ := (Run.single h₁).tail (.effect _ t _ reply a.object (Function.update_self ..) hserve)
  have h₃ := h₂.tail (.answer _ t _ reply (Function.update_self ..))
  refine ⟨_, h₃, hi, ?_, ?_, ?_⟩
  · rw [hu]
    exact ⟨draws, ho⟩
  · funext v
    rcases eq_or_ne v t with rfl | hv
    · simp [stages, hu, State.goto, stageOf]
    · simp [stages, hu, State.goto, hv, h.stage, hf]
  · intro v hv
    rcases eq_or_ne v t with rfl | hvt
    · simp [hu, State.goto] at hv
    · have hd := h.decided v (by simpa [hu, State.goto, hvt] using hv)
      rw [hu, hf, Function.update_of_ne hvt]
      exact hd

theorem greet_simulated {s u : Calls T N}
    {a : Atomic (SamplePluginImplementation N) T (Operation N) (Reply N)} {t : T}
    {distribution : UniformInt} {message result : String} {reply : Reply N}
    {p : SamplePluginImplementation N} (h : Simulates s a) (hp : s.threads.pc t = .idle)
    (hg : s.threads.plugin.greet distribution message result = .ok (reply, p))
    (hc : reply.code = .errorNone) (hi : Invariant u.threads)
    (hu : u.threads = { s.threads.goto t (.atLock .raise) with plugin := p })
    (hf : u.frame = Function.update s.frame t ⟨message, result, reply.result⟩) :
    ∃ b, Run (AtomicStep (Serves fromString)) a [.call t (.greet message result)] b ∧
      Simulates u b := by
  obtain ⟨draws, ho⟩ := h.object
  obtain ⟨draws', hd'⟩ := greet_agrees hg
  have hgreetings : p.greetings = s.threads.plugin.greetings := by rw [hd']
  refine ⟨_, Run.single (.call a t (.greet message result) (stage_at h hp)), hi, ?_, ?_, ?_⟩
  · refine ⟨draws, ?_⟩
    rw [hu]
    simp only [ho, hd']
  · funext v
    rcases eq_or_ne v t with rfl | hv
    · simp [stages, hu, hf, State.goto, stageOf]
    · simp [stages, hu, State.goto, hv, h.stage, hf]
  · intro v hv
    rw [hu, hf]
    rcases eq_or_ne v t with rfl | hvt
    · rw [Function.update_self]
      obtain ⟨reply', q', hq, hc', hr', -⟩ := greet_replay hgreetings hg
      exact ⟨distribution, reply', q', hq, hc'.trans hc, hr'⟩
    · rw [Function.update_of_ne hvt]
      exact decided_congr hgreetings (h.decided v (by simpa [hu, State.goto, hvt] using hv))

/-- Each step of the threads is matched by the atomic object over what the step marks. -/
theorem step_simulated {s u : Calls T N} {e : Event T N}
    {a : Atomic (SamplePluginImplementation N) T (Operation N) (Reply N)} (h : Simulates s a)
    (hstep : CallStep s e u) :
    ∃ b, Run (AtomicStep (Serves fromString)) a (mark s e) b ∧ Simulates u b := by
  obtain ⟨hthreads, hframe⟩ := hstep
  obtain ⟨threads, frame⟩ := u
  have hi := step_preserves_invariant h.invariant hthreads
  simp only at hthreads hframe hi
  cases hthreads with
  | greet t distribution message result reply p hp hg =>
    simp only [mark, frameAfter, hg] at hframe ⊢
    by_cases hc : reply.code = .errorNone
    · rw [if_pos hc]
      exact greet_simulated fromString h hp hg hc hi (by simp [hc]) hframe
    · rw [if_neg hc]
      exact refused_simulated fromString h hp hg hc hi (by simp [hc]) hframe
  | call t c hp =>
    obtain rfl := hframe
    exact ⟨_, Run.single (.call a t (.change c) (stage_at h hp)),
      simulates_goto h hi h.object rfl rfl (by simp)⟩
  | lockChange t c hp hm =>
    obtain rfl := hframe
    exact ⟨a, .refl a, simulates_silent h hi rfl rfl (by rw [hp]; rfl) (by simp)⟩
  | lockRaise t hp hm =>
    obtain rfl := hframe
    obtain ⟨distribution, b, hb, hab⟩ := decided_serves (h.decided t hp) h.object
    have hs := simulates_goto h hi hab rfl rfl (by
      cases hf : s.threads.plugin.notificationCallbacks.front <;> simp [loopAt])
    rw [loopAt_stage] at hs
    exact ⟨_, Run.single (.effect a t _ _ b (stage_at h hp) ⟨distribution, hb⟩), hs⟩
  | change t c hp =>
    obtain rfl := hframe
    have hab := change_agrees h.object c
    exact ⟨_, Run.single (.effect a t _ _ _ (stage_at h hp) (change_serves fromString _ c)),
      simulates_goto h hi hab (change_greetings _ c) rfl (by simp)⟩
  | deliver t taken called it n hp hd =>
    obtain rfl := hframe
    exact ⟨a, .refl a, simulates_silent h hi rfl rfl (by rw [hp]; rfl) (by simp)⟩
  | returned t taken called it n hp hd =>
    obtain rfl := hframe
    refine ⟨a, .refl a, simulates_silent h hi rfl rfl ?_ ?_⟩
    · rw [hp, loopAt_stage]
      rfl
    · cases s.threads.plugin.notificationCallbacks.next it <;> simp [loopAt]
  | unlockChange t c hp =>
    obtain rfl := hframe
    exact ⟨_, Run.single (.answer a t (.change c) finished (stage_at h hp)),
      simulates_goto h hi h.object rfl rfl (by simp)⟩
  | unlockRaise t taken called hp =>
    obtain rfl := hframe
    -- the raise has called everything it took, so it answers with its effect's reply
    have hs := h.invariant.sound t
    rw [hp] at hs
    have hstage : a.stage t = .done (.greet (s.frame t).message (s.frame t).given)
        (greeted (s.frame t) (calledBy (s.threads.pc t))) := by
      rw [stage_at h hp, hp, calledBy, hs.2]
      rfl
    exact ⟨_, Run.single (.answer a t _ _ hstage),
      simulates_goto h hi h.object rfl rfl (by simp)⟩
  | dangle t taken called it hp hd =>
    exact absurd (.dangle _ t taken called it hp hd) (no_dangle h.invariant)

omit [DecidableEq T] in
theorem begin_simulates (greetings : List String) :
    Simulates (begin greetings : Calls T N) (fresh (startPlugin greetings)) where
  invariant := start_invariant greetings
  object := ⟨0, rfl⟩
  stage := rfl
  decided := by simp [begin, start]

/-- Whatever the threads interleave, Register, Unregister and Greet are linearizable: each
takes effect at one instant between its call and its answer, and served one at a time in the
order of these instants the same requests give the same replies, with the same text and the
same callbacks called, and leave the same object up to the numbers drawn. -/
theorem requests_linearizable (greetings : List String) {es : List (Event T N)}
    {ms : List (Mark T (Operation N) (Reply N))} {s : Calls T N}
    (h : Recorded CallStep mark (begin greetings) es ms s) :
    Linearizable (Serves fromString) (startPlugin greetings) ms ∧
    ∃ qs p, (startPlugin greetings).serveAll fromString qs =
        .ok ((effects ms).map Prod.snd, p) ∧
      List.Forall₂ (fun x r => ∃ distribution, r = x.1.request distribution) (effects ms) qs ∧
      Agrees s.threads.plugin p := by
  obtain ⟨b, hb, hs⟩ := h.simulates Simulates
    (fun s a e u hs hstep => step_simulated fromString hs hstep) (begin_simulates greetings)
  have hrun := run_effects hb
  obtain ⟨qs, hqs, hf⟩ := serves_serveAll fromString hrun
  exact ⟨linearizable_of_run hb, qs, b.object, hqs, hf, hs.object⟩

theorem requests_linearizable_overlapping :
    ∃ ms : List (Mark ℕ (Operation ℕ) (Reply ℕ)), (effects ms).length = 2 ∧
      Linearizable (Serves fun config _ => config) (startPlugin ["Hello"]) ms := by
  obtain ⟨es, s, ms, h, he⟩ := overlapping_run
  exact ⟨ms, by rw [he]; rfl, (requests_linearizable (fun config _ => config) ["Hello"] h).1⟩

end Simulation

theorem step_deliveries {s u : Calls T N} {e : Event T N} (hi : Invariant s.threads)
    (h : CallStep s e u) :
    deliveries [e] ++ pending u.threads = pending s.threads ++ callsOf (effects (mark s e)) := by
  obtain ⟨hthreads, -⟩ := h
  obtain ⟨threads, frame⟩ := u
  simp only at hthreads ⊢
  have hfree : ∀ t, ¬ (s.threads.pc t).Holds → s.threads.mutex ≠ some t :=
    fun t ht hm => ht ((hi.owner t).mpr hm)
  have howns : ∀ t, (s.threads.pc t).Holds → s.threads.mutex = some t :=
    fun t ht => (hi.owner t).mp ht
  cases hthreads with
  | call t c hp =>
    have hk := hfree t (by rw [hp]; exact id)
    have hk := pending_other (u := s.threads.goto t (.atLock (.change c))) hk rfl rfl rfl
    simp [deliveries, mark, effects, callsOf, hk]
  | greet t distribution message result reply p hp hg =>
    have hk := hfree t (by rw [hp]; exact id)
    have hnext (pc : Pc N) : pending { s.threads.goto t pc with plugin := p } =
        pending s.threads :=
      pending_other (t := t) hk rfl rfl (SamplePluginImplementation.greet_frame hg).1
    rw [hnext]
    simp only [mark, hg]
    split
    · simp [deliveries, effects, callsOf]
    · next hc =>
      have hnone := greet_calls (.greet message result) hg hc
      simp only [callsOf, List.flatMap_cons, List.flatMap_nil, List.append_nil] at hnone
      simp [deliveries, effects, callsOf, hnone]
  | lockChange t c hp hm =>
    simp [deliveries, mark, effects, callsOf, pending, hm, State.goto, toCall]
  | lockRaise t hp hm =>
    have hcalls : callsOf (effects (mark s (.lock t .raise))) = s.threads.plugin.callbacks :=
      callsOf_greeted _ _ _
    rw [hcalls]
    simp only [deliveries, pending, hm, State.goto, Function.update_self, toCall_loopAt,
      StableList.rest_front, SamplePluginImplementation.callbacks]
    rfl
  | change t c hp =>
    have hm := howns t (by rw [hp]; trivial)
    simp [deliveries, mark, effects, callsOf, pending, hm, hp, State.goto, toCall, finished]
  | deliver t taken called it n hp hd =>
    have hm := howns t (by rw [hp]; trivial)
    rw [pending_of_owner hm hp, toCall, StableList.rest_deref hd]
    simp [deliveries, mark, effects, callsOf, pending, hm, State.goto, toCall]
  | returned t taken called it n hp hd =>
    have hm := howns t (by rw [hp]; trivial)
    rw [pending_of_owner hm hp]
    simp only [pending, hm, State.goto, Function.update_self, toCall_loopAt]
    simp [deliveries, mark, effects, callsOf, toCall]
  | unlockChange t c hp =>
    have hm := howns t (by rw [hp]; trivial)
    rw [pending_of_owner hm hp]
    simp [deliveries, mark, effects, callsOf, pending, toCall]
  | unlockRaise t taken called hp =>
    have hm := howns t (by rw [hp]; trivial)
    rw [pending_of_owner hm hp]
    simp [deliveries, mark, effects, callsOf, pending, toCall]
  | dangle t taken called it hp hd =>
    exact absurd (.dangle _ t taken called it hp hd) (no_dangle hi)

theorem run_deliveries {s u : Calls T N} {es : List (Event T N)}
    {ms : List (Mark T (Operation N) (Reply N))} (h : Recorded CallStep mark s es ms u)
    (hi : Invariant s.threads) :
    deliveries es ++ pending u.threads = pending s.threads ++ callsOf (effects ms) ∧
      Invariant u.threads := by
  induction h with
  | refl => exact ⟨by simp [deliveries, effects, callsOf], hi⟩
  | tail hr hv ih =>
    obtain ⟨hd, hu⟩ := ih
    refine ⟨?_, step_preserves_invariant hu hv.1⟩
    have hstep := step_deliveries hu hv
    simp only [deliveries, List.filterMap_append, effects_append, callsOf, List.flatMap_append]
      at hd hstep ⊢
    rw [List.append_assoc, hstep, ← List.append_assoc, hd, List.append_assoc]

/-- The callback calls of all threads together, in the order they are made, are those of the
requests served one at a time in the order they take effect, but for what the raise that now
holds the mutex has still to call: no two raises are ever interleaved. -/
theorem raises_never_interleave (greetings : List String) {es : List (Event T N)}
    {ms : List (Mark T (Operation N) (Reply N))} {s : Calls T N}
    (h : Recorded CallStep mark (begin greetings) es ms s) :
    deliveries es ++ pending s.threads = callsOf (effects ms) ∧
    (s.threads.mutex = none → deliveries es = callsOf (effects ms)) := by
  have hd := (run_deliveries h (start_invariant greetings)).1
  have hstart : pending (begin greetings : Calls T N).threads = [] := rfl
  rw [hstart, List.nil_append] at hd
  refine ⟨hd, fun hm => ?_⟩
  simpa only [pending, hm, List.append_nil] using hd

/-- Callbacks 7 and 8 are registered when threads 1 and 2 both come to raise. Thread 2 waits
for the mutex while thread 1 calls both, and then calls both itself. -/
theorem raises_never_interleave_contending :
    ∃ (ms : List (Mark ℕ (Operation ℕ) (Reply ℕ))) (s : Calls ℕ ℕ),
      Recorded CallStep mark (begin ["Hello"])
        [.call 0 (.register 7), .lock 0 (.change (.register 7)), .change 0 (.register 7),
          .unlock 0 (.change (.register 7)), .call 0 (.register 8),
          .lock 0 (.change (.register 8)), .change 0 (.register 8),
          .unlock 0 (.change (.register 8)), .greet 1 (.favouring 0) "World" "",
          .greet 2 (.favouring 0) "Moon" "", .lock 1 .raise, .deliver 1 7, .returned 1,
          .deliver 1 8, .returned 1, .unlock 1 .raise, .lock 2 .raise, .deliver 2 7,
          .returned 2, .deliver 2 8, .returned 2, .unlock 2 .raise] ms s ∧
      callsOf (effects ms) = [7, 8, 7, 8] := by
  have h₀ : Recorded CallStep mark (begin (T := ℕ) (N := ℕ) ["Hello"]) [] [] _ := .refl _
  have h₁ := h₀.tail (v := ⟨_, _⟩) ⟨.call _ 0 (.register 7) rfl, rfl⟩
  have h₂ := h₁.tail (v := ⟨_, _⟩) ⟨.lockChange _ 0 _ rfl rfl, rfl⟩
  have h₃ := h₂.tail (v := ⟨_, _⟩) ⟨.change _ 0 _ rfl, rfl⟩
  have h₄ := h₃.tail (v := ⟨_, _⟩) ⟨.unlockChange _ 0 _ rfl, rfl⟩
  have h₅ := h₄.tail (v := ⟨_, _⟩) ⟨.call _ 0 (.register 8) rfl, rfl⟩
  have h₆ := h₅.tail (v := ⟨_, _⟩) ⟨.lockChange _ 0 _ rfl rfl, rfl⟩
  have h₇ := h₆.tail (v := ⟨_, _⟩) ⟨.change _ 0 _ rfl, rfl⟩
  have h₈ := h₇.tail (v := ⟨_, _⟩) ⟨.unlockChange _ 0 _ rfl, rfl⟩
  have h₉ := h₈.tail (v := ⟨_, _⟩) ⟨.greet _ 1 (.favouring 0) "World" "" _ _ rfl rfl, rfl⟩
  have h₁₀ := h₉.tail (v := ⟨_, _⟩) ⟨.greet _ 2 (.favouring 0) "Moon" "" _ _ rfl rfl, rfl⟩
  have h₁₁ := h₁₀.tail (v := ⟨_, _⟩) ⟨.lockRaise _ 1 rfl rfl, rfl⟩
  have h₁₂ := h₁₁.tail (v := ⟨_, _⟩) ⟨.deliver _ 1 _ _ _ 7 rfl rfl, rfl⟩
  have h₁₃ := h₁₂.tail (v := ⟨_, _⟩) ⟨.returned _ 1 _ _ _ 7 rfl rfl, rfl⟩
  have h₁₄ := h₁₃.tail (v := ⟨_, _⟩) ⟨.deliver _ 1 _ _ _ 8 rfl rfl, rfl⟩
  have h₁₅ := h₁₄.tail (v := ⟨_, _⟩) ⟨.returned _ 1 _ _ _ 8 rfl rfl, rfl⟩
  have h₁₆ := h₁₅.tail (v := ⟨_, _⟩) ⟨.unlockRaise _ 1 _ _ rfl, rfl⟩
  have h₁₇ := h₁₆.tail (v := ⟨_, _⟩) ⟨.lockRaise _ 2 rfl rfl, rfl⟩
  have h₁₈ := h₁₇.tail (v := ⟨_, _⟩) ⟨.deliver _ 2 _ _ _ 7 rfl rfl, rfl⟩
  have h₁₉ := h₁₈.tail (v := ⟨_, _⟩) ⟨.returned _ 2 _ _ _ 7 rfl rfl, rfl⟩
  have h₂₀ := h₁₉.tail (v := ⟨_, _⟩) ⟨.deliver _ 2 _ _ _ 8 rfl rfl, rfl⟩
  have h₂₁ := h₂₀.tail (v := ⟨_, _⟩) ⟨.returned _ 2 _ _ _ 8 rfl rfl, rfl⟩
  have h₂₂ := h₂₁.tail (v := ⟨_, _⟩) ⟨.unlockRaise _ 2 _ _ rfl, rfl⟩
  exact ⟨_, _, h₂₂, ((raises_never_interleave ["Hello"] h₂₂).2 rfl).symm⟩

end NotificationHistory
