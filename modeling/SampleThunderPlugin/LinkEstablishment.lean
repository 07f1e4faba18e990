import Mathlib.Data.Int.Notation
import Mathlib.Logic.Function.Basic
import SampleThunderPlugin.LabelledRuns

/-! Waiting for the JSON-RPC link: StateChange notifies a condition variable, and any number
of threads wait on it with a timeout each. There is no flag beside the condition variable, so
a notification that finds nobody waiting is gone. Time is a count of milliseconds. -/
namespace LinkEstablishment

open LabelledRuns

inductive CvStatus where
  | noTimeout
  | timeout
  deriving DecidableEq, Repr

inductive Wakeup where
  | notified
  | timedOut
  | spurious
  deriving DecidableEq, Repr

inductive Pc where
  | idle
  | locking (timeoutMs : ℤ)
  | locked (timeoutMs : ℤ)
  | waiting (deadline : ℤ)
  | woken (cause : Wakeup) (deadline : ℤ)
  | relocked (cause : Wakeup) (deadline : ℤ)
  deriving DecidableEq, Repr

structure State (T : Type) where
  now : ℤ
  lock : Option T
  pc : T → Pc
  /-- History: when StateChange fired first. No step reads it. -/
  fired : Option ℤ

inductive Event (T : Type) where
  | tick
  | stateChange (woken : Option T)
  | call (t : T) (timeoutMs : ℤ)
  | lock (t : T)
  | waitFor (t : T)
  | timeout (t : T)
  | spurious (t : T)
  | relock (t : T)
  | returned (t : T) (result : Bool)
  deriving DecidableEq, Repr

/-- wait_for reads the clock once it has the lock again, whatever ended the wait. -/
def waitStatus (now deadline : ℤ) : CvStatus := if deadline ≤ now then .timeout else .noTimeout

variable {T : Type}

def start : State T := ⟨0, none, fun _ => .idle, none⟩

def State.fire (s : State T) : State T := { s with fired := some (s.fired.getD s.now) }

/-- Some StateChange fired before this moment. -/
def State.FiredBefore (s : State T) (deadline : ℤ) : Prop := ∃ f, s.fired = some f ∧ f < deadline

section Steps
variable [DecidableEq T]

def State.goto (s : State T) (t : T) (pc : Pc) : State T :=
  { s with pc := Function.update s.pc t pc }

/-- notify_one wakes one of the threads that wait, if there are any. -/
inductive Step : State T → Event T → State T → Prop where
  | tick (s) : Step s .tick { s with now := s.now + 1 }
  | unheard (s) (hw : ∀ t deadline, s.pc t ≠ .waiting deadline) :
      Step s (.stateChange none) s.fire
  | notify (s t deadline) (hp : s.pc t = .waiting deadline) :
      Step s (.stateChange (some t)) (s.fire.goto t (.woken .notified deadline))
  | call (s t timeoutMs) (hp : s.pc t = .idle) :
      Step s (.call t timeoutMs) (s.goto t (.locking timeoutMs))
  | lock (s t timeoutMs) (hp : s.pc t = .locking timeoutMs) (hl : s.lock = none) :
      Step s (.lock t) { s.goto t (.locked timeoutMs) with lock := some t }
  | waitFor (s t timeoutMs) (hp : s.pc t = .locked timeoutMs) :
      Step s (.waitFor t) { s.goto t (.waiting (s.now + timeoutMs)) with lock := none }
  | timeout (s t deadline) (hp : s.pc t = .waiting deadline) (hd : deadline ≤ s.now) :
      Step s (.timeout t) (s.goto t (.woken .timedOut deadline))
  | spurious (s t deadline) (hp : s.pc t = .waiting deadline) :
      Step s (.spurious t) (s.goto t (.woken .spurious deadline))
  | relock (s t cause deadline) (hp : s.pc t = .woken cause deadline) (hl : s.lock = none) :
      Step s (.relock t) { s.goto t (.relocked cause deadline) with lock := some t }
  | returned (s t cause deadline) (hp : s.pc t = .relocked cause deadline) :
      Step s (.returned t (waitStatus s.now deadline != .timeout))
        { s.goto t .idle with lock := none }

end Steps

/-- A call returns true if and only if StateChange has fired before its timeout expired. -/
def ReturnsRight (s : State T) : Event T → Prop
  | .returned t result => ∀ cause deadline, s.pc t = .relocked cause deadline →
      (result = true ↔ s.FiredBefore deadline)
  | _ => True

/-- The schedules that do without a flag. A wait begins before any StateChange, but for one
that comes after its timeout; StateChange wakes whoever still waits in time; no wakeup before a
timeout is spurious; and the clock does not reach the timeout of a call that StateChange has
woken and that has not returned yet. -/
def Punctual (s : State T) : Event T → Prop
  | .waitFor t => ∀ timeoutMs, s.pc t = .locked timeoutMs → ¬ s.FiredBefore (s.now + timeoutMs)
  | .stateChange woken => ∀ t deadline, s.pc t = .waiting deadline → s.now < deadline →
      woken = some t
  | .spurious t => ∀ deadline, s.pc t = .waiting deadline → deadline ≤ s.now
  | .tick => ∀ t deadline, s.pc t = .woken .notified deadline ∨
      s.pc t = .relocked .notified deadline → s.now + 1 ≠ deadline
  | _ => True

def OnTime (s : State T) : Pc → Prop
  | .waiting deadline => ¬ s.FiredBefore deadline
  | .woken cause deadline | .relocked cause deadline =>
      (cause = .notified ∧ s.now < deadline ∧ s.FiredBefore deadline) ∨
        (deadline ≤ s.now ∧ ¬ s.FiredBefore deadline)
  | _ => True

/-- A call that is late, or will be unless something wakes it: StateChange fired before its
timeout. -/
def Doomed (s : State T) (t : T) (deadline : ℤ) : Prop :=
  s.FiredBefore deadline ∧ (s.pc t = .waiting deadline ∨
    deadline ≤ s.now ∧ ∃ cause, s.pc t = .woken cause deadline ∨ s.pc t = .relocked cause deadline)

def Witnessed (s : State T) : Pc → Prop
  | .woken .notified _ | .relocked .notified _ => s.fired ≠ none
  | _ => True

structure Invariant (s : State T) : Prop where
  past : ∀ f, s.fired = some f → f ≤ s.now
  witnessed : ∀ t, Witnessed s (s.pc t)

theorem start_invariant : Invariant (start : State T) where
  past f hf := by cases hf
  witnessed _ := trivial

theorem fire_past {s : State T} (h : ∀ f, s.fired = some f → f ≤ s.now) (f : ℤ)
    (hf : s.fire.fired = some f) : f ≤ s.now := by
  simp only [State.fire, Option.some.injEq] at hf
  subst hf
  cases hs : s.fired with
  | none => exact Int.le_refl _
  | some g => exact h g hs

theorem Witnessed.fire {s : State T} {pc : Pc} (h : Witnessed s pc) : Witnessed s.fire pc := by
  cases pc with
  | woken cause deadline =>
    cases cause with
    | notified => simp [Witnessed, State.fire]
    | _ => trivial
  | relocked cause deadline =>
    cases cause with
    | notified => simp [Witnessed, State.fire]
    | _ => trivial
  | _ => trivial

theorem fire_late {s : State T} {deadline : ℤ} (hd : deadline ≤ s.now) :
    s.fire.FiredBefore deadline ↔ s.FiredBefore deadline := by
  cases hs : s.fired with
  | none => simp [State.FiredBefore, State.fire, hs, hd]
  | some f => simp [State.FiredBefore, State.fire, hs]

theorem fire_inTime {s : State T} (h : ∀ f, s.fired = some f → f ≤ s.now) {deadline : ℤ}
    (hd : s.now < deadline) : s.fire.FiredBefore deadline := by
  refine ⟨s.fired.getD s.now, rfl, ?_⟩
  have hf := fire_past h _ rfl
  omega

theorem returned_true_iff (now deadline : ℤ) :
    (waitStatus now deadline != .timeout) = true ↔ now < deadline := by
  unfold waitStatus
  split
  · next hd => simp [hd]
  · next hd => simp [Int.not_le.mp hd]

theorem OnTime.tick {s : State T} {pc : Pc} (h : OnTime s pc)
    (hd : ∀ deadline, pc = .woken .notified deadline ∨ pc = .relocked .notified deadline →
      s.now + 1 ≠ deadline) : OnTime { s with now := s.now + 1 } pc := by
  cases pc with
  | waiting deadline => exact h
  | woken cause deadline =>
    rcases h with ⟨rfl, hlt, hf⟩ | ⟨hle, hf⟩
    · have hne := hd deadline (Or.inl rfl)
      exact Or.inl ⟨rfl, by change s.now + 1 < deadline; omega, hf⟩
    · exact Or.inr ⟨by change deadline ≤ s.now + 1; omega, hf⟩
  | relocked cause deadline =>
    rcases h with ⟨rfl, hlt, hf⟩ | ⟨hle, hf⟩
    · have hne := hd deadline (Or.inr rfl)
      exact Or.inl ⟨rfl, by change s.now + 1 < deadline; omega, hf⟩
    · exact Or.inr ⟨by change deadline ≤ s.now + 1; omega, hf⟩
  | _ => trivial

theorem OnTime.fire {s : State T} {pc : Pc} (hp : ∀ f, s.fired = some f → f ≤ s.now)
    (h : OnTime s pc) (hd : ∀ deadline, pc = .waiting deadline → deadline ≤ s.now) :
    OnTime s.fire pc := by
  cases pc with
  | waiting deadline => exact mt (fire_late (hd deadline rfl)).mp h
  | woken cause deadline =>
    rcases h with ⟨hc, hlt, -⟩ | ⟨hle, hf⟩
    · exact Or.inl ⟨hc, hlt, fire_inTime hp hlt⟩
    · exact Or.inr ⟨hle, mt (fire_late hle).mp hf⟩
  | relocked cause deadline =>
    rcases h with ⟨hc, hlt, -⟩ | ⟨hle, hf⟩
    · exact Or.inl ⟨hc, hlt, fire_inTime hp hlt⟩
    · exact Or.inr ⟨hle, mt (fire_late hle).mp hf⟩
  | _ => trivial

section Safety
variable [DecidableEq T]

theorem goto_places {P : Pc → Prop} {s : State T} {t : T} {pc : Pc}
    (h : ∀ v, v ≠ t → P (s.pc v)) (hpc : P pc) (v : T) : P ((s.goto t pc).pc v) := by
  by_cases hv : v = t
  · subst hv
    simpa [State.goto] using hpc
  · simpa [State.goto, hv] using h v hv

theorem step_preserves_invariant {s u : State T} {e : Event T} (h : Invariant s)
    (hstep : Step s e u) : Invariant u := by
  have hothers (t : T) (v : T) (_ : v ≠ t) : Witnessed s (s.pc v) := h.witnessed v
  have hfire (v : T) : Witnessed s.fire (s.pc v) := (h.witnessed v).fire
  cases hstep with
  | tick =>
    refine ⟨fun f hf => ?_, h.witnessed⟩
    have hpast := h.past f hf
    change f ≤ s.now + 1
    omega
  | unheard hw => exact ⟨fire_past h.past, hfire⟩
  | notify t deadline hp =>
    exact ⟨fire_past h.past, goto_places (P := Witnessed s.fire) (fun v _ => hfire v)
      (by simp [Witnessed, State.fire])⟩
  | relock t cause deadline hp hl =>
    have hwoken := h.witnessed t
    rw [hp] at hwoken
    exact ⟨h.past, goto_places (P := Witnessed s) (hothers t) (by cases cause <;> exact hwoken)⟩
  | call t timeoutMs hp => exact ⟨h.past, goto_places (P := Witnessed s) (hothers t) trivial⟩
  | lock t timeoutMs hp hl =>
    exact ⟨h.past, goto_places (P := Witnessed s) (hothers t) trivial⟩
  | waitFor t timeoutMs hp => exact ⟨h.past, goto_places (P := Witnessed s) (hothers t) trivial⟩
  | timeout t deadline hp hd =>
    exact ⟨h.past, goto_places (P := Witnessed s) (hothers t) trivial⟩
  | spurious t deadline hp =>
    exact ⟨h.past, goto_places (P := Witnessed s) (hothers t) trivial⟩
  | returned t cause deadline hp =>
    exact ⟨h.past, goto_places (P := Witnessed s) (hothers t) trivial⟩

theorem step_onTime {s u : State T} {e : Event T} (hi : Invariant s)
    (h : ∀ v, OnTime s (s.pc v)) (he : Punctual s e) (hstep : Step s e u) :
    ∀ v, OnTime u (u.pc v) := by
  have hothers (t : T) (v : T) (_ : v ≠ t) : OnTime s (s.pc v) := h v
  cases hstep with
  | tick => exact fun v => (h v).tick (he v)
  | unheard hw => exact fun v => (h v).fire hi.past fun d hd => absurd hd (hw v d)
  | notify t deadline hp =>
    apply goto_places (P := OnTime s.fire)
    · intro v hv
      refine (h v).fire hi.past fun d hd => ?_
      -- whoever else waits is past its timeout
      by_contra hlt
      exact hv (Option.some.inj (he v d hd (by omega))).symm
    · have hmissed := h t
      rw [hp] at hmissed
      rcases Int.lt_or_le s.now deadline with hlt | hle
      · exact Or.inl ⟨rfl, hlt, fire_inTime hi.past hlt⟩
      · exact Or.inr ⟨hle, mt (fire_late hle).mp hmissed⟩
  | call t timeoutMs hp => exact goto_places (P := OnTime s) (hothers t) trivial
  | lock t timeoutMs hp hl => exact goto_places (P := OnTime s) (hothers t) trivial
  | waitFor t timeoutMs hp => exact goto_places (P := OnTime s) (hothers t) (he timeoutMs hp)
  | timeout t deadline hp hd =>
    have hmissed := h t
    rw [hp] at hmissed
    exact goto_places (P := OnTime s) (hothers t) (Or.inr ⟨hd, hmissed⟩)
  | spurious t deadline hp =>
    have hmissed := h t
    rw [hp] at hmissed
    exact goto_places (P := OnTime s) (hothers t) (Or.inr ⟨he deadline hp, hmissed⟩)
  | relock t cause deadline hp hl =>
    have hwoken := h t
    rw [hp] at hwoken
    exact goto_places (P := OnTime s) (hothers t) hwoken
  | returned t cause deadline hp => exact goto_places (P := OnTime s) (hothers t) trivial

theorem onTime_returnsRight {s u : State T} {e : Event T} (h : ∀ v, OnTime s (s.pc v))
    (hstep : Step s e u) : ReturnsRight s e := by
  cases hstep with
  | returned t cause deadline hp =>
    have hwoken := h t
    intro c d hp'
    obtain ⟨rfl, rfl⟩ := Pc.relocked.inj (hp.symm.trans hp')
    rw [hp] at hwoken
    rw [returned_true_iff]
    rcases hwoken with ⟨-, hlt, hf⟩ | ⟨hle, hf⟩
    · exact iff_of_true hlt hf
    · exact iff_of_false (by omega) hf
  | _ => trivial

/-- On a punctual schedule every call returns what it should. -/
theorem calls_return_right {es : List (Event T)} {s : State T}
    (h : Run (Guarded Punctual Step) start es s) : Run (Guarded ReturnsRight Step) start es s := by
  refine h.guarded_imp (fun s => Invariant s ∧ ∀ v, OnTime s (s.pc v)) ?_ ?_
    ⟨start_invariant, fun _ => trivial⟩
  · intro v e u hi he hstep
    exact ⟨step_preserves_invariant hi.1 hstep, step_onTime hi.1 hi.2 he hstep⟩
  · intro v e u hi _ hstep
    exact onTime_returnsRight hi.2 hstep

/-- A call waits for two milliseconds and StateChange fires after one. -/
theorem calls_return_right_in_time : ∃ (es : List (Event ℕ)) (s : State ℕ),
    .returned 1 true ∈ es ∧ Run (Guarded ReturnsRight Step) start es s := by
  have h₁ := (.refl _ : Run (Guarded Punctual Step) (start : State ℕ) [] start).tail_guarded
    (.call _ 1 2 rfl) trivial
  have h₂ := h₁.tail_guarded (.lock _ 1 2 rfl rfl) trivial
  have h₃ := h₂.tail_guarded (.waitFor _ 1 2 rfl) (by rintro timeoutMs - ⟨f, hf, -⟩; cases hf)
  have h₄ := h₃.tail_guarded (.tick _) (by
    rintro t deadline hw
    rcases eq_or_ne t 1 with rfl | ht
    · simp [State.goto] at hw
    · simp [State.goto, ht, start] at hw)
  have h₅ := h₄.tail_guarded (.notify _ 1 2 rfl) (by
    rintro t deadline hw -
    rcases eq_or_ne t 1 with rfl | ht
    · rfl
    · simp [State.goto, ht, start] at hw)
  have h₆ := h₅.tail_guarded (.relock _ 1 .notified 2 rfl rfl) trivial
  have h₇ := h₆.tail_guarded (.returned _ 1 .notified 2 rfl) trivial
  exact ⟨_, _, by simp [waitStatus, State.goto, State.fire, start], calls_return_right h₇⟩

/-- A step that is not punctual, a spurious wakeup apart, dooms a call. -/
theorem unpunctual_dooms {s u : State T} {e : Event T} (h : Invariant s) (hstep : Step s e u)
    (he : ¬ Punctual s e) : (∃ t, e = .spurious t) ∨ ∃ t deadline, Doomed u t deadline := by
  cases hstep with
  | waitFor t timeoutMs hp =>
    refine Or.inr ⟨t, s.now + timeoutMs, ?_, Or.inl (by simp [State.goto])⟩
    by_contra hf
    refine he fun timeoutMs' hp' => ?_
    obtain rfl := Pc.locked.inj (hp.symm.trans hp')
    exact hf
  | unheard hw =>
    refine absurd ?_ he
    intro t deadline hp
    exact absurd hp (hw t deadline)
  | notify t deadline hp =>
    simp only [Punctual, not_forall] at he
    obtain ⟨v, d, hv, hlt, hne⟩ := he
    have hvt : v ≠ t := fun hvt => hne (congrArg some hvt.symm)
    exact Or.inr ⟨v, d, fire_inTime h.past hlt, Or.inl (by
      simpa [State.goto, State.fire, hvt] using hv)⟩
  | tick =>
    simp only [Punctual, not_forall, not_not] at he
    obtain ⟨t, deadline, hp, hd⟩ := he
    have hfired : s.fired ≠ none := by
      have hw := h.witnessed t
      rcases hp with hp | hp <;> rw [hp] at hw <;> exact hw
    obtain ⟨f, hf⟩ := Option.ne_none_iff_exists'.mp hfired
    have hpast := h.past f hf
    exact Or.inr ⟨t, deadline, ⟨f, hf, by omega⟩, Or.inr ⟨Int.le_of_eq hd.symm, .notified, hp⟩⟩
  | spurious t deadline hp => exact Or.inl ⟨t, rfl⟩
  | _ => exact absurd trivial he

/-- What wakes a thread before its timeout has expired. -/
def Wakes (t : T) : Event T → Prop
  | .stateChange (some u) | .spurious u => u = t
  | _ => False

omit [DecidableEq T] in
theorem Doomed.frame {s u : State T} {t : T} {deadline : ℤ} (h : Doomed s t deadline)
    (hnow : s.now ≤ u.now) (hf : u.FiredBefore deadline) (hpc : u.pc t = s.pc t) :
    Doomed u t deadline := by
  refine ⟨hf, ?_⟩
  rw [hpc]
  exact h.2.imp_right fun hlate => ⟨Int.le_trans hlate.1 hnow, hlate.2⟩

omit [DecidableEq T] in
theorem Doomed.inWait {s : State T} {t : T} {deadline : ℤ} (h : Doomed s t deadline) :
    s.pc t ≠ .idle ∧ ∀ timeoutMs, s.pc t ≠ .locking timeoutMs ∧ s.pc t ≠ .locked timeoutMs := by
  rcases h.2 with hp | ⟨-, cause, hp | hp⟩ <;> rw [hp] <;> simp

theorem doomed_step {s u : State T} {e : Event T} {t : T} {deadline : ℤ}
    (h : Doomed s t deadline) (hw : ¬ Wakes t e) (hr : ∀ result, e ≠ .returned t result)
    (hstep : Step s e u) : Doomed u t deadline := by
  have hother {v : T} (pc : Pc) (hv : t ≠ v) : (s.goto v pc).pc t = s.pc t := by
    simp [State.goto, hv]
  have hfire : s.fire.FiredBefore deadline := by
    obtain ⟨⟨f, hs, hd⟩, -⟩ := h
    exact ⟨f, by simp [State.fire, hs], hd⟩
  obtain ⟨hidle, hcalling⟩ := h.inWait
  cases hstep with
  | tick => exact h.frame (Int.le_add_one (Int.le_refl _)) h.1 rfl
  | unheard hq => exact h.frame (Int.le_refl _) hfire rfl
  | notify v d hv =>
    have hvt : t ≠ v := fun hvt => hw hvt.symm
    exact h.frame (Int.le_refl _) hfire (hother _ hvt)
  | spurious v d hv =>
    have hvt : t ≠ v := fun hvt => hw hvt.symm
    exact h.frame (Int.le_refl _) h.1 (hother _ hvt)
  | returned v cause d hv =>
    have hvt : t ≠ v := by
      rintro rfl
      exact hr _ rfl
    exact h.frame (Int.le_refl _) h.1 (hother _ hvt)
  | call v timeoutMs hv =>
    have hvt : t ≠ v := by
      rintro rfl
      exact hidle hv
    exact h.frame (Int.le_refl _) h.1 (hother _ hvt)
  | lock v timeoutMs hv hl =>
    have hvt : t ≠ v := by
      rintro rfl
      exact (hcalling _).1 hv
    exact h.frame (Int.le_refl _) h.1 (hother _ hvt)
  | waitFor v timeoutMs hv =>
    have hvt : t ≠ v := by
      rintro rfl
      exact (hcalling _).2 hv
    exact h.frame (Int.le_refl _) h.1 (hother _ hvt)
  | timeout v d hv hd =>
    rcases eq_or_ne t v with rfl | hvt
    · rcases h.2 with hp | ⟨-, cause, hp | hp⟩ <;> rw [hv] at hp <;> cases hp
      exact ⟨h.1, Or.inr ⟨hd, .timedOut, Or.inl (by simp [State.goto])⟩⟩
    · exact h.frame (Int.le_refl _) h.1 (hother _ hvt)
  | relock v cause d hv hl =>
    rcases eq_or_ne t v with rfl | hvt
    · rcases h.2 with hp | ⟨hd, c, hp | hp⟩ <;> rw [hv] at hp <;> cases hp
      exact ⟨h.1, Or.inr ⟨hd, cause, Or.inr (by simp [State.goto])⟩⟩
    · exact h.frame (Int.le_refl _) h.1 (hother _ hvt)

/-- A doomed call that nothing wakes any more returns false, and wrongly. -/
theorem doomed_returns_wrong {s u v : State T} {es : List (Event T)} {t : T} {deadline : ℤ}
    {result : Bool} (h : Doomed s t deadline) (hrun : Run Step s es u)
    (hw : ∀ e ∈ es, ¬ Wakes t e ∧ ∀ r, e ≠ .returned t r)
    (hstep : Step u (.returned t result) v) :
    result = false ∧ ¬ ReturnsRight u (.returned t result) := by
  have hdoomed : Doomed u t deadline := by
    refine hrun.persists (fun _ => True) (Doomed · t deadline)
      (fun e => Wakes t e ∨ ∃ r, e = .returned t r) (fun _ _ _ _ _ => trivial) ?_ trivial h ?_
    · intro s e u _ hd he hv
      exact doomed_step hd (fun hwake => he (Or.inl hwake)) (fun r hr => he (Or.inr ⟨r, hr⟩)) hv
    · rintro e he (hwake | ⟨r, hr⟩)
      · exact (hw e he).1 hwake
      · exact (hw e he).2 r hr
  cases hstep with
  | returned t cause d hp =>
    obtain ⟨hf, hwaits | ⟨hd, c, hwoken | hrelocked⟩⟩ := hdoomed
    · rw [hp] at hwaits
      cases hwaits
    · rw [hp] at hwoken
      cases hwoken
    · obtain ⟨rfl, rfl⟩ := Pc.relocked.inj (hp.symm.trans hrelocked)
      have hfalse : ¬ (waitStatus u.now d != .timeout) = true := by
        rw [returned_true_iff]
        omega
      exact ⟨eq_false_of_ne_true hfalse, fun hright => hfalse ((hright cause d hp).mpr hf)⟩

end Safety

/-- StateChange fires while nobody waits yet; the call that comes after it times out. -/
theorem early_stateChange_missed :
    ¬ ∀ (es : List (Event ℕ)) (s u : State ℕ) (e : Event ℕ), Run Step start es s →
      Step s e u → ReturnsRight s e := by
  intro hclaim
  have h₁ := Run.single (Step.unheard (start : State ℕ) (by simp [start]))
  have h₂ := h₁.tail (.call _ 1 1 rfl)
  have h₃ := h₂.tail (.lock _ 1 1 rfl rfl)
  have h₄ := h₃.tail (.waitFor _ 1 1 rfl)
  have h₅ := h₄.tail (.tick _)
  have h₆ := h₅.tail (.timeout _ 1 1 rfl (by decide))
  have h₇ := h₆.tail (.relock _ 1 .timedOut 1 rfl rfl)
  have hright := hclaim _ _ _ _ h₇ (.returned _ 1 .timedOut 1 rfl) .timedOut 1 rfl
  exact absurd (hright.mpr ⟨0, rfl, by decide⟩) (by decide)

end LinkEstablishment
