import SampleThunderPlugin.RunSimulation
import SampleThunderPlugin.LifecycleHoldings

/-! Initialize and Deinitialize return. A statement of PluginLifecycle is only taken through
pointers that are not null, so a null one would leave its call stuck; the destructor of the
private server waits for the Acquires that run in it, and these do not wait for the call. -/
namespace LifecycleProgress

open LabelledRuns PluginLifecycle LifecycleHoldings
open SamplePlugin (Host)

variable {S I N : Type}

/-- The steps of the call that is under way and of the Acquires that already run. -/
def UnderWay : Event S I N → Prop
  | .initializing _ | .initializeReturned _ | .deinitializing _ | .deinitializeReturned
  | .acquired _ _ => True
  | _ => False

/-- The statements Initialize has left, its return included, on the longest way from here. -/
def initializeLeft : InitializeAt → ℕ
  | .setService => 17
  | .registerSink => 16
  | .root => 15
  | .configure => 14
  | .registerNotification => 13
  | .registerJson => 12
  | .readConfig => 11
  | .createEngine => 10
  | .constructServer => 9
  | .openServer _ => 8
  | .announce _ => 7
  | .assignServer _ => 6
  | .isListening => 5
  | .deleteServer => 4
  | .clearServer => 3
  | .releaseEngine => 2
  | .unregisterSink => 3
  | .clearService => 2
  | .done _ => 1

def deinitializeLeft : DeinitializeAt → ℕ
  | .testServer => 12
  | .deleteServer => 11
  | .clearServer => 10
  | .releaseEngine => 9
  | .testSamplePlugin => 8
  | .unregisterSink => 7
  | .unregisterNotification => 6
  | .releaseSamplePlugin => 5
  | .clearConnectionId => 4
  | .clearService => 3
  | .clearSamplePlugin => 2
  | .done => 1

def statementsLeft : Pc S I → ℕ
  | .idle => 0
  | .initializing _ _ stmt => initializeLeft stmt
  | .deinitializing _ stmt => deinitializeLeft stmt

def remaining (s : State S I N) : ℕ := statementsLeft s.pc + s.acquiring.length

def Settled (s : State S I N) : Prop := s.pc = .idle ∧ s.acquiring = []

variable [DecidableEq S] [DecidableEq I] [DecidableEq N]
variable {fromString : SamplePluginConfiguration → String → SamplePluginConfiguration}
variable {grants : Reference S I → Bool}

theorem initializeStep_left {service : S} {a : Answers I} {stmt next : InitializeAt}
    {h h' : Host S I N} (hstep : InitializeStep fromString service a stmt h next h') :
    initializeLeft next < initializeLeft stmt := by
  cases hstep <;> simp [initializeLeft]

theorem deinitializeStep_left {stmt next : DeinitializeAt} {h h' : Host S I N}
    (hstep : DeinitializeStep stmt h next h') :
    deinitializeLeft next < deinitializeLeft stmt := by
  cases hstep <;> simp [deinitializeLeft]

theorem step_remaining {s u : State S I N} {e : Event S I N}
    (h : Step fromString grants s e u) (he : UnderWay e) : remaining u < remaining s := by
  cases h with
  | initializing service a stmt next host hp hst hq =>
    have hlt := initializeStep_left hst
    simp only [remaining, hp, statementsLeft]
    omega
  | initializeReturned service a success hp =>
    simp [remaining, hp, statementsLeft, initializeLeft]
  | deinitializing service stmt next host hp hst hq =>
    have hlt := deinitializeStep_left hst
    simp only [remaining, hp, statementsLeft]
    omega
  | deinitializeReturned service hp =>
    simp [remaining, hp, statementsLeft, deinitializeLeft]
  | acquired r v hv hr =>
    have hpos := List.length_pos_of_mem hr
    simp only [remaining, List.length_erase_of_mem hr]
    omega
  | _ => exact he.elim

theorem initialize_enabled {service : S} {a : Answers I} {stmt : InitializeAt}
    {h : Host S I N} {e : Holdings S I} (hs : Stands h e)
    (ha : InitializeAllows service a.root e stmt) (hd : ∀ success, stmt ≠ .done success) :
    ∃ next h', InitializeStep fromString service a stmt h next h' := by
  cases stmt with
  | setService => exact ⟨_, _, .setService h⟩
  | registerSink =>
    subst ha
    exact ⟨_, _, .registerSink h service hs.service⟩
  | root =>
    cases hr : a.root with
    | none => exact ⟨_, _, .rootNull h hr⟩
    | some i => exact ⟨_, _, .rootFound h i hr⟩
  | configure =>
    obtain ⟨i, -, rfl⟩ := ha
    exact ⟨_, _, .configure h i hs.samplePlugin⟩
  | registerNotification =>
    obtain ⟨i, -, rfl⟩ := ha
    exact ⟨_, _, .registerNotification h i hs.samplePlugin⟩
  | registerJson =>
    obtain ⟨i, -, rfl⟩ := ha
    exact ⟨_, _, .registerJson h i hs.samplePlugin⟩
  | readConfig =>
    cases hc : (fromString .default a.configLine).privateComRpcServer with
    | true => exact ⟨_, _, .privateServer h hc⟩
    | false => exact ⟨_, _, .noServer h hc⟩
  | createEngine => exact ⟨_, _, .createEngine h⟩
  | constructServer =>
    obtain ⟨i, -, rfl⟩ := ha
    exact ⟨_, _, .constructServer h i hs.samplePlugin⟩
  | openServer k => exact ⟨_, _, .openServer h k⟩
  | announce k => exact ⟨_, _, .announce h k⟩
  | assignServer k => exact ⟨_, _, .assignServer h k⟩
  | isListening =>
    obtain ⟨i, k, -, rfl⟩ := ha
    obtain ⟨v, hv⟩ := (hs.servers k).mpr rfl
    have hserver : h.server = some v := by
      simp only [Host.server, show h.plugin.rpcServer = some k from hs.rpcServer,
        Option.bind_some, hv]
    cases hl : v.isListening with
    | true => exact ⟨_, _, .listening h v hserver hl⟩
    | false => exact ⟨_, _, .notListening h v hserver hl⟩
  | deleteServer => exact ⟨_, _, .deleteServer h⟩
  | clearServer => exact ⟨_, _, .clearServer h⟩
  | releaseEngine => exact ⟨_, _, .releaseEngine h⟩
  | unregisterSink =>
    subst ha
    exact ⟨_, _, .unregisterSink h service hs.service⟩
  | clearService => exact ⟨_, _, .clearService h⟩
  | done success => exact absurd rfl (hd success)

theorem deinitialize_enabled {service : S} {i : I} {stmt : DeinitializeAt} {h : Host S I N}
    {e : Holdings S I} (hs : Stands h e) (ha : DeinitializeAllows service i e stmt)
    (hd : stmt ≠ .done) : ∃ next h', DeinitializeStep stmt h next h' := by
  cases stmt with
  | testServer =>
    cases hk : h.plugin.rpcServer with
    | none => exact ⟨_, _, .noServer h hk⟩
    | some k => exact ⟨_, _, .serverStarted h k hk⟩
  | deleteServer => exact ⟨_, _, .deleteServer h⟩
  | clearServer => exact ⟨_, _, .clearServer h⟩
  | releaseEngine => exact ⟨_, _, .releaseEngine h⟩
  | testSamplePlugin =>
    subst ha
    exact ⟨_, _, .samplePlugin h i hs.samplePlugin⟩
  | unregisterSink =>
    subst ha
    exact ⟨_, _, .unregisterSink h service hs.service⟩
  | unregisterNotification =>
    subst ha
    exact ⟨_, _, .unregisterNotification h i hs.samplePlugin⟩
  | releaseSamplePlugin =>
    subst ha
    exact ⟨_, _, .releaseSamplePlugin h i hs.samplePlugin⟩
  | clearConnectionId => exact ⟨_, _, .clearConnectionId h⟩
  | clearService => exact ⟨_, _, .clearService h⟩
  | clearSamplePlugin => exact ⟨_, _, .clearSamplePlugin h⟩
  | done => exact absurd rfl hd

theorem acquire_returns {s : State S I N} (hi : AcquiringInServers s) {r : Acquisition}
    (hr : r ∈ s.acquiring) : ∃ e u, Step fromString grants s e u ∧ UnderWay e := by
  obtain ⟨v, hv⟩ := hi r hr
  exact ⟨_, _, .acquired s r v hv hr, trivial⟩

theorem step_exists {s : State S I N} (hi : Invariant s) (ha : AcquiringInServers s)
    (hs : ¬ Settled s) : ∃ e u, Step fromString grants s e u ∧ UnderWay e := by
  by_cases hn : s.acquiring = []
  · have hq (k : Prop) : k → s.Quiet := by
      intro _ r hr
      rw [hn] at hr
      exact absurd hr List.not_mem_nil
    obtain ⟨e, hst, hallows⟩ := hi
    cases hp : s.pc with
    | idle => exact absurd ⟨hp, hn⟩ hs
    | initializing service a stmt =>
      rw [hp] at hallows
      by_cases hd : ∃ success, stmt = .done success
      · obtain ⟨success, rfl⟩ := hd
        exact ⟨_, _, .initializeReturned s service a success hp, trivial⟩
      · push Not at hd
        obtain ⟨next, h', hstep⟩ := initialize_enabled hst hallows.2 hd
        exact ⟨_, _, .initializing s service a stmt next h' hp hstep (hq _), trivial⟩
    | deinitializing service stmt =>
      rw [hp] at hallows
      obtain ⟨a, i, -, -, hallows⟩ := hallows
      by_cases hd : stmt = .done
      · subst hd
        exact ⟨_, _, .deinitializeReturned s service hp, trivial⟩
      · obtain ⟨next, h', hstep⟩ := deinitialize_enabled hst hallows hd
        exact ⟨_, _, .deinitializing s service stmt next h' hp hstep (hq _), trivial⟩
  · obtain ⟨r, hr⟩ := List.exists_mem_of_ne_nil _ hn
    exact acquire_returns ha hr

/-- Whatever happened before, the Initialize or Deinitialize that is under way never meets a
null pointer and returns: with the Acquires that run beside it, every schedule is over within
`remaining s` steps, and none is stuck before the call and the Acquires have returned. -/
theorem lifecycle_calls_return {es : List (Event S I N)} {s : State S I N}
    (h : Run (Step fromString grants) start es s) :
    Settles (Guarded (fun _ e => UnderWay e) (Step fromString grants)) s (remaining s)
      Settled := by
  apply settles_of_measure (fun s => Invariant s ∧ AcquiringInServers s) remaining
  · exact fun _ _ _ hi hstep =>
      ⟨step_preserves_invariant hi.1 hstep.2, step_acquiring hi.2 hstep.2⟩
  · exact fun _ _ _ _ hstep => step_remaining hstep.2 hstep.1
  · intro u hi hs
    obtain ⟨e, v, hv, he⟩ := step_exists hi.1 hi.2 hs
    exact ⟨e, v, he, hv⟩
  · refine ⟨run_invariant h LifecycleHoldings.start_invariant, ?_⟩
    exact h.invariant (fun _ _ _ ha hstep => step_acquiring ha hstep)
      fun r hr => absurd hr List.not_mem_nil

/-- A Deinitialize is entered while an Acquire runs in the private server: twelve statements
and the Acquire are left. -/
theorem lifecycle_calls_return_beside_acquire :
    ∃ (es : List (Event ℕ ℕ ℕ)) (s : State ℕ ℕ ℕ),
      Run (Step (fun _ _ => ⟨⟨false, false, []⟩, true⟩) fun _ => true) start es s ∧
      s.pc = .deinitializing 0 .testServer ∧
      Settles (Guarded (fun _ e => UnderWay e)
        (Step (fun _ _ => ⟨⟨false, false, []⟩, true⟩) fun _ => true)) s 13 Settled := by
  obtain ⟨es, -, hr⟩ := (UndisturbedCalls.initialize_reaches
    (fun _ _ => ⟨⟨false, false, []⟩, true⟩) (fun _ => true) (start : State ℕ ℕ ℕ) 0
    ⟨some 7, some 5, "", true⟩ rfl ⟨rfl, rfl⟩ rfl).leave rfl
  have ha := hr.tail (.acquire _ ⟨1, .samplePlugin, 1⟩ ⟨some 7, some 0, true⟩ rfl)
  have hd := ha.tail (.deinitializeCalled _ 0 rfl ⟨rfl, by decide⟩)
  exact ⟨_, _, hd, rfl, lifecycle_calls_return hd⟩

end LifecycleProgress
