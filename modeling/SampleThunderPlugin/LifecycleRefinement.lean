import SampleThunderPlugin.RunSimulation
import SampleThunderPlugin.LifecycleHoldings

/-! The interleaved lifecycle against whole calls. The statements of an Initialize or a
Deinitialize with clients, lost connections and Acquires between any two of them leave the
plugin with what the functions initializePlugin and deinitializePlugin compute at once, up
to what clients did to the implementations in the meantime. -/
namespace LifecycleRefinement

open LabelledRuns PluginLifecycle
open SamplePlugin (Host MayInitialize MayDeinitialize initializePlugin deinitializePlugin
  newComRpcServer)
open LifecycleHoldings (Holdings Stands)

inductive Call (S I : Type) where
  | initialized (service : S) (a : Answers I) (success : String)
  | deinitialized (service : S)
  deriving DecidableEq

variable {S I N : Type}

def returns (s : State S I N) : Event S I N → List (Call S I)
  | .initializeReturned success =>
    match s.pc with
    | .initializing service a _ => [.initialized service a success]
    | _ => []
  | .deinitializeReturned =>
    match s.pc with
    | .deinitializing service _ => [.deinitialized service]
    | _ => []
  | _ => []

section Matching
variable [DecidableEq S] [DecidableEq I] [DecidableEq N]

/-- The same host but for the implementations, and those agree on the plugin's own sink. -/
structure Matches (k h : Host S I N) : Prop where
  rest : h = { k with implementations := h.implementations }
  left : ∀ i, (k.implementations i).Invariant
  right : ∀ i, (h.implementations i).Invariant
  sink : ∀ i, Callback.notification ∈ (k.implementations i).callbacks ↔
    Callback.notification ∈ (h.implementations i).callbacks

section Operations
omit [DecidableEq S]
variable {k h : Host S I N} (m : Matches k h)
include m

omit [DecidableEq I] in
theorem Matches.plugin : h.plugin = k.plugin := by rw [m.rest]

omit [DecidableEq I] in
theorem Matches.created : h.created = k.created := by rw [m.rest]

omit [DecidableEq I] in
theorem Matches.server : h.server = k.server := by rw [m.rest]; rfl

omit [DecidableEq I] in
theorem Matches.apart (f : Host S I N → Host S I N)
    (hf : ∀ h g, f { h with implementations := g } = { f h with implementations := g }) :
    Matches (f k) (f h) := by
  have hsame (h : Host S I N) : (f h).implementations = h.implementations := by
    have hg := hf h h.implementations
    exact congrArg (fun u => u.implementations) hg
  refine ⟨?_, ?_, ?_, ?_⟩
  · rw [hsame h, ← hf k, ← m.rest]
  · rw [hsame k]
    exact m.left
  · rw [hsame h]
    exact m.right
  · rw [hsame k, hsame h]
    exact m.sink

theorem Matches.modify {i : I} {p q : SamplePluginImplementation (Callback N)} (hp : p.Invariant)
    (hq : q.Invariant) (hn : Callback.notification ∈ p.callbacks ↔ .notification ∈ q.callbacks) :
    Matches (k.modify i p) (h.modify i q) where
  rest := by
    unfold Host.modify
    rw [m.rest]
  left j := by
    rcases eq_or_ne j i with rfl | hj
    · simpa [Host.modify] using hp
    · simpa [Host.modify, hj] using m.left j
  right j := by
    rcases eq_or_ne j i with rfl | hj
    · simpa [Host.modify] using hq
    · simpa [Host.modify, hj] using m.right j
  sink j := by
    rcases eq_or_ne j i with rfl | hj
    · simpa [Host.modify] using hn
    · simpa [Host.modify, hj] using m.sink j

theorem Matches.interfered {i : I} {q : SamplePluginImplementation (Callback N)}
    (hq : q.Invariant) (hn : Callback.notification ∈ q.callbacks ↔
      Callback.notification ∈ (h.implementations i).callbacks) : Matches k (h.modify i q) := by
  have hs := m.modify (i := i) (m.left i) hq ((m.sink i).trans hn.symm)
  have hk : k.modify i (k.implementations i) = k := by simp [Host.modify]
  rwa [hk] at hs

theorem Matches.configure
    (fromString : SamplePluginConfiguration → String → SamplePluginConfiguration) (i : I)
    (line : String) : Matches (k.configure fromString i line) (h.configure fromString i line) := by
  apply m.modify
  · exact ⟨by simpa using (m.left i).nodup, by simpa using (m.left i).refs⟩
  · exact ⟨by simpa using (m.right i).nodup, by simpa using (m.right i).refs⟩
  · simpa using m.sink i

theorem Matches.registerNotification (i : I) :
    Matches (k.registerNotification i) (h.registerNotification i) := by
  apply m.modify
  · exact SamplePluginImplementation.register_invariant (m.left i) _
  · exact SamplePluginImplementation.register_invariant (m.right i) _
  · simp only [SamplePluginImplementation.mem_register, true_or]

theorem Matches.unregisterNotification (i : I) :
    Matches (k.unregisterNotification i) (h.unregisterNotification i) := by
  apply m.modify
  · exact SamplePluginImplementation.unregister_invariant (m.left i) _
  · exact SamplePluginImplementation.unregister_invariant (m.right i) _
  · simp only [SamplePluginImplementation.mem_unregister (m.left i).nodup,
      SamplePluginImplementation.mem_unregister (m.right i).nodup, ne_eq, not_true_eq_false,
      false_and]

end Operations

variable {fromString : SamplePluginConfiguration → String → SamplePluginConfiguration}

theorem matches_initializeStep {service : S} {a : Answers I} {stmt next : InitializeAt}
    {k h h' : Host S I N} (m : Matches k h)
    (hstep : InitializeStep fromString service a stmt h next h') :
    ∃ k', InitializeStep fromString service a stmt k next k' ∧ Matches k' h' := by
  have hp := m.plugin
  cases hstep with
  | setService => exact ⟨_, .setService k, m.apart (·.setService (some service)) fun _ _ => rfl⟩
  | registerSink _ sv hs =>
    exact ⟨_, .registerSink k sv (hp ▸ hs), m.apart (·.registerSink sv) fun _ _ => rfl⟩
  | rootFound _ i hr => exact ⟨_, .rootFound k i hr, m.apart (·.root a) fun _ _ => rfl⟩
  | rootNull _ hr => exact ⟨_, .rootNull k hr, m.apart (·.root a) fun _ _ => rfl⟩
  | configure _ i hi => exact ⟨_, .configure k i (hp ▸ hi), m.configure fromString i _⟩
  | registerNotification _ i hi =>
    exact ⟨_, .registerNotification k i (hp ▸ hi), m.registerNotification i⟩
  | registerJson _ i hi =>
    exact ⟨_, .registerJson k i (hp ▸ hi), m.apart (·.registerJson i) fun _ _ => rfl⟩
  | privateServer _ hc => exact ⟨k, .privateServer k hc, m⟩
  | noServer _ hc => exact ⟨k, .noServer k hc, m⟩
  | createEngine => exact ⟨_, .createEngine k, m.apart (·.createEngine) fun _ _ => rfl⟩
  | constructServer _ i hi =>
    rw [m.created]
    exact ⟨_, .constructServer k i (hp ▸ hi), m.apart (·.constructServer i service) fun _ _ => rfl⟩
  | openServer _ l => exact ⟨_, .openServer k l, m.apart (·.openServer l a.listens) fun _ _ => rfl⟩
  | announce _ l =>
    refine ⟨_, .announce k l, m.apart (·.announce l) fun h g => ?_⟩
    simp only [Host.announce]
    split <;> rfl
  | assignServer _ l =>
    exact ⟨_, .assignServer k l, m.apart (·.assignServer (some l)) fun _ _ => rfl⟩
  | listening _ v hv hl => exact ⟨k, .listening k v (m.server ▸ hv) hl, m⟩
  | notListening _ v hv hl => exact ⟨k, .notListening k v (m.server ▸ hv) hl, m⟩
  | deleteServer =>
    refine ⟨_, .deleteServer k, m.apart (·.deleteServer) fun h g => ?_⟩
    simp only [Host.deleteServer]
    split <;> rfl
  | clearServer => exact ⟨_, .clearServer k, m.apart (·.assignServer none) fun _ _ => rfl⟩
  | releaseEngine => exact ⟨_, .releaseEngine k, m.apart (·.releaseEngine) fun _ _ => rfl⟩
  | unregisterSink _ sv hs =>
    exact ⟨_, .unregisterSink k sv (hp ▸ hs), m.apart (·.unregisterSink sv) fun _ _ => rfl⟩
  | clearService => exact ⟨_, .clearService k, m.apart (·.setService none) fun _ _ => rfl⟩

theorem matches_deinitializeStep {stmt next : DeinitializeAt} {k h h' : Host S I N}
    (m : Matches k h) (hstep : DeinitializeStep stmt h next h') :
    ∃ k', DeinitializeStep stmt k next k' ∧ Matches k' h' := by
  have hp := m.plugin
  cases hstep with
  | serverStarted _ l hl => exact ⟨k, .serverStarted k l (hp ▸ hl), m⟩
  | noServer _ hl => exact ⟨k, .noServer k (hp ▸ hl), m⟩
  | deleteServer =>
    refine ⟨_, .deleteServer k, m.apart (·.deleteServer) fun h g => ?_⟩
    simp only [Host.deleteServer]
    split <;> rfl
  | clearServer => exact ⟨_, .clearServer k, m.apart (·.assignServer none) fun _ _ => rfl⟩
  | releaseEngine => exact ⟨_, .releaseEngine k, m.apart (·.releaseEngine) fun _ _ => rfl⟩
  | samplePlugin _ i hi => exact ⟨k, .samplePlugin k i (hp ▸ hi), m⟩
  | noSamplePlugin _ hi => exact ⟨k, .noSamplePlugin k (hp ▸ hi), m⟩
  | unregisterSink _ sv hs =>
    exact ⟨_, .unregisterSink k sv (hp ▸ hs), m.apart (·.unregisterSink sv) fun _ _ => rfl⟩
  | unregisterNotification _ i hi =>
    exact ⟨_, .unregisterNotification k i (hp ▸ hi), m.unregisterNotification i⟩
  | releaseSamplePlugin _ i hi =>
    exact ⟨_, .releaseSamplePlugin k i (hp ▸ hi), m.apart (·.release i) fun _ _ => rfl⟩
  | clearConnectionId => exact ⟨_, .clearConnectionId k,
    m.apart (fun h => { h with plugin.connectionId := 0 }) fun _ _ => rfl⟩
  | clearService => exact ⟨_, .clearService k, m.apart (·.setService none) fun _ _ => rfl⟩
  | clearSamplePlugin => exact ⟨_, .clearSamplePlugin k,
    m.apart (fun h => { h with plugin.samplePlugin := none }) fun _ _ => rfl⟩

def rooted (service : S) (a : Answers I) (h : Host S I N) : Host S I N :=
  ((h.setService (some service)).registerSink service).root a

variable (fromString : SamplePluginConfiguration → String → SamplePluginConfiguration)

def hookedUp (service : S) (a : Answers I) (h : Host S I N) (i : I) : Host S I N :=
  (((rooted service a h).configure fromString i a.configLine).registerNotification i).registerJson i

def served (service : S) (a : Answers I) (h : Host S I N) (i : I) : Host S I N :=
  newComRpcServer (hookedUp fromString service a h i).createEngine i service a.listens

/-- Where an Initialize that nothing interrupts stands before each statement, from the host h
it was entered with. -/
def InitializeReaches (service : S) (a : Answers I) (h : Host S I N) (k : Host S I N) :
    InitializeAt → Prop
  | .setService => k = h
  | .registerSink => k = h.setService (some service)
  | .root => k = (h.setService (some service)).registerSink service
  | .configure => ∃ i, a.root = some i ∧ k = rooted service a h
  | .registerNotification => ∃ i, a.root = some i ∧
      k = (rooted service a h).configure fromString i a.configLine
  | .registerJson => ∃ i, a.root = some i ∧
      k = ((rooted service a h).configure fromString i a.configLine).registerNotification i
  | .readConfig => ∃ i, a.root = some i ∧ k = hookedUp fromString service a h i
  | .createEngine => ∃ i, a.root = some i ∧ Wanted ∧ k = hookedUp fromString service a h i
  | .constructServer => ∃ i, a.root = some i ∧ Wanted ∧
      k = (hookedUp fromString service a h i).createEngine
  | .openServer n => ∃ i, a.root = some i ∧ Wanted ∧ n = h.created + 1 ∧
      k = (hookedUp fromString service a h i).createEngine.constructServer i service
  | .announce n => ∃ i, a.root = some i ∧ Wanted ∧ n = h.created + 1 ∧
      k = ((hookedUp fromString service a h i).createEngine.constructServer i service).openServer
        n a.listens
  | .assignServer n => ∃ i, a.root = some i ∧ Wanted ∧ n = h.created + 1 ∧
      k = (((hookedUp fromString service a h i).createEngine.constructServer i
        service).openServer n a.listens).announce n
  | .isListening => ∃ i, a.root = some i ∧ Wanted ∧ k = served fromString service a h i
  | .deleteServer => ∃ i, a.root = some i ∧ Wanted ∧ a.listens = false ∧
      k = served fromString service a h i
  | .clearServer => ∃ i, a.root = some i ∧ Wanted ∧ a.listens = false ∧
      k = (served fromString service a h i).deleteServer
  | .releaseEngine => ∃ i, a.root = some i ∧ Wanted ∧ a.listens = false ∧
      k = (served fromString service a h i).deleteServer.assignServer none
  | .unregisterSink => a.root = none ∧ k = rooted service a h
  | .clearService => a.root = none ∧ k = (rooted service a h).unregisterSink service
  | .done success => initializePlugin fromString service a h = (success, k)
where
  Wanted := (fromString .default a.configLine).privateComRpcServer = true

theorem initializeReaches_step {service : S} {a : Answers I} {h k k' : Host S I N}
    {stmt next : InitializeAt} (hr : InitializeReaches fromString service a h k stmt)
    (hstep : InitializeStep fromString service a stmt k next k') :
    InitializeReaches fromString service a h k' next := by
  cases hstep with
  | setService =>
    obtain rfl := hr
    rfl
  | registerSink _ sv hs =>
    obtain rfl := hr
    obtain rfl := Option.some.inj hs
    rfl
  | rootFound _ i hi =>
    obtain rfl := hr
    exact ⟨i, hi, rfl⟩
  | rootNull _ hn =>
    obtain rfl := hr
    exact ⟨hn, rfl⟩
  | configure _ j hj =>
    obtain ⟨i, hi, rfl⟩ := hr
    obtain rfl := Option.some.inj (hi.symm.trans hj)
    exact ⟨i, hi, rfl⟩
  | registerNotification _ j hj =>
    obtain ⟨i, hi, rfl⟩ := hr
    obtain rfl := Option.some.inj (hi.symm.trans hj)
    exact ⟨i, hi, rfl⟩
  | registerJson _ j hj =>
    obtain ⟨i, hi, rfl⟩ := hr
    obtain rfl := Option.some.inj (hi.symm.trans hj)
    exact ⟨i, hi, rfl⟩
  | privateServer _ hc =>
    obtain ⟨i, hi, rfl⟩ := hr
    exact ⟨i, hi, hc, rfl⟩
  | noServer _ hc =>
    obtain ⟨i, hi, rfl⟩ := hr
    simp [InitializeReaches, initializePlugin, Host.root, hi, hc, hookedUp, rooted]
  | createEngine =>
    obtain ⟨i, hi, hw, rfl⟩ := hr
    exact ⟨i, hi, hw, rfl⟩
  | constructServer _ j hj =>
    obtain ⟨i, hi, hw, rfl⟩ := hr
    obtain rfl := Option.some.inj (hi.symm.trans hj)
    exact ⟨i, hi, hw, rfl, rfl⟩
  | openServer _ n =>
    obtain ⟨i, hi, hw, hn, rfl⟩ := hr
    exact ⟨i, hi, hw, hn, rfl⟩
  | announce _ n =>
    obtain ⟨i, hi, hw, hn, rfl⟩ := hr
    exact ⟨i, hi, hw, hn, rfl⟩
  | assignServer _ n =>
    obtain ⟨i, hi, hw, rfl, rfl⟩ := hr
    exact ⟨i, hi, hw, rfl⟩
  | listening _ v hv hl =>
    obtain ⟨i, hi, hw, rfl⟩ := hr
    have hserver := UndisturbedCalls.server_newComRpcServer
      (hookedUp fromString service a h i).createEngine i service a.listens
    obtain rfl := Option.some.inj (hserver.symm.trans hv)
    have hl : a.listens = true := hl
    have hw : (fromString .default a.configLine).privateComRpcServer = true := hw
    simp [InitializeReaches, initializePlugin, Host.root, hi, hw, hl, served, hookedUp, rooted]
  | notListening _ v hv hl =>
    obtain ⟨i, hi, hw, rfl⟩ := hr
    have hserver := UndisturbedCalls.server_newComRpcServer
      (hookedUp fromString service a h i).createEngine i service a.listens
    obtain rfl := Option.some.inj (hserver.symm.trans hv)
    exact ⟨i, hi, hw, hl, rfl⟩
  | deleteServer =>
    obtain ⟨i, hi, hw, hl, rfl⟩ := hr
    exact ⟨i, hi, hw, hl, rfl⟩
  | clearServer =>
    obtain ⟨i, hi, hw, hl, rfl⟩ := hr
    exact ⟨i, hi, hw, hl, rfl⟩
  | releaseEngine =>
    obtain ⟨i, hi, hw, hl, rfl⟩ := hr
    have hw : (fromString .default a.configLine).privateComRpcServer = true := hw
    simp [InitializeReaches, initializePlugin, Host.root, hi, hw, hl, served, hookedUp, rooted]
  | unregisterSink _ sv hs =>
    obtain ⟨hn, rfl⟩ := hr
    obtain rfl := Option.some.inj hs
    exact ⟨hn, rfl⟩
  | clearService =>
    obtain ⟨hn, rfl⟩ := hr
    simp [InitializeReaches, initializePlugin, Host.root, hn, rooted]

def unserved (h : Host S I N) : Host S I N :=
  match h.plugin.rpcServer with
  | some _ => (h.deleteServer.assignServer none).releaseEngine
  | none => h

def DeinitializeReaches (service : S) (h k : Host S I N) : DeinitializeAt → Prop
  | .testServer => k = h
  | .deleteServer => h.plugin.rpcServer ≠ none ∧ k = h
  | .clearServer => h.plugin.rpcServer ≠ none ∧ k = h.deleteServer
  | .releaseEngine => h.plugin.rpcServer ≠ none ∧ k = h.deleteServer.assignServer none
  | .testSamplePlugin | .unregisterSink => k = unserved h
  | .unregisterNotification => k = (unserved h).unregisterSink service
  | .releaseSamplePlugin => ∃ i, h.plugin.samplePlugin = some i ∧
      k = ((unserved h).unregisterSink service).unregisterNotification i
  | .clearConnectionId => ∃ i, h.plugin.samplePlugin = some i ∧
      k = (((unserved h).unregisterSink service).unregisterNotification i).release i
  | .clearService => ∃ i, h.plugin.samplePlugin = some i ∧
      k = { (((unserved h).unregisterSink service).unregisterNotification i).release i with
        plugin.connectionId := 0 }
  | .clearSamplePlugin => ∃ i, h.plugin.samplePlugin = some i ∧
      k = { (((unserved h).unregisterSink service).unregisterNotification i).release i with
        plugin.connectionId := 0, plugin.service := none }
  | .done => k = deinitializePlugin h

omit [DecidableEq S] [DecidableEq I] [DecidableEq N] in
theorem unserved_plugin (h : Host S I N) :
    (unserved h).plugin.service = h.plugin.service ∧
      (unserved h).plugin.samplePlugin = h.plugin.samplePlugin := by
  unfold unserved
  split
  · simp [Host.releaseEngine, Host.assignServer]
  · exact ⟨rfl, rfl⟩

theorem deinitializePlugin_eq {service : S} {h : Host S I N} {i : I}
    (hs : h.plugin.service = some service) (hi : h.plugin.samplePlugin = some i) :
    deinitializePlugin h =
      { (((unserved h).unregisterSink service).unregisterNotification i).release i with
        plugin.connectionId := 0, plugin.service := none, plugin.samplePlugin := none } := by
  cases hk : h.plugin.rpcServer with
  | none => simp [deinitializePlugin, unserved, hk, hs, hi]
  | some k =>
    simp [deinitializePlugin, unserved, hk, hs, hi, Host.releaseEngine, Host.assignServer]

theorem deinitializeReaches_step {service : S} {h k k' : Host S I N}
    {stmt next : DeinitializeAt} (hm : MayDeinitialize service h)
    (hr : DeinitializeReaches service h k stmt) (hstep : DeinitializeStep stmt k next k') :
    DeinitializeReaches service h k' next := by
  obtain ⟨hservice, hplugin⟩ := hm
  obtain ⟨us, up⟩ := unserved_plugin h
  cases hstep with
  | serverStarted _ l hl =>
    obtain rfl := hr
    exact ⟨by simp [hl], rfl⟩
  | noServer _ hl =>
    obtain rfl := hr
    simp [DeinitializeReaches, unserved, hl]
  | deleteServer =>
    obtain ⟨hn, rfl⟩ := hr
    exact ⟨hn, rfl⟩
  | clearServer =>
    obtain ⟨hn, rfl⟩ := hr
    exact ⟨hn, rfl⟩
  | releaseEngine =>
    obtain ⟨hn, rfl⟩ := hr
    obtain ⟨l, hl⟩ := Option.ne_none_iff_exists'.mp hn
    simp [DeinitializeReaches, unserved, hl]
  | samplePlugin _ i hi => exact hr
  | noSamplePlugin _ hi =>
    obtain rfl := hr
    exact absurd (up.symm.trans hi) hplugin
  | unregisterSink _ sv hs =>
    obtain rfl := hr
    obtain rfl := Option.some.inj (hservice.symm.trans (us.symm.trans hs))
    rfl
  | unregisterNotification _ i hi =>
    obtain rfl := hr
    exact ⟨i, up.symm.trans hi, rfl⟩
  | releaseSamplePlugin _ j hj =>
    obtain ⟨i, hi, rfl⟩ := hr
    obtain rfl := Option.some.inj (hi.symm.trans (up.symm.trans hj))
    exact ⟨i, hi, rfl⟩
  | clearConnectionId =>
    obtain ⟨i, hi, rfl⟩ := hr
    exact ⟨i, hi, rfl⟩
  | clearService =>
    obtain ⟨i, hi, rfl⟩ := hr
    exact ⟨i, hi, rfl⟩
  | clearSamplePlugin =>
    obtain ⟨i, hi, rfl⟩ := hr
    exact (deinitializePlugin_eq hservice hi).symm

/-- One whole call: its entry ASSERTs hold, and it leaves what its function computes. -/
inductive WholeCall : Host S I N → Call S I → Host S I N → Prop where
  | initialized (h service a) (hm : MayInitialize h) :
      WholeCall h (.initialized service a (initializePlugin fromString service a h).1)
        (initializePlugin fromString service a h).2
  | deinitialized (h service) (hm : MayDeinitialize service h) :
      WholeCall h (.deinitialized service) (deinitializePlugin h)

/-- Between calls the hosts match; within one, the call entered from h and left alone would
match where the real one stands. -/
def Simulates (s : State S I N) (h : Host S I N) : Prop :=
  LifecycleHoldings.Invariant s ∧
  match s.pc with
  | .idle => Matches h s.host
  | .initializing service a stmt => MayInitialize h ∧
      ∃ k, InitializeReaches fromString service a h k stmt ∧ Matches k s.host
  | .deinitializing service stmt => MayDeinitialize service h ∧
      ∃ k, DeinitializeReaches service h k stmt ∧ Matches k s.host

theorem start_simulates :
    Simulates fromString (start : State S I N) .fresh :=
  ⟨LifecycleHoldings.start_invariant, rfl,
    fun _ => SamplePluginImplementation.initial_invariant,
    fun _ => SamplePluginImplementation.initial_invariant, fun _ => Iff.rfl⟩

variable {fromString} {grants : Reference S I → Bool}

theorem simulates_aside {s u : State S I N} {h : Host S I N} (hs : Simulates fromString s h)
    (hi : LifecycleHoldings.Invariant u) (hpc : u.pc = s.pc)
    (hm : ∀ k, Matches k s.host → Matches k u.host) : Simulates fromString u h := by
  refine ⟨hi, ?_⟩
  obtain ⟨-, hs⟩ := hs
  rw [hpc]
  cases hp : s.pc with
  | idle =>
    rw [hp] at hs
    exact hm h hs
  | initializing service a stmt =>
    rw [hp] at hs
    obtain ⟨hmay, k, hk, hkm⟩ := hs
    exact ⟨hmay, k, hk, hm k hkm⟩
  | deinitializing service stmt =>
    rw [hp] at hs
    obtain ⟨hmay, k, hk, hkm⟩ := hs
    exact ⟨hmay, k, hk, hm k hkm⟩

theorem not_notified {s : State S I N} (hi : LifecycleHoldings.Invariant s) {i : I}
    (hn : s.host.held.balance i = 0) :
    Callback.notification ∉ (s.host.implementations i).callbacks := by
  obtain ⟨e, hs, ha⟩ := hi
  intro hm
  have hheld := (LifecycleHoldings.pc_coherent ha).notified i ((hs.notified i).mp hm)
  rw [hs.held, if_pos hheld] at hn
  exact absurd hn (by decide)

theorem step_simulates {s u : State S I N} {ev : Event S I N} {h : Host S I N}
    (hs : Simulates fromString s h) (hstep : Step fromString grants s ev u) :
    ∃ h', Run (WholeCall fromString) h (returns s ev) h' ∧ Simulates fromString u h' := by
  have hi := LifecycleHoldings.step_preserves_invariant hs.1 hstep
  cases hstep with
  | initializeCalled service a hp hm =>
    obtain ⟨-, hs⟩ := hs
    rw [hp] at hs
    have hmay : MayInitialize h := by
      unfold MayInitialize at hm ⊢
      rwa [hs.plugin] at hm
    exact ⟨h, .refl h, hi, hmay, h, rfl, hs⟩
  | initializing service a stmt next host hp hst hq =>
    obtain ⟨-, hs⟩ := hs
    rw [hp] at hs
    obtain ⟨hmay, k, hk, hm⟩ := hs
    obtain ⟨k', hst', hm'⟩ := matches_initializeStep hm hst
    exact ⟨h, .refl h, hi, hmay, k', initializeReaches_step fromString hk hst', hm'⟩
  | initializeReturned service a success hp =>
    obtain ⟨-, hs⟩ := hs
    simp only [hp] at hs
    obtain ⟨hmay, k, hk, hm⟩ := hs
    -- what the call would have left by itself is where the run of whole calls goes on
    have hcall : WholeCall fromString h _ _ := .initialized h service a hmay
    rw [show initializePlugin fromString service a h = (success, k) from hk] at hcall
    exact ⟨k, by simpa only [returns, hp] using Run.single hcall, hi, hm⟩
  | deinitializeCalled service hp hm =>
    obtain ⟨-, hs⟩ := hs
    rw [hp] at hs
    have hmay : MayDeinitialize service h := by
      unfold MayDeinitialize at hm ⊢
      rwa [hs.plugin] at hm
    exact ⟨h, .refl h, hi, hmay, h, rfl, hs⟩
  | deinitializing service stmt next host hp hst hq =>
    obtain ⟨-, hs⟩ := hs
    rw [hp] at hs
    obtain ⟨hmay, k, hk, hm⟩ := hs
    obtain ⟨k', hst', hm'⟩ := matches_deinitializeStep hm hst
    exact ⟨h, .refl h, hi, hmay, k', deinitializeReaches_step hmay hk hst', hm'⟩
  | deinitializeReturned service hp =>
    obtain ⟨-, hs⟩ := hs
    simp only [hp] at hs
    obtain ⟨hmay, k, hk, hm⟩ := hs
    have hcall : WholeCall fromString h _ _ := .deinitialized h service hmay
    rw [← show k = deinitializePlugin h from hk] at hcall
    exact ⟨k, by simpa only [returns, hp] using Run.single hcall, hi, hm⟩
  | deactivated service id hr =>
    refine ⟨h, .refl h, simulates_aside hs hi ?_ fun k hk => ?_⟩
    · unfold State.deactivated
      split <;> rfl
    · rwa [deactivated_host]
  | acquire r v hv => exact ⟨h, .refl h, simulates_aside hs hi rfl fun k hk => hk⟩
  | acquired r v hv hr => exact ⟨h, .refl h, simulates_aside hs hi rfl fun k hk => hk⟩
  | request channel i q reply p hq hj hserve =>
    refine ⟨h, .refl h, simulates_aside hs hi rfl fun k hk => ?_⟩
    obtain ⟨hp, hn⟩ := LifecycleHoldings.serve_notification hq (hk.right i) hserve
    exact hk.interfered hp hn
  | constructed i hn =>
    refine ⟨h, .refl h, simulates_aside hs hi rfl fun k hk => ?_⟩
    refine hk.interfered SamplePluginImplementation.initial_invariant (iff_of_false ?_ ?_)
    · exact List.not_mem_nil
    · exact not_notified hs.1 hn

theorem run_simulates {es : List (Event S I N)} {cs : List (Call S I)} {s : State S I N}
    (h : Recorded (Step fromString grants) returns start es cs s) :
    ∃ host, Run (WholeCall fromString) .fresh cs host ∧ Simulates fromString s host :=
  h.simulates (Simulates fromString) (fun _ _ _ _ hs hstep => step_simulates hs hstep)
    (start_simulates fromString)

/-- Every run of the statements, with anything between any two of them, is a run of whole
calls: the calls that have returned, with what they returned, are calls of initializePlugin
and deinitializePlugin one after the other whose ASSERTs hold, and between calls the plugin,
its registrations, references, servers and engines are what these functions leave. -/
theorem lifecycle_refines_whole_calls {es : List (Event S I N)} {cs : List (Call S I)}
    {s : State S I N} (h : Recorded (Step fromString grants) returns start es cs s) :
    ∃ host, Run (WholeCall fromString) .fresh cs host ∧
      (s.pc = .idle → Matches host s.host) := by
  obtain ⟨host, hr, -, hs⟩ := run_simulates h
  refine ⟨host, hr, fun hp => ?_⟩
  rwa [hp] at hs

/-- The connection of the plugin's own process is lost between Root and Configure. -/
theorem lifecycle_refines_whole_calls_interrupted :
    ∃ (s : State ℕ ℕ ℕ) (host : Host ℕ ℕ ℕ), s.jobs = [some 0] ∧
      Run (WholeCall fun _ _ => .default) .fresh [.initialized 0 ⟨some 7, some 5, "", true⟩ ""]
        host ∧ Matches host s.host := by
  have h₀ : Recorded (Step (fun _ _ => .default) fun _ => true) returns
    (start : State ℕ ℕ ℕ) [] [] _ := .refl _
  have h₁ := h₀.tail (.initializeCalled _ 0 ⟨some 7, some 5, "", true⟩ rfl ⟨rfl, rfl⟩)
  have h₂ := h₁.tail (.initializing _ 0 _ .setService _ _ rfl (.setService _) (by simp))
  have h₃ := h₂.tail (.initializing _ 0 _ .registerSink _ _ rfl (.registerSink _ 0 rfl) (by simp))
  have h₄ := h₃.tail (.initializing _ 0 _ .root _ _ rfl (.rootFound _ 7 rfl) (by simp))
  have h₅ := h₄.tail (.deactivated _ 0 5 (by decide))
  have h₆ := h₅.tail (.initializing _ 0 _ .configure _ _ rfl (.configure _ 7 rfl) (by simp))
  have h₇ := h₆.tail
    (.initializing _ 0 _ .registerNotification _ _ rfl (.registerNotification _ 7 rfl) (by simp))
  have h₈ := h₇.tail (.initializing _ 0 _ .registerJson _ _ rfl (.registerJson _ 7 rfl) (by simp))
  have h₉ := h₈.tail (.initializing _ 0 _ .readConfig _ _ rfl (.noServer _ rfl) (by simp))
  have h := h₉.tail (.initializeReturned _ 0 _ "" rfl)
  obtain ⟨host, hr, hm⟩ := lifecycle_refines_whole_calls h
  exact ⟨_, host, rfl, hr, hm rfl⟩

/-- The shell, the implementation and whether the private server is up, as the last call
leaves them; nothing once it is a Deinitialize or Root returned null. -/
def standing (fromString : SamplePluginConfiguration → String → SamplePluginConfiguration) :
    Option (Call S I) → Option (S × I × Bool)
  | some (.initialized service a _) => a.root.map fun i =>
      (service, i, (fromString .default a.configLine).privateComRpcServer && a.listens)
  | _ => none

/-- The plugin's own pointers: all null, or the shell, the implementation, and the private
server together with the engine that announces to it. -/
def PointersOf (h : Host S I N) : Option (S × I × Bool) → Prop
  | none => h.plugin.service = none ∧ h.plugin.samplePlugin = none ∧ h.plugin.rpcServer = none ∧
      h.plugin.rpcEngine = none
  | some (service, i, false) => h.plugin.service = some service ∧ h.plugin.samplePlugin = some i ∧
      h.plugin.rpcServer = none ∧ h.plugin.rpcEngine = none
  | some (service, i, true) => h.plugin.service = some service ∧ h.plugin.samplePlugin = some i ∧
      ∃ k engine, h.plugin.rpcServer = some k ∧ h.plugin.rpcEngine = some engine ∧
        h.servers k = some ⟨some i, some service, true⟩ ∧ h.announcements engine = some k

omit [DecidableEq S] [DecidableEq I] [DecidableEq N] in
theorem PointersOf.up {h : Host S I N} {service : S} {i : I} {served : Bool}
    (hp : PointersOf h (some (service, i, served))) :
    h.plugin.service = some service ∧ h.plugin.samplePlugin = some i := by
  cases served with
  | false => exact ⟨hp.1, hp.2.1⟩
  | true => exact ⟨hp.1, hp.2.1⟩

omit [DecidableEq S] [DecidableEq I] in
theorem Matches.pointers {k h : Host S I N} (m : Matches k h) {o : Option (S × I × Bool)}
    (hp : PointersOf k o) : PointersOf h o := by
  rw [m.rest]
  exact hp

theorem initializePlugin_some (service : S) (a : Answers I) (h : Host S I N) {i : I}
    (hr : a.root = some i) : (initializePlugin fromString service a h).2 =
      if (fromString .default a.configLine).privateComRpcServer then
        if a.listens then served fromString service a h i
        else ((served fromString service a h i).deleteServer.assignServer none).releaseEngine
      else hookedUp fromString service a h i := by
  cases hw : (fromString .default a.configLine).privateComRpcServer with
  | false => simp [initializePlugin, Host.root, hr, hw, hookedUp, rooted]
  | true =>
    cases hl : a.listens <;>
      simp [initializePlugin, Host.root, hr, hw, hl, served, hookedUp, rooted]

theorem served_pointers (service : S) {a : Answers I} (h : Host S I N) {i : I}
    (hr : a.root = some i) (hl : a.listens = true) :
    PointersOf (served fromString service a h i) (some (service, i, true)) := by
  refine ⟨rfl, hr, h.created + 1, h.created, rfl, rfl, ?_, Function.update_self ..⟩
  have hnext : (hookedUp fromString service a h i).createEngine.created = h.created + 1 := rfl
  rw [← hnext]
  simp [served, newComRpcServer, Host.assignServer, Host.openServer, Host.constructServer, hl,
    ComRpcServer.construct]

theorem initialize_pointers (service : S) (a : Answers I) (success : String) {h : Host S I N}
    (hm : MayInitialize h) (hr : h.plugin.rpcServer = none) (he : h.plugin.rpcEngine = none) :
    PointersOf (initializePlugin fromString service a h).2
      (standing fromString (some (.initialized service a success))) := by
  cases hroot : a.root with
  | none =>
    rw [SamplePlugin.initialize_root_null fromString service hm hroot]
    simp only [standing, hroot, Option.map_none]
    exact ⟨hm.1, hm.2, hr, he⟩
  | some i =>
    simp only [standing, hroot, Option.map_some]
    rw [initializePlugin_some service a h hroot]
    cases hw : (fromString .default a.configLine).privateComRpcServer with
    | false => exact ⟨rfl, hroot, hr, he⟩
    | true =>
      cases hl : a.listens with
      | true => exact served_pointers service h hroot hl
      | false => exact ⟨rfl, hroot, rfl, rfl⟩

theorem deinitialize_pointers {service : S} {h : Host S I N} (hm : MayDeinitialize service h)
    {o : Option (S × I × Bool)} (hp : PointersOf h o) :
    PointersOf (deinitializePlugin h) (none : Option (S × I × Bool)) := by
  obtain ⟨i, hi⟩ := Option.ne_none_iff_exists'.mp hm.2
  rw [deinitializePlugin_eq hm.1 hi]
  have hgone : (unserved h).plugin.rpcServer = none ∧ (unserved h).plugin.rpcEngine = none := by
    rcases o with _ | ⟨sv, j, _ | _⟩
    · simp [unserved, hp.2.2.1, hp.2.2.2]
    · simp [unserved, hp.2.2.1, hp.2.2.2]
    · obtain ⟨-, -, k, engine, hk, -⟩ := hp
      simp [unserved, hk, Host.releaseEngine, Host.assignServer]
  exact ⟨rfl, rfl, hgone.1, hgone.2⟩

theorem wholeCall_pointers {c : Call S I} {h u : Host S I N} {last : Option (Call S I)}
    (hp : PointersOf h (standing fromString last)) (hcall : WholeCall fromString h c u) :
    PointersOf u (standing fromString (some c)) := by
  cases hcall with
  | initialized service a hm =>
    -- the entry ASSERTs rule out that the last call left the plugin up
    cases ho : standing fromString last with
    | none =>
      rw [ho] at hp
      exact initialize_pointers service a _ hm hp.2.2.1 hp.2.2.2
    | some o =>
      obtain ⟨sv, i, served⟩ := o
      rw [ho] at hp
      have hup := hp.up.1
      rw [hm.1] at hup
      cases hup
  | deinitialized service hm => exact deinitialize_pointers hm hp

theorem run_pointers {cs : List (Call S I)} {u : Host S I N}
    (h : Run (WholeCall fromString) .fresh cs u) :
    PointersOf u (standing fromString cs.getLast?) := by
  induction h with
  | refl => exact ⟨rfl, rfl, rfl, rfl⟩
  | tail _ hv ih => simpa using wholeCall_pointers ih hv

def connectionIdAfter (id : ℕ) : Call S I → ℕ
  | .initialized _ a _ => a.connectionId.getD id
  | .deinitialized _ => 0

def handlersOf : Call S I → Option I
  | .initialized _ a _ => a.root
  | .deinitialized _ => none

theorem deinitializePlugin_rest {service : S} {h : Host S I N} (hm : MayDeinitialize service h) :
    (deinitializePlugin h).jsonHandlers = h.jsonHandlers ∧
      (deinitializePlugin h).plugin.connectionId = 0 := by
  obtain ⟨i, hi⟩ := Option.ne_none_iff_exists'.mp hm.2
  rw [deinitializePlugin_eq hm.1 hi]
  refine ⟨?_, rfl⟩
  cases hk : h.plugin.rpcServer with
  | none => simp [unserved, hk, Host.release, Host.unregisterNotification, Host.modify,
      Host.unregisterSink]
  | some k => simp [unserved, hk, Host.release, Host.unregisterNotification, Host.modify,
      Host.unregisterSink, Host.releaseEngine, Host.assignServer, Host.deleteServer]

omit [DecidableEq S] [DecidableEq I] [DecidableEq N] in
theorem newComRpcServer_rest (h : Host S I N) (i : I) (service : S) (listens : Bool) :
    (newComRpcServer h i service listens).jsonHandlers = h.jsonHandlers ∧
      (newComRpcServer h i service listens).plugin.connectionId = h.plugin.connectionId := by
  simp only [newComRpcServer, Host.assignServer, Host.announce]
  split <;> exact ⟨rfl, rfl⟩

theorem initializePlugin_rest {service : S} {a : Answers I} {h : Host S I N}
    (hm : MayInitialize h) :
    (initializePlugin fromString service a h).2.jsonHandlers =
        h.jsonHandlers ++ a.root.toList ∧
      (initializePlugin fromString service a h).2.plugin.connectionId =
        a.connectionId.getD h.plugin.connectionId := by
  cases hroot : a.root with
  | none =>
    rw [SamplePlugin.initialize_root_null fromString service hm hroot]
    exact ⟨by simp, rfl⟩
  | some i =>
    rw [initializePlugin_some service a h hroot]
    obtain ⟨hhandlers, hid⟩ := newComRpcServer_rest
      (hookedUp fromString service a h i).createEngine i service a.listens
    have hplugin := SamplePlugin.deleteServer_plugin (served fromString service a h i)
    split
    · split
      · exact ⟨hhandlers, hid⟩
      · exact ⟨(SamplePlugin.deleteServer_jsonHandlers _).trans hhandlers,
          (congrArg SamplePlugin.connectionId hplugin).trans hid⟩
    · exact ⟨rfl, rfl⟩

theorem run_rest {cs : List (Call S I)} {u : Host S I N}
    (h : Run (WholeCall fromString) .fresh cs u) :
    u.jsonHandlers = cs.filterMap handlersOf ∧
      u.plugin.connectionId = cs.foldl connectionIdAfter 0 := by
  induction h with
  | refl => exact ⟨rfl, rfl⟩
  | tail _ hv ih =>
    obtain ⟨hhandlers, hid⟩ := ih
    cases hv with
    | initialized service a hm =>
      rw [(initializePlugin_rest hm).1, (initializePlugin_rest hm).2, hhandlers, hid]
      cases hroot : a.root <;> simp [handlersOf, connectionIdAfter, hroot]
    | deinitialized service hm =>
      obtain ⟨hkept, hreset⟩ := deinitializePlugin_rest hm
      rw [hkept, hreset, hhandlers]
      simp [handlersOf, connectionIdAfter]

/-- What everybody holds between calls, as the last call leaves it. -/
def Left (h : Host S I N) : Option (S × I × Bool) → Prop
  | none => Stands h .down
  | some (service, i, _) => Stands h (.up service i h.plugin.rpcServer h.plugin.rpcServer)

theorem idle_left {s : State S I N} (hi : LifecycleHoldings.Invariant s) (hp : s.pc = .idle)
    {o : Option (S × I × Bool)} (ho : PointersOf s.host o) : Left s.host o := by
  obtain ⟨e, hs, ha⟩ := hi
  rw [hp] at ha
  rcases ha with rfl | ⟨service, a, i, server, -, -, rfl⟩
  · rcases o with _ | ⟨sv, j, served⟩
    · exact hs
    · have hservice := hs.service.symm.trans ho.up.1
      cases hservice
  · rcases o with _ | ⟨sv, j, served⟩
    · have hservice := hs.service.symm.trans ho.1
      cases hservice
    · obtain rfl := Option.some.inj (hs.service.symm.trans ho.up.1)
      obtain rfl := Option.some.inj (hs.samplePlugin.symm.trans ho.up.2)
      have hserver : s.host.plugin.rpcServer = server := hs.rpcServer
      subst hserver
      exact hs

/-- Between two calls the last one that returned decides on the plugin's pointers, on where its
sink is registered, on the reference it holds and on its server: after a Deinitialize, or an
Initialize for which Root returned null, there are none; otherwise shell and implementation are
those of that Initialize, each has the sink registered once, one reference is held, and the
private server is up, with the engine that announces to it, exactly if it was configured and
listens. The rest depends on the calls before it: the JSON-RPC handlers are those of every
Initialize whose Root returned an implementation, for no call withdraws any, and the connection
id is the one that the last Root wrote that has written one since a Deinitialize reset it. -/
theorem last_call_decides {es : List (Event S I N)} {cs : List (Call S I)} {s : State S I N}
    (h : Recorded (Step fromString grants) returns start es cs s) (hp : s.pc = .idle) :
    PointersOf s.host (standing fromString cs.getLast?) ∧
    Left s.host (standing fromString cs.getLast?) ∧
    s.host.jsonHandlers = cs.filterMap handlersOf ∧
    s.host.plugin.connectionId = cs.foldl connectionIdAfter 0 := by
  obtain ⟨host, hr, hi, hs⟩ := run_simulates h
  rw [hp] at hs
  have hpointers := Matches.pointers hs (run_pointers hr)
  have hrest := run_rest hr
  refine ⟨hpointers, idle_left hi hp hpointers, ?_⟩
  rw [hs.rest]
  exact hrest

/-- A first attempt fails after Root has written 5, and a second one succeeds whose Root writes
no id: the plugin is up with the connection id of the failed attempt. -/
theorem last_call_decides_after_failure :
    ∃ h : Host ℕ ℕ ℕ, PointersOf h (some (0, 7, false)) ∧ Left h (some (0, 7, false)) ∧
      h.jsonHandlers = [7] ∧ h.plugin.connectionId = 5 := by
  have h₀ : Recorded (Step (fun _ _ => .default) fun _ => true) returns
    (start : State ℕ ℕ ℕ) [] [] _ := .refl _
  have h₁ := h₀.tail (.initializeCalled _ 0 ⟨none, some 5, "", false⟩ rfl ⟨rfl, rfl⟩)
  have h₂ := h₁.tail (.initializing _ 0 _ .setService _ _ rfl (.setService _) (by simp))
  have h₃ := h₂.tail (.initializing _ 0 _ .registerSink _ _ rfl (.registerSink _ 0 rfl) (by simp))
  have h₄ := h₃.tail (.initializing _ 0 _ .root _ _ rfl (.rootNull _ rfl) (by simp))
  have h₅ := h₄.tail (.initializing _ 0 _ .unregisterSink _ _ rfl (.unregisterSink _ 0 rfl)
    (by simp))
  have h₆ := h₅.tail (.initializing _ 0 _ .clearService _ _ rfl (.clearService _) (by simp))
  have h₇ := h₆.tail (.initializeReturned _ 0 _ _ rfl)
  have h₈ := h₇.tail (.initializeCalled _ 0 ⟨some 7, none, "", false⟩ rfl ⟨rfl, rfl⟩)
  have h₉ := h₈.tail (.initializing _ 0 _ .setService _ _ rfl (.setService _) (by simp))
  have h₁₀ := h₉.tail (.initializing _ 0 _ .registerSink _ _ rfl (.registerSink _ 0 rfl)
    (by simp))
  have h₁₁ := h₁₀.tail (.initializing _ 0 _ .root _ _ rfl (.rootFound _ 7 rfl) (by simp))
  have h₁₂ := h₁₁.tail (.initializing _ 0 _ .configure _ _ rfl (.configure _ 7 rfl) (by simp))
  have h₁₃ := h₁₂.tail
    (.initializing _ 0 _ .registerNotification _ _ rfl (.registerNotification _ 7 rfl) (by simp))
  have h₁₄ := h₁₃.tail (.initializing _ 0 _ .registerJson _ _ rfl (.registerJson _ 7 rfl)
    (by simp))
  have h₁₅ := h₁₄.tail (.initializing _ 0 _ .readConfig _ _ rfl (.noServer _ rfl) (by simp))
  exact ⟨_, last_call_decides (h₁₅.tail (.initializeReturned _ 0 _ "" rfl)) rfl⟩

end Matching

end LifecycleRefinement
