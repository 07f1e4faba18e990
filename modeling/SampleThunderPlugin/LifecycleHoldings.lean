import SampleThunderPlugin.UndisturbedCalls

/-! What Initialize has taken and Deinitialize has not yet given back, at every statement and
whatever happens between two of them: the shell's and the implementation's registrations of
the sink, the reference from Root, the private server. -/
namespace LifecycleHoldings

open LabelledRuns PluginLifecycle
open SamplePlugin (Host MayInitialize MayDeinitialize)
open SamplePluginImplementation (Request Reply)

variable {S I N : Type}

/-- Who is expected to hold what; handler is an implementation that certainly has one. -/
structure Holdings (S I : Type) where
  service : Option S
  sink : Option S
  samplePlugin : Option I
  held : Option I
  notified : Option I
  handler : Option I
  rpcServer : Option ℕ
  server : Option ℕ

namespace Holdings

def down : Holdings S I := ⟨none, none, none, none, none, none, none, none⟩

def watching (service : S) : Holdings S I :=
  { (down : Holdings S I) with service := some service, sink := some service }

def rooted (service : S) (i : I) : Holdings S I :=
  { watching service with samplePlugin := some i, held := some i }

def up (service : S) (i : I) (rpcServer server : Option ℕ) : Holdings S I :=
  { rooted service i with
    notified := some i, handler := some i, rpcServer := rpcServer, server := server }

end Holdings

open Holdings (down watching rooted up)

/-- What Initialize has taken so far, by the statement it is about to execute. -/
def InitializeAllows (service : S) (root : Option I) (e : Holdings S I) : InitializeAt → Prop
  | .setService => e = down
  | .registerSink => e = { down with service := some service }
  | .root => e = watching service
  | .configure | .registerNotification => ∃ i, root = some i ∧ e = rooted service i
  | .registerJson => ∃ i, root = some i ∧ e = { rooted service i with notified := some i }
  | .readConfig | .createEngine | .constructServer | .releaseEngine =>
    ∃ i, root = some i ∧ e = up service i none none
  | .openServer k | .announce k | .assignServer k =>
    ∃ i, root = some i ∧ e = up service i none (some k)
  | .isListening | .deleteServer => ∃ i k, root = some i ∧ e = up service i (some k) (some k)
  | .clearServer => ∃ i k, root = some i ∧ e = up service i (some k) none
  | .unregisterSink => e = watching service
  | .clearService => e = { down with service := some service }
  | .done success =>
    (success = "Failed to initialize SamplePlugin" ∧ e = down) ∨
      ∃ i server, root = some i ∧ e = up service i server server

def DeinitializeAllows (service : S) (i : I) (e : Holdings S I) : DeinitializeAt → Prop
  | .testServer => ∃ server, e = up service i server server
  | .deleteServer => ∃ k, e = up service i (some k) (some k)
  | .clearServer => ∃ k, e = up service i (some k) none
  | .releaseEngine | .testSamplePlugin | .unregisterSink => e = up service i none none
  | .unregisterNotification => e = { up service i none none with sink := none }
  | .releaseSamplePlugin => e = { up service i none none with sink := none, notified := none }
  | .clearConnectionId | .clearService =>
    e = { down with service := some service, samplePlugin := some i }
  | .clearSamplePlugin => e = { down with samplePlugin := some i }
  | .done => e = down

def PcAllows (activation : Option (S × Answers I)) (e : Holdings S I) : Pc S I → Prop
  | .idle => e = down ∨ ∃ service a i server, activation = some (service, a) ∧ a.root = some i ∧
      e = up service i server server
  | .initializing service a stmt =>
    activation = some (service, a) ∧ InitializeAllows service a.root e stmt
  | .deinitializing service stmt => ∃ a i, activation = some (service, a) ∧ a.root = some i ∧
      DeinitializeAllows service i e stmt

section Holding
variable [DecidableEq S] [DecidableEq I] [DecidableEq N]

structure Stands (h : Host S I N) (e : Holdings S I) : Prop where
  service : h.plugin.service = e.service
  samplePlugin : h.plugin.samplePlugin = e.samplePlugin
  rpcServer : h.plugin.rpcServer = e.rpcServer
  sinks : ∀ sv, h.sinks sv = if e.sink = some sv then 1 else 0
  held : ∀ i, h.held.balance i = if e.held = some i then 1 else 0
  implementations : ∀ i, (h.implementations i).Invariant
  notified : ∀ i, Callback.notification ∈ (h.implementations i).callbacks ↔ e.notified = some i
  handler : ∀ i, e.handler = some i → i ∈ h.jsonHandlers
  servers : ∀ k, (∃ v, h.servers k = some v) ↔ e.server = some k
  pointers : ∀ k v, h.servers k = some v → v.samplePlugin = e.held ∧ v.shell = e.service

theorem fresh_stands : Stands (.fresh : Host S I N) down where
  service := rfl
  samplePlugin := rfl
  rpcServer := rfl
  sinks _ := rfl
  held _ := rfl
  implementations _ := SamplePluginImplementation.initial_invariant
  notified i := by
    simp [Host.fresh, SamplePluginImplementation.initial, SamplePluginImplementation.callbacks,
      down]
  handler i hi := by cases hi
  servers k := by simp [Host.fresh, down]
  pointers k v hv := by cases hv

section Statements
variable {h : Host S I N} {e : Holdings S I} (hs : Stands h e)
include hs

theorem Stands.no_server (hserver : e.server = none) (k : ℕ) : h.servers k = none := by
  cases hk : h.servers k with
  | none => rfl
  | some v =>
    have hsome := (hs.servers k).mp ⟨v, hk⟩
    rw [hserver] at hsome
    cases hsome

theorem Stands.setService (hserver : e.server = none) (service : Option S) :
    Stands (h.setService service) { e with service := service } :=
  { hs with
    service := rfl
    pointers := fun k v hv => absurd ((hs.no_server hserver k).symm.trans hv) (by simp) }

theorem Stands.registerSink (hsink : e.sink = none) (service : S) :
    Stands (h.registerSink service) { e with sink := some service } :=
  { hs with
    sinks := fun sv => by
      by_cases hv : sv = service
      · subst hv
        simp [Host.registerSink, hs.sinks, hsink]
      · simp [Host.registerSink, hv, hs.sinks, hsink, Ne.symm hv] }

theorem Stands.unregisterSink {service : S} (hsink : e.sink = some service) :
    Stands (h.unregisterSink service) { e with sink := none } :=
  { hs with
    sinks := fun sv => by
      by_cases hv : sv = service
      · subst hv
        simp [Host.unregisterSink, hs.sinks, hsink]
      · simp [Host.unregisterSink, hv, hs.sinks, hsink, Ne.symm hv] }

theorem Stands.root (hheld : e.held = none) (hserver : e.server = none) (a : Answers I) :
    Stands (h.root a) { e with samplePlugin := a.root, held := a.root } :=
  { hs with
    samplePlugin := rfl
    held := by
      have hnone : h.held.OneOn none := hheld ▸ hs.held
      simp only [Host.root]
      cases a.root with
      | none => exact hnone
      | some j => exact hnone.addRef j
    pointers := fun k v hv => absurd ((hs.no_server hserver k).symm.trans hv) (by simp) }

theorem Stands.modify {i : I} {p : SamplePluginImplementation (Callback N)} (hp : p.Invariant)
    {notified : Option I} (hi : Callback.notification ∈ p.callbacks ↔ notified = some i)
    (hother : ∀ j, j ≠ i → (e.notified = some j ↔ notified = some j)) :
    Stands (h.modify i p) { e with notified := notified } :=
  { hs with
    implementations := fun j => by
      by_cases hj : j = i
      · subst hj
        simpa [Host.modify] using hp
      · simpa [Host.modify, hj] using hs.implementations j
    notified := fun j => by
      by_cases hj : j = i
      · subst hj
        simpa [Host.modify] using hi
      · simpa [Host.modify, hj] using (hs.notified j).trans (hother j hj) }

theorem Stands.registerNotification (i : I) (hi : e.notified = none) :
    Stands (h.registerNotification i) { e with notified := some i } := by
  refine hs.modify (SamplePluginImplementation.register_invariant (hs.implementations i) _) ?_ ?_
  · simp [SamplePluginImplementation.mem_register]
  · simp [hi, eq_comm]

theorem Stands.unregisterNotification {i : I} (hi : e.notified = some i) :
    Stands (h.unregisterNotification i) { e with notified := none } := by
  have hinv := hs.implementations i
  refine hs.modify (SamplePluginImplementation.unregister_invariant hinv _) ?_ ?_
  · simp [SamplePluginImplementation.mem_unregister hinv.nodup]
  · simp [hi, eq_comm]

theorem Stands.configure
    (fromString : SamplePluginConfiguration → String → SamplePluginConfiguration) (i : I)
    (line : String) : Stands (h.configure fromString i line) e := by
  have hinv := hs.implementations i
  refine hs.modify ⟨?_, ?_⟩ ?_ fun _ _ => Iff.rfl
  · simpa using hinv.nodup
  · simpa using hinv.refs
  · simpa using hs.notified i

theorem Stands.registerJson (i : I) :
    Stands (h.registerJson i) { e with handler := some i } :=
  { hs with
    handler := fun j hj => by
      obtain rfl := Option.some.inj hj
      simp [Host.registerJson] }

theorem Stands.createEngine : Stands h.createEngine e := { hs with }

theorem Stands.releaseEngine : Stands h.releaseEngine e := { hs with }

theorem Stands.announce (k : ℕ) : Stands (h.announce k) e := by
  unfold Host.announce
  split
  · exact { hs with }
  · exact hs

theorem Stands.constructServer (hserver : e.server = none) {service : S} {i : I}
    (hservice : e.service = some service) (hheld : e.held = some i) :
    Stands (h.constructServer i service) { e with server := some h.created } := by
  have hnone := hs.no_server hserver
  refine { hs with servers := fun k => ?_, pointers := fun k v hv => ?_ }
  · by_cases hk : k = h.created
    · subst hk
      simp [Host.constructServer]
    · simp [Host.constructServer, hk, hnone, Ne.symm hk]
  · by_cases hk : k = h.created
    · subst hk
      simp only [Host.constructServer, Function.update_self, Option.some.injEq] at hv
      subst hv
      exact ⟨hheld.symm, hservice.symm⟩
    · simp [Host.constructServer, hk, hnone] at hv

theorem Stands.openServer (k : ℕ) (listens : Bool) : Stands (h.openServer k listens) e := by
  refine { hs with servers := fun l => ?_, pointers := fun l v hv => ?_ }
  · by_cases hl : l = k
    · subst hl
      simpa [Host.openServer] using hs.servers l
    · simpa [Host.openServer, hl] using hs.servers l
  · by_cases hl : l = k
    · subst hl
      simp only [Host.openServer, Function.update_self, Option.map_eq_some_iff] at hv
      obtain ⟨w, hw, rfl⟩ := hv
      exact hs.pointers l w hw
    · exact hs.pointers l v (by simpa [Host.openServer, hl] using hv)

theorem Stands.assignServer (server : Option ℕ) :
    Stands (h.assignServer server) { e with rpcServer := server } :=
  { hs with rpcServer := rfl }

theorem Stands.deleteServer {k : ℕ} (hpointer : e.rpcServer = some k)
    (hserver : e.server = some k) :
    Stands h.deleteServer { e with server := none } := by
  have hk : h.plugin.rpcServer = some k := hs.rpcServer.trans hpointer
  have hdelete : h.deleteServer = { h with servers := Function.update h.servers k none } := by
    simp only [Host.deleteServer, hk]
  rw [hdelete]
  refine { hs with servers := fun l => ?_, pointers := fun l v hv => ?_ }
  · by_cases hl : l = k
    · subst hl
      simp
    · have hgone : ¬ ∃ v, h.servers l = some v := by
        rw [hs.servers l, hserver]
        exact fun hkl => hl (Option.some.inj hkl).symm
      simpa [hl] using hgone
  · by_cases hl : l = k
    · subst hl
      simp at hv
    · exact hs.pointers l v (by simpa [hl] using hv)

theorem Stands.release {i : I} (hheld : e.held = some i) (hserver : e.server = none) :
    Stands (h.release i) { e with held := none } :=
  { hs with
    held := by
      have hone : h.held.OneOn (some i) := hheld ▸ hs.held
      exact hone.release
    pointers := fun k v hv => absurd ((hs.no_server hserver k).symm.trans hv) (by simp) }

theorem Stands.clearConnectionId : Stands { h with plugin.connectionId := 0 } e := { hs with }

theorem Stands.clearSamplePlugin :
    Stands { h with plugin.samplePlugin := none } { e with samplePlugin := none } :=
  { hs with samplePlugin := rfl }

theorem Stands.forgetHandler : Stands h { e with handler := none } :=
  { hs with handler := fun _ hi => by cases hi }

end Statements

variable {fromString : SamplePluginConfiguration → String → SamplePluginConfiguration}

theorem initializeStep_stands {service : S} {a : Answers I} {stmt next : InitializeAt}
    {h h' : Host S I N} {e : Holdings S I} (hs : Stands h e)
    (ha : InitializeAllows service a.root e stmt)
    (hstep : InitializeStep fromString service a stmt h next h') :
    ∃ e', Stands h' e' ∧ InitializeAllows service a.root e' next := by
  cases hstep with
  | setService =>
    subst ha
    exact ⟨_, hs.setService rfl (some service), rfl⟩
  | registerSink _ sv hsv =>
    subst ha
    obtain rfl := Option.some.inj (hs.service.symm.trans hsv)
    exact ⟨_, hs.registerSink rfl service, rfl⟩
  | rootFound _ i hr =>
    subst ha
    exact ⟨_, hs.root rfl rfl a, i, hr, by rw [hr]; rfl⟩
  | rootNull _ hr =>
    subst ha
    exact ⟨_, hs.root rfl rfl a, by rw [hr]; rfl⟩
  | configure _ i hi =>
    obtain ⟨j, hj, rfl⟩ := ha
    exact ⟨_, hs.configure fromString i a.configLine, j, hj, rfl⟩
  | registerNotification _ i hi =>
    obtain ⟨j, hj, rfl⟩ := ha
    obtain rfl := Option.some.inj (hs.samplePlugin.symm.trans hi)
    exact ⟨_, hs.registerNotification j rfl, j, hj, rfl⟩
  | registerJson _ i hi =>
    obtain ⟨j, hj, rfl⟩ := ha
    obtain rfl := Option.some.inj (hs.samplePlugin.symm.trans hi)
    exact ⟨_, hs.registerJson j, j, hj, rfl⟩
  | privateServer _ hc => exact ⟨e, hs, ha⟩
  | noServer _ hc =>
    obtain ⟨j, hj, rfl⟩ := ha
    exact ⟨_, hs, Or.inr ⟨j, none, hj, rfl⟩⟩
  | createEngine => exact ⟨e, hs.createEngine, ha⟩
  | constructServer _ i hi =>
    obtain ⟨j, hj, rfl⟩ := ha
    obtain rfl := Option.some.inj (hs.samplePlugin.symm.trans hi)
    exact ⟨_, hs.constructServer rfl rfl rfl, j, hj, rfl⟩
  | openServer _ k => exact ⟨e, hs.openServer k a.listens, ha⟩
  | announce _ k => exact ⟨e, hs.announce k, ha⟩
  | assignServer _ k =>
    obtain ⟨j, hj, rfl⟩ := ha
    exact ⟨_, hs.assignServer (some k), j, k, hj, rfl⟩
  | listening _ v hv hl =>
    obtain ⟨j, k, hj, rfl⟩ := ha
    exact ⟨_, hs, Or.inr ⟨j, some k, hj, rfl⟩⟩
  | notListening _ v hv hl => exact ⟨e, hs, ha⟩
  | deleteServer =>
    obtain ⟨j, k, hj, rfl⟩ := ha
    exact ⟨_, hs.deleteServer rfl rfl, j, k, hj, rfl⟩
  | clearServer =>
    obtain ⟨j, k, hj, rfl⟩ := ha
    exact ⟨_, hs.assignServer none, j, hj, rfl⟩
  | releaseEngine =>
    obtain ⟨j, hj, rfl⟩ := ha
    exact ⟨_, hs.releaseEngine, Or.inr ⟨j, none, hj, rfl⟩⟩
  | unregisterSink _ sv hsv =>
    subst ha
    obtain rfl := Option.some.inj (hs.service.symm.trans hsv)
    exact ⟨_, hs.unregisterSink rfl, rfl⟩
  | clearService =>
    subst ha
    exact ⟨_, hs.setService rfl none, Or.inl ⟨rfl, rfl⟩⟩

theorem deinitializeStep_stands {service : S} {i : I} {stmt next : DeinitializeAt}
    {h h' : Host S I N} {e : Holdings S I} (hs : Stands h e)
    (ha : DeinitializeAllows service i e stmt)
    (hstep : DeinitializeStep stmt h next h') :
    ∃ e', Stands h' e' ∧ DeinitializeAllows service i e' next := by
  cases hstep with
  | serverStarted _ k hk =>
    obtain ⟨server, rfl⟩ := ha
    obtain rfl : server = some k := hs.rpcServer.symm.trans hk
    exact ⟨_, hs, k, rfl⟩
  | noServer _ hk =>
    obtain ⟨server, rfl⟩ := ha
    obtain rfl : server = none := hs.rpcServer.symm.trans hk
    exact ⟨_, hs, rfl⟩
  | deleteServer =>
    obtain ⟨k, rfl⟩ := ha
    exact ⟨_, hs.deleteServer rfl rfl, k, rfl⟩
  | clearServer =>
    obtain ⟨k, rfl⟩ := ha
    exact ⟨_, hs.assignServer none, rfl⟩
  | releaseEngine => exact ⟨e, hs.releaseEngine, ha⟩
  | samplePlugin _ j hj => exact ⟨e, hs, ha⟩
  | noSamplePlugin _ hj =>
    subst ha
    have hnone := hs.samplePlugin.symm.trans hj
    cases hnone
  | unregisterSink _ sv hsv =>
    subst ha
    obtain rfl := Option.some.inj (hs.service.symm.trans hsv)
    exact ⟨_, hs.unregisterSink rfl, rfl⟩
  | unregisterNotification _ j hj =>
    subst ha
    obtain rfl := Option.some.inj (hs.samplePlugin.symm.trans hj)
    exact ⟨_, hs.unregisterNotification rfl, rfl⟩
  | releaseSamplePlugin _ j hj =>
    subst ha
    obtain rfl := Option.some.inj (hs.samplePlugin.symm.trans hj)
    exact ⟨_, (hs.release rfl rfl).forgetHandler, rfl⟩
  | clearConnectionId => exact ⟨e, hs.clearConnectionId, ha⟩
  | clearService =>
    subst ha
    exact ⟨_, hs.setService rfl none, rfl⟩
  | clearSamplePlugin =>
    subst ha
    exact ⟨_, hs.clearSamplePlugin, rfl⟩

structure Holdings.Coherent (activation : Option (S × Answers I)) (e : Holdings S I) : Prop where
  sink : ∀ sv, e.sink = some sv → e.service = some sv
  notified : ∀ i, e.notified = some i → e.held = some i
  server : ∀ k, e.server = some k → ∃ service a i, activation = some (service, a) ∧
    a.root = some i ∧ e.service = some service ∧ e.samplePlugin = some i ∧ e.held = some i

section Coherence
omit [DecidableEq S] [DecidableEq I] [DecidableEq N]
variable {activation : Option (S × Answers I)} {e : Holdings S I}

theorem coherent_of_no_server (hsink : e.sink = none ∨ e.sink = e.service)
    (hnotified : e.notified = none ∨ e.notified = e.held) (hserver : e.server = none) :
    e.Coherent activation := by
  constructor
  · intro sv hsv
    rcases hsink with hn | hs
    · rw [hn] at hsv
      cases hsv
    · exact hs.symm.trans hsv
  · intro i hi
    rcases hnotified with hn | hh
    · rw [hn] at hi
      cases hi
    · exact hh.symm.trans hi
  · intro k hk
    rw [hserver] at hk
    cases hk

theorem coherent_up {service : S} {a : Answers I} {i : I} (hr : a.root = some i)
    (rpcServer server : Option ℕ) :
    (up service i rpcServer server).Coherent (some (service, a)) := by
  constructor
  · intro sv hsv
    exact hsv
  · intro j hj
    exact hj
  · intro k hk
    exact ⟨service, a, i, rfl, hr, rfl, rfl, rfl⟩

theorem initializeAt_coherent {service : S} {a : Answers I} {stmt : InitializeAt}
    (h : InitializeAllows service a.root e stmt) : e.Coherent (some (service, a)) := by
  cases stmt with
  | setService | registerSink | clearService =>
    subst h
    exact coherent_of_no_server (.inl rfl) (.inl rfl) rfl
  | root | unregisterSink =>
    subst h
    exact coherent_of_no_server (.inr rfl) (.inl rfl) rfl
  | configure | registerNotification =>
    obtain ⟨i, hr, rfl⟩ := h
    exact coherent_of_no_server (.inr rfl) (.inl rfl) rfl
  | registerJson =>
    obtain ⟨i, hr, rfl⟩ := h
    exact coherent_of_no_server (.inr rfl) (.inr rfl) rfl
  | readConfig | createEngine | constructServer | releaseEngine | openServer | announce
  | assignServer =>
    obtain ⟨i, hr, rfl⟩ := h
    exact coherent_up hr _ _
  | isListening | deleteServer | clearServer =>
    obtain ⟨i, k, hr, rfl⟩ := h
    exact coherent_up hr _ _
  | done success =>
    rcases h with ⟨-, rfl⟩ | ⟨i, server, hr, rfl⟩
    · exact coherent_of_no_server (.inl rfl) (.inl rfl) rfl
    · exact coherent_up hr _ _

theorem deinitializeAt_coherent {service : S} {a : Answers I} {i : I} {stmt : DeinitializeAt}
    (hr : a.root = some i) (h : DeinitializeAllows service i e stmt) :
    e.Coherent (some (service, a)) := by
  cases stmt with
  | testServer | deleteServer | clearServer =>
    obtain ⟨k, rfl⟩ := h
    exact coherent_up hr _ _
  | releaseEngine | testSamplePlugin | unregisterSink =>
    subst h
    exact coherent_up hr _ _
  | unregisterNotification =>
    subst h
    exact coherent_of_no_server (.inl rfl) (.inr rfl) rfl
  | releaseSamplePlugin | clearConnectionId | clearService | clearSamplePlugin | done =>
    subst h
    exact coherent_of_no_server (.inl rfl) (.inl rfl) rfl

theorem pc_coherent {pc : Pc S I} (h : PcAllows activation e pc) : e.Coherent activation := by
  cases pc with
  | idle =>
    rcases h with rfl | ⟨service, a, i, server, rfl, hr, rfl⟩
    · exact coherent_of_no_server (.inl rfl) (.inl rfl) rfl
    · exact coherent_up hr _ _
  | initializing service a stmt =>
    obtain ⟨rfl, h⟩ := h
    exact initializeAt_coherent h
  | deinitializing service stmt =>
    obtain ⟨a, i, rfl, hr, h⟩ := h
    exact deinitializeAt_coherent hr h

end Coherence

def Invariant (s : State S I N) : Prop :=
  ∃ e, Stands s.host e ∧ PcAllows s.activation e s.pc

variable {grants : Reference S I → Bool}

theorem start_invariant : Invariant (start : State S I N) :=
  ⟨_, fresh_stands, Or.inl rfl⟩

theorem serve_notification {p p' : SamplePluginImplementation (Callback N)}
    {q : Request (Callback N)} {reply : Reply (Callback N)} (hq : ByClient q) (hp : p.Invariant)
    (hs : p.serve fromString q = .ok (reply, p')) :
    p'.Invariant ∧
      (Callback.notification ∈ p'.callbacks ↔ Callback.notification ∈ p.callbacks) := by
  obtain ⟨reply', p'', hok, hcallbacks, hinv⟩ :=
    SamplePluginImplementation.serve_spec fromString p q
  obtain ⟨rfl, rfl⟩ := Prod.mk.inj (Except.ok.inj (hok.symm.trans hs))
  refine ⟨hinv hp, ?_⟩
  rw [hcallbacks]
  cases q with
  | register n =>
    cases n with
    | notification => exact hq.elim
    | client n =>
      simp only [SamplePluginImplementation.view, SubscriptionRoster.apply]
      split <;> simp
  | unregister n =>
    cases n with
    | notification => exact hq.elim
    | client n =>
      simp [SamplePluginImplementation.view, SubscriptionRoster.apply, hp.nodup.mem_erase_iff]
  | _ => rfl

theorem step_preserves_invariant {s u : State S I N} {ev : Event S I N} (h : Invariant s)
    (hstep : Step fromString grants s ev u) : Invariant u := by
  obtain ⟨e, hs, ha⟩ := h
  cases hstep with
  | initializeCalled service a hp hm =>
    rw [hp] at ha
    rcases ha with rfl | ⟨sv, a', i, server, -, -, rfl⟩
    · exact ⟨_, hs, rfl, rfl⟩
    · exact absurd (hs.service.symm.trans hm.1) (by simp [up, rooted, watching])
  | initializing service a stmt next host hp hst hq =>
    rw [hp] at ha
    obtain ⟨hact, ha⟩ := ha
    obtain ⟨e', hs', ha'⟩ := initializeStep_stands hs ha hst
    exact ⟨e', hs', hact, ha'⟩
  | initializeReturned service a success hp =>
    rw [hp] at ha
    obtain ⟨hact, ⟨-, rfl⟩ | ⟨i, server, hr, rfl⟩⟩ := ha
    · exact ⟨_, hs, Or.inl rfl⟩
    · exact ⟨_, hs, Or.inr ⟨service, a, i, server, hact, hr, rfl⟩⟩
  | deinitializeCalled service hp hm =>
    rw [hp] at ha
    rcases ha with rfl | ⟨sv, a, i, server, hact, hr, rfl⟩
    · exact absurd (hs.service.symm.trans hm.1) (by simp [down])
    · obtain rfl : sv = service := Option.some.inj (hs.service.symm.trans hm.1)
      exact ⟨_, hs, a, i, hact, hr, server, rfl⟩
  | deinitializing service stmt next host hp hst hq =>
    rw [hp] at ha
    obtain ⟨a, i, hact, hr, ha⟩ := ha
    obtain ⟨e', hs', ha'⟩ := deinitializeStep_stands hs ha hst
    exact ⟨e', hs', a, i, hact, hr, ha'⟩
  | deinitializeReturned service hp =>
    rw [hp] at ha
    obtain ⟨a, i, hact, hr, rfl⟩ := ha
    exact ⟨_, hs, Or.inl rfl⟩
  | deactivated service id hr =>
    unfold State.deactivated
    split <;> exact ⟨e, hs, ha⟩
  | acquire r v hv => exact ⟨e, hs, ha⟩
  | acquired r v hv hr => exact ⟨e, hs, ha⟩
  | request channel i q reply p hq hj hserve =>
    obtain ⟨hp, hn⟩ := serve_notification hq (hs.implementations i) hserve
    exact ⟨e, hs.modify hp (hn.trans (hs.notified i)) fun _ _ => Iff.rfl, ha⟩
  | constructed i hi =>
    have hnot : e.notified ≠ some i := by
      intro hn
      rw [hs.held, if_pos ((pc_coherent ha).notified i hn)] at hi
      exact absurd hi (by decide)
    refine ⟨e, hs.modify SamplePluginImplementation.initial_invariant ?_ fun _ _ => Iff.rfl, ha⟩
    constructor
    · intro hm
      exact absurd hm List.not_mem_nil
    · intro hn
      exact absurd hn hnot

theorem run_invariant {s u : State S I N} {es : List (Event S I N)}
    (h : Run (Step fromString grants) s es u) (hs : Invariant s) : Invariant u :=
  h.invariant (fun _ _ _ hi hstep => step_preserves_invariant hi hstep) hs

omit [DecidableEq S] [DecidableEq I] [DecidableEq N] in
theorem deleteServer_servers {h : Host S I N} {k : ℕ} (hk : h.plugin.rpcServer ≠ some k)
    (hv : ∃ v, h.servers k = some v) : ∃ v, h.deleteServer.servers k = some v := by
  unfold Host.deleteServer
  split
  · next l hl =>
    have hne : k ≠ l := fun hkl => hk (hkl ▸ hl)
    simpa [hne] using hv
  · exact hv

theorem initializeStep_servers {service : S} {a : Answers I} {stmt next : InitializeAt}
    {h h' : Host S I N} {k : ℕ} (hstep : InitializeStep fromString service a stmt h next h')
    (hk : stmt = .deleteServer → h.plugin.rpcServer ≠ some k) (hv : ∃ v, h.servers k = some v) :
    ∃ v, h'.servers k = some v := by
  cases hstep with
  | constructServer _ i hi =>
    by_cases hc : k = h.created
    · simp [Host.constructServer, hc]
    · simpa [Host.constructServer, hc] using hv
  | openServer _ l =>
    by_cases hl : k = l
    · subst hl
      simpa [Host.openServer] using hv
    · simpa [Host.openServer, hl] using hv
  | announce _ l => simpa using hv
  | deleteServer => exact deleteServer_servers (hk rfl) hv
  | _ => exact hv

theorem deinitializeStep_servers {stmt next : DeinitializeAt} {h h' : Host S I N} {k : ℕ}
    (hstep : DeinitializeStep stmt h next h')
    (hk : stmt = .deleteServer → h.plugin.rpcServer ≠ some k) (hv : ∃ v, h.servers k = some v) :
    ∃ v, h'.servers k = some v := by
  cases hstep with
  | deleteServer => exact deleteServer_servers (hk rfl) hv
  | _ => exact hv

/-- The destructor waits, so no Acquire ever runs in a server that is gone. -/
def AcquiringInServers (s : State S I N) : Prop :=
  ∀ r ∈ s.acquiring, ∃ v, s.host.servers r.server = some v

theorem step_acquiring {s u : State S I N} {ev : Event S I N} (h : AcquiringInServers s)
    (hstep : Step fromString grants s ev u) : AcquiringInServers u := by
  intro r hr
  cases hstep with
  | initializing service a stmt next host hp hst hq =>
    exact initializeStep_servers hst (fun hd => hq hd r hr) (h r hr)
  | deinitializing service stmt next host hp hst hq =>
    exact deinitializeStep_servers hst (fun hd => hq hd r hr) (h r hr)
  | deactivated service id hs =>
    rw [deactivated_host]
    exact h r (by rwa [deactivated_acquiring] at hr)
  | acquire r' v hv =>
    rcases List.mem_cons.mp hr with rfl | hr
    · exact ⟨v, hv⟩
    · exact h r hr
  | acquired r' v hv hm => exact h r (List.mem_of_mem_erase hr)
  | _ => exact h r hr

theorem registered_service {s : State S I N} (h : Invariant s) {service : S}
    (hr : 0 < s.host.sinks service) : s.host.plugin.service = some service := by
  obtain ⟨e, hs, ha⟩ := h
  have hsink : e.sink = some service := by
    by_contra hn
    rw [hs.sinks, if_neg hn] at hr
    exact absurd hr (by decide)
  exact hs.service.trans ((pc_coherent ha).sink service hsink)

theorem step_jobs {s u : State S I N} {ev : Event S I N} (h : Invariant s) (hj : none ∉ s.jobs)
    (hstep : Step fromString grants s ev u) : none ∉ u.jobs := by
  cases hstep with
  | deactivated service id hr =>
    unfold State.deactivated
    split
    · simpa [registered_service h hr] using hj
    · exact hj
  | _ => exact hj

theorem server_pointers {s : State S I N} (h : Invariant s) {k : ℕ} {v : ComRpcServer S I}
    (hv : s.host.servers k = some v) :
    ∃ service a i, s.activation = some (service, a) ∧ a.root = some i ∧
      v.shell = some service ∧ v.samplePlugin = some i ∧ s.host.plugin.service = some service ∧
      s.host.plugin.samplePlugin = some i ∧ s.host.held.balance i = 1 := by
  obtain ⟨e, hs, ha⟩ := h
  have hk := (hs.servers k).mp ⟨v, hv⟩
  obtain ⟨service, a, i, hact, hr, hservice, hplugin, hheld⟩ := (pc_coherent ha).server k hk
  obtain ⟨hpointer, hshell⟩ := hs.pointers k v hv
  exact ⟨service, a, i, hact, hr, hshell.trans hservice, hpointer.trans hheld,
    hs.service.trans hservice, hs.samplePlugin.trans hplugin, by rw [hs.held, if_pos hheld]⟩

/-- In every reachable state a registered sink has its shell, and no lost connection has
ever met a null one; a server that exists holds the pointers of the present activation, whose
reference from Root is not released, no Acquire runs outside such a server, and one that
returns hands out null or a reference on one of these two objects. -/
theorem pointers_outlive_their_users {es : List (Event S I N)} {s : State S I N}
    (h : Run (Step fromString grants) start es s) :
    (∀ service, 0 < s.host.sinks service → s.host.plugin.service = some service) ∧
    none ∉ s.jobs ∧
    (∀ k v, s.host.servers k = some v → ∃ service a i, s.activation = some (service, a) ∧
      a.root = some i ∧ v.shell = some service ∧ v.samplePlugin = some i ∧
      s.host.plugin.service = some service ∧ s.host.plugin.samplePlugin = some i ∧
      s.host.held.balance i = 1) ∧
    (∀ r ∈ s.acquiring, ∃ v, s.host.servers r.server = some v) ∧
    (∀ r result u, Step fromString grants s (.acquired r result) u → result = none ∨
      ∃ service a i, s.activation = some (service, a) ∧ a.root = some i ∧
        s.host.held.balance i = 1 ∧
        ((r.interfaceId = .samplePlugin ∧ result = some (.samplePlugin i)) ∨
          (r.interfaceId = .shell ∧ result = some (.shell service)))) := by
  have hi := run_invariant h start_invariant
  refine ⟨fun service => registered_service hi, ?_, fun k v => server_pointers hi, ?_, ?_⟩
  · exact Run.persists Invariant (fun s => none ∉ s.jobs) (fun _ => False)
      (fun _ _ _ hs hstep => step_preserves_invariant hs hstep)
      (fun _ _ _ hs hj _ hstep => step_jobs hs hj hstep)
      h start_invariant List.not_mem_nil (fun _ _ => id)
  · exact h.invariant (fun _ _ _ ha hstep => step_acquiring ha hstep)
      fun r hr => absurd hr List.not_mem_nil
  · intro r result u hstep
    cases hstep with
    | acquired r v hv hr =>
      obtain ⟨service, a, i, hact, hroot, hshell, hplugin, -, -, hheld⟩ := server_pointers hi hv
      rcases v.acquire_cases grants r.interfaceId r.versionId with hn | ⟨hid, j, hj, hres⟩ |
        ⟨hid, sv, hsv, hres⟩
      · exact Or.inl hn
      · obtain rfl := Option.some.inj (hplugin.symm.trans hj)
        exact Or.inr ⟨service, a, i, hact, hroot, hheld, Or.inl ⟨hid, hres⟩⟩
      · obtain rfl := Option.some.inj (hshell.symm.trans hsv)
        exact Or.inr ⟨service, a, i, hact, hroot, hheld, Or.inr ⟨hid, hres⟩⟩

/-- The private server is up and a client's Acquire in it returns a reference. -/
theorem pointers_outlive_their_users_serving :
    ∃ (es : List (Event ℕ ℕ ℕ)) (s u : State ℕ ℕ ℕ),
      Run (Step (fun _ _ => ⟨⟨false, false, []⟩, true⟩) fun _ => true) start es s ∧
      Step (fun _ _ => ⟨⟨false, false, []⟩, true⟩) (fun _ => true) s
        (.acquired ⟨1, .samplePlugin, 1⟩ (some (.samplePlugin 7))) u ∧
      s.host.plugin.service = some 0 := by
  obtain ⟨es, -, hr⟩ := (UndisturbedCalls.initialize_reaches
    (fun _ _ => ⟨⟨false, false, []⟩, true⟩) (fun _ => true) (start : State ℕ ℕ ℕ) 0
    ⟨some 7, some 5, "", true⟩ rfl ⟨rfl, rfl⟩ rfl).leave rfl
  have ha := hr.tail (.acquire _ ⟨1, .samplePlugin, 1⟩ ⟨some 7, some 0, true⟩ rfl)
  exact ⟨_, _, _, ha, .acquired _ ⟨1, .samplePlugin, 1⟩ ⟨some 7, some 0, true⟩ rfl (by simp),
    (pointers_outlive_their_users ha).1 0 (by decide)⟩

end Holding

end LifecycleHoldings
