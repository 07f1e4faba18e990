import SampleThunderPlugin.LifecycleHoldings

/-! References that clients get on implementations: from an Acquire on the private server and
from QueryInterface on the plugin itself, which passes a request for ISamplePlugin on to
whatever _samplePlugin points to. An implementation lives while the plugin or a client holds
a reference on it; the Release that takes the last one destroys it. -/
namespace ClientReferences

open LabelledRuns PluginLifecycle
open SamplePlugin (Host)
open LifecycleHoldings (Holdings Stands InitializeAllows DeinitializeAllows PcAllows)

inductive PluginInterface where
  | plugin
  | dispatcher
  | samplePlugin
  | other (id : ℕ)
  deriving DecidableEq, Repr

inductive Answer (I : Type) where
  | self
  | samplePlugin (i : I)
  deriving DecidableEq, Repr

variable {S I N : Type}

/-- SamplePlugin's interface map: two entries and one aggregate. -/
def queryInterface (p : SamplePlugin S I) : PluginInterface → Option (Answer I)
  | .plugin | .dispatcher => some .self
  | .samplePlugin => p.samplePlugin.map .samplePlugin
  | .other _ => none

/-- An implementation is destroyed by the Release that leaves it without a reference; what
holds its pointer then may still call it, but that brings nothing back. Its place is free
for another object. -/
structure State (S I N : Type) where
  lifecycle : PluginLifecycle.State S I N
  /-- References that clients took on implementations and gave back. -/
  clients : ReferenceLedger I
  destroyed : List I

inductive Event (S I N : Type) where
  | lifecycle (e : PluginLifecycle.Event S I N)
  | query (id : PluginInterface) (answer : Option (Answer I))
  | addRef (i : I)
  | release (i : I)

def start : State S I N := ⟨PluginLifecycle.start, .empty, []⟩

def State.references (s : State S I N) (i : I) : ℤ :=
  s.lifecycle.host.held.balance i + s.clients.balance i

def State.released [DecidableEq I] (s : State S I N) (i : I) : State S I N :=
  { s with destroyed := if s.references i ≤ 0 then i :: s.destroyed else s.destroyed }

/-- Deinitialize has given back its reference and not yet cleared _samplePlugin. -/
def Withdrawing : Pc S I → Prop
  | .deinitializing _ .clearConnectionId | .deinitializing _ .clearService
  | .deinitializing _ .clearSamplePlugin => True
  | _ => False

instance (pc : Pc S I) : Decidable (Withdrawing pc) :=
  match pc with
  | .idle | .initializing _ _ _ => isFalse id
  | .deinitializing _ stmt => by cases stmt <;> first | exact isTrue trivial | exact isFalse id

theorem initialize_backed {service : S} {root : Option I} {stmt : InitializeAt}
    {e : Holdings S I} (h : InitializeAllows service root e stmt) :
    e.samplePlugin = e.held := by
  cases stmt with
  | setService | registerSink | root | unregisterSink | clearService =>
    subst h
    rfl
  | isListening | deleteServer | clearServer =>
    obtain ⟨i, k, -, rfl⟩ := h
    rfl
  | done success =>
    rcases h with ⟨-, rfl⟩ | ⟨i, server, -, rfl⟩ <;> rfl
  | _ =>
    obtain ⟨i, -, rfl⟩ := h
    rfl

theorem deinitialize_backed {service : S} {i : I} {stmt : DeinitializeAt} {e : Holdings S I}
    (h : DeinitializeAllows service i e stmt) :
    if Withdrawing (.deinitializing service stmt : Pc S I) then e.held = none
    else e.samplePlugin = e.held := by
  cases stmt with
  | testServer | deleteServer | clearServer =>
    obtain ⟨k, rfl⟩ := h
    rfl
  | _ =>
    subst h
    rfl

theorem pointer_backed {activation : Option (S × Answers I)} {e : Holdings S I} {pc : Pc S I}
    (h : PcAllows activation e pc) :
    if Withdrawing pc then e.held = none else e.samplePlugin = e.held := by
  cases pc with
  | idle =>
    rcases h with rfl | ⟨service, a, i, server, -, -, rfl⟩ <;> rfl
  | initializing service a stmt => exact initialize_backed h.2
  | deinitializing service stmt =>
    obtain ⟨a, i, -, -, h⟩ := h
    exact deinitialize_backed h

section Steps
variable [DecidableEq S] [DecidableEq I] [DecidableEq N]
variable (fromString : SamplePluginConfiguration → String → SamplePluginConfiguration)
variable (grants : Reference S I → Bool)

/-- What a step of the lifecycle does outside the plugin: an Acquire adds a reference for its
client, the Release of Deinitialize may destroy, a new object takes its place. -/
def State.settle (s : State S I N) (e : PluginLifecycle.Event S I N)
    (u : PluginLifecycle.State S I N) : State S I N :=
  match e with
  | .constructed i => { s with lifecycle := u, destroyed := s.destroyed.filter (· ≠ i) }
  | .deinitializing .releaseSamplePlugin =>
    match s.lifecycle.host.plugin.samplePlugin with
    | some i => ({ s with lifecycle := u } : State S I N).released i
    | none => { s with lifecycle := u }
  | .acquired _ (some (.samplePlugin i)) =>
    { s with lifecycle := u, clients := s.clients.addRef i }
  | _ => { s with lifecycle := u }

/-- An object takes a place on which nobody holds a reference, and Root returns one that has
not been destroyed. -/
def Placed (s : State S I N) (e : PluginLifecycle.Event S I N) : Prop :=
  (∀ i, e = .constructed i → s.references i ≤ 0) ∧
  ∀ service a i, s.lifecycle.pc = .initializing service a .root → a.root = some i →
    e = .initializing .root → i ∉ s.destroyed

/-- A client adds a reference through one that it has, and gives back only what it took. -/
inductive Step : State S I N → Event S I N → State S I N → Prop where
  | lifecycle (s e u) (h : PluginLifecycle.Step fromString grants s.lifecycle e u)
      (hp : Placed s e) : Step s (.lifecycle e) (s.settle e u)
  | querySelf (s id) (hq : queryInterface s.lifecycle.host.plugin id = some .self) :
      Step s (.query id (some .self)) s
  | queryAggregate (s id i)
      (hq : queryInterface s.lifecycle.host.plugin id = some (.samplePlugin i)) :
      Step s (.query id (some (.samplePlugin i))) { s with clients := s.clients.addRef i }
  | queryRefused (s id) (hq : queryInterface s.lifecycle.host.plugin id = none) :
      Step s (.query id none) s
  | addRef (s i) (hi : 0 < s.clients.balance i) :
      Step s (.addRef i) { s with clients := s.clients.addRef i }
  | release (s i) (hi : 0 < s.clients.balance i) :
      Step s (.release i) (({ s with clients := s.clients.release i } : State S I N).released i)

structure Invariant (s : State S I N) : Prop where
  lifecycle : LifecycleHoldings.Invariant s.lifecycle
  clients : ∀ i, 0 ≤ s.clients.balance i
  living : ∀ i, 0 < s.lifecycle.host.held.balance i → i ∉ s.destroyed

variable {fromString} {grants}

omit [DecidableEq S] [DecidableEq N] in
@[simp] theorem mem_released {s : State S I N} {i j : I} :
    j ∈ (s.released i).destroyed ↔ j ∈ s.destroyed ∨ j = i ∧ s.references i ≤ 0 := by
  unfold State.released
  by_cases h : s.references i ≤ 0
  · simp [h, or_comm]
  · simp [h]

omit [DecidableEq S] [DecidableEq N] in
@[simp] theorem released_lifecycle (s : State S I N) (i : I) :
    (s.released i).lifecycle = s.lifecycle := rfl

omit [DecidableEq S] [DecidableEq N] in
@[simp] theorem released_clients (s : State S I N) (i : I) :
    (s.released i).clients = s.clients := rfl

omit [DecidableEq S] [DecidableEq N] in
theorem addRef_nonneg {clients : ReferenceLedger I} (h : ∀ i, 0 ≤ clients.balance i) (j i : I) :
    0 ≤ (clients.addRef j).balance i := by
  have hi := h i
  rcases eq_or_ne i j with rfl | hij
  · rw [ReferenceLedger.balance_addRef_self]
    omega
  · rwa [ReferenceLedger.balance_addRef_ne _ hij]

omit [DecidableEq S] [DecidableEq N] in
theorem release_nonneg {clients : ReferenceLedger I} (h : ∀ i, 0 ≤ clients.balance i) {j : I}
    (hj : 0 < clients.balance j) (i : I) : 0 ≤ (clients.release j).balance i := by
  have hi := h i
  rcases eq_or_ne i j with rfl | hij
  · rw [ReferenceLedger.balance_release_self]
    omega
  · rwa [ReferenceLedger.balance_release_ne _ hij]

theorem initializeStep_held {service : S} {a : Answers I} {stmt next : InitializeAt}
    {h h' : Host S I N} (hstep : InitializeStep fromString service a stmt h next h') :
    h'.held = h.held ∨ stmt = .root ∧ ∃ i, a.root = some i ∧ h'.held = h.held.addRef i := by
  cases hstep with
  | rootFound _ i hr => exact Or.inr ⟨rfl, i, hr, by simp [Host.root, hr]⟩
  | rootNull _ hr => exact Or.inl (by simp [Host.root, hr])
  | announce _ k => exact Or.inl (SamplePlugin.announce_held _ k)
  | deleteServer => exact Or.inl (SamplePlugin.deleteServer_held _)
  | _ => exact Or.inl rfl

inductive Outcome (s : State S I N) (e : PluginLifecycle.Event S I N)
    (u : PluginLifecycle.State S I N) : State S I N → Prop where
  | kept (hh : u.host.held = s.lifecycle.host.held) : Outcome s e u { s with lifecycle := u }
  | rooted (i) (hi : i ∉ s.destroyed) (hh : u.host.held = s.lifecycle.host.held.addRef i) :
      Outcome s e u { s with lifecycle := u }
  | withdrawn (i) (he : e = .deinitializing .releaseSamplePlugin)
      (hi : s.lifecycle.host.plugin.samplePlugin = some i)
      (hh : u.host.held = s.lifecycle.host.held.release i) :
      Outcome s e u (({ s with lifecycle := u } : State S I N).released i)
  | acquired (i) (hh : u.host.held = s.lifecycle.host.held) :
      Outcome s e u { s with lifecycle := u, clients := s.clients.addRef i }
  | constructed (i) (he : e = .constructed i) (hr : s.references i ≤ 0)
      (hh : u.host.held = s.lifecycle.host.held) :
      Outcome s e u { s with lifecycle := u, destroyed := s.destroyed.filter (· ≠ i) }

theorem deinitializeStep_outcome {s : State S I N} {u : PluginLifecycle.State S I N}
    {stmt next : DeinitializeAt} {host : Host S I N}
    (hstep : DeinitializeStep stmt s.lifecycle.host next host) (hu : u.host = host) :
    Outcome s (.deinitializing stmt) u (s.settle (.deinitializing stmt) u) := by
  cases hstep with
  | releaseSamplePlugin _ i hi =>
    simp only [State.settle, hi]
    exact .withdrawn i rfl hi (congrArg Host.held hu)
  | deleteServer =>
    exact .kept ((congrArg Host.held hu).trans (SamplePlugin.deleteServer_held _))
  | _ => exact .kept ((congrArg Host.held hu).trans rfl)

theorem lifecycle_outcome {s : State S I N} {e : PluginLifecycle.Event S I N}
    {u : PluginLifecycle.State S I N}
    (hstep : PluginLifecycle.Step fromString grants s.lifecycle e u) (hplaced : Placed s e) :
    Outcome s e u (s.settle e u) := by
  cases hstep with
  | initializing service a stmt next host hp hst hq =>
    rcases initializeStep_held hst with hh | ⟨rfl, i, hi, hh⟩
    · exact .kept hh
    · exact .rooted i (hplaced.2 service a i hp hi rfl) hh
  | deinitializing service stmt next host hp hst hq => exact deinitializeStep_outcome hst rfl
  | deactivated service id hr => exact .kept (by rw [deactivated_host])
  | acquired r v hv hr =>
    generalize v.acquire grants r.interfaceId r.versionId = result
    cases result with
    | none => exact .kept rfl
    | some reference =>
      cases reference with
      | samplePlugin i => exact .acquired i rfl
      | shell service => exact .kept rfl
  | constructed i hi => exact .constructed i rfl (hplaced.1 i rfl) rfl
  | _ => exact .kept rfl

omit [DecidableEq S] [DecidableEq N] in
theorem outcome_lifecycle {s v : State S I N} {e : PluginLifecycle.Event S I N}
    {u : PluginLifecycle.State S I N} (ho : Outcome s e u v) : v.lifecycle = u := by
  cases ho <;> rfl

theorem outcome_preserves_invariant {s v : State S I N} {e : PluginLifecycle.Event S I N}
    {u : PluginLifecycle.State S I N} (h : Invariant s) (hu : LifecycleHoldings.Invariant u)
    (ho : Outcome s e u v) : Invariant v := by
  cases ho with
  | kept hh => exact ⟨hu, h.clients, fun i hi => h.living i (by rwa [← hh])⟩
  | rooted i hi hh =>
    refine ⟨hu, h.clients, ?_⟩
    intro j hj
    rcases eq_or_ne j i with rfl | hji
    · exact hi
    · rw [hh, ReferenceLedger.balance_addRef_ne _ hji] at hj
      exact h.living j hj
  | withdrawn i he hi hh =>
    refine ⟨hu, h.clients, ?_⟩
    intro j hj
    have hc := h.clients j
    rw [released_lifecycle] at hj
    rw [mem_released]
    rintro (hmem | ⟨rfl, hr⟩)
    · refine h.living j ?_ hmem
      rw [hh] at hj
      rcases eq_or_ne j i with rfl | hji
      · rw [ReferenceLedger.balance_release_self] at hj
        omega
      · rwa [ReferenceLedger.balance_release_ne _ hji] at hj
    · simp only [State.references] at hj hr
      omega
  | acquired i hh =>
    exact ⟨hu, addRef_nonneg h.clients i, fun j hj => h.living j (by rwa [← hh])⟩
  | constructed i he hr hh =>
    refine ⟨hu, h.clients, ?_⟩
    intro j hj hmem
    exact h.living j (by rwa [← hh]) (List.mem_of_mem_filter hmem)

theorem step_preserves_invariant {s u : State S I N} {e : Event S I N} (h : Invariant s)
    (hstep : Step fromString grants s e u) : Invariant u := by
  cases hstep with
  | lifecycle e u hstep hp =>
    exact outcome_preserves_invariant h
      (LifecycleHoldings.step_preserves_invariant h.lifecycle hstep) (lifecycle_outcome hstep hp)
  | querySelf id hq => exact h
  | queryAggregate id i hq => exact ⟨h.lifecycle, addRef_nonneg h.clients i, h.living⟩
  | queryRefused id hq => exact h
  | addRef i hi => exact ⟨h.lifecycle, addRef_nonneg h.clients i, h.living⟩
  | release i hi =>
    have hclients := release_nonneg h.clients hi
    refine ⟨h.lifecycle, hclients, ?_⟩
    intro j hj
    have hc := hclients j
    rw [mem_released]
    rintro (hmem | ⟨rfl, hr⟩)
    · exact h.living j hj hmem
    · simp only [released_lifecycle, State.references] at hj hr
      omega

theorem run_invariant {s u : State S I N} {es : List (Event S I N)}
    (h : Run (Step fromString grants) s es u) (hs : Invariant s) : Invariant u :=
  h.invariant (fun _ _ _ hi hstep => step_preserves_invariant hi hstep) hs

theorem start_invariant : Invariant (start : State S I N) :=
  ⟨LifecycleHoldings.start_invariant, fun i => by simp [start], fun i _ => by simp [start]⟩

theorem pointer_living {s : State S I N} (h : Invariant s) {i : I}
    (hi : s.lifecycle.host.plugin.samplePlugin = some i)
    (hw : ¬ Withdrawing s.lifecycle.pc) : i ∉ s.destroyed := by
  obtain ⟨e, hs, ha⟩ := h.lifecycle
  have hb := pointer_backed ha
  rw [if_neg hw, ← hs.samplePlugin, hi] at hb
  refine h.living i ?_
  rw [hs.held i, if_pos hb.symm]
  decide

theorem window_unheld {s : State S I N} (h : Invariant s) (hw : Withdrawing s.lifecycle.pc)
    (i : I) : s.lifecycle.host.held.balance i = 0 := by
  obtain ⟨e, hs, ha⟩ := h.lifecycle
  have hb := pointer_backed ha
  rw [if_pos hw] at hb
  rw [hs.held i, hb, if_neg (by simp)]

theorem acquired_living {s : State S I N} (h : Invariant s) {r : Acquisition} {i : I}
    {u : PluginLifecycle.State S I N}
    (hstep : PluginLifecycle.Step fromString grants s.lifecycle
      (.acquired r (some (.samplePlugin i))) u) : i ∉ s.destroyed := by
  generalize hres : some (Reference.samplePlugin i) = result at hstep
  cases hstep with
  | acquired r v hv hr =>
    obtain ⟨service, a, j, -, -, hshell, hplugin, -, -, hheld⟩ :=
      LifecycleHoldings.server_pointers h.lifecycle hv
    rcases v.acquire_cases grants r.interfaceId r.versionId with hn | ⟨-, k, hk, hk'⟩ |
      ⟨-, sv, -, hsv⟩
    · rw [hn] at hres
      cases hres
    · rw [hk'] at hres
      cases hres
      obtain rfl := Option.some.inj (hk.symm.trans hplugin)
      exact h.living i (by omega)
    · rw [hsv] at hres
      cases hres

/-- The statements of the two calls that go through _samplePlugin. -/
def GoesThrough : PluginLifecycle.Event S I N → Prop
  | .initializing stmt => stmt = .configure ∨ stmt = .registerNotification
  | .deinitializing stmt => stmt = .unregisterNotification ∨ stmt = .releaseSamplePlugin
  | _ => False

theorem goesThrough_not_withdrawing {s u : PluginLifecycle.State S I N}
    {e : PluginLifecycle.Event S I N} (h : PluginLifecycle.Step fromString grants s e u)
    (he : GoesThrough e) : ¬ Withdrawing s.pc := by
  cases h with
  | initializing service a stmt next host hp hst hq =>
    rw [hp]
    exact id
  | deinitializing service stmt next host hp hst hq =>
    rw [hp]
    rcases he with rfl | rfl <;> exact id
  | _ => exact he.elim

/-- The pointer is cleared, or another object takes i's place. -/
def EndsWindow (i : I) (g : Event S I N) : Prop :=
  g = .lifecycle (.deinitializing .clearSamplePlugin) ∨ g = .lifecycle (.constructed i)

structure Window (i : I) (s : State S I N) : Prop where
  withdrawing : Withdrawing s.lifecycle.pc
  pointer : s.lifecycle.host.plugin.samplePlugin = some i
  gone : s.clients.balance i = 0 → i ∈ s.destroyed

theorem window_lifecycle {s u : PluginLifecycle.State S I N} {e : PluginLifecycle.Event S I N}
    (h : PluginLifecycle.Step fromString grants s e u) (hw : Withdrawing s.pc)
    (he : e ≠ .deinitializing .clearSamplePlugin) :
    Withdrawing u.pc ∧ u.host.plugin.samplePlugin = s.host.plugin.samplePlugin ∧
      e ≠ .deinitializing .releaseSamplePlugin := by
  cases h with
  | deinitializing service stmt next host hp hst hq =>
    rw [hp] at hw
    cases hst with
    | clearConnectionId => exact ⟨trivial, rfl, by simp⟩
    | clearService => exact ⟨trivial, rfl, by simp⟩
    | clearSamplePlugin => exact absurd rfl he
    | _ => exact hw.elim
  | initializing service a stmt next host hp hst hq =>
    rw [hp] at hw
    exact hw.elim
  | initializeCalled service a hp hm | initializeReturned service a success hp
  | deinitializeCalled service hp hm | deinitializeReturned service hp =>
    rw [hp] at hw
    exact hw.elim
  | deactivated service id hr =>
    refine ⟨?_, by rw [deactivated_host], by simp⟩
    unfold PluginLifecycle.State.deactivated
    split <;> exact hw
  | _ => exact ⟨hw, rfl, by simp⟩

theorem window_addRef {s : State S I N} {i j : I} (h : Invariant s) (hw : Window i s)
    (hj : (s.clients.addRef j).balance i = 0) : i ∈ s.destroyed := by
  have hc := h.clients i
  rcases eq_or_ne i j with rfl | hij
  · rw [ReferenceLedger.balance_addRef_self] at hj
    omega
  · rw [ReferenceLedger.balance_addRef_ne _ hij] at hj
    exact hw.gone hj

theorem window_outcome {s v : State S I N} {e : PluginLifecycle.Event S I N}
    {u : PluginLifecycle.State S I N} {i : I} (h : Invariant s) (hw : Window i s)
    (ho : Outcome s e u v) (hrelease : e ≠ .deinitializing .releaseSamplePlugin)
    (hplace : e ≠ .constructed i) :
    i ∈ v.destroyed ↔ i ∈ s.destroyed ∨ v.clients.balance i = 0 := by
  cases ho with
  | kept hh | rooted j hj hh => exact (or_iff_left_of_imp hw.gone).symm
  | withdrawn j he hj hh => exact absurd he hrelease
  | acquired j hh => exact (or_iff_left_of_imp (window_addRef h hw)).symm
  | constructed j he hr hh =>
    have hij : i ≠ j := by
      rintro rfl
      exact hplace he
    simp only [List.mem_filter, hij, ne_eq, not_false_eq_true, decide_true, and_true]
    exact (or_iff_left_of_imp hw.gone).symm

/-- While the window lasts, i goes exactly when no client holds a reference on it, and stays. -/
theorem window_step {s u : State S I N} {g : Event S I N} {i : I} (h : Invariant s)
    (hw : Window i s) (hstep : Step fromString grants s g u) (hg : ¬ EndsWindow i g) :
    Window i u ∧ (i ∈ u.destroyed ↔ i ∈ s.destroyed ∨ u.clients.balance i = 0) := by
  have hu := step_preserves_invariant h hstep
  have hmore : ∀ j, (s.clients.addRef j).balance i = 0 → i ∈ s.destroyed :=
    fun _ => window_addRef h hw
  cases hstep with
  | lifecycle e u hstep hp =>
    have hclear : e ≠ .deinitializing .clearSamplePlugin := fun hc => hg (Or.inl (by rw [hc]))
    obtain ⟨hwithdrawing, hpointer, hrelease⟩ := window_lifecycle hstep hw.withdrawing hclear
    have ho := lifecycle_outcome hstep hp
    have hv := outcome_lifecycle ho
    have hdestroyed := window_outcome h hw ho hrelease fun hc => hg (Or.inr (by rw [hc]))
    refine ⟨⟨?_, ?_, fun hc => hdestroyed.mpr (Or.inr hc)⟩, hdestroyed⟩
    · rwa [hv]
    · rw [hv, hpointer, hw.pointer]
  | querySelf id hq => exact ⟨hw, (or_iff_left_of_imp hw.gone).symm⟩
  | queryRefused id hq => exact ⟨hw, (or_iff_left_of_imp hw.gone).symm⟩
  | queryAggregate id j hq =>
    exact ⟨⟨hw.withdrawing, hw.pointer, hmore j⟩, (or_iff_left_of_imp (hmore j)).symm⟩
  | addRef j hj =>
    exact ⟨⟨hw.withdrawing, hw.pointer, hmore j⟩, (or_iff_left_of_imp (hmore j)).symm⟩
  | release j hj =>
    -- in the window only clients hold references
    have hheld := window_unheld h hw.withdrawing j
    have hiff : i ∈ (({ s with clients := s.clients.release j } : State S I N).released
        j).destroyed ↔ i ∈ s.destroyed ∨ (s.clients.release j).balance i = 0 := by
      rw [mem_released]
      rcases eq_or_ne i j with rfl | hij
      · have hc := hu.clients i
        simp only [released_clients] at hc
        simp only [State.references, hheld, true_and]
        exact or_congr_right ⟨fun hr => by omega, fun hr => by omega⟩
      · rw [ReferenceLedger.balance_release_ne _ hij]
        simp only [hij, false_and, or_false]
        exact (or_iff_left_of_imp hw.gone).symm
    exact ⟨⟨hw.withdrawing, hw.pointer, fun hc => hiff.mpr (Or.inr hc)⟩, hiff⟩

theorem window_opens {s u : State S I N} {i : I} (h : Invariant s)
    (hi : s.lifecycle.host.plugin.samplePlugin = some i)
    (hstep : Step fromString grants s (.lifecycle (.deinitializing .releaseSamplePlugin)) u) :
    Window i u ∧ (i ∈ u.destroyed ↔ u.clients.balance i = 0) := by
  have hu := step_preserves_invariant h hstep
  cases hstep with
  | lifecycle _ u hstep hp =>
    have hliving := pointer_living h hi (goesThrough_not_withdrawing hstep (Or.inr rfl))
    have hv := outcome_lifecycle (lifecycle_outcome hstep hp)
    have hafter : Withdrawing u.pc ∧ u.host.plugin.samplePlugin = some i := by
      cases hstep with
      | deinitializing service _ next host hpc hst hq =>
        cases hst with
        | releaseSamplePlugin j hj => exact ⟨trivial, hi⟩
    have hheld : u.host.held.balance i = 0 := by
      have hw := window_unheld hu (by rw [hv]; exact hafter.1) i
      rwa [hv] at hw
    have hset : s.settle (.deinitializing .releaseSamplePlugin) u =
        ({ s with lifecycle := u } : State S I N).released i := by
      simp only [State.settle, hi]
    rw [hset]
    have hiff : i ∈ (({ s with lifecycle := u } : State S I N).released i).destroyed ↔
        s.clients.balance i = 0 := by
      have hc := h.clients i
      simp only [mem_released, State.references, hheld, true_and]
      constructor
      · rintro (hmem | hr)
        · exact absurd hmem hliving
        · omega
      · intro hnone
        exact Or.inr (by omega)
    exact ⟨⟨hafter.1, hafter.2, hiff.mpr⟩, hiff⟩

theorem window_run {s u : State S I N} {gs : List (Event S I N)} {i : I} (h : Invariant s)
    (hw : Window i s) (hr : Run (Step fromString grants) s gs u)
    (hg : ∀ g ∈ gs, ¬ EndsWindow i g) :
    Window i u ∧ (i ∈ s.destroyed → i ∈ u.destroyed) := by
  induction hr with
  | refl => exact ⟨hw, id⟩
  | tail hr hv ih =>
    obtain ⟨hwindow, hkept⟩ := ih fun g hmem => hg g (by simp [hmem])
    obtain ⟨hnext, hiff⟩ := window_step (run_invariant hr h) hwindow hv (hg _ (by simp))
    exact ⟨hnext, fun hmem => hiff.mpr (Or.inl (hkept hmem))⟩

/-- In a window, i has been destroyed exactly if at some moment of it no client held it. -/
theorem destroyed_in_window {s u : State S I N} {gs : List (Event S I N)} {i : I}
    (h : Invariant s) (hw : Window i s) (hs : i ∈ s.destroyed ↔ s.clients.balance i = 0)
    (hr : Run (Step fromString grants) s gs u) (hg : ∀ g ∈ gs, ¬ EndsWindow i g) :
    i ∈ u.destroyed ↔ ∃ hs ks v, gs = hs ++ ks ∧ Run (Step fromString grants) s hs v ∧
      Run (Step fromString grants) v ks u ∧ v.clients.balance i = 0 := by
  constructor
  · intro hmem
    induction hr with
    | refl => exact ⟨[], [], _, rfl, .refl _, .refl _, hs.mp hmem⟩
    | @tail v w fs g hr hv ih =>
      have hbefore : ∀ f ∈ fs, ¬ EndsWindow i f := fun f hf => hg f (by simp [hf])
      have hstep := window_step (run_invariant hr h) (window_run h hw hr hbefore).1 hv
        (hg _ (by simp))
      rcases hstep.2.mp hmem with hearlier | hnone
      · obtain ⟨es, ks, x, rfl, he, hk, hx⟩ := ih hbefore hearlier
        exact ⟨es, ks ++ [g], x, List.append_assoc _ _ _, he, hk.tail hv, hx⟩
      · exact ⟨_, [], w, (List.append_nil _).symm, hr.tail hv, .refl _, hnone⟩
  · rintro ⟨es, ks, v, rfl, he, hk, hnone⟩
    have hw' := (window_run h hw he fun g hmem => hg g (by simp [hmem])).1
    exact (window_run (run_invariant he h) hw' hk fun g hmem => hg g (by simp [hmem])).2
      (hw'.gone hnone)

/-- In every reachable state, whatever clients have acquired, queried, added and released: an
Acquire hands out an implementation that has not been destroyed; the statements of Initialize
and Deinitialize that go through _samplePlugin find one that has not; QueryInterface on the
plugin hands out a destroyed one only between Deinitialize's Release and the clearing of its
pointer. There it keeps handing out what was released, and that has been destroyed exactly if
at the Release, or at a moment since, no client held a reference on it. -/
theorem clients_get_live_implementations {es : List (Event S I N)} {s : State S I N}
    (h : Run (Step fromString grants) start es s) :
    (∀ r i u, Step fromString grants s (.lifecycle (.acquired r (some (.samplePlugin i)))) u →
      i ∉ s.destroyed) ∧
    (∀ e i u, Step fromString grants s (.lifecycle e) u → GoesThrough e →
      s.lifecycle.host.plugin.samplePlugin = some i → i ∉ s.destroyed) ∧
    (∀ id i u, Step fromString grants s (.query id (some (.samplePlugin i))) u →
      i ∈ s.destroyed → Withdrawing s.lifecycle.pc) ∧
    (∀ i u gs v, s.lifecycle.host.plugin.samplePlugin = some i →
      Step fromString grants s (.lifecycle (.deinitializing .releaseSamplePlugin)) u →
      Run (Step fromString grants) u gs v → (∀ g ∈ gs, ¬ EndsWindow i g) →
      queryInterface v.lifecycle.host.plugin .samplePlugin = some (.samplePlugin i) ∧
      (i ∈ v.destroyed ↔ ∃ hs ks w, gs = hs ++ ks ∧ Run (Step fromString grants) u hs w ∧
        Run (Step fromString grants) w ks v ∧ w.clients.balance i = 0)) := by
  have hi := run_invariant h start_invariant
  refine ⟨?_, ?_, ?_, ?_⟩
  · intro r i u hstep
    cases hstep with
    | lifecycle e u hstep hp => exact acquired_living hi hstep
  · intro e i u hstep he hpointer
    cases hstep with
    | lifecycle e u hstep hp =>
      exact pointer_living hi hpointer (goesThrough_not_withdrawing hstep he)
  · intro id i u hstep hmem
    cases hstep with
    | queryAggregate id i hq =>
      by_contra hw
      cases id with
      | samplePlugin =>
        exact pointer_living hi (by simpa [queryInterface] using hq) hw hmem
      | _ => simp [queryInterface] at hq
  · intro i u gs v hpointer hstep hr hg
    obtain ⟨hw, hs⟩ := window_opens hi hpointer hstep
    have hu := step_preserves_invariant hi hstep
    refine ⟨?_, destroyed_in_window hu hw hs hr hg⟩
    simp only [queryInterface, (window_run hu hw hr hg).1.pointer, Option.map_some]

theorem call_run {s u : PluginLifecycle.State S I N}
    (clients : ReferenceLedger I)
    (h : Reaches (PluginLifecycle.Step fromString grants) UndisturbedCalls.OfInitialize s u) :
    ∃ es, Run (Step fromString grants) ⟨s, clients, []⟩ es ⟨u, clients, []⟩ := by
  obtain ⟨es, hes, hr⟩ := h
  induction hr with
  | refl => exact ⟨[], .refl _⟩
  | @tail v w fs e hr hv ih =>
    obtain ⟨gs, hgs⟩ := ih fun f hf => hes f (by simp [hf])
    have he := hes e (by simp)
    have hplaced : Placed (⟨v, clients, []⟩ : State S I N) e := by
      refine ⟨?_, by simp⟩
      rintro i rfl
      exact he.elim
    have hstep := Step.lifecycle (⟨v, clients, []⟩ : State S I N) e w hv hplaced
    have hsame : State.settle ⟨v, clients, []⟩ e w = (⟨w, clients, []⟩ : State S I N) := by
      cases e with
      | acquired r result => exact he.elim
      | constructed i => exact he.elim
      | deinitializing stmt => exact he.elim
      | _ => rfl
    rw [hsame] at hstep
    exact ⟨_, hgs.tail hstep⟩

/-- Deinitialize has just released an implementation that no client holds, and two clients
one after the other query the plugin for it: both get what has been destroyed. -/
theorem clients_get_live_implementations_but_withdrawn :
    ∃ (es : List (Event ℕ ℕ ℕ)) (s u v : State ℕ ℕ ℕ),
      Run (Step (fun _ _ => .default) fun _ => true) start es s ∧
      Step (fun _ _ => .default) (fun _ => true) s
        (.lifecycle (.deinitializing .releaseSamplePlugin)) u ∧
      Run (Step (fun _ _ => .default) fun _ => true) u
        [.query .samplePlugin (some (.samplePlugin 7))] v ∧
      v.clients.balance 7 = 1 ∧
      queryInterface v.lifecycle.host.plugin .samplePlugin = some (.samplePlugin 7) ∧
      7 ∈ v.destroyed := by
  obtain ⟨es, hr⟩ := call_run .empty ((UndisturbedCalls.initialize_reaches (fun _ _ => .default)
    (fun _ => true) (PluginLifecycle.start : PluginLifecycle.State ℕ ℕ ℕ) 0
    ⟨some 7, some 5, "", true⟩ rfl ⟨rfl, rfl⟩ rfl).leave rfl)
  have h₁ := hr.tail (.lifecycle _ _ _ (.deinitializeCalled _ 0 rfl ⟨rfl, by decide⟩)
    ⟨by simp, by simp⟩)
  have h₂ := h₁.tail (.lifecycle _ _ _
    (.deinitializing _ 0 .testServer _ _ rfl (.noServer _ rfl) (by simp)) ⟨by simp, by simp⟩)
  have h₃ := h₂.tail (.lifecycle _ _ _ (.deinitializing _ 0 .testSamplePlugin _ _ rfl
    (.samplePlugin _ 7 rfl) (by simp)) ⟨by simp, by simp⟩)
  have h₄ := h₃.tail (.lifecycle _ _ _ (.deinitializing _ 0 .unregisterSink _ _ rfl
    (.unregisterSink _ 0 rfl) (by simp)) ⟨by simp, by simp⟩)
  have h₅ := h₄.tail (.lifecycle _ _ _ (.deinitializing _ 0 .unregisterNotification _ _ rfl
    (.unregisterNotification _ 7 rfl) (by simp)) ⟨by simp, by simp⟩)
  obtain ⟨es', s, hs, hpc, hpointer, hclients⟩ : ∃ es s,
      Run (Step (fun _ _ => .default) fun _ => true) start es s ∧
      s.lifecycle.pc = .deinitializing 0 .releaseSamplePlugin ∧
      s.lifecycle.host.plugin.samplePlugin = some 7 ∧ s.clients = .empty :=
    ⟨_, _, h₅, rfl, rfl, rfl⟩
  obtain ⟨u, hrelease, hu⟩ : ∃ u, Step (fun _ _ => .default) (fun _ => true) s
      (.lifecycle (.deinitializing .releaseSamplePlugin)) u ∧ u.clients = .empty :=
    ⟨_, .lifecycle _ _ _ (.deinitializing _ 0 _ _ _ hpc (.releaseSamplePlugin _ 7 hpointer)
      (by simp)) ⟨by simp, by simp⟩, by simp [State.settle, hpointer, hclients]⟩
  have hwindow := (clients_get_live_implementations hs).2.2.2 7 u
  have hfirst := (hwindow [] u hpointer hrelease (.refl _) (by simp)).1
  have hquery : Run (Step (fun _ _ => .default) fun _ => true) u
      [.query .samplePlugin (some (.samplePlugin 7))] { u with clients := u.clients.addRef 7 } :=
    .single (.queryAggregate u .samplePlugin 7 hfirst)
  obtain ⟨hsecond, hdestroyed⟩ := hwindow _ _ hpointer hrelease hquery (by simp [EndsWindow])
  exact ⟨es', s, u, _, hs, hrelease, hquery, by simp [hu], hsecond,
    hdestroyed.mpr ⟨[], _, u, rfl, .refl _, hquery, by simp [hu]⟩⟩

end Steps

end ClientReferences
