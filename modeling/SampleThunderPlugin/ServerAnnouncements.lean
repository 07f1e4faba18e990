import SampleThunderPlugin.PluginLifecycle

/-! Clients of the private server beside the lifecycle. From a successful Open on they are
accepted, and the engine dispatches what they announce to the handler it was last given.
The lifecycle's own steps say when the server opens and when the handler is given. -/
namespace ServerAnnouncements

open LabelledRuns
open PluginLifecycle (InitializeStep DeinitializeStep Pc)
open SamplePlugin (Host)

structure State (S I N C : Type) where
  plugin : PluginLifecycle.State S I N
  /-- The engine each server was constructed with. -/
  engine : ℕ → Option ℕ
  connections : List (C × ℕ)
  /-- Announcements on their way, each with the server it was sent to. -/
  inFlight : List (C × ℕ)

inductive Event (S I N C : Type) where
  | lifecycle (e : PluginLifecycle.Event S I N)
  | accepted (c : C) (server : ℕ)
  | announced (c : C) (server : ℕ)
  | dispatched (c : C) (server : ℕ) (handler : Option ℕ)

variable {S I N C : Type}

def start : State S I N C := ⟨PluginLifecycle.start, fun _ => none, [], []⟩

/-- The constructor passes _rpcEngine, as it then is, on to the base class. -/
def enginesAfter (p : PluginLifecycle.State S I N) (engine : ℕ → Option ℕ) :
    PluginLifecycle.Event S I N → ℕ → Option ℕ
  | .initializing .constructServer =>
    Function.update engine p.host.created p.host.plugin.rpcEngine
  | _ => engine

def State.handler (s : State S I N C) (server : ℕ) : Option ℕ :=
  (s.engine server).bind s.plugin.host.announcements

section Steps
variable [DecidableEq S] [DecidableEq I] [DecidableEq N] [DecidableEq C]
variable (fromString : SamplePluginConfiguration → String → SamplePluginConfiguration)
variable (grants : Reference S I → Bool)

/-- What is in flight is dispatched some time, also after its server is gone. -/
inductive Step : State S I N C → Event S I N C → State S I N C → Prop where
  | lifecycle (s e p) (h : PluginLifecycle.Step fromString grants s.plugin e p) :
      Step s (.lifecycle e) { s with plugin := p, engine := enginesAfter s.plugin s.engine e }
  | accepted (s c k v) (hv : s.plugin.host.servers k = some v) (hl : v.isListening = true) :
      Step s (.accepted c k) { s with connections := (c, k) :: s.connections }
  | announced (s c k) (hc : (c, k) ∈ s.connections) (hk : s.plugin.host.servers k ≠ none) :
      Step s (.announced c k) { s with inFlight := (c, k) :: s.inFlight }
  | dispatched (s c k) (hm : (c, k) ∈ s.inFlight) :
      Step s (.dispatched c k (s.handler k)) { s with inFlight := s.inFlight.erase (c, k) }

end Steps

inductive Phase where
  | settled
  | constructing
  | opening (server : ℕ)
  | announcing (server : ℕ)
  deriving DecidableEq, Repr

def phase : Pc S I → Phase
  | .initializing _ _ .constructServer => .constructing
  | .initializing _ _ (.openServer k) => .opening k
  | .initializing _ _ (.announce k) => .announcing k
  | _ => .settled

def Handled (_ : State S I N C) : Event S I N C → Prop
  | .dispatched _ _ handler => handler ≠ none
  | _ => True

/-- No announcement is dispatched while its server's constructor stands between Open and
Announcements. -/
def Unhurried (s : State S I N C) : Event S I N C → Prop
  | .dispatched _ k _ => phase s.plugin.pc ≠ .announcing k
  | _ => True

/-- The server exists and its Open succeeded. -/
def State.Accepts (s : State S I N C) (server : ℕ) : Prop :=
  ∃ v, s.plugin.host.servers server = some v ∧ v.isListening = true

def NewEngine (s : State S I N C) (server : ℕ) : Prop :=
  ∃ e, s.plugin.host.plugin.rpcEngine = some e ∧ s.engine server = some e ∧
    s.plugin.host.announcements e = none

def PhaseAllows (s : State S I N C) : Phase → Prop
  | .settled => True
  | .constructing => ∃ e, s.plugin.host.plugin.rpcEngine = some e ∧ e < s.plugin.host.created ∧
      s.plugin.host.announcements e = none ∧ ∀ k, s.engine k ≠ some e
  | .opening k => NewEngine s k ∧ ¬ s.Accepts k
  | .announcing k => NewEngine s k

def Opened (s : State S I N C) (server : ℕ) : Prop :=
  s.engine server ≠ none ∧ phase s.plugin.pc ≠ .opening server

structure Invariant (s : State S I N C) : Prop where
  numbered : ∀ k e, s.engine k = some e → k < s.plugin.host.created ∧ e < s.plugin.host.created
  fresh : ∀ e, s.plugin.host.created ≤ e → s.plugin.host.announcements e = none
  own : ∀ k l e, s.engine k = some e → s.engine l = some e → k = l
  servers : ∀ k v, s.plugin.host.servers k = some v → s.engine k ≠ none
  connections : ∀ m ∈ s.connections, Opened s m.2
  inFlight : ∀ m ∈ s.inFlight, Opened s m.2
  ready : ∀ k, s.engine k ≠ none → s.handler k = some k ∨
    phase s.plugin.pc = .opening k ∨ phase s.plugin.pc = .announcing k
  allows : PhaseAllows s (phase s.plugin.pc)

theorem start_invariant : Invariant (start : State S I N C) := by
  constructor <;> simp [start, PluginLifecycle.start, Host.fresh, phase, PhaseAllows]

structure Undisturbed (p q : PluginLifecycle.State S I N) : Prop where
  samePhase : phase q.pc = phase p.pc
  engine : phase p.pc ≠ .settled → q.host.plugin.rpcEngine = p.host.plugin.rpcEngine
  announcements : q.host.announcements = p.host.announcements
  created : q.host.created = p.host.created
  servers : ∀ k v, q.host.servers k = some v → p.host.servers k = some v

inductive Effect (p : PluginLifecycle.State S I N) (e : PluginLifecycle.Event S I N)
    (q : PluginLifecycle.State S I N) : Prop where
  | undisturbed (he : ∀ engine, enginesAfter p engine e = engine) (h : Undisturbed p q)
  | createEngine (he : ∀ engine, enginesAfter p engine e = engine) (hp : phase p.pc = .settled)
      (hq : phase q.pc = .constructing) (hh : q.host = p.host.createEngine)
  | constructServer (i : I) (service : S)
      (he : ∀ engine, enginesAfter p engine e =
        Function.update engine p.host.created p.host.plugin.rpcEngine)
      (hp : phase p.pc = .constructing) (hq : phase q.pc = .opening p.host.created)
      (hh : q.host = p.host.constructServer i service)
  | openServer (k : ℕ) (listens : Bool) (he : ∀ engine, enginesAfter p engine e = engine)
      (hp : phase p.pc = .opening k) (hq : phase q.pc = .announcing k)
      (hh : q.host = p.host.openServer k listens)
  | announce (k : ℕ) (he : ∀ engine, enginesAfter p engine e = engine)
      (hp : phase p.pc = .announcing k) (hq : phase q.pc = .settled)
      (hh : q.host = p.host.announce k)

theorem undisturbed_settled {p q : PluginLifecycle.State S I N} (hp : phase p.pc = .settled)
    (hq : phase q.pc = .settled) (ha : q.host.announcements = p.host.announcements)
    (hc : q.host.created = p.host.created)
    (hv : ∀ k v, q.host.servers k = some v → p.host.servers k = some v) : Undisturbed p q where
  samePhase := hq.trans hp.symm
  engine hn := absurd hp hn
  announcements := ha
  created := hc
  servers := hv

theorem undisturbed_deleteServer {p q : PluginLifecycle.State S I N} (hp : phase p.pc = .settled)
    (hq : phase q.pc = .settled) (hh : q.host = p.host.deleteServer) : Undisturbed p q := by
  rw [Host.deleteServer] at hh
  split at hh
  · next l hl =>
    refine undisturbed_settled hp hq (by rw [hh]) (by rw [hh]) ?_
    intro k v hv
    by_cases hk : k = l
    · simp [hh, hk] at hv
    · simpa [hh, hk] using hv
  · exact undisturbed_settled hp hq (by rw [hh]) (by rw [hh]) fun k v hv => by rwa [hh] at hv

section Preserved
variable [DecidableEq S] [DecidableEq I] [DecidableEq N]
variable {fromString : SamplePluginConfiguration → String → SamplePluginConfiguration}
variable {grants : Reference S I → Bool}

theorem initializing_effect {p : PluginLifecycle.State S I N} {service : S} {a : Answers I}
    {stmt next : PluginLifecycle.InitializeAt} {host : Host S I N}
    (hp : p.pc = .initializing service a stmt)
    (hs : InitializeStep fromString service a stmt p.host next host) :
    Effect p (.initializing stmt) { p with host := host, pc := .initializing service a next } := by
  have hphase : phase p.pc = phase (.initializing service a stmt : Pc S I) := congrArg phase hp
  cases hs with
  | createEngine => exact .createEngine (fun _ => rfl) hphase rfl rfl
  | constructServer _ i hi => exact .constructServer i service (fun _ => rfl) hphase rfl rfl
  | openServer _ k => exact .openServer k a.listens (fun _ => rfl) hphase rfl rfl
  | announce _ k => exact .announce k (fun _ => rfl) hphase rfl rfl
  | deleteServer => exact .undisturbed (fun _ => rfl) (undisturbed_deleteServer hphase rfl rfl)
  | _ =>
    exact .undisturbed (fun _ => rfl)
      (undisturbed_settled hphase rfl rfl rfl fun _ _ hv => hv)

theorem deinitializing_effect {p : PluginLifecycle.State S I N} {service : S}
    {stmt next : PluginLifecycle.DeinitializeAt} {host : Host S I N}
    (hp : p.pc = .deinitializing service stmt) (hs : DeinitializeStep stmt p.host next host) :
    Effect p (.deinitializing stmt)
      { p with host := host, pc := .deinitializing service next } := by
  have hphase : phase p.pc = .settled := congrArg phase hp
  cases hs with
  | deleteServer => exact .undisturbed (fun _ => rfl) (undisturbed_deleteServer hphase rfl rfl)
  | _ =>
    exact .undisturbed (fun _ => rfl)
      (undisturbed_settled hphase rfl rfl rfl fun _ _ hv => hv)

theorem lifecycle_effect {p q : PluginLifecycle.State S I N} {e : PluginLifecycle.Event S I N}
    (hs : PluginLifecycle.Step fromString grants p e q) : Effect p e q := by
  -- the calls begin and end where no server is under construction
  have hsettled {q : PluginLifecycle.State S I N} (hp : phase p.pc = .settled)
      (hq : phase q.pc = .settled) (hh : q.host = p.host) : Undisturbed p q :=
    undisturbed_settled hp hq (by rw [hh]) (by rw [hh]) fun k v hv => by rwa [hh] at hv
  cases hs with
  | initializeCalled service a hp hm =>
    exact .undisturbed (fun _ => rfl) (hsettled (congrArg phase hp) rfl rfl)
  | initializing service a stmt next host hp hs hq => exact initializing_effect hp hs
  | initializeReturned service a success hp =>
    exact .undisturbed (fun _ => rfl) (hsettled (congrArg phase hp) rfl rfl)
  | deinitializeCalled service hp hm =>
    exact .undisturbed (fun _ => rfl) (hsettled (congrArg phase hp) rfl rfl)
  | deinitializing service stmt next host hp hs hq => exact deinitializing_effect hp hs
  | deinitializeReturned service hp =>
    exact .undisturbed (fun _ => rfl) (hsettled (congrArg phase hp) rfl rfl)
  | deactivated service id hr =>
    unfold PluginLifecycle.State.deactivated
    split <;> exact .undisturbed (fun _ => rfl) ⟨rfl, fun _ => rfl, rfl, rfl, fun _ _ hv => hv⟩
  | _ => exact .undisturbed (fun _ => rfl) ⟨rfl, fun _ => rfl, rfl, rfl, fun _ _ hv => hv⟩

end Preserved

section Effects
variable {s : State S I N C} {q : PluginLifecycle.State S I N}

theorem undisturbed_invariant (h : Invariant s) (hu : Undisturbed s.plugin q) :
    Invariant { s with plugin := q } := by
  obtain ⟨hphase, hengine, hann, hcreated, hservers⟩ := hu
  constructor
  case numbered => simpa [hcreated] using h.numbered
  case fresh => simpa [hcreated, hann] using h.fresh
  case own => exact h.own
  case servers => exact fun k v hv => h.servers k v (hservers k v hv)
  case connections => simpa [Opened, hphase] using h.connections
  case inFlight => simpa [Opened, hphase] using h.inFlight
  case ready => simpa [State.handler, hann, hphase] using h.ready
  case allows =>
    have ha := h.allows
    change PhaseAllows _ (phase q.pc)
    rw [hphase]
    cases hp : phase s.plugin.pc with
    | settled => trivial
    | constructing =>
      rw [hp] at ha
      simpa [PhaseAllows, hengine (by simp [hp]), hcreated, hann] using ha
    | opening k =>
      rw [hp] at ha
      obtain ⟨hn, hacc⟩ := ha
      refine ⟨by simpa [NewEngine, hengine (by simp [hp]), hann] using hn, ?_⟩
      rintro ⟨v, hv, hl⟩
      exact hacc ⟨v, hservers k v hv, hl⟩
    | announcing k =>
      rw [hp] at ha
      simpa [PhaseAllows, NewEngine, hengine (by simp [hp]), hann] using ha

theorem Invariant.opened (h : Invariant s) {k : ℕ} (hk : s.Accepts k) : Opened s k := by
  obtain ⟨v, hv, hl⟩ := hk
  refine ⟨h.servers k v hv, ?_⟩
  intro hp
  have ha := h.allows
  rw [hp] at ha
  exact ha.2 ⟨v, hv, hl⟩

theorem Invariant.handled (h : Invariant s) (k : ℕ) (hk : s.engine k ≠ none)
    (ho : phase s.plugin.pc ≠ .opening k) (ha : phase s.plugin.pc ≠ .announcing k) :
    s.handler k = some k := by
  rcases h.ready k hk with hr | hr | hr
  · exact hr
  · exact absurd hr ho
  · exact absurd hr ha

theorem createEngine_invariant (h : Invariant s) (hp : phase s.plugin.pc = .settled)
    (hq : phase q.pc = .constructing) (hh : q.host = s.plugin.host.createEngine) :
    Invariant { s with plugin := q } := by
  constructor
  case numbered =>
    intro k e he
    have hlt := h.numbered k e he
    simp only [hh, Host.createEngine]
    omega
  case fresh =>
    intro e he
    simp only [hh, Host.createEngine] at he ⊢
    exact h.fresh e (by omega)
  case own => exact h.own
  case servers => simpa [hh, Host.createEngine] using h.servers
  case connections => exact fun m hm => ⟨(h.connections m hm).1, by simp [hq]⟩
  case inFlight => exact fun m hm => ⟨(h.inFlight m hm).1, by simp [hq]⟩
  case ready =>
    intro k hk
    have hr := h.handled k hk (by simp [hp]) (by simp [hp])
    exact Or.inl (by simpa [State.handler, hh, Host.createEngine] using hr)
  case allows =>
    change PhaseAllows _ (phase q.pc)
    rw [hq]
    refine ⟨s.plugin.host.created, by simp [hh, Host.createEngine], ?_, ?_, ?_⟩
    · simp only [hh, Host.createEngine]
      omega
    · simpa [hh, Host.createEngine] using h.fresh s.plugin.host.created (Nat.le_refl _)
    · intro k hk
      have hlt := (h.numbered k _ hk).2
      omega

theorem own_update {engine : ℕ → Option ℕ} {k₀ e : ℕ}
    (hown : ∀ k l d, engine k = some d → engine l = some d → k = l)
    (hunused : ∀ k, engine k ≠ some e) (k l d : ℕ)
    (hk : Function.update engine k₀ (some e) k = some d)
    (hl : Function.update engine k₀ (some e) l = some d) : k = l := by
  by_cases hkk : k = k₀ <;> by_cases hll : l = k₀
  · rw [hkk, hll]
  · subst hkk
    simp only [Function.update_self, Function.update_of_ne hll] at hk hl
    exact absurd (hl.trans hk.symm) (hunused l)
  · subst hll
    simp only [Function.update_self, Function.update_of_ne hkk] at hk hl
    exact absurd (hk.trans hl.symm) (hunused k)
  · simp only [Function.update_of_ne hkk, Function.update_of_ne hll] at hk hl
    exact hown k l d hk hl

theorem constructServer_invariant (h : Invariant s) {i : I} {service : S}
    (hp : phase s.plugin.pc = .constructing) (hq : phase q.pc = .opening s.plugin.host.created)
    (hh : q.host = s.plugin.host.constructServer i service) :
    Invariant { s with
      plugin := q
      engine := Function.update s.engine s.plugin.host.created
        s.plugin.host.plugin.rpcEngine } := by
  have ha := h.allows
  rw [hp] at ha
  obtain ⟨e, he, hlt, hnone, hunused⟩ := ha
  have hkept (k) (hk : s.engine k ≠ none) : Opened { s with
      plugin := q
      engine := Function.update s.engine s.plugin.host.created
        s.plugin.host.plugin.rpcEngine } k := by
    obtain ⟨d, hd⟩ := Option.ne_none_iff_exists'.mp hk
    have hlt := (h.numbered k d hd).1
    have hne : k ≠ s.plugin.host.created := by omega
    constructor
    · simpa [Function.update_of_ne hne] using hk
    · simpa [hq] using hne.symm
  constructor
  case numbered =>
    intro k d hd
    simp only [hh, Host.constructServer]
    by_cases hk : k = s.plugin.host.created
    · subst hk
      simp only [Function.update_self, he, Option.some.injEq] at hd
      omega
    · simp only [Function.update_of_ne hk] at hd
      have hlt := h.numbered k d hd
      omega
  case fresh =>
    intro d hd
    simp only [hh, Host.constructServer] at hd ⊢
    exact h.fresh d (by omega)
  case own => simpa only [he] using own_update h.own hunused
  case servers =>
    intro k v hv
    by_cases hk : k = s.plugin.host.created
    · subst hk
      simp [he]
    · simp only [hh, Host.constructServer, Function.update_of_ne hk] at hv
      simpa [Function.update_of_ne hk] using h.servers k v hv
  case connections => exact fun m hm => hkept m.2 (h.connections m hm).1
  case inFlight => exact fun m hm => hkept m.2 (h.inFlight m hm).1
  case ready =>
    intro k hk
    by_cases hkc : k = s.plugin.host.created
    · subst hkc
      exact Or.inr (Or.inl hq)
    · simp only [Function.update_of_ne hkc] at hk
      have hr := h.handled k hk (by simp [hp]) (by simp [hp])
      refine Or.inl ?_
      simpa [State.handler, hh, Host.constructServer, Function.update_of_ne hkc] using hr
  case allows =>
    change PhaseAllows _ (phase q.pc)
    rw [hq]
    refine ⟨⟨e, by simpa [hh, Host.constructServer] using he, by simpa using he, ?_⟩, ?_⟩
    · simpa [hh, Host.constructServer] using hnone
    · rintro ⟨v, hv, hl⟩
      simp only [hh, Host.constructServer, Function.update_self, Option.some.injEq] at hv
      subst hv
      cases hl

theorem openServer_invariant (h : Invariant s) {k : ℕ} {listens : Bool}
    (hp : phase s.plugin.pc = .opening k) (hq : phase q.pc = .announcing k)
    (hh : q.host = s.plugin.host.openServer k listens) : Invariant { s with plugin := q } := by
  have ha := h.allows
  rw [hp] at ha
  obtain ⟨hnew, -⟩ := ha
  constructor
  case numbered => simpa [hh, Host.openServer] using h.numbered
  case fresh => simpa [hh, Host.openServer] using h.fresh
  case own => exact h.own
  case servers =>
    intro l v hv
    by_cases hl : l = k
    · subst hl
      simp only [hh, Host.openServer, Function.update_self, Option.map_eq_some_iff] at hv
      obtain ⟨w, hw, -⟩ := hv
      exact h.servers l w hw
    · simp only [hh, Host.openServer, Function.update_of_ne hl] at hv
      exact h.servers l v hv
  case connections => exact fun m hm => ⟨(h.connections m hm).1, by simp [hq]⟩
  case inFlight => exact fun m hm => ⟨(h.inFlight m hm).1, by simp [hq]⟩
  case ready =>
    intro l hl
    by_cases hlk : l = k
    · subst hlk
      exact Or.inr (Or.inr hq)
    · have hr := h.handled l hl (by simpa [hp] using Ne.symm hlk) (by simp [hp])
      exact Or.inl (by simpa [State.handler, hh, Host.openServer] using hr)
  case allows =>
    change PhaseAllows _ (phase q.pc)
    rw [hq]
    simpa [PhaseAllows, NewEngine, hh, Host.openServer] using hnew

theorem announce_invariant (h : Invariant s) {k : ℕ} (hp : phase s.plugin.pc = .announcing k)
    (hq : phase q.pc = .settled) (hh : q.host = s.plugin.host.announce k) :
    Invariant { s with plugin := q } := by
  have ha := h.allows
  rw [hp] at ha
  obtain ⟨e, he, hk, -⟩ := ha
  have hann : q.host.announcements = Function.update s.plugin.host.announcements e (some k) := by
    simp [hh, Host.announce, he]
  have hcreated : q.host.created = s.plugin.host.created := by simp [hh, Host.announce, he]
  constructor
  case numbered => simpa [hcreated] using h.numbered
  case fresh =>
    intro d hd
    simp only [hcreated] at hd
    have hlt := (h.numbered k e hk).2
    have hne : d ≠ e := by omega
    simpa [hann, hne] using h.fresh d hd
  case own => exact h.own
  case servers => simpa [hh] using h.servers
  case connections => exact fun m hm => ⟨(h.connections m hm).1, by simp [hq]⟩
  case inFlight => exact fun m hm => ⟨(h.inFlight m hm).1, by simp [hq]⟩
  case ready =>
    intro l hl
    refine Or.inl ?_
    by_cases hlk : l = k
    · subst hlk
      simp [State.handler, hk, hann]
    · have hr := h.handled l hl (by simp [hp]) (by simpa [hp] using Ne.symm hlk)
      obtain ⟨d, hd⟩ := Option.ne_none_iff_exists'.mp hl
      have hne : d ≠ e := fun hde => hlk (h.own l k e (hde ▸ hd) hk)
      change (s.engine l).bind s.plugin.host.announcements = some l at hr
      change (s.engine l).bind q.host.announcements = some l
      rw [hd] at hr ⊢
      simpa [hann, hne] using hr
  case allows =>
    change PhaseAllows _ (phase q.pc)
    rw [hq]
    trivial

end Effects

section Announcements
variable [DecidableEq S] [DecidableEq I] [DecidableEq N] [DecidableEq C]
variable {fromString : SamplePluginConfiguration → String → SamplePluginConfiguration}
variable {grants : Reference S I → Bool}

theorem step_preserves_invariant {s u : State S I N C} {e : Event S I N C} (h : Invariant s)
    (hs : Step fromString grants s e u) : Invariant u := by
  cases hs with
  | lifecycle e q hl =>
    cases lifecycle_effect hl with
    | undisturbed he hu =>
      rw [he]
      exact undisturbed_invariant h hu
    | createEngine he hp hq hh =>
      rw [he]
      exact createEngine_invariant h hp hq hh
    | constructServer i service he hp hq hh =>
      rw [he]
      exact constructServer_invariant h hp hq hh
    | openServer k listens he hp hq hh =>
      rw [he]
      exact openServer_invariant h hp hq hh
    | announce k he hp hq hh =>
      rw [he]
      exact announce_invariant h hp hq hh
  | accepted c k v hv hl =>
    have hk := h.opened ⟨v, hv, hl⟩
    exact { h with connections := List.forall_mem_cons.mpr ⟨hk, h.connections⟩ }
  | announced c k hc hk =>
    exact { h with inFlight := List.forall_mem_cons.mpr ⟨h.connections _ hc, h.inFlight⟩ }
  | dispatched c k hm =>
    exact { h with inFlight := fun m hm => h.inFlight m (List.mem_of_mem_erase hm) }

omit [DecidableEq S] [DecidableEq I] [DecidableEq N] [DecidableEq C] in
/-- An opened server has its handler once its constructor is past Announcements, and none
before. -/
theorem handler_iff {s : State S I N C} (h : Invariant s) {k : ℕ} (hk : Opened s k) :
    (s.handler k = some k ↔ phase s.plugin.pc ≠ .announcing k) ∧
      (s.handler k ≠ none ↔ phase s.plugin.pc ≠ .announcing k) := by
  by_cases hp : phase s.plugin.pc = .announcing k
  · have ha := h.allows
    rw [hp] at ha
    obtain ⟨e, -, he, hnone⟩ := ha
    have hn : s.handler k = none := by simp [State.handler, he, hnone]
    simp [hp, hn]
  · have hr := h.handled k hk.1 hk.2 hp
    simp [hp, hr]

theorem handled_iff {s u : State S I N C} {e : Event S I N C} (h : Invariant s)
    (hs : Step fromString grants s e u) : Handled s e ↔ Unhurried s e := by
  cases hs with
  | dispatched c k hm => exact (handler_iff h (h.inFlight _ hm)).2
  | _ => exact Iff.rfl

/-- Exactly the runs in which nothing is dispatched between a server's Open and its
Announcements dispatch every announcement to a handler. And in every state reached, a server
that accepts clients has its handler exactly outside that gap. -/
theorem announcements_handled_iff (es : List (Event S I N C)) (s : State S I N C) :
    (Run (Guarded Handled (Step fromString grants)) start es s ↔
      Run (Guarded Unhurried (Step fromString grants)) start es s) ∧
    (Run (Step fromString grants) start es s → ∀ k, s.Accepts k →
      (s.handler k = some k ↔ phase s.plugin.pc ≠ .announcing k)) := by
  constructor
  · refine Run.guarded_congr Invariant ?_ ?_ start_invariant
    · intro s e u hi hs
      exact step_preserves_invariant hi hs
    · intro s e u hi hs
      exact handled_iff hi hs
  · intro hr k hk
    have hi := hr.invariant (fun _ _ _ hi hs => step_preserves_invariant hi hs) start_invariant
    exact (handler_iff hi (hi.opened hk)).1

end Announcements

/-- A client that connects as soon as Open has succeeded is not heard. -/
theorem early_announcement_unhandled :
    ¬ ∀ (fromString : SamplePluginConfiguration → String → SamplePluginConfiguration)
        (grants : Reference ℕ ℕ → Bool) (es : List (Event ℕ ℕ ℕ ℕ)) (s : State ℕ ℕ ℕ ℕ),
      Run (Step fromString grants) start es s → ∀ c k, Event.dispatched c k none ∉ es := by
  intro hclaim
  have h₁ : Run (Step (fun _ _ => ⟨⟨false, false, []⟩, true⟩) fun _ => true)
      (start : State ℕ ℕ ℕ ℕ) _ _ :=
    Run.single (.lifecycle _ _ _
      (.initializeCalled _ 0 ⟨some 7, some 5, "", true⟩ rfl ⟨rfl, rfl⟩))
  have h₂ := h₁.tail (.lifecycle _ _ _
    (.initializing _ 0 _ .setService _ _ rfl (.setService _) (by simp)))
  have h₃ := h₂.tail (.lifecycle _ _ _
    (.initializing _ 0 _ .registerSink _ _ rfl (.registerSink _ 0 rfl) (by simp)))
  have h₄ := h₃.tail (.lifecycle _ _ _
    (.initializing _ 0 _ .root _ _ rfl (.rootFound _ 7 rfl) (by simp)))
  have h₅ := h₄.tail (.lifecycle _ _ _
    (.initializing _ 0 _ .configure _ _ rfl (.configure _ 7 rfl) (by simp)))
  have h₆ := h₅.tail (.lifecycle _ _ _
    (.initializing _ 0 _ .registerNotification _ _ rfl (.registerNotification _ 7 rfl) (by simp)))
  have h₇ := h₆.tail (.lifecycle _ _ _
    (.initializing _ 0 _ .registerJson _ _ rfl (.registerJson _ 7 rfl) (by simp)))
  have h₈ := h₇.tail (.lifecycle _ _ _
    (.initializing _ 0 _ .readConfig _ _ rfl (.privateServer _ rfl) (by simp)))
  have h₉ := h₈.tail (.lifecycle _ _ _
    (.initializing _ 0 _ .createEngine _ _ rfl (.createEngine _) (by simp)))
  have h₁₀ := h₉.tail (.lifecycle _ _ _
    (.initializing _ 0 _ .constructServer _ _ rfl (.constructServer _ 7 rfl) (by simp)))
  have h₁₁ := h₁₀.tail (.lifecycle _ _ _
    (.initializing _ 0 _ (.openServer 1) _ _ rfl (.openServer _ 1) (by simp)))
  -- Announcements would come now, but a client is faster
  have h₁₂ := h₁₁.tail (.accepted _ 3 1 ⟨some 7, some 0, true⟩ rfl rfl)
  have h₁₃ := h₁₂.tail (.announced _ 3 1 (by simp) (by decide))
  have h₁₄ := h₁₃.tail (.dispatched _ 3 1 (by simp))
  exact hclaim _ _ _ _ h₁₄ 3 1 (List.mem_append_right _ (List.mem_singleton_self _))

end ServerAnnouncements
