import SampleThunderPlugin.SamplePluginLink
import Mathlib.Logic.Function.Basic

/-! One link from its construction to the end of its destructor. First what it calls through
its pointer, whatever Interface() returns; then, with a fresh reference from every Interface(),
what it leaves behind in the plugins and in what it holds. -/
namespace LinkLifetime

/-- The argument interface is what Interface() returns if the event makes the link call it. -/
inductive Event (R : Type) where
  | operational (upAndRunning : Bool) (interface : Option R)
  | greet (message result : String)
  | echo (message result : String)
  deriving DecidableEq, Repr

section Pointer
variable {R : Type}

def step (l : SamplePluginLink R) : Event R → List (LinkCall R) × SamplePluginLink R
  | .operational upAndRunning interface => l.operational upAndRunning interface
  | .greet message result => ((l.greet message result).toList, l)
  | .echo message result => ((l.echo message result).toList, l)

def run (l : SamplePluginLink R) : List (Event R) → List (LinkCall R) × SamplePluginLink R
  | [] => ([], l)
  | e :: es =>
    let (calls, l) := step l e
    let (later, l) := run l es
    (calls ++ later, l)

def lifetime (l : SamplePluginLink R) (es : List (Event R)) (closeDelivers : Bool) :
    List (LinkCall R) :=
  let (calls, l) := run l es
  calls ++ (l.destroy closeDelivers).1

def upAfter (up : Bool) : Event R → Bool
  | .operational upAndRunning _ => upAndRunning
  | _ => up

/-- An event that brings the link up from below finds an interface. -/
def Grants (up : Bool) : Event R → Prop
  | .operational true interface => up = false → interface ≠ none
  | _ => True

/-- Every Operational(true) that is the first, or the first after an Operational(false),
finds an interface. -/
def Granted (up : Bool) : List (Event R) → Prop
  | [] => True
  | e :: es => Grants up e ∧ Granted (upAfter up e) es

theorem lifetime_cons (l : SamplePluginLink R) (e : Event R) (es : List (Event R))
    (closeDelivers : Bool) :
    lifetime l (e :: es) closeDelivers =
      (step l e).1 ++ lifetime (step l e).2 es closeDelivers := by
  simp [lifetime, run]

theorem destroy_safe (l : SamplePluginLink R) (closeDelivers : Bool) :
    ∀ c ∈ (l.destroy closeDelivers).1, ¬ c.ThroughNull := by
  cases hp : l.samplePluginInterface with
  | none => simp [SamplePluginLink.destroy_down hp]
  | some p =>
    cases closeDelivers with
    | true => simp [SamplePluginLink.destroy_told hp, LinkCall.ThroughNull]
    | false => simp [SamplePluginLink.destroy_untold hp, LinkCall.ThroughNull]

theorem down_of_null {l : SamplePluginLink R} {up : Bool}
    (h : l.samplePluginInterface ≠ none ↔ up = true) (hp : l.samplePluginInterface = none) :
    up = false := by
  by_contra hup
  exact h.mpr (by simpa using hup) hp

theorem step_safe_iff {l : SamplePluginLink R} {up : Bool}
    (h : l.samplePluginInterface ≠ none ↔ up = true) (e : Event R) :
    (∀ c ∈ (step l e).1, ¬ c.ThroughNull) ↔ Grants up e := by
  cases e with
  | greet message result =>
    cases hp : l.samplePluginInterface <;>
      simp [step, SamplePluginLink.greet, hp, Grants, LinkCall.ThroughNull]
  | echo message result =>
    cases hp : l.samplePluginInterface <;>
      simp [step, SamplePluginLink.echo, hp, Grants, LinkCall.ThroughNull]
  | operational upAndRunning interface =>
    rcases l.operational_cases upAndRunning with ⟨hp, rfl⟩ | ⟨p, hp, rfl⟩ | hr
    · simp [step, SamplePluginLink.operational_up hp, Grants, LinkCall.ThroughNull,
        down_of_null h hp]
    · simp [step, SamplePluginLink.operational_down hp, Grants, LinkCall.ThroughNull]
    · cases upAndRunning with
      | true =>
        have hup : up = true := h.mp fun hn => absurd (hr.mp hn) (by decide)
        simp [step, SamplePluginLink.operational_repeated hr, Grants, hup]
      | false => simp [step, SamplePluginLink.operational_repeated hr, Grants]

theorem step_up {l : SamplePluginLink R} {up : Bool}
    (h : l.samplePluginInterface ≠ none ↔ up = true) {e : Event R} (hg : Grants up e) :
    (step l e).2.samplePluginInterface ≠ none ↔ upAfter up e = true := by
  cases e with
  | greet => exact h
  | echo => exact h
  | operational upAndRunning interface =>
    rcases l.operational_cases upAndRunning with ⟨hp, rfl⟩ | ⟨p, hp, rfl⟩ | hr
    · simpa [step, SamplePluginLink.operational_up hp, upAfter] using hg (down_of_null h hp)
    · simp [step, SamplePluginLink.operational_down hp, upAfter]
    · simp [step, SamplePluginLink.operational_repeated hr, upAfter, hr]

theorem lifetime_safe_iff {l : SamplePluginLink R} {up : Bool}
    (h : l.samplePluginInterface ≠ none ↔ up = true) (es : List (Event R)) (closeDelivers : Bool) :
    (∀ c ∈ lifetime l es closeDelivers, ¬ c.ThroughNull) ↔ Granted up es := by
  induction es generalizing l up with
  | nil =>
    constructor
    · intro _
      trivial
    · intro _
      exact destroy_safe l closeDelivers
  | cons e es ih =>
    rw [lifetime_cons, List.forall_mem_append, step_safe_iff h e]
    constructor
    · rintro ⟨hg, hs⟩
      exact ⟨hg, (ih (step_up h hg)).mp hs⟩
    · rintro ⟨hg, hs⟩
      exact ⟨hg, (ih (step_up h hg)).mpr hs⟩

/-- A link makes no call through a null pointer, from its construction to the end of its
destructor, exactly if Interface() does not fail it when it comes up. -/
theorem no_call_through_null_iff (es : List (Event R)) (closeDelivers : Bool) :
    (∀ c ∈ lifetime ⟨none⟩ es closeDelivers, ¬ c.ThroughNull) ↔ Granted false es :=
  lifetime_safe_iff (by simp) es closeDelivers

end Pointer

/-- The link comes up and Interface() has nothing for it: Register goes through null. -/
theorem registers_through_null :
    ¬ ∀ (es : List (Event ℕ)) (closeDelivers : Bool),
      ∀ c ∈ lifetime ⟨none⟩ es closeDelivers, ¬ c.ThroughNull := by
  intro hclaim
  exact hclaim [.operational true none] true (.register none) (by decide) rfl

structure Plugins (P L : Type) [DecidableEq L] (handler : L) where
  plugin : P → SamplePluginImplementation L
  invariant : ∀ p, (plugin p).Invariant
  absent : ∀ p, handler ∉ (plugin p).callbacks

structure State (P L : Type) where
  link : SamplePluginLink ℕ
  plugin : P → SamplePluginImplementation L
  /-- The references the link acquired and released. -/
  held : ReferenceLedger ℕ
  /-- Interface() results so far, the next one's number. -/
  issued : ℕ

section Remains
variable {P L : Type} [DecidableEq P] [DecidableEq L]
variable (handler : L) (home : ℕ → P)

def start {handler : L} (plugins : Plugins P L handler) : State P L :=
  ⟨⟨none⟩, plugins.plugin, .empty, 0⟩

def State.setPlugin (s : State P L) (p : P) (plugin : SamplePluginImplementation L) : State P L :=
  { s with plugin := Function.update s.plugin p plugin }

/-- One call of the link, carried out by the plugin the reference is on. Greet and Echo
change neither a callback list nor a count. -/
def perform (s : State P L) : LinkCall ℕ → Except Fault (State P L)
  | .interface none => .ok s
  | .interface (some r) => .ok { s with held := s.held.addRef r, issued := s.issued + 1 }
  | .register (some r) =>
    .ok (s.setPlugin (home r) ((s.plugin (home r)).register handler))
  | .unregister (some r) =>
    .ok (s.setPlugin (home r) ((s.plugin (home r)).unregister handler))
  | .release (some r) => .ok { s with held := s.held.release r }
  | .greet (some _) _ _ | .echo (some _) _ _ => .ok s
  | .register none | .unregister none | .release none | .greet none _ _ | .echo none _ _ =>
    .error .nullPointer

def performAll (s : State P L) : List (LinkCall ℕ) → Except Fault (State P L)
  | [] => .ok s
  | call :: calls => do
    let s ← perform handler home s call
    performAll s calls

def operational (s : State P L) (upAndRunning : Bool) : Except Fault (State P L) := do
  let (calls, link) := s.link.operational upAndRunning (some s.issued)
  let s ← performAll handler home s calls
  .ok { s with link := link }

def serve (s : State P L) : List Bool → Except Fault (State P L)
  | [] => .ok s
  | upAndRunning :: es => do
    let s ← operational handler home s upAndRunning
    serve s es

def destroy (s : State P L) (closeDelivers : Bool) : Except Fault (State P L) := do
  let (calls, link) := s.link.destroy closeDelivers
  let s ← performAll handler home s calls
  .ok { s with link := link }

def remains (plugins : Plugins P L handler) (es : List Bool) (closeDelivers : Bool) :
    Except Fault (State P L) := do
  let s ← serve handler home (start plugins) es
  destroy handler home s closeDelivers

/-- The handler is in no callback list and what was acquired is released, once. -/
def Clean (s : State P L) : Prop :=
  (∀ p, handler ∉ (s.plugin p).callbacks) ∧ ∀ r, r < s.issued → s.held.releases r = 1

def State.connect (s : State P L) : State P L :=
  { s.setPlugin (home s.issued) ((s.plugin (home s.issued)).register handler) with
    link := ⟨some s.issued⟩
    held := s.held.addRef s.issued
    issued := s.issued + 1 }

def State.abandon (s : State P L) (r : ℕ) : State P L :=
  { s with link := ⟨none⟩, held := s.held.release r }

def State.disconnect (s : State P L) (r : ℕ) : State P L :=
  (s.setPlugin (home r) ((s.plugin (home r)).unregister handler)).abandon r

section Results
variable {handler home} {s : State P L}

theorem operational_up (h : s.link.samplePluginInterface = none) :
    operational handler home s true = .ok (s.connect handler home) := by
  simp [operational, SamplePluginLink.operational_up h, performAll, perform, bind, Except.bind,
    State.connect, State.setPlugin]

theorem operational_down {r : ℕ} (h : s.link.samplePluginInterface = some r) :
    operational handler home s false = .ok (s.disconnect handler home r) := by
  simp [operational, SamplePluginLink.operational_down h, performAll, perform, bind, Except.bind,
    State.disconnect, State.abandon, State.setPlugin]

theorem operational_repeated {upAndRunning : Bool}
    (h : s.link.samplePluginInterface = none ↔ upAndRunning = false) :
    operational handler home s upAndRunning = .ok s := by
  simp [operational, SamplePluginLink.operational_repeated h, performAll, bind, Except.bind]

theorem destroy_down (h : s.link.samplePluginInterface = none) (closeDelivers : Bool) :
    destroy handler home s closeDelivers = .ok s := by
  simp [destroy, SamplePluginLink.destroy_down h, performAll, bind, Except.bind]

theorem destroy_told {r : ℕ} (h : s.link.samplePluginInterface = some r) :
    destroy handler home s true = .ok (s.disconnect handler home r) := by
  simp [destroy, SamplePluginLink.destroy_told h, performAll, perform, bind, Except.bind,
    State.disconnect, State.abandon, State.setPlugin]

theorem destroy_untold {r : ℕ} (h : s.link.samplePluginInterface = some r) :
    destroy handler home s false = .ok (s.abandon r) := by
  simp [destroy, SamplePluginLink.destroy_untold h, performAll, perform, bind, Except.bind,
    State.abandon]

end Results

structure Invariant (s : State P L) : Prop where
  plugin : ∀ p, (s.plugin p).Invariant
  registered : ∀ p, handler ∈ (s.plugin p).callbacks ↔
    ∃ r, s.link.samplePluginInterface = some r ∧ home r = p
  issued : ∀ r, s.link.samplePluginInterface = some r → r < s.issued
  released : ∀ r, s.held.releases r =
    if r < s.issued ∧ s.link.samplePluginInterface ≠ some r then 1 else 0

omit [DecidableEq P] in
theorem start_invariant (plugins : Plugins P L handler) :
    Invariant handler home (start plugins) where
  plugin := plugins.invariant
  registered := fun p => by simp [start, plugins.absent p]
  issued := by simp [start]
  released := by simp [start, ReferenceLedger.empty]

section Invariants
variable {handler home} {s : State P L}

theorem connect_invariant (h : Invariant handler home s)
    (hp : s.link.samplePluginInterface = none) :
    Invariant handler home (s.connect handler home) := by
  constructor
  case plugin =>
    intro p
    by_cases hpl : p = home s.issued
    · subst hpl
      simpa [State.connect, State.setPlugin] using
        SamplePluginImplementation.register_invariant (h.plugin _) handler
    · simpa [State.connect, State.setPlugin, hpl] using h.plugin p
  case registered =>
    intro p
    have hr := h.registered p
    by_cases hpl : p = home s.issued
    · subst hpl
      simp [State.connect, State.setPlugin, SamplePluginImplementation.mem_register]
    · simpa [State.connect, State.setPlugin, hp, hpl, Ne.symm hpl] using hr
  case issued =>
    intro r hr
    obtain rfl : s.issued = r := by simpa [State.connect] using hr
    exact Nat.lt_succ_self _
  case released =>
    intro r
    have hr := h.released r
    simp only [State.connect, ReferenceLedger.addRef, hr, hp]
    by_cases hi : r = s.issued
    · simp [hi]
    · have hlt : r < s.issued + 1 ↔ r < s.issued := by omega
      simp [hlt, Ne.symm hi]

omit [DecidableEq P] in
theorem abandon_released (h : Invariant handler home s) {r : ℕ}
    (hp : s.link.samplePluginInterface = some r) (q : ℕ) :
    (s.abandon r).held.releases q = if q < s.issued then 1 else 0 := by
  have hq := h.released q
  by_cases hr : q = r
  · subst hr
    simp [State.abandon, ReferenceLedger.release, hq, hp, h.issued q hp]
  · simpa [State.abandon, ReferenceLedger.release, hp, hr, Ne.symm hr] using hq

theorem disconnect_invariant (h : Invariant handler home s) {r : ℕ}
    (hp : s.link.samplePluginInterface = some r) :
    Invariant handler home (s.disconnect handler home r) := by
  constructor
  case plugin =>
    intro p
    by_cases hpl : p = home r
    · subst hpl
      simpa [State.disconnect, State.abandon, State.setPlugin] using
        SamplePluginImplementation.unregister_invariant (h.plugin _) handler
    · simpa [State.disconnect, State.abandon, State.setPlugin, hpl] using h.plugin p
  case registered =>
    intro p
    have hr := h.registered p
    by_cases hpl : p = home r
    · subst hpl
      simp [State.disconnect, State.abandon, State.setPlugin,
        SamplePluginImplementation.mem_unregister (h.plugin _).nodup]
    · simpa [State.disconnect, State.abandon, State.setPlugin, hp, hpl, Ne.symm hpl] using hr
  case issued => simp [State.disconnect, State.abandon]
  case released =>
    intro q
    simpa [State.disconnect, State.abandon, State.setPlugin] using abandon_released h hp q

theorem operational_spec (h : Invariant handler home s) (upAndRunning : Bool) :
    ∃ s', operational handler home s upAndRunning = .ok s' ∧ Invariant handler home s' ∧
      (s'.link.samplePluginInterface ≠ none ↔ upAndRunning = true) := by
  rcases s.link.operational_cases upAndRunning with ⟨hp, rfl⟩ | ⟨r, hp, rfl⟩ | hp
  · exact ⟨_, operational_up hp, connect_invariant h hp, by simp [State.connect]⟩
  · exact ⟨_, operational_down hp, disconnect_invariant h hp,
      by simp [State.disconnect, State.abandon]⟩
  · exact ⟨s, operational_repeated hp, h, by simp [hp]⟩

theorem serve_spec {up : Bool} (h : Invariant handler home s)
    (hup : s.link.samplePluginInterface ≠ none ↔ up = true) (es : List Bool) :
    ∃ s', serve handler home s es = .ok s' ∧ Invariant handler home s' ∧
      (s'.link.samplePluginInterface ≠ none ↔ es.getLast?.getD up = true) := by
  induction es generalizing s up with
  | nil => exact ⟨s, rfl, h, hup⟩
  | cons e es ih =>
    obtain ⟨s₁, hs, hi, hp⟩ := operational_spec h e
    obtain ⟨s₂, hs₂, hi₂, hp₂⟩ := ih hi hp
    refine ⟨s₂, by simp only [serve, hs, bind, Except.bind, hs₂], hi₂, ?_⟩
    rw [hp₂, List.getLast?_cons]
    rfl

omit [DecidableEq P] in
theorem Invariant.clean (h : Invariant handler home s)
    (hp : s.link.samplePluginInterface = none) : Clean handler s := by
  constructor
  · intro p hm
    obtain ⟨r, hr, -⟩ := (h.registered p).mp hm
    rw [hp] at hr
    cases hr
  · intro r hr
    rw [h.released r, if_pos ⟨hr, by simp [hp]⟩]

omit [DecidableEq P] in
theorem abandon_registered (h : Invariant handler home s) {r : ℕ}
    (hp : s.link.samplePluginInterface = some r) :
    handler ∈ ((s.abandon r).plugin (home r)).callbacks := (h.registered _).mpr ⟨r, hp, rfl⟩

end Invariants

/-- When the destructor has finished, no null pointer was used and the handler is gone from
the plugins, all references released once, exactly if Close delivered a last Operational(false)
or the last event was not an up. -/
theorem clean_iff (plugins : Plugins P L handler) (es : List Bool) (closeDelivers : Bool) :
    ∃ s, remains handler home plugins es closeDelivers = .ok s ∧
      (Clean handler s ↔ closeDelivers = true ∨ es.getLast? ≠ some true) := by
  have hdown : (start plugins).link.samplePluginInterface ≠ none ↔ false = true := by
    simp [start]
  obtain ⟨s, hs, hi, hp⟩ := serve_spec (start_invariant handler home plugins) hdown es
  have hr (t) (ht : destroy handler home s closeDelivers = .ok t) :
      remains handler home plugins es closeDelivers = .ok t := by
    simp only [remains, hs, bind, Except.bind, ht]
  have hlast : es.getLast?.getD false = true ↔ es.getLast? = some true := by
    cases es.getLast? <;> simp
  cases hl : s.link.samplePluginInterface with
  | none =>
    refine ⟨s, hr s (destroy_down hl closeDelivers), ?_⟩
    have hdown : es.getLast? ≠ some true := fun hu => hp.mpr (hlast.mpr hu) hl
    exact ⟨fun _ => .inr hdown, fun _ => hi.clean hl⟩
  | some r =>
    have hup : es.getLast? = some true := hlast.mp (hp.mp (by simp [hl]))
    cases closeDelivers with
    | true =>
      refine ⟨_, hr _ (destroy_told hl), ?_⟩
      exact ⟨fun _ => .inl rfl, fun _ => (disconnect_invariant hi hl).clean rfl⟩
    | false =>
      refine ⟨_, hr _ (destroy_untold hl), ?_⟩
      constructor
      · intro hc
        exact absurd (abandon_registered hi hl) (hc.1 _)
      · rintro (hc | hc)
        · cases hc
        · exact absurd hup hc

end Remains

def onePlugin : Plugins Unit ℕ 7 where
  plugin := fun _ => .initial
  invariant := fun _ => SamplePluginImplementation.initial_invariant
  absent := fun _ => List.not_mem_nil

/-- The link is destroyed while it is up and Close says nothing: the handler stays. -/
theorem destroyed_while_up_stays_registered :
    ¬ ∀ (es : List Bool) (closeDelivers : Bool) (s : State Unit ℕ),
      remains 7 (fun _ => ()) onePlugin es closeDelivers = .ok s → Clean 7 s := by
  intro hclaim
  have hc := hclaim [true] false _ rfl
  have hin : 7 ∈ [7] := List.mem_singleton_self 7
  exact hc.1 () hin

end LinkLifetime
