import Mathlib.Logic.Function.Basic
import SampleThunderPlugin.SamplePluginLink

/-! Any number of links on one plugin. Each link's events and its users' Greets are served
one at a time; Interface() returns a fresh reference on the plugin. The callback a link
registers is its own notification handler, so it goes by the link's name. -/
namespace SubscriptionAgreement

open SamplePluginImplementation (deliveredTo)

structure State (L : Type) where
  plugin : SamplePluginImplementation L
  link : L → SamplePluginLink ℕ
  /-- The references each link acquired and released. -/
  held : L → ReferenceLedger ℕ
  /-- Interface() results so far, the next one's number. -/
  issued : ℕ
  received : L → List Source

inductive Event (L : Type) where
  | operational (l : L) (upAndRunning : Bool)
  | greet (l : L) (distribution : UniformInt) (message result : String)
  | echo (l : L) (message result : String)

variable {L : Type}

def start (greetings : List String) : State L where
  plugin := { SamplePluginImplementation.initial with greetings := greetings }
  link := fun _ => ⟨none⟩
  held := fun _ => .empty
  issued := 0
  received := fun _ => []

variable [DecidableEq L]

def State.deliver (s : State L) (delivered : List (L × Source)) : State L :=
  { s with received := fun l => s.received l ++ deliveredTo l delivered }

def perform (distribution : UniformInt) (l : L) (s : State L) :
    LinkCall ℕ → Except Fault (ErrorCode × State L)
  | .interface (some r) =>
    .ok (.errorNone, { s with
      held := Function.update s.held l ((s.held l).addRef r), issued := s.issued + 1 })
  | .register (some _) => .ok (.errorNone, { s with plugin := s.plugin.register l })
  | .unregister (some _) => .ok (.errorNone, { s with plugin := s.plugin.unregister l })
  | .release (some r) =>
    .ok (.errorNone, { s with held := Function.update s.held l ((s.held l).release r) })
  | .greet (some _) message result => do
    let (reply, plugin) ← s.plugin.greet distribution message result
    .ok (reply.code, { s with plugin := plugin }.deliver reply.delivered)
  | .echo (some _) message result =>
    let (reply, plugin) := s.plugin.echo message result
    .ok (reply.code, { s with plugin := plugin })
  | .interface none => .ok (.errorNone, s)
  | _ => .error .nullPointer

def performAll (distribution : UniformInt) (l : L) (s : State L) :
    List (LinkCall ℕ) → Except Fault (State L)
  | [] => .ok s
  | call :: calls => do
    let (_, s) ← perform distribution l s call
    performAll distribution l s calls

def State.setLink (s : State L) (l : L) (link : SamplePluginLink ℕ) : State L :=
  { s with link := Function.update s.link l link }

/-- What one event returns to its caller, and the state after it. -/
def step (s : State L) : Event L → Except Fault (ErrorCode × State L)
  | .operational l upAndRunning => do
    let (calls, link) := (s.link l).operational upAndRunning (some s.issued)
    let s ← performAll (.favouring 0) l s calls
    .ok (.errorNone, s.setLink l link)
  | .greet l distribution message result =>
    match (s.link l).greet message result with
    | some call => perform distribution l s call
    | none => .ok (.errorUnavailable, s)
  | .echo l message result =>
    match (s.link l).echo message result with
    | some call => perform (.favouring 0) l s call
    | none => .ok (.errorUnavailable, s)

def run (s : State L) : List (Event L) → Except Fault (State L)
  | [] => .ok s
  | e :: es => do
    let (_, s) ← step s e
    run s es

def Event.IsGreet : Event L → Bool
  | .greet _ _ _ _ => true
  | _ => false

/-- One for a successful Greet, by any link, while l's pointer is not null. -/
def heardNow (l : L) (s : State L) (e : Event L) (code : ErrorCode) : ℕ :=
  if e.IsGreet ∧ code = .errorNone ∧ (s.link l).samplePluginInterface ≠ none then 1 else 0

def greetsWhileUp (l : L) (s : State L) : List (Event L) → ℕ
  | [] => 0
  | e :: es =>
    match step s e with
    | .ok (code, s') => heardNow l s e code + greetsWhileUp l s' es
    | .error _ => 0

def State.connect (s : State L) (l : L) : State L :=
  { s with
    plugin := s.plugin.register l
    held := Function.update s.held l ((s.held l).addRef s.issued)
    issued := s.issued + 1
    link := Function.update s.link l ⟨some s.issued⟩ }

def State.disconnect (s : State L) (l : L) (r : ℕ) : State L :=
  { s with
    plugin := s.plugin.unregister l
    held := Function.update s.held l ((s.held l).release r)
    link := Function.update s.link l ⟨none⟩ }

section StepResults
variable {s : State L} {l : L}

theorem step_up (h : (s.link l).samplePluginInterface = none) :
    step s (.operational l true) = .ok (.errorNone, s.connect l) := by
  simp [step, SamplePluginLink.operational_up h, performAll, perform, bind, Except.bind,
    State.setLink, State.connect]

theorem step_down {r : ℕ} (h : (s.link l).samplePluginInterface = some r) :
    step s (.operational l false) = .ok (.errorNone, s.disconnect l r) := by
  simp [step, SamplePluginLink.operational_down h, performAll, perform, bind, Except.bind,
    State.setLink, State.disconnect]

theorem step_repeated {upAndRunning : Bool}
    (h : (s.link l).samplePluginInterface = none ↔ upAndRunning = false) :
    step s (.operational l upAndRunning) = .ok (.errorNone, s) := by
  simp [step, SamplePluginLink.operational_repeated h, performAll, bind, Except.bind,
    State.setLink]

theorem step_unavailable (h : (s.link l).samplePluginInterface = none)
    (distribution : UniformInt) (message result : String) :
    step s (.greet l distribution message result) = .ok (.errorUnavailable, s) := by
  simp [step, SamplePluginLink.greet, h]

theorem step_forwarded {r : ℕ} (h : (s.link l).samplePluginInterface = some r)
    {distribution : UniformInt} {message result : String}
    {reply : SamplePluginImplementation.Reply L} {plugin : SamplePluginImplementation L}
    (hg : s.plugin.greet distribution message result = .ok (reply, plugin)) :
    step s (.greet l distribution message result) =
      .ok (reply.code, { s with plugin := plugin }.deliver reply.delivered) := by
  simp [step, SamplePluginLink.greet, h, perform, hg, bind, Except.bind]

theorem step_echo (message result : String) :
    ∃ code, step s (.echo l message result) = .ok (code, s) := by
  cases h : (s.link l).samplePluginInterface with
  | none => exact ⟨.errorUnavailable, by simp [step, SamplePluginLink.echo, h]⟩
  | some r =>
    exact ⟨.errorNone, by
      simp [step, SamplePluginLink.echo, h, perform, SamplePluginImplementation.echo]⟩

end StepResults

inductive Outcome (s : State L) : Event L → ErrorCode → State L → Prop where
  | unchanged (e code) (hc : e.IsGreet → code ≠ .errorNone) : Outcome s e code s
  | connected (l) (hl : (s.link l).samplePluginInterface = none) :
      Outcome s (.operational l true) .errorNone (s.connect l)
  | disconnected (l r) (hl : (s.link l).samplePluginInterface = some r) :
      Outcome s (.operational l false) .errorNone (s.disconnect l r)
  | greeted (l distribution message result reply plugin)
      (hg : s.plugin.greet distribution message result = .ok (reply, plugin)) :
      Outcome s (.greet l distribution message result) reply.code
        ({ s with plugin := plugin }.deliver reply.delivered)

theorem step_outcome (s : State L) (e : Event L) :
    ∃ code u, step s e = .ok (code, u) ∧ Outcome s e code u := by
  cases e with
  | operational l upAndRunning =>
    rcases (s.link l).operational_cases upAndRunning with ⟨hl, rfl⟩ | ⟨r, hl, rfl⟩ | hl
    · exact ⟨_, _, step_up hl, .connected l hl⟩
    · exact ⟨_, _, step_down hl, .disconnected l r hl⟩
    · exact ⟨_, _, step_repeated hl, .unchanged _ _ (by simp [Event.IsGreet])⟩
  | greet l distribution message result =>
    cases hl : (s.link l).samplePluginInterface with
    | none => exact ⟨_, _, step_unavailable hl _ _ _, .unchanged _ _ (by simp)⟩
    | some r =>
      rcases SamplePluginImplementation.greet_cases distribution s.plugin message result with
        ⟨-, hg⟩ | ⟨-, -, hg⟩ | ⟨-, greeting, -, hg⟩ <;>
        exact ⟨_, _, step_forwarded hl hg, .greeted _ _ _ _ _ _ hg⟩
  | echo l message result =>
    obtain ⟨code, hs⟩ := step_echo (s := s) (l := l) message result
    exact ⟨_, _, hs, .unchanged _ _ (by simp [Event.IsGreet])⟩

theorem outcome_of_step {s u : State L} {e : Event L} {code : ErrorCode}
    (h : step s e = .ok (code, u)) : Outcome s e code u := by
  obtain ⟨code', v, hs, ho⟩ := step_outcome s e
  rw [hs] at h
  cases h
  exact ho

/-- Every link's pointer and its reference go together with its place in the plugin's list,
which holds besides only what links have left behind. -/
structure Invariant (s : State L) (left : List L) : Prop where
  plugin : s.plugin.Invariant
  subscribed : ∀ l, l ∈ s.plugin.callbacks ↔
    (s.link l).samplePluginInterface ≠ none ∨ l ∈ left
  held : ∀ l, (s.held l).OneOn (s.link l).samplePluginInterface

theorem start_invariant (greetings : List String) :
    Invariant (start greetings : State L) [] where
  plugin := ⟨List.nodup_nil, ReferenceLedger.oneEach_empty⟩
  subscribed := fun _ => by
    simp [start, SamplePluginImplementation.callbacks, SamplePluginImplementation.initial]
  held := fun _ _ => rfl

section Preserved
variable {s : State L} {left : List L} {l : L} (h : Invariant s left)
include h

theorem held_update {held : ReferenceLedger ℕ} {link : SamplePluginLink ℕ}
    (hl : held.OneOn link.samplePluginInterface) (m : L) :
    (Function.update s.held l held m).OneOn
      (Function.update s.link l link m).samplePluginInterface := by
  rcases eq_or_ne m l with rfl | hm
  · simpa using hl
  · simpa [hm] using h.held m

theorem connect_invariant (hl : (s.link l).samplePluginInterface = none) :
    Invariant (s.connect l) left := by
  refine ⟨SamplePluginImplementation.register_invariant h.plugin l, ?_, ?_⟩
  · intro m
    simp only [State.connect, SamplePluginImplementation.mem_register]
    rcases eq_or_ne m l with rfl | hm
    · simp
    · simpa [hm] using h.subscribed m
  · have hnone : (s.held l).OneOn none := hl ▸ h.held l
    exact held_update h (hnone.addRef s.issued)

theorem disconnect_invariant {r : ℕ} (hl : (s.link l).samplePluginInterface = some r)
    (hleft : l ∉ left) : Invariant (s.disconnect l r) left := by
  refine ⟨SamplePluginImplementation.unregister_invariant h.plugin l, ?_, ?_⟩
  · intro m
    simp only [State.disconnect, SamplePluginImplementation.mem_unregister h.plugin.nodup]
    rcases eq_or_ne m l with rfl | hm
    · simp [hleft]
    · simpa [hm] using h.subscribed m
  · have hone : (s.held l).OneOn (some r) := hl ▸ h.held l
    exact held_update h hone.release

theorem deliver_invariant {plugin : SamplePluginImplementation L}
    (hn : plugin.notificationCallbacks = s.plugin.notificationCallbacks)
    (hr : plugin.refs = s.plugin.refs) (delivered : List (L × Source)) :
    Invariant ({ s with plugin := plugin }.deliver delivered) left := by
  have hc : plugin.callbacks = s.plugin.callbacks := congrArg StableList.values hn
  refine ⟨⟨hc ▸ h.plugin.nodup, ?_⟩, ?_, h.held⟩
  · change plugin.refs.OneEach plugin.callbacks
    rw [hc, hr]
    exact h.plugin.refs
  · intro l
    change l ∈ plugin.callbacks ↔ _
    rw [hc]
    exact h.subscribed l

theorem outcome_invariant {e : Event L} {code : ErrorCode} {u : State L}
    (ho : Outcome s e code u) (hleft : ∀ l, e = .operational l false → l ∉ left) :
    Invariant u left := by
  cases ho with
  | unchanged _ _ hc => exact h
  | connected l hl => exact connect_invariant h hl
  | disconnected l r hl => exact disconnect_invariant h hl (hleft l rfl)
  | greeted l distribution message result reply plugin hg =>
    obtain ⟨hn, hr, -⟩ := SamplePluginImplementation.greet_frame hg
    exact deliver_invariant h hn hr _

theorem outcome_heard {e : Event L} {code : ErrorCode} {u : State L} (ho : Outcome s e code u)
    (m : L) : (u.received m).length = (s.received m).length +
      if e.IsGreet ∧ code = .errorNone ∧ ((s.link m).samplePluginInterface ≠ none ∨ m ∈ left)
      then 1 else 0 := by
  simp only [← h.subscribed m]
  cases ho with
  | unchanged _ _ hc =>
    rw [if_neg fun hn => hc hn.1 hn.2.1]
    rfl
  | connected l hl => rfl
  | disconnected l r hl => rfl
  | greeted l distribution message result reply plugin hg =>
    simp only [State.deliver, List.length_append, Event.IsGreet, true_and]
    rcases SamplePluginImplementation.greet_cases distribution s.plugin message result
      with ⟨-, hk⟩ | ⟨-, -, hk⟩ | ⟨-, greeting, -, hk⟩ <;> rw [hk] at hg <;> cases hg
    · simp [deliveredTo]
    · simp [deliveredTo]
    · simp only [SamplePluginImplementation.raiseSomethingHappenedNotification, true_and]
      by_cases hm : m ∈ s.plugin.callbacks
      · rw [SamplePluginImplementation.deliveredTo_of_mem _ h.plugin.nodup hm, if_pos hm]
        rfl
      · rw [SamplePluginImplementation.deliveredTo_of_notMem _ hm, if_neg hm]
        rfl

end Preserved

theorem step_spec {s : State L} (h : Invariant s []) (e : Event L) :
    ∃ code s', step s e = .ok (code, s') ∧ Invariant s' [] ∧
      ∀ m, (s'.received m).length = (s.received m).length + heardNow m s e code := by
  obtain ⟨code, s', hs, ho⟩ := step_outcome s e
  refine ⟨code, s', hs, outcome_invariant h ho (by simp), ?_⟩
  intro m
  have hheard := outcome_heard h ho m
  simpa only [heardNow, List.not_mem_nil, or_false] using hheard

theorem run_spec {s : State L} (h : Invariant s []) (es : List (Event L)) :
    ∃ s', run s es = .ok s' ∧ Invariant s' [] ∧
      ∀ l, (s'.received l).length = (s.received l).length + greetsWhileUp l s es := by
  induction es generalizing s with
  | nil => exact ⟨s, rfl, h, fun _ => rfl⟩
  | cons e es ih =>
    obtain ⟨code, s₁, hstep, hinv, hheard⟩ := step_spec h e
    obtain ⟨s₂, hrun, hinv₂, hcount⟩ := ih hinv
    refine ⟨s₂, by simp only [run, hstep, bind, Except.bind, hrun], hinv₂, ?_⟩
    intro l
    simp only [greetsWhileUp, hstep]
    rw [hcount l, hheard l, Nat.add_assoc]

/-- After every sequence of events, no null pointer was used, each link's pointer is set if
and only if its handler is in the plugin's list, once, and the link then holds one reference,
the one it points to, and else none; and its handler has heard one event of every successful
Greet that was served while the pointer was set. -/
theorem links_agree_with_plugin (greetings : List String) (es : List (Event L)) :
    ∃ s, run (start greetings) es = .ok s ∧ ∀ l,
      ((s.link l).samplePluginInterface ≠ none ↔ l ∈ s.plugin.callbacks) ∧
      s.plugin.callbacks.count l ≤ 1 ∧
      (∀ r, (s.held l).balance r = if (s.link l).samplePluginInterface = some r then 1 else 0) ∧
      (s.received l).length = greetsWhileUp l (start greetings) es := by
  obtain ⟨s, hs, hi, hcount⟩ := run_spec (start_invariant (L := L) greetings) es
  refine ⟨s, hs, fun l => ⟨?_, ?_, hi.held l, ?_⟩⟩
  · simpa using (hi.subscribed l).symm
  · exact List.nodup_iff_count_le_one.mp hi.plugin.nodup l
  · rw [hcount l]
    exact Nat.zero_add _

end SubscriptionAgreement
