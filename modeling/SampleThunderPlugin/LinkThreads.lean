import SampleThunderPlugin.LabelledRuns
import SampleThunderPlugin.SamplePluginLink
import Mathlib.Logic.Function.Basic

/-! One link whose users call Greet and Echo from threads of their own while Operational
runs on another. Testing the pointer, reading it again, the call through what was read, and
each of Operational's calls and assignments are separate steps. -/
namespace LinkThreads

open LabelledRuns

inductive Wrapper where
  | greet (message result : String)
  | echo (message result : String)
  deriving DecidableEq, Repr

inductive AppPc where
  | idle
  | testing (w : Wrapper)
  | reading (w : Wrapper)
  | invoking (w : Wrapper) (p : Option ℕ)
  deriving DecidableEq, Repr

inductive LinkPc where
  | idle
  | testing (upAndRunning : Bool)
  | resolving
  | registering
  | unregistering
  | releasing
  | clearing
  deriving DecidableEq, Repr

structure State (T : Type) where
  link : SamplePluginLink ℕ
  pc : LinkPc
  held : ReferenceLedger ℕ
  /-- Interface() results so far, the next one's number. -/
  issued : ℕ
  app : T → AppPc

inductive Event (T : Type) where
  | enter (t : T) (w : Wrapper)
  | unavailable (t : T)
  | tested (t : T)
  | read (t : T)
  | invoke (t : T) (w : Wrapper) (p : Option ℕ)
  | operational (upAndRunning : Bool)
  | test
  | interface (returned : Option ℕ)
  | register (r : ℕ)
  | unregister (r : ℕ)
  | release (r : ℕ)
  | clear

variable {T : Type}

def start : State T := ⟨⟨none⟩, .idle, .empty, 0, fun _ => .idle⟩

/-- Interface() hands out null or a reference of its own. -/
def State.resolve (s : State T) : Option ℕ → State T
  | none => { s with link := ⟨none⟩, pc := .registering }
  | some r =>
    { s with link := ⟨some r⟩, pc := .registering, held := s.held.addRef r, issued := s.issued + 1 }

section Steps
variable [DecidableEq T]

def State.goto (s : State T) (t : T) (pc : AppPc) : State T :=
  { s with app := Function.update s.app t pc }

inductive Step : State T → Event T → State T → Prop where
  | enter (s t w) (hp : s.app t = .idle) : Step s (.enter t w) (s.goto t (.testing w))
  | unavailable (s t w) (hp : s.app t = .testing w)
      (hn : s.link.samplePluginInterface = none) : Step s (.unavailable t) (s.goto t .idle)
  | tested (s t w) (hp : s.app t = .testing w) (hn : s.link.samplePluginInterface ≠ none) :
      Step s (.tested t) (s.goto t (.reading w))
  | read (s t w) (hp : s.app t = .reading w) :
      Step s (.read t) (s.goto t (.invoking w s.link.samplePluginInterface))
  | invoke (s t w p) (hp : s.app t = .invoking w p) :
      Step s (.invoke t w p) (s.goto t .idle)
  | operational (s upAndRunning) (hl : s.pc = .idle) :
      Step s (.operational upAndRunning) { s with pc := .testing upAndRunning }
  | testUp (s) (hl : s.pc = .testing true) (hn : s.link.samplePluginInterface = none) :
      Step s .test { s with pc := .resolving }
  | testDown (s) (hl : s.pc = .testing false) (hn : s.link.samplePluginInterface ≠ none) :
      Step s .test { s with pc := .unregistering }
  | skip (s upAndRunning) (hl : s.pc = .testing upAndRunning)
      (hn : s.link.samplePluginInterface = none ↔ upAndRunning = false) :
      Step s .test { s with pc := .idle }
  | interface (s returned) (hl : s.pc = .resolving)
      (hr : ∀ r, returned = some r → r = s.issued) :
      Step s (.interface returned) (s.resolve returned)
  | register (s r) (hl : s.pc = .registering) (hp : s.link.samplePluginInterface = some r) :
      Step s (.register r) { s with pc := .idle }
  | unregister (s r) (hl : s.pc = .unregistering) (hp : s.link.samplePluginInterface = some r) :
      Step s (.unregister r) { s with pc := .releasing }
  | release (s r) (hl : s.pc = .releasing) (hp : s.link.samplePluginInterface = some r) :
      Step s (.release r) { s with pc := .clearing, held := s.held.release r }
  | clear (s) (hl : s.pc = .clearing) : Step s .clear { s with link := ⟨none⟩, pc := .idle }

def Wrapper.call (p : Option ℕ) : Wrapper → LinkCall ℕ
  | .greet message result => .greet p message result
  | .echo message result => .echo p message result

def Wrapper.run (l : SamplePluginLink ℕ) : Wrapper → Option (LinkCall ℕ)
  | .greet message result => l.greet message result
  | .echo message result => l.echo message result

def callOf : Event T → Option (LinkCall ℕ)
  | .invoke _ w p => some (w.call p)
  | .interface returned => some (.interface returned)
  | .register r => some (.register (some r))
  | .unregister r => some (.unregister (some r))
  | .release r => some (.release (some r))
  | _ => none

theorem operational_reaches (s : State T) (hl : s.pc = .idle) (upAndRunning : Bool) :
    ∃ es u, Run Step s es u ∧ u.pc = .idle ∧ u.app = s.app ∧
      (es.filterMap callOf, u.link) = s.link.operational upAndRunning (some s.issued) := by
  have h₁ := Run.single (Step.operational s upAndRunning hl)
  rcases s.link.operational_cases upAndRunning with ⟨hp, rfl⟩ | ⟨r, hp, rfl⟩ | hp
  · have h₂ := h₁.tail (.testUp _ rfl hp)
    have h₃ := h₂.tail (.interface _ (some s.issued) rfl (by simp))
    have h₄ := h₃.tail (.register _ s.issued rfl rfl)
    exact ⟨_, _, h₄, rfl, rfl, (SamplePluginLink.operational_up hp _).symm⟩
  · have h₂ := h₁.tail (.testDown _ rfl (by simp [hp]))
    have h₃ := h₂.tail (.unregister _ r rfl hp)
    have h₄ := h₃.tail (.release _ r rfl hp)
    have h₅ := h₄.tail (.clear _ rfl)
    exact ⟨_, _, h₅, rfl, rfl, (SamplePluginLink.operational_down hp _).symm⟩
  · have h₂ := h₁.tail (.skip _ upAndRunning rfl hp)
    exact ⟨_, _, h₂, rfl, rfl, (SamplePluginLink.operational_repeated hp _).symm⟩

theorem wrapper_reaches (s : State T) (t : T) (w : Wrapper) (hp : s.app t = .idle) :
    ∃ es u, Run Step s es u ∧ u.app t = .idle ∧ u.link = s.link ∧
      es.filterMap callOf = (w.run s.link).toList := by
  have h₁ := Run.single (Step.enter s t w hp)
  have hat : (s.goto t (.testing w)).app t = .testing w := by simp [State.goto]
  cases hl : s.link.samplePluginInterface with
  | none =>
    have h₂ := h₁.tail (.unavailable _ t w hat hl)
    refine ⟨_, _, h₂, by simp [State.goto], rfl, ?_⟩
    cases w <;> simp only [Wrapper.run, SamplePluginLink.greet, SamplePluginLink.echo, hl] <;> rfl
  | some r =>
    have h₂ := h₁.tail (.tested _ t w hat (by simp [State.goto, hl]))
    have h₃ := h₂.tail (.read _ t w (by simp [State.goto]))
    have h₄ := h₃.tail (.invoke _ t w (some r) (by simp [State.goto, hl]))
    refine ⟨_, _, h₄, by simp [State.goto], rfl, ?_⟩
    cases w <;> simp only [Wrapper.run, SamplePluginLink.greet, SamplePluginLink.echo, hl] <;> rfl

/-- Whatever call a wrapper can make here goes to an interface the link owns. -/
def InvokesOwned (s : State T) : Prop :=
  ∀ t w p u, Step s (.invoke t w p) u → ∃ r, p = some r ∧ s.held.balance r = 1

/-- A wrapper reads the pointer again before it is released, and the link releases it when no
wrapper has read it and not yet made its call. -/
def Timely (s : State T) : Event T → Prop
  | .read _ => s.link.samplePluginInterface ≠ none ∧ s.pc ≠ .clearing
  | .release _ => ∀ t w p, s.app t ≠ .invoking w p
  | _ => True

end Steps

structure Invariant (s : State T) : Prop where
  held : ∀ r, s.held.balance r =
    if s.link.samplePluginInterface = some r ∧ s.pc ≠ .clearing then 1 else 0
  resolving : s.pc = .resolving → s.link.samplePluginInterface = none

theorem start_invariant : Invariant (start : State T) :=
  ⟨fun _ => rfl, fun _ => rfl⟩

theorem Invariant.move {s : State T} (h : Invariant s) {pc : LinkPc} (hs : s.pc ≠ .clearing)
    (hpc : pc ≠ .clearing) (hr : pc = .resolving → s.link.samplePluginInterface = none) :
    Invariant { s with pc := pc } := by
  constructor
  · intro r
    simpa [hs, hpc] using h.held r
  · exact hr

theorem Invariant.balance_resolving {s : State T} (h : Invariant s) (hl : s.pc = .resolving)
    (r : ℕ) : s.held.balance r = 0 := by
  rw [h.held r, h.resolving hl]
  exact if_neg fun hc => by cases hc.1

theorem Invariant.resolve {s : State T} (h : Invariant s) (hl : s.pc = .resolving)
    (returned : Option ℕ) : Invariant (s.resolve returned) := by
  have hnone := h.balance_resolving hl
  cases returned with
  | none =>
    constructor
    · intro q
      simp [State.resolve, hnone]
    · intro hr
      cases hr
  | some r =>
    constructor
    · intro q
      by_cases hqr : q = r
      · subst hqr
        simp [State.resolve, hnone]
      · simp [State.resolve, hnone, hqr, Ne.symm hqr]
    · intro hr
      cases hr

section Safety
variable [DecidableEq T]

theorem step_preserves_invariant {s u : State T} {e : Event T} (h : Invariant s)
    (hstep : Step s e u) : Invariant u := by
  cases hstep with
  | enter t w hp => exact ⟨h.held, h.resolving⟩
  | unavailable t w hp hn => exact ⟨h.held, h.resolving⟩
  | tested t w hp hn => exact ⟨h.held, h.resolving⟩
  | read t w hp => exact ⟨h.held, h.resolving⟩
  | invoke t w p hp => exact ⟨h.held, h.resolving⟩
  | operational upAndRunning hl => exact h.move (by simp [hl]) (by simp) (by simp)
  | testUp hl hn => exact h.move (by simp [hl]) (by simp) (fun _ => hn)
  | testDown hl hn => exact h.move (by simp [hl]) (by simp) (by simp)
  | skip upAndRunning hl hn => exact h.move (by simp [hl]) (by simp) (by simp)
  | interface returned hl hr => exact h.resolve hl returned
  | register r hl hp => exact h.move (by simp [hl]) (by simp) (by simp)
  | unregister r hl hp => exact h.move (by simp [hl]) (by simp) (by simp)
  | release r hl hp =>
    constructor
    · intro q
      have hq := h.held q
      by_cases hqr : q = r
      · subst hqr
        simp [hq, hl, hp]
      · simp [hq, hp, hqr, Ne.symm hqr]
    · intro hr
      cases hr
  | clear hl =>
    constructor
    · intro r
      simpa [hl] using h.held r
    · intro hr
      cases hr

theorem invokesOwned_iff {s : State T} :
    InvokesOwned s ↔ ∀ t w p, s.app t = .invoking w p → ∃ r, p = some r ∧ s.held.balance r = 1 := by
  constructor
  · intro h t w p hp
    exact h t w p _ (.invoke s t w p hp)
  · intro h t w p u hstep
    cases hstep with
    | invoke t w p hp => exact h t w p hp

theorem goto_invoking {s : State T} {t t' : T} {pc : AppPc} {w : Wrapper} {p : Option ℕ}
    (hpc : ∀ w p, pc ≠ .invoking w p) (h : (s.goto t pc).app t' = .invoking w p) :
    s.app t' = .invoking w p := by
  by_cases ht : t' = t
  · subst ht
    exact absurd (by simpa [State.goto] using h) (hpc w p)
  · simpa [State.goto, ht] using h

theorem timely_step {s u : State T} {e : Event T} (hi : Invariant s) (h : InvokesOwned s)
    (hstep : Step s e u) (ht : Timely s e) : InvokesOwned u := by
  rw [invokesOwned_iff] at h ⊢
  intro t' w' p' hp'
  cases hstep with
  | enter t w hp => exact h t' w' p' (goto_invoking (by simp) hp')
  | unavailable t w hp hn => exact h t' w' p' (goto_invoking (by simp) hp')
  | tested t w hp hn => exact h t' w' p' (goto_invoking (by simp) hp')
  | invoke t w p hp => exact h t' w' p' (goto_invoking (by simp) hp')
  | read t w hp =>
    by_cases htt : t' = t
    · subst htt
      simp only [State.goto, Function.update_self, AppPc.invoking.injEq] at hp'
      obtain ⟨rfl, rfl⟩ := hp'
      obtain ⟨r, hr⟩ := Option.ne_none_iff_exists'.mp ht.1
      refine ⟨r, hr, ?_⟩
      exact (hi.held r).trans (if_pos ⟨hr, ht.2⟩)
    · exact h t' w' p' (by simpa [State.goto, htt] using hp')
  | interface returned hl hr =>
    cases returned with
    | none => exact h t' w' p' hp'
    | some r =>
      obtain ⟨q, rfl, hq⟩ := h t' w' p' hp'
      rw [hi.balance_resolving hl] at hq
      cases hq
  | release r hl hp => exact absurd hp' (ht t' w' p')
  | _ => exact h t' w' p' hp'

/-- After a step that is not timely a wrapper is about to call through a null pointer or
through one whose reference is gone. -/
theorem untimely_step {s u : State T} {e : Event T} (hi : Invariant s) (hstep : Step s e u)
    (ht : ¬ Timely s e) : ¬ InvokesOwned u := by
  rw [invokesOwned_iff]
  intro h
  cases hstep with
  | read t w hp =>
    obtain ⟨r, hr, hb⟩ := h t w s.link.samplePluginInterface (by simp [State.goto])
    have hclearing : s.pc = .clearing := by
      by_contra hc
      exact ht ⟨by simp [hr], hc⟩
    change s.held.balance r = 1 at hb
    rw [hi.held r, if_neg fun hc => hc.2 hclearing] at hb
    cases hb
  | release r hl hp =>
    apply ht
    intro t w p hinv
    obtain ⟨q, rfl, hb⟩ := h t w p hinv
    have hq := hi.held q
    by_cases hqr : q = r
    · subst hqr
      simp [hq, hp, hl] at hb
    · simp [hq, hp, hqr, Ne.symm hqr] at hb
  | _ => exact ht trivial

theorem step_unique (s : State T) (e : Event T) (u v : State T) (hu : Step s e u)
    (hv : Step s e v) : u = v := by
  cases hu <;> cases hv <;> simp_all

/-- In a run every call that a wrapper is about to make goes to an interface the link owns
exactly if every step was timely. -/
theorem wrappers_invoke_owned_iff {es : List (Event T)} {s : State T}
    (h : Run Step start es s) :
    Throughout Step InvokesOwned start es ↔ Run (Guarded Timely Step) start es s := by
  constructor
  · intro hall
    induction h with
    | refl => exact .refl _
    | @tail u v es e hr hstep ih =>
      have hguarded := ih fun fs gs w hes hw => hall fs (gs ++ [e]) w (by simp [hes]) hw
      refine .tail hguarded ⟨?_, hstep⟩
      by_contra ht
      have hi : Invariant u := hr.invariant (fun _ _ _ hi hs => step_preserves_invariant hi hs)
        start_invariant
      exact untimely_step hi hstep ht (hall (es ++ [e]) [] v (by simp) (hr.tail hstep))
  · rintro hguarded fs gs u rfl hu
    obtain ⟨v, hv, -⟩ := hguarded.split
    obtain rfl : u = v := hu.unique step_unique (hv.mono fun _ _ _ hs => hs.2)
    exact Run.persists Invariant InvokesOwned (fun _ => False)
      (fun _ _ _ hi hs => step_preserves_invariant hi hs.2)
      (fun _ _ _ hi ho _ hs => timely_step hi ho hs.2 hs.1) hv start_invariant
      (invokesOwned_iff.mpr fun t w p hp => by cases hp) (fun _ _ => id)

/-- A wrapper has found the pointer set and not yet made its call. -/
def InSpan : AppPc → Prop
  | .reading _ | .invoking _ _ => True
  | _ => False

/-- No span of a wrapper, from its test to its call, overlaps one of the link, from Release to
the clearing of the pointer. -/
def Apart (s : State T) : Event T → Prop
  | .tested _ => s.pc ≠ .clearing
  | .release _ => ∀ t, ¬ InSpan (s.app t)
  | _ => True

def Covered (s : State T) : Prop :=
  ∀ t, InSpan (s.app t) → s.link.samplePluginInterface ≠ none ∧ s.pc ≠ .clearing

theorem Covered.goto {s : State T} (h : Covered s) {t : T} {pc : AppPc}
    (hpc : InSpan pc → s.link.samplePluginInterface ≠ none ∧ s.pc ≠ .clearing) :
    Covered (s.goto t pc) := by
  intro v hv
  rcases eq_or_ne v t with rfl | hvt
  · exact hpc (by simpa [State.goto] using hv)
  · exact h v (by simpa [State.goto, hvt] using hv)

theorem apart_covered {s u : State T} {e : Event T} (hi : Invariant s) (h : Covered s)
    (he : Apart s e) (hstep : Step s e u) : Covered u := by
  cases hstep with
  | enter t w hp => exact h.goto fun hin => hin.elim
  | unavailable t w hp hn => exact h.goto fun hin => hin.elim
  | tested t w hp hn => exact h.goto fun _ => ⟨hn, he⟩
  | read t w hp => exact h.goto fun _ => h t (by rw [hp]; trivial)
  | invoke t w p hp => exact h.goto fun hin => hin.elim
  | release r hl hp => exact fun t hin => absurd hin (he t)
  | clear hl => exact fun t hin => absurd hl (h t hin).2
  | interface returned hl hr =>
    intro t hin
    have hspan : InSpan (s.app t) := by cases returned <;> exact hin
    exact absurd (hi.resolving hl) (h t hspan).1
  | _ => exact fun t hin => ⟨(h t hin).1, by simp⟩

/-- Where the spans stay apart, the null test is enough: every step is timely. -/
theorem apart_timely {es : List (Event T)} {s : State T}
    (h : Run (Guarded Apart Step) start es s) : Run (Guarded Timely Step) start es s := by
  refine h.guarded_imp (fun s => Invariant s ∧ Covered s) ?_ ?_ ?_
  · intro s e u hs he hstep
    exact ⟨step_preserves_invariant hs.1 hstep, apart_covered hs.1 hs.2 he hstep⟩
  · intro s e u hs he hstep
    cases hstep with
    | read t w hp => exact hs.2 t (by rw [hp]; trivial)
    | release r hl hp => exact fun t w p hinv => he t (by rw [hinv]; trivial)
    | _ => trivial
  · exact ⟨start_invariant, fun t hin => hin.elim⟩

end Safety

/-- The link goes down between the test and the second read of the pointer. -/
theorem link_down_invokes_null :
    ¬ ∀ (es : List (Event ℕ)) (s : State ℕ), Run Step start es s → InvokesOwned s := by
  intro hclaim
  have h₁ := Run.single (Step.operational (start : State ℕ) true rfl)
  have h₂ := h₁.tail (.testUp _ rfl rfl)
  have h₃ := h₂.tail (.interface _ (some 0) rfl (by simp [start]))
  have h₄ := h₃.tail (.register _ 0 rfl rfl)
  have h₅ := h₄.tail (.enter _ 1 (.greet "World" "") rfl)
  have h₆ := h₅.tail (.tested _ 1 (.greet "World" "") rfl (by decide))
  have h₇ := h₆.tail (.operational _ false rfl)
  have h₈ := h₇.tail (.testDown _ rfl (by decide))
  have h₉ := h₈.tail (.unregister _ 0 rfl rfl)
  have h₁₀ := h₉.tail (.release _ 0 rfl rfl)
  have h₁₁ := h₁₀.tail (.clear _ rfl)
  have h₁₂ := h₁₁.tail (.read _ 1 (.greet "World" "") rfl)
  obtain ⟨r, hr, -⟩ := hclaim _ _ h₁₂ 1 (.greet "World" "") none _ (.invoke _ 1 _ none rfl)
  cases hr

/-- A Greet whose steps all come before the link goes down. -/
theorem wrappers_invoke_owned_iff_before_down :
    ∃ (es : List (Event ℕ)) (s : State ℕ), Run Step start es s ∧
      s.app 1 = .invoking (.greet "World" "") (some 0) ∧
      Throughout Step InvokesOwned start es := by
  have h₁ := (.refl _ : Run (Guarded Timely Step) (start : State ℕ) [] start).tail_guarded
    (.operational _ true rfl) trivial
  have h₂ := h₁.tail_guarded (.testUp _ rfl rfl) trivial
  have h₃ := h₂.tail_guarded (.interface _ (some 0) rfl (by simp [start])) trivial
  have h₄ := h₃.tail_guarded (.register _ 0 rfl rfl) trivial
  have h₅ := h₄.tail_guarded (.enter _ 1 (.greet "World" "") rfl) trivial
  have h₆ := h₅.tail_guarded (.tested _ 1 (.greet "World" "") rfl (by decide)) trivial
  have h₇ := h₆.tail_guarded (.read _ 1 (.greet "World" "") rfl) ⟨by decide, by decide⟩
  exact ⟨_, _, h₇.mono fun _ _ _ hs => hs.2, rfl,
    (wrappers_invoke_owned_iff (h₇.mono fun _ _ _ hs => hs.2)).mpr h₇⟩

end LinkThreads
