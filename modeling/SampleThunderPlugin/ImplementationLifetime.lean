import SampleThunderPlugin.SamplePluginImplementation

/-! An implementation from its construction to its destruction. Clients may go without
unregistering: the Revoked event that Thunder raises then is not observed, so nothing
happens here. What is registered at the end is left to the destructor. -/
namespace ImplementationLifetime

open SubscriptionRoster (Move LastIsJoin apply roster)
open SamplePluginImplementation (Request)

inductive Event (N : Type) where
  | request (q : Request N)
  | clientGone (notification : N)

variable {N : Type}

def view : Event N → Option (Move N)
  | .request q => SamplePluginImplementation.view q
  | .clientGone _ => none

/-- ~SamplePluginImplementation has an empty body: with the list only its pointers go. -/
def destroy (s : SamplePluginImplementation N) : ReferenceLedger N := s.refs

section Lifetime
variable [DecidableEq N]
variable (fromString : SamplePluginConfiguration → String → SamplePluginConfiguration)

def live (s : SamplePluginImplementation N) :
    List (Event N) → Except Fault (SamplePluginImplementation N)
  | [] => .ok s
  | .request q :: es => do
    let (_, s) ← s.serve fromString q
    live s es
  | .clientGone _ :: es => live s es

/-- The AddRef and Release calls of a whole lifetime. -/
def lifetime (es : List (Event N)) : Except Fault (ReferenceLedger N) := do
  let s ← live fromString .initial es
  .ok (destroy s)

theorem live_spec (s : SamplePluginImplementation N) (es : List (Event N)) :
    ∃ s', live fromString s es = .ok s' ∧
      s'.callbacks = es.foldl (fun l e => apply l (view e)) s.callbacks ∧
      (s.Invariant → s'.Invariant) := by
  induction es generalizing s with
  | nil => exact ⟨s, rfl, rfl, id⟩
  | cons e es ih =>
    cases e with
    | clientGone n => exact ih s
    | request q =>
      obtain ⟨reply, s₁, hq, hc, hi⟩ := SamplePluginImplementation.serve_spec fromString s q
      obtain ⟨s₂, hs, hcs, his⟩ := ih s₁
      refine ⟨s₂, ?_, ?_, fun h => his (hi h)⟩
      · simp only [live, hq, bind, Except.bind, hs]
      · rw [hcs, hc]
        rfl

/-- At the end of a lifetime a callback has been released as often as it was AddRef'd exactly
if its last registration was taken back. -/
theorem released_as_often_iff (es : List (Event N)) :
    ∃ refs, lifetime fromString es = .ok refs ∧
      ∀ n, refs.releases n = refs.addRefs n ↔ ¬ LastIsJoin view es n := by
  obtain ⟨s, hs, hc, hi⟩ := live_spec fromString .initial es
  refine ⟨s.refs, by simp only [lifetime, hs, bind, Except.bind, destroy], ?_⟩
  intro n
  have hroster : s.callbacks = roster view es := hc
  have hbalance := (hi SamplePluginImplementation.initial_invariant).refs n
  rw [hroster] at hbalance
  rw [← SubscriptionRoster.mem_roster]
  unfold ReferenceLedger.balance at hbalance
  constructor
  · intro heven hn
    rw [if_pos hn] at hbalance
    omega
  · intro hn
    rw [if_neg hn] at hbalance
    omega

end Lifetime

/-- One client registers, goes, and the implementation is destroyed. -/
theorem gone_client_keeps_reference :
    ¬ ∀ (fromString : SamplePluginConfiguration → String → SamplePluginConfiguration)
        (es : List (Event ℕ)) (refs : ReferenceLedger ℕ), lifetime fromString es = .ok refs →
      ∀ n, refs.releases n = refs.addRefs n := by
  intro hclaim
  have heven := hclaim (fun _ _ => .default) [.request (.register 1), .clientGone 1] _ rfl 1
  exact absurd heven (by decide)

end ImplementationLifetime
