import SampleThunderPlugin.SamplePluginImplementation

/-! What a callback hears of the raised events. RaiseSomethingHappenedNotification is given
the event source it should raise; here it is called with any, between registrations. -/
namespace RaisedEvents

open SubscriptionRoster (Move LastIsJoin apply)
open SamplePluginImplementation (deliveredTo)

inductive Call (N : Type) where
  | register (notification : N)
  | unregister (notification : N)
  | raise (eventSource : Source)
  deriving DecidableEq, Repr

variable {N : Type} [DecidableEq N]

def perform (p : SamplePluginImplementation N) :
    Call N → List (N × Source) × SamplePluginImplementation N
  | .register notification => ([], p.register notification)
  | .unregister notification => ([], p.unregister notification)
  | .raise eventSource => (p.raiseSomethingHappenedNotification eventSource, p)

def performAll (p : SamplePluginImplementation N) :
    List (Call N) → List (N × Source) × SamplePluginImplementation N
  | [] => ([], p)
  | c :: cs =>
    let (delivered, p) := perform p c
    let (more, p) := performAll p cs
    (delivered ++ more, p)

omit [DecidableEq N] in
def view : Call N → Option (Move N)
  | .register notification => some (.join notification)
  | .unregister notification => some (.leave notification)
  | .raise _ => none

def raisedNow (n : N) (past : List (Call N)) : Call N → List Source
  | .raise eventSource => if LastIsJoin view past n then [eventSource] else []
  | _ => []

/-- The sources raised while n is registered, in the order raised. -/
def raisedWhileRegistered (n : N) (past : List (Call N)) : List (Call N) → List Source
  | [] => []
  | c :: cs => raisedNow n past c ++ raisedWhileRegistered n (past ++ [c]) cs

structure Follows (past : List (Call N)) (p : SamplePluginImplementation N) : Prop where
  plugin : p.Invariant
  registered : ∀ n, n ∈ p.callbacks ↔ LastIsJoin view past n

theorem initial_follows : Follows [] (.initial : SamplePluginImplementation N) where
  plugin := SamplePluginImplementation.initial_invariant
  registered n := by
    constructor
    · intro hn
      exact absurd hn List.not_mem_nil
    · intro hn
      exact absurd hn (SubscriptionRoster.not_lastIsJoin_nil n)

theorem perform_callbacks (p : SamplePluginImplementation N) (c : Call N) :
    (perform p c).2.callbacks = apply p.callbacks (view c) := by
  cases c with
  | register n => exact SamplePluginImplementation.register_callbacks p n
  | unregister n => exact SamplePluginImplementation.unregister_callbacks p n
  | raise e => rfl

theorem perform_follows {past : List (Call N)} {p : SamplePluginImplementation N}
    (h : Follows past p) (c : Call N) : Follows (past ++ [c]) (perform p c).2 where
  plugin := by
    cases c with
    | register n => exact SamplePluginImplementation.register_invariant h.plugin n
    | unregister n => exact SamplePluginImplementation.unregister_invariant h.plugin n
    | raise e => exact h.plugin
  registered n := by
    rw [perform_callbacks, SubscriptionRoster.mem_apply h.plugin.nodup,
      SubscriptionRoster.lastIsJoin_snoc, h.registered n]

theorem perform_heard {past : List (Call N)} {p : SamplePluginImplementation N}
    (h : Follows past p) (n : N) (c : Call N) :
    deliveredTo n (perform p c).1 =
      (raisedNow n past c).map fun _ => .excitingThingHappened := by
  cases c with
  | register m => rfl
  | unregister m => rfl
  | raise e =>
    simp only [perform, raisedNow, SamplePluginImplementation.raiseSomethingHappenedNotification]
    split
    · next hn =>
      exact SamplePluginImplementation.deliveredTo_of_mem _ h.plugin.nodup
        ((h.registered n).mpr hn)
    · next hn =>
      exact SamplePluginImplementation.deliveredTo_of_notMem _ (mt (h.registered n).mp hn)

theorem performAll_heard {past : List (Call N)} {p : SamplePluginImplementation N}
    (h : Follows past p) (n : N) (cs : List (Call N)) :
    deliveredTo n (performAll p cs).1 =
      (raisedWhileRegistered n past cs).map fun _ => .excitingThingHappened := by
  induction cs generalizing past p with
  | nil => rfl
  | cons c cs ih =>
    have hrest := ih (perform_follows h c)
    rw [raisedWhileRegistered, List.map_append, ← hrest, ← perform_heard h n c]
    exact List.filterMap_append

theorem mem_raisedNow {n : N} {past : List (Call N)} {c : Call N} {source : Source} :
    source ∈ raisedNow n past c ↔ c = .raise source ∧ LastIsJoin view past n := by
  cases c with
  | register m => simp [raisedNow]
  | unregister m => simp [raisedNow]
  | raise e =>
    by_cases hn : LastIsJoin view past n
    · simp [raisedNow, hn, eq_comm]
    · simp [raisedNow, hn]

theorem mem_raisedWhileRegistered {n : N} {past cs : List (Call N)} {source : Source} :
    source ∈ raisedWhileRegistered n past cs ↔
      ∃ before after, cs = before ++ .raise source :: after ∧
        LastIsJoin view (past ++ before) n := by
  induction cs generalizing past with
  | nil => simp [raisedWhileRegistered]
  | cons c cs ih =>
    rw [raisedWhileRegistered, List.mem_append, mem_raisedNow, ih]
    constructor
    · rintro (⟨rfl, hn⟩ | ⟨before, after, rfl, hn⟩)
      · exact ⟨[], cs, rfl, by simpa using hn⟩
      · exact ⟨c :: before, after, rfl, by simpa using hn⟩
    · rintro ⟨before, after, hcs, hn⟩
      cases before with
      | nil =>
        obtain ⟨rfl, rfl⟩ := List.cons.inj hcs
        exact Or.inl ⟨rfl, by simpa using hn⟩
      | cons d before =>
        obtain ⟨rfl, rfl⟩ := List.cons.inj hcs
        exact Or.inr ⟨before, after, rfl, by simpa using hn⟩

/-- A callback hears what was raised while it was registered, with the sources raised,
exactly if EXCITING_THING_HAPPENED is all that was raised meanwhile. -/
theorem heard_as_raised_iff (h : List (Call N)) (n : N) :
    deliveredTo n (performAll .initial h).1 = raisedWhileRegistered n [] h ↔
      ∀ before source after, h = before ++ .raise source :: after →
        LastIsJoin view before n → source = .excitingThingHappened := by
  rw [performAll_heard initial_follows, List.map_const', eq_comm, List.eq_replicate_length]
  constructor
  · intro hall before source after hh hn
    exact hall source (mem_raisedWhileRegistered.mpr ⟨before, after, hh, hn⟩)
  · intro hall source hs
    obtain ⟨before, after, hh, hn⟩ := mem_raisedWhileRegistered.mp hs
    exact hall before source after hh hn

/-- One callback, and BORING_THING_HAPPENED is raised. -/
theorem boring_heard_as_exciting :
    ¬ ∀ (h : List (Call ℕ)) (n : ℕ),
      deliveredTo n (performAll .initial h).1 = raisedWhileRegistered n [] h := by
  intro hclaim
  exact absurd (hclaim [.register 1, .raise .boringThingHappened] 1) (by decide)

end RaisedEvents
