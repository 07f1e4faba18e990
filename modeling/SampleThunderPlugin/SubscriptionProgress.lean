import Mathlib.Data.Fintype.Prod
import Mathlib.Data.Fintype.Sum
import SampleThunderPlugin.NotificationProgress
import SampleThunderPlugin.SubscriptionThreads

/-! The links, the threads that use them and the plugin's own, where a wrapper stays in its
Greet until a server thread has waited for the mutex and raised for it, as Operational stays
in Register and Unregister. A wrapper's call through null, or through a reference that its
link has given back, has no step. Once nothing new comes in, all else returns. -/
namespace SubscriptionProgress

open LabelledRuns InterleavedThreads SubscriptionThreads
open LinkThreads (AppPc LinkPc)
open NotificationThreads (Change Pc)
open NotificationProgress (registering)
open scoped BigOperators

variable {L T H M N : Type}

/-- Links, the threads that use them, and whoever else calls the plugin. The plugin serves
each of them with a thread of its own. -/
abbrev Party (L T H : Type) := L ⊕ ((L × T) ⊕ H)

abbrev State (L T H M : Type) := SubscriptionThreads.State L T ((L × T) ⊕ H) M

def user (l : L) (t : T) : Party L T H := .inr (.inl (l, t))

def IsGuest : Party L T H → Prop
  | .inr (.inr _) => True
  | _ => False

inductive Event (L T H M : Type) where
  | link (l : L) (e : LinkThreads.Event T)
  | call (l : L) (c : Change (L ⊕ M))
  | greet (l : L) (t : T) (distribution : UniformInt)
  | greeted (l : L) (t : T)
  | echo (l : L) (t : T)
  | server (e : ServerEvent L ((L × T) ⊕ H) M)

/-- Calls of links and wrappers begin and return with a step of theirs. -/
def Free : ServerEvent L ((L × T) ⊕ H) M → Prop
  | .call t c => IsGuest t ∧ (callback c).isRight
  | .greet t _ _ _ | .unlock t _ => IsGuest t
  | _ => True

theorem Free.subscribes {e : ServerEvent L ((L × T) ⊕ H) M} (h : Free e) :
    SubscriptionThreads.Free e := by
  have hguest {t : Party L T H} (ht : IsGuest t) : t.isRight := by
    rcases t with l | ⟨l, t⟩ | g
    · exact ht.elim
    · exact ht.elim
    · rfl
  cases e with
  | call t c => exact ⟨hguest h.1, h.2⟩
  | greet t distribution message result => exact hguest h
  | unlock t work => exact hguest h
  | _ => trivial

section Steps
variable [DecidableEq L] [DecidableEq T] [DecidableEq H] [DecidableEq M]

/-- A Greet that the plugin refuses, and an Echo, return without the mutex. -/
inductive Step : State L T H M → Event L T H M → State L T H M → Prop where
  | link (s l e k) (hr : returnsFrom l e = (none : Option (Change (L ⊕ M))))
      (hw : ∀ t w p, e ≠ .invoke t w p) (hk : LinkThreads.Step (s.link l) e k) :
      Step s (.link l e) (s.setLink l k)
  | call (s l c server) (ha : asks l (s.link l) = some c)
      (hs : NotificationThreads.Step s.server (.call (.inl l) c) server) :
      Step s (.call l c) { s with server := server }
  | returned (s l e c k server) (hr : returnsFrom l e = some c)
      (hk : LinkThreads.Step (s.link l) e k)
      (hs : NotificationThreads.Step s.server (.unlock (.inl l) (.change c)) server) :
      Step s (.link l e) { s.setLink l k with server := server }
  | greet (s l t distribution message result p server)
      (hp : (s.link l).app t = .invoking (.greet message result) (some p))
      (hh : (s.link l).held.balance p = 1)
      (hs : NotificationThreads.Step s.server
        (.greet (user l t) distribution message result) server)
      (hb : server.pc (user l t) ≠ .idle) :
      Step s (.greet l t distribution) { s with server := server }
  | refused (s l t distribution message result p k server)
      (hh : (s.link l).held.balance p = 1)
      (hs : NotificationThreads.Step s.server
        (.greet (user l t) distribution message result) server)
      (hb : server.pc (user l t) = .idle)
      (hk : LinkThreads.Step (s.link l) (.invoke t (.greet message result) (some p)) k) :
      Step s (.greet l t distribution) { s.setLink l k with server := server }
  | greeted (s l t message result p k server)
      (hk : LinkThreads.Step (s.link l) (.invoke t (.greet message result) (some p)) k)
      (hs : NotificationThreads.Step s.server (.unlock (user l t) .raise) server) :
      Step s (.greeted l t) { s.setLink l k with server := server }
  | echo (s l t message result p k) (hh : (s.link l).held.balance p = 1)
      (hk : LinkThreads.Step (s.link l) (.invoke t (.echo message result) (some p)) k) :
      Step s (.echo l t) (s.setLink l k)
  | server (s e server) (he : Free e) (hs : NotificationThreads.Step s.server e server) :
      Step s (.server e) { s with server := server }

/-- What the parties do here, links and plugin do there: the wrapper's call is the server
thread's, and its return the link's. -/
theorem step_subscribes {s u : State L T H M} {e : Event L T H M} (h : Step s e u) :
    ∃ es, Run SubscriptionThreads.Step s es u := by
  cases h with
  | link l e k hr hw hk => exact ⟨_, .single (.link s l e k hr hk)⟩
  | call l c server ha hs => exact ⟨_, .single (.call s l c server ha hs)⟩
  | returned l e c k server hr hk hs => exact ⟨_, .single (.returned s l e c k server hr hk hs)⟩
  | greet l t distribution message result p server hp hh hs hb =>
    exact ⟨_, .single (.server s (.greet (user l t) distribution message result) server rfl hs)⟩
  | refused l t distribution message result p k server hh hs hb hk =>
    have hserved := Run.single
      (SubscriptionThreads.Step.server s (.greet (user l t) distribution message result) server
        rfl hs)
    exact ⟨_, hserved.tail (.link { s with server := server } l _ k rfl hk)⟩
  | greeted l t message result p k server hk hs =>
    exact ⟨_, (Run.single (.link s l _ k rfl hk)).tail
      (.server _ (.unlock (user l t) .raise) server rfl hs)⟩
  | echo l t message result p k hh hk => exact ⟨_, .single (.link s l _ k rfl hk)⟩
  | server e server he hs => exact ⟨_, .single (.server s e server he.subscribes hs)⟩

end Steps

inductive Role (N : Type) where
  | link (k : LinkPc) (pc : Pc N)
  | user (a : AppPc) (pc : Pc N)
  | guest (pc : Pc N)

def role (s : State L T H M) : Party L T H → Role (L ⊕ M)
  | .inl l => .link (s.link l).pc (s.server.pc (.inl l))
  | .inr (.inl (l, t)) => .user ((s.link l).app t) (s.server.pc (user l t))
  | .inr (.inr h) => .guest (s.server.pc (.inr (.inr h)))

def Role.Greeting : Role N → Prop
  | .user a pc => pc ≠ .idle →
      (∃ message result p, a = .invoking (.greet message result) (some p)) ∧ ∀ c, ¬ Carries c pc
  | _ => True

/-- The call that the thread is about to make goes through null, or through a reference that
the link has given back. -/
def Lost (k : LinkThreads.State T) (t : T) : Prop :=
  ∃ w p, k.app t = .invoking w p ∧ ∀ r, p = some r → k.held.balance r ≠ 1

/-- New events and calls, and an Interface() that returns null. -/
def Disturbs : Event L T H M → Prop
  | .link _ (.operational _) | .link _ (.enter _ _) | .link _ (.interface none) => True
  | .server e => NotificationProgress.IsCall e
  | _ => False

def Settled (s : State L T H M) : Prop :=
  (∀ l, (s.link l).pc = .idle ∧ ∀ t, (s.link l).app t = .idle ∨ Lost (s.link l) t) ∧
  NotificationProgress.Settled s.server

/-- A Greet still to be called is charged with the raise of its server thread. -/
def userStepsLeft (bound : ℕ) (a : AppPc) (pc : Pc N) : ℕ :=
  match a, pc with
  | .testing _, _ => 2 * bound + 5
  | .reading _, _ => 2 * bound + 4
  | .invoking _ _, .idle => 2 * bound + 3
  | _, _ => 0

def linkStepsLeft (k : LinkPc) (pc : Pc N) : ℕ :=
  match k, pc with
  | .registering, .idle => 4
  | .unregistering, .idle => 6
  | .unregistering, _ => 2
  | .testing _, _ => 7
  | .resolving, _ => 5
  | .releasing, _ => 2
  | .clearing, _ => 1
  | _, _ => 0

def toRegister (k : LinkPc) (pc : Pc N) : ℕ :=
  match k, pc with
  | .registering, .idle | .testing true, _ | .resolving, _ => 1
  | _, _ => 0

def Role.stepsLeft (bound : ℕ) : Role N → ℕ
  | .link k pc => linkStepsLeft k pc + NotificationProgress.stepsLeft bound pc
  | .user a pc => userStepsLeft bound a pc + NotificationProgress.stepsLeft bound pc
  | .guest pc => NotificationProgress.stepsLeft bound pc

def Role.registers : Role N → ℕ
  | .link k pc => toRegister k pc + registering pc
  | .user _ pc | .guest pc => registering pc

section Finitely
variable [Fintype L] [Fintype T] [Fintype H]

/-- What a raise may find: the list, and every Register that may still make its change. -/
def mayFind (s : State L T H M) : ℕ :=
  s.server.plugin.callbacks.length + ∑ p, (role s p).registers

def remaining (s : State L T H M) : ℕ := ∑ p, (role s p).stepsLeft (mayFind s)

end Finitely

structure Invariant [DecidableEq L] [DecidableEq M] (s : State L T H M) : Prop where
  subscriptions : SubscriptionThreads.Invariant s
  greeting : ∀ p, (role s p).Greeting

theorem start_invariant [DecidableEq L] [DecidableEq M] (greetings : List String) :
    Invariant (start greetings : State L T H M) where
  subscriptions := SubscriptionThreads.start_invariant greetings
  greeting p := by
    rcases p with l | ⟨l, t⟩ | g
    · trivial
    · exact fun h => absurd rfl h
    · trivial

def userOf : LinkThreads.Event T → Option T
  | .enter t _ | .unavailable t | .tested t | .read t | .invoke t _ _ => some t
  | _ => none

def Event.actor : Event L T H M → Party L T H
  | .link l e => (userOf e).elim (.inl l) (user l)
  | .call l _ => .inl l
  | .greet l t _ | .greeted l t | .echo l t => user l t
  | .server e => e.actor

section Moves
variable [DecidableEq L] [DecidableEq T] [DecidableEq H] [DecidableEq M]

omit [DecidableEq L] [DecidableEq H] [DecidableEq M] in
theorem link_frame {k k' : LinkThreads.State T} {e : LinkThreads.Event T}
    (hk : LinkThreads.Step k e k') :
    (userOf e = none → k'.app = k.app) ∧
      ∀ t, userOf e = some t → k'.pc = k.pc ∧ ∀ v, v ≠ t → k'.app v = k.app v := by
  cases hk with
  | enter t w hp | unavailable t w hp hn | tested t w hp hn | read t w hp | invoke t w p hp =>
    refine ⟨by simp [userOf], ?_⟩
    rintro _ ⟨⟩
    exact ⟨rfl, fun v hv => Function.update_of_ne hv _ _⟩
  | interface returned hl hr => cases returned <;> exact ⟨fun _ => rfl, by simp [userOf]⟩
  | _ => exact ⟨fun _ => rfl, by simp [userOf]⟩

omit [DecidableEq T] [DecidableEq H] [DecidableEq M] [DecidableEq L] in
theorem role_server {s : State L T H M} {server : Server L ((L × T) ⊕ H) M} {p : Party L T H}
    (h : server.pc p = s.server.pc p) : role { s with server := server } p = role s p := by
  rcases p with l | ⟨l, t⟩ | g <;> simp only [role, user] <;> rw [h]

omit [DecidableEq T] [DecidableEq H] [DecidableEq M] in
theorem role_other {s : State L T H M} {l : L} {k : LinkThreads.State T}
    {server : Server L ((L × T) ⊕ H) M} {p : Party L T H}
    (hserver : server.pc p = s.server.pc p)
    (hlink : p = .inl l → k.pc = (s.link l).pc)
    (huser : ∀ t, p = user l t → k.app t = (s.link l).app t) :
    role { s.setLink l k with server := server } p = role s p := by
  rcases p with m | ⟨m, t⟩ | g
  · rcases eq_or_ne m l with rfl | hm
    · simp only [role, State.setLink, Function.update_self, hserver, hlink rfl]
    · simp only [role, State.setLink, Function.update_of_ne hm, hserver]
  · rcases eq_or_ne m l with rfl | hm
    · simp only [role, user, State.setLink, Function.update_self, hserver, huser t rfl]
    · simp only [role, user, State.setLink, Function.update_of_ne hm, hserver]
  · simp only [role, hserver]

theorem step_other {s u : State L T H M} {e : Event L T H M} (h : Step s e u) {p : Party L T H}
    (hp : p ≠ e.actor) : role u p = role s p := by
  have hlink {l : L} {e : LinkThreads.Event T} {k : LinkThreads.State T}
      (hk : LinkThreads.Step (s.link l) e k) (he : p ≠ (Event.link l e : Event L T H M).actor) :
      (p = .inl l → k.pc = (s.link l).pc) ∧ ∀ t, p = user l t → k.app t = (s.link l).app t := by
    obtain ⟨hown, hother⟩ := link_frame hk
    cases hu : userOf e with
    | none =>
      simp only [Event.actor, hu, Option.elim] at he
      exact ⟨fun hl => absurd hl he, fun t _ => by rw [hown hu]⟩
    | some v =>
      simp only [Event.actor, hu, Option.elim] at he
      obtain ⟨hpc, happ⟩ := hother v hu
      refine ⟨fun _ => hpc, ?_⟩
      rintro t rfl
      exact happ t fun ht => he (by rw [ht])
  cases h with
  | link l e k hr hw hk => exact role_other rfl (hlink hk hp).1 (hlink hk hp).2
  | call l c server ha hs => exact role_server (NotificationThreads.step_other hs hp)
  | returned l e c k server hr hk hs =>
    have hl := hlink hk hp
    have hactor : (Event.link l e : Event L T H M).actor = .inl l := by
      cases e with
      | register r => rfl
      | unregister r => rfl
      | _ => cases hr
    rw [hactor] at hp
    exact role_other (NotificationThreads.step_other hs hp) hl.1 hl.2
  | greet l t distribution message result q server ht hh hs hb =>
    exact role_server (NotificationThreads.step_other hs hp)
  | refused l t distribution message result q k server hh hs hb hk =>
    exact role_other (NotificationThreads.step_other hs hp) (hlink hk hp).1 (hlink hk hp).2
  | greeted l t message result q k server hk hs =>
    exact role_other (NotificationThreads.step_other hs hp) (hlink hk hp).1 (hlink hk hp).2
  | echo l t message result q k hh hk => exact role_other rfl (hlink hk hp).1 (hlink hk hp).2
  | server e server he hs => exact role_server (NotificationThreads.step_other hs hp)

theorem greet_server {s u : Server L ((L × T) ⊕ H) M} {p : Party L T H}
    {distribution : UniformInt} {message result : String}
    (h : NotificationThreads.Step s (.greet p distribution message result) u) :
    s.pc p = .idle ∧ (u.pc p = .atLock .raise ∨ u.pc p = .idle) ∧
      u.plugin.callbacks = s.plugin.callbacks := by
  cases h with
  | greet _ _ _ _ reply plugin hp hg =>
    refine ⟨hp, ?_, congrArg StableList.values (SamplePluginImplementation.greet_frame hg).1⟩
    simp only [NotificationThreads.State.goto, Function.update_self]
    split
    · exact Or.inl rfl
    · exact Or.inr rfl

theorem unlock_raise {s u : Server L ((L × T) ⊕ H) M} {p : Party L T H}
    (h : NotificationThreads.Step s (.unlock p .raise) u) :
    (∃ taken called, s.pc p = .raised taken called) ∧ u.pc p = .idle ∧ u.plugin = s.plugin := by
  cases h with
  | unlockRaise _ taken called hp =>
    exact ⟨⟨taken, called, hp⟩, by simp [NotificationThreads.State.goto], rfl⟩

omit [DecidableEq T] [DecidableEq H] in
theorem greeting_user {s : State L T H M} (h : Invariant s) {l : L} {t : T}
    (hb : s.server.pc (user l t) ≠ .idle) :
    (∃ message result p, (s.link l).app t = .invoking (.greet message result) (some p)) ∧
      ∀ c, ¬ Carries c (s.server.pc (user l t)) := h.greeting (user l t) hb

theorem server_greeting {s : State L T H M} (h : Invariant s)
    {e : ServerEvent L ((L × T) ⊕ H) M} {server : Server L ((L × T) ⊕ H) M} (he : Free e)
    (hs : NotificationThreads.Step s.server e server) :
    (role { s with server := server } e.actor).Greeting := by
  cases hactor : e.actor with
  | inl l => trivial
  | inr g =>
    cases g with
    | inr g => trivial
    | inl user =>
      obtain ⟨l, t⟩ := user
      have hraises {pc pc' : Pc (L ⊕ M)} (hp : s.server.pc e.actor = pc)
          (hp' : server.pc e.actor = pc') (hpc : pc ≠ .idle) (hpc' : ∀ c, ¬ Carries c pc') :
          (role { s with server := server } (user l t)).Greeting := by
        rw [hactor] at hp hp'
        have hg := greeting_user h (l := l) (t := t) (hp ▸ hpc)
        intro _
        exact ⟨hg.1, hp' ▸ hpc'⟩
      have hnot {c : Change (L ⊕ M)} (hc : Carries c (s.server.pc e.actor)) : False := by
        rw [hactor] at hc
        have hb : s.server.pc (user l t) ≠ .idle := by
          intro hidle
          rcases hc with hc | hc | hc <;> cases hidle.symm.trans hc
        exact (greeting_user h hb).2 c hc
      cases hs with
      | lockChange p c hp hm => exact (hnot (Or.inl hp)).elim
      | change p c hp => exact (hnot (Or.inr (Or.inl hp))).elim
      | call p c hp =>
        obtain rfl : p = _ := hactor
        exact he.1.elim
      | greet p distribution message result reply plugin hp hg =>
        obtain rfl : p = _ := hactor
        exact he.elim
      | unlockChange p c hp =>
        obtain rfl : p = _ := hactor
        exact he.elim
      | unlockRaise p taken called hp =>
        obtain rfl : p = _ := hactor
        exact he.elim
      | lockRaise p hp hm =>
        refine hraises hp (Function.update_self _ _ _) (by simp) fun c => ?_
        cases s.server.plugin.notificationCallbacks.front <;>
          simp [NotificationThreads.loopAt, Carries]
      | deliver p taken called it n hp hd =>
        exact hraises hp (Function.update_self _ _ _) (by simp) (by simp [Carries])
      | returned p taken called it n hp hd =>
        refine hraises hp (Function.update_self _ _ _) (by simp) fun c => ?_
        cases s.server.plugin.notificationCallbacks.next it <;>
          simp [NotificationThreads.loopAt, Carries]
      | dangle p taken called it hp hd =>
        exact absurd (.dangle _ p taken called it hp hd)
          (NotificationThreads.no_dangle h.subscriptions.server)

theorem step_greeting {s u : State L T H M} {e : Event L T H M} (h : Invariant s)
    (hstep : Step s e u) : (role u e.actor).Greeting := by
  cases hstep with
  | link l e k hr hw hk =>
    -- a thread that is not yet in its call has no server thread at work
    have hnot (t : T) (ht : ∀ w p, (s.link l).app t ≠ .invoking w p) :
        (role (s.setLink l k) (user l t)).Greeting := by
      intro hb
      obtain ⟨⟨message, result, p, hp⟩, -⟩ := greeting_user h (l := l) (t := t) hb
      exact absurd hp (ht _ _)
    cases hk with
    | enter t w hp => exact hnot t (by simp [hp])
    | unavailable t w hp hn => exact hnot t (by simp [hp])
    | tested t w hp hn => exact hnot t (by simp [hp])
    | read t w hp => exact hnot t (by simp [hp])
    | invoke t w p hp => exact absurd rfl (hw t w p)
    | _ => trivial
  | call l c server ha hs => trivial
  | returned l e c k server hr hk hs =>
    cases e with
    | register r => trivial
    | unregister r => trivial
    | _ => cases hr
  | greet l t distribution message result p server hp hh hs hb =>
    obtain ⟨-, hraise | hidle, -⟩ := greet_server hs
    · intro _
      exact ⟨⟨message, result, p, hp⟩, by rw [hraise]; simp [Carries]⟩
    · exact absurd hidle hb
  | refused l t distribution message result p k server hh hs hb hk => exact fun hn => absurd hb hn
  | greeted l t message result p k server hk hs =>
    exact fun hn => absurd (unlock_raise hs).2.1 hn
  | echo l t message result p k hh hk =>
    intro hb
    obtain ⟨⟨message', result', q, hq⟩, -⟩ := greeting_user h (l := l) (t := t) hb
    cases hk with
    | invoke _ _ _ hp => cases hp.symm.trans hq
  | server e server he hs => exact server_greeting h he hs

theorem step_preserves_invariant {s u : State L T H M} {e : Event L T H M} (h : Invariant s)
    (hstep : Step s e u) : Invariant u := by
  constructor
  · obtain ⟨es, hr⟩ := step_subscribes hstep
    exact SubscriptionThreads.run_invariant hr h.subscriptions
  · intro p
    rcases eq_or_ne p e.actor with rfl | hp
    · exact step_greeting h hstep
    · rw [step_other hstep hp]
      exact h.greeting p

theorem run_invariant {s u : State L T H M} {es : List (Event L T H M)} (h : Run Step s es u)
    (hs : Invariant s) : Invariant u :=
  h.invariant (fun _ _ _ hi hstep => step_preserves_invariant hi hstep) hs

end Moves

section Busy
variable {pc pc' : Pc N} (h : pc = .idle ↔ pc' = .idle)
include h

theorem linkStepsLeft_busy (k : LinkPc) :
    linkStepsLeft k pc = linkStepsLeft k pc' ∧ toRegister k pc = toRegister k pc' := by
  by_cases hpc : pc = .idle
  · rw [hpc, h.mp hpc]
    exact ⟨rfl, rfl⟩
  · have hpc' := mt h.mpr hpc
    cases k with
    | registering => cases pc <;> cases pc' <;> simp_all [linkStepsLeft, toRegister]
    | unregistering => cases pc <;> cases pc' <;> simp_all [linkStepsLeft, toRegister]
    | testing up => cases up <;> exact ⟨rfl, rfl⟩
    | _ => exact ⟨rfl, rfl⟩

theorem userStepsLeft_busy (bound : ℕ) (a : AppPc) :
    userStepsLeft bound a pc = userStepsLeft bound a pc' := by
  by_cases hpc : pc = .idle
  · rw [hpc, h.mp hpc]
  · have hpc' := mt h.mpr hpc
    cases a with
    | invoking w p => cases pc <;> cases pc' <;> simp_all [userStepsLeft]
    | _ => rfl

end Busy

theorem Role.stepsLeft_mono {b c : ℕ} (h : b ≤ c) (r : Role N) : r.stepsLeft b ≤ r.stepsLeft c := by
  cases r with
  | link k pc => exact Nat.add_le_add_left (NotificationProgress.stepsLeft_mono h pc) _
  | guest pc => exact NotificationProgress.stepsLeft_mono h pc
  | user a pc =>
    have hpc := NotificationProgress.stepsLeft_mono h pc
    simp only [Role.stepsLeft, userStepsLeft]
    cases a <;> cases pc <;> simp only at hpc ⊢ <;> omega

theorem role_served {s : State L T H M} {server : Server L ((L × T) ⊕ H) M} {p : Party L T H}
    {bound m n : ℕ} (hidle : ¬ IsGuest p → (server.pc p = .idle ↔ s.server.pc p = .idle))
    (hlt : NotificationProgress.stepsLeft bound (server.pc p) <
      NotificationProgress.stepsLeft bound (s.server.pc p))
    (hadds : m + registering (server.pc p) ≤ n + registering (s.server.pc p)) :
    (role { s with server := server } p).stepsLeft bound < (role s p).stepsLeft bound ∧
      m + (role { s with server := server } p).registers ≤ n + (role s p).registers := by
  rcases p with l | ⟨l, t⟩ | g
  · obtain ⟨hsteps, hregister⟩ := linkStepsLeft_busy (hidle id) (s.link l).pc
    simp only [role, Role.stepsLeft, Role.registers]
    omega
  · have hsteps := userStepsLeft_busy (hidle id) bound ((s.link l).app t)
    simp only [role, user, Role.stepsLeft, Role.registers]
    omega
  · exact ⟨hlt, hadds⟩

section Measure
variable [DecidableEq L] [DecidableEq T] [DecidableEq H] [DecidableEq M]

theorem free_idle {s server : Server L ((L × T) ⊕ H) M} {e : ServerEvent L ((L × T) ⊕ H) M}
    (he : Free e) (hs : NotificationThreads.Step s e server) {p : Party L T H}
    (hp : ¬ IsGuest p) : server.pc p = .idle ↔ s.pc p = .idle := by
  rcases eq_or_ne p e.actor with rfl | hother
  · cases hs with
    | lockChange t c ht hm | change t c ht =>
      simp [ht, NotificationThreads.State.goto, NotificationThreads.Event.actor]
    | lockRaise t ht hm =>
      cases s.plugin.notificationCallbacks.front <;>
        simp [ht, NotificationThreads.State.goto, NotificationThreads.loopAt,
          NotificationThreads.Event.actor]
    | deliver t taken called it n ht hd =>
      simp [ht, NotificationThreads.State.goto, NotificationThreads.Event.actor]
    | returned t taken called it n ht hd =>
      cases s.plugin.notificationCallbacks.next it <;>
        simp [ht, NotificationThreads.State.goto, NotificationThreads.loopAt,
          NotificationThreads.Event.actor]
    | dangle t taken called it ht hd =>
      rcases ht with ht | ht <;>
        simp [ht, NotificationThreads.State.goto, NotificationThreads.Event.actor]
    | call t c ht => exact absurd he.1 hp
    | greet t distribution message result reply plugin ht hg => exact absurd he hp
    | unlockChange t c ht => exact absurd he hp
    | unlockRaise t taken called ht => exact absurd he hp
  · rw [NotificationThreads.step_other hs hother]

omit [DecidableEq L] [DecidableEq H] [DecidableEq M] in
theorem link_left {k k' : LinkThreads.State T} {l : L} {e : LinkThreads.Event T}
    (he : ¬ Disturbs (.link l e : Event L T H M))
    (hr : returnsFrom l e = (none : Option (Change (L ⊕ M)))) (hw : ∀ t w p, e ≠ .invoke t w p)
    (hk : LinkThreads.Step k e k') :
    (userOf e = none → ∀ pc : Pc N, linkStepsLeft k'.pc pc < linkStepsLeft k.pc pc ∧
      toRegister k'.pc pc ≤ toRegister k.pc pc) ∧
    ∀ t, userOf e = some t → ∀ bound (pc : Pc N),
      userStepsLeft bound (k'.app t) pc < userStepsLeft bound (k.app t) pc := by
  cases hk with
  | enter t w hp => exact absurd trivial he
  | operational upAndRunning hl => exact absurd trivial he
  | register r hl hp => cases hr
  | unregister r hl hp => cases hr
  | invoke t w p hp => exact absurd rfl (hw t w p)
  | unavailable t w hp hn | tested t w hp hn =>
    refine ⟨by simp [userOf], ?_⟩
    rintro _ ⟨⟩ bound pc
    simp [hp, LinkThreads.State.goto, userStepsLeft]
  | read t w hp =>
    refine ⟨by simp [userOf], ?_⟩
    rintro _ ⟨⟩ bound pc
    cases pc <;> simp [hp, LinkThreads.State.goto, userStepsLeft]
  | interface returned hl hn =>
    cases returned with
    | none => exact absurd trivial he
    | some r =>
      refine ⟨?_, by simp [userOf]⟩
      intro _ pc
      cases pc <;> simp [hl, LinkThreads.State.resolve, linkStepsLeft, toRegister]
  | testUp hl hn | testDown hl hn | skip upAndRunning hl hn | release r hl hp | clear hl =>
    refine ⟨?_, by simp [userOf]⟩
    intro _ pc
    cases pc <;> simp [hl, linkStepsLeft, toRegister]

omit [DecidableEq T] [DecidableEq H] [DecidableEq M] in
theorem role_link (s : State L T H M) (l : L) (k : LinkThreads.State T)
    (server : Server L ((L × T) ⊕ H) M) :
    role { s.setLink l k with server := server } (.inl l) = .link k.pc (server.pc (.inl l)) := by
  simp [role, State.setLink]

omit [DecidableEq T] [DecidableEq H] [DecidableEq M] in
theorem role_user (s : State L T H M) (l : L) (t : T) (k : LinkThreads.State T)
    (server : Server L ((L × T) ⊕ H) M) :
    role { s.setLink l k with server := server } (user l t) =
      .user (k.app t) (server.pc (user l t)) := by
  simp [role, user, State.setLink]

/-- What a step that brings nothing new does, where no raise finds more than bound: the party
that takes it has fewer steps left, and the list grows by no more than a Register pays for. -/
theorem quiet_step {s u : State L T H M} {e : Event L T H M} (hi : Invariant s)
    (h : Step s e u) (he : ¬ Disturbs e) {bound : ℕ}
    (hb : s.server.plugin.callbacks.length ≤ bound) :
    (role u e.actor).stepsLeft bound < (role s e.actor).stepsLeft bound ∧
      u.server.plugin.callbacks.length + (role u e.actor).registers ≤
        s.server.plugin.callbacks.length + (role s e.actor).registers := by
  cases h with
  | link l e k hr hw hk =>
    obtain ⟨hlink, huser⟩ := link_left he hr hw hk
    cases hu : userOf e with
    | none =>
      obtain ⟨hsteps, hregister⟩ := hlink hu (s.server.pc (.inl l))
      have hrole := role_link s l k s.server
      simp only [Event.actor, hu, Option.elim]
      rw [show role (s.setLink l k) (.inl l) = _ from hrole]
      simp only [role, Role.stepsLeft, Role.registers, State.setLink]
      omega
    | some t =>
      have hsteps := huser t hu bound (s.server.pc (user l t))
      have hrole := role_user s l t k s.server
      simp only [Event.actor, hu, Option.elim]
      rw [show role (s.setLink l k) (user l t) = _ from hrole]
      simp only [role, user, Role.stepsLeft, Role.registers, State.setLink] at hsteps ⊢
      omega
  | call l c server ha hs =>
    obtain ⟨hidle, rfl⟩ := call_server hs
    rcases asks_callback ha with ⟨hk, rfl⟩ | ⟨hk, rfl⟩ <;>
      simp [Event.actor, role, hidle, hk, NotificationThreads.State.goto, Role.stepsLeft,
        Role.registers, linkStepsLeft, toRegister, registering, NotificationProgress.stepsLeft]
  | returned l e c k server hr hk hs =>
    obtain ⟨hchanged, rfl⟩ := unlock_server hs
    cases hk with
    | register r hl hp | unregister r hl hp =>
      simp [Event.actor, userOf, role, State.setLink, hchanged, hl,
        NotificationThreads.State.goto, Role.stepsLeft, Role.registers, linkStepsLeft,
        toRegister, registering, NotificationProgress.stepsLeft]
    | _ => cases hr
  | greet l t distribution message result p server hp hh hs hbusy =>
    obtain ⟨hidle, hraise | hn, hcallbacks⟩ := greet_server hs
    · rw [user] at hraise hidle
      simp [Event.actor, role, user, hp, hidle, hraise, hcallbacks, Role.stepsLeft,
        Role.registers, userStepsLeft, registering, NotificationProgress.stepsLeft]
    · exact absurd hn hbusy
  | refused l t distribution message result p k server hh hs hn hk =>
    obtain ⟨hidle, -, hcallbacks⟩ := greet_server hs
    cases hk with
    | invoke _ _ _ hp =>
      simp only [Event.actor, role_user]
      rw [user] at hn hidle ⊢
      simp [role, user, hp, hidle, hn, hcallbacks, LinkThreads.State.goto, Role.stepsLeft,
        Role.registers, userStepsLeft, registering, NotificationProgress.stepsLeft]
  | greeted l t message result p k server hk hs =>
    obtain ⟨⟨taken, called, hraised⟩, hn, hplugin⟩ := unlock_raise hs
    cases hk with
    | invoke _ _ _ hp =>
      simp only [Event.actor, role_user]
      rw [user] at hn hraised ⊢
      simp [role, user, hp, hraised, hn, hplugin, LinkThreads.State.goto, Role.stepsLeft,
        Role.registers, userStepsLeft, registering, NotificationProgress.stepsLeft]
  | echo l t message result p k hh hk =>
    have hidle : s.server.pc (user l t) = .idle := by
      by_contra hn
      obtain ⟨⟨message', result', q, hq⟩, -⟩ := greeting_user hi hn
      cases hk with
      | invoke _ _ _ hp => cases hp.symm.trans hq
    have hrole := role_user s l t k s.server
    cases hk with
    | invoke _ _ _ hp =>
      simp only [Event.actor]
      rw [show role (s.setLink l _) (user l t) = _ from hrole]
      rw [user] at hidle ⊢
      simp [role, user, hp, hidle, State.setLink, LinkThreads.State.goto, Role.stepsLeft,
        Role.registers, userStepsLeft]
  | server e server hfree hs =>
    obtain ⟨t, pc, hpc, hlt, hlen⟩ :=
      NotificationProgress.quiet_step hi.subscriptions.server hs he hb
    have hself : server.pc t = pc := by rw [hpc, Function.update_self]
    -- the thread that has fewer steps left is the one that moved
    have ht : t = e.actor := by
      by_contra hn
      rw [← hself, NotificationThreads.step_other hs hn] at hlt
      exact absurd hlt (Nat.lt_irrefl _)
    subst ht
    rw [← hself] at hlt hlen
    exact role_served (free_idle hfree hs) hlt hlen

variable [Fintype L] [Fintype T] [Fintype H]

theorem quiet_remaining {s u : State L T H M} {e : Event L T H M} (hi : Invariant s)
    (h : Step s e u) (he : ¬ Disturbs e) : remaining u < remaining s := by
  have hfits : s.server.plugin.callbacks.length ≤ mayFind s := Nat.le_add_right _ _
  obtain ⟨hlt, hlen⟩ := quiet_step hi h he hfits
  have hroles : role u = Function.update (role s) e.actor (role u e.actor) :=
    Function.eq_update_iff.mpr ⟨rfl, fun p hp => step_other h hp⟩
  rw [remaining, mayFind, hroles]
  exact sum_weight_lt (fun _ _ => Role.stepsLeft_mono) hlt hlen

end Measure

section Live
variable [DecidableEq L] [DecidableEq T] [DecidableEq H] [DecidableEq M]

def Resolved (s : State L T H M) : Prop :=
  ∀ l, (s.link l).pc = .registering → s.pointer l ≠ none

abbrev QuietStep : State L T H M → Event L T H M → State L T H M → Prop :=
  Guarded (fun _ e => ¬ Disturbs e) Step

omit [DecidableEq H] [DecidableEq M] in
theorem link_resolved {s : State L T H M} (h : Resolved s) {l : L} {e : LinkThreads.Event T}
    {k : LinkThreads.State T} (server : Server L ((L × T) ⊕ H) M)
    (he : ¬ Disturbs (.link l e : Event L T H M)) (hk : LinkThreads.Step (s.link l) e k) :
    Resolved { s.setLink l k with server := server } := by
  suffices hset : k.pc = .registering → k.link.samplePluginInterface ≠ none by
    intro m hm
    rcases eq_or_ne m l with rfl | hml
    · simpa [State.setLink, State.pointer] using hset (by simpa [State.setLink] using hm)
    · simpa [State.setLink, State.pointer, hml] using h m (by simpa [State.setLink, hml] using hm)
  cases hk with
  | interface returned hl hn =>
    cases returned with
    | none => exact absurd trivial he
    | some r => simp [LinkThreads.State.resolve]
  | enter t w hp | unavailable t w hp hn | tested t w hp hn | read t w hp | invoke t w p hp =>
    exact h l
  | _ => simp

theorem step_resolved {s u : State L T H M} {e : Event L T H M} (h : Resolved s)
    (hstep : QuietStep s e u) : Resolved u := by
  obtain ⟨he, hstep⟩ := hstep
  cases hstep with
  | link l e k hr hw hk => exact link_resolved h s.server he hk
  | returned l e c k server hr hk hs => exact link_resolved h server he hk
  | refused l t distribution message result p k server hh hs hb hk =>
    exact link_resolved h server id hk
  | greeted l t message result p k server hk hs => exact link_resolved h server id hk
  | echo l t message result p k hh hk => exact link_resolved h s.server id hk
  | call l c server ha hs => exact h
  | greet l t distribution message result p server hp hh hs hb => exact h
  | server e server hfree hs => exact h

theorem invoking_live {s : State L T H M} {l : L} {t : T} {w : LinkThreads.Wrapper}
    {p : Option ℕ} (hp : (s.link l).app t = .invoking w p) (hn : ¬ Lost (s.link l) t)
    (hidle : s.server.pc (user l t) = .idle) : ∃ e u, QuietStep s e u := by
  obtain ⟨r, rfl, hr⟩ : ∃ r, p = some r ∧ (s.link l).held.balance r = 1 := by
    by_contra hlost
    push Not at hlost
    exact hn ⟨w, p, hp, hlost⟩
  have hinvoke := LinkThreads.Step.invoke (s.link l) t w (some r) hp
  cases w with
  | echo message result => exact ⟨_, _, id, .echo s l t message result r _ hr hinvoke⟩
  | greet message result =>
    obtain ⟨reply, plugin, hg⟩ : ∃ reply plugin,
        s.server.plugin.greet (.favouring 0) message result = .ok (reply, plugin) := by
      rcases SamplePluginImplementation.greet_cases (.favouring 0) s.server.plugin message result
        with ⟨-, h⟩ | ⟨-, -, h⟩ | ⟨-, greeting, -, h⟩ <;> exact ⟨_, _, h⟩
    have hs := NotificationThreads.Step.greet s.server (user l t) (.favouring 0) message result
      reply plugin hidle hg
    by_cases hcode : reply.code = .errorNone
    · refine ⟨.greet l t (.favouring 0), _, id, .greet s l t _ message result r _ hp hr hs ?_⟩
      simp [NotificationThreads.State.goto, hcode]
    · refine ⟨.greet l t (.favouring 0), _, id,
        .refused s l t _ message result r _ _ hr hs ?_ hinvoke⟩
      simp [NotificationThreads.State.goto, hcode]

theorem app_live {s : State L T H M} {l : L} {t : T} (ht : (s.link l).app t ≠ .idle)
    (hn : ¬ Lost (s.link l) t) (hidle : s.server.pc (user l t) = .idle) :
    ∃ e u, QuietStep s e u := by
  cases hp : (s.link l).app t with
  | idle => exact absurd hp ht
  | testing w =>
    by_cases hnull : (s.link l).link.samplePluginInterface = none
    · exact ⟨_, _, id, .link s l (.unavailable t) _ rfl (by simp) (.unavailable _ t w hp hnull)⟩
    · exact ⟨_, _, id, .link s l (.tested t) _ rfl (by simp) (.tested _ t w hp hnull)⟩
  | reading w => exact ⟨_, _, id, .link s l (.read t) _ rfl (by simp) (.read _ t w hp)⟩
  | invoking w p => exact invoking_live hp hn hidle

theorem call_live {s : State L T H M} {l : L} {c : Change (L ⊕ M)}
    (hidle : s.server.pc (.inl l) = .idle) (ha : asks l (s.link l) = some c) :
    ∃ e u, QuietStep s e u :=
  ⟨_, _, id, .call s l c _ ha (.call s.server (.inl l) c hidle)⟩

theorem link_live {s : State L T H M} {l : L} (hi : Invariant s) (hr : Resolved s)
    (hidle : s.server.pc (.inl l) = .idle) (hl : (s.link l).pc ≠ .idle) :
    ∃ e u, QuietStep s e u := by
  have haimed : (s.link l).pc = .unregistering ∨ (s.link l).pc = .releasing →
      ∃ r, (s.link l).link.samplePluginInterface = some r := fun h =>
    Option.ne_none_iff_exists'.mp (hi.subscriptions.aimed l (h.imp_right Or.inl))
  cases hk : (s.link l).pc with
  | idle => exact absurd hk hl
  | testing upAndRunning =>
    by_cases hn : (s.link l).link.samplePluginInterface = none
    · cases upAndRunning with
      | true => exact ⟨_, _, id, .link s l .test _ rfl (by simp) (.testUp _ hk hn)⟩
      | false => exact ⟨_, _, id, .link s l .test _ rfl (by simp) (.skip _ false hk (by simp [hn]))⟩
    · cases upAndRunning with
      | true => exact ⟨_, _, id, .link s l .test _ rfl (by simp) (.skip _ true hk (by simp [hn]))⟩
      | false => exact ⟨_, _, id, .link s l .test _ rfl (by simp) (.testDown _ hk hn)⟩
  | resolving =>
    exact ⟨_, _, id, .link s l (.interface (some (s.link l).issued)) _ rfl (by simp)
      (.interface _ _ hk (by simp))⟩
  | registering =>
    obtain ⟨r, hp⟩ := Option.ne_none_iff_exists'.mp (hr l hk)
    have hp : (s.link l).link.samplePluginInterface = some r := hp
    apply call_live (c := .register (.inl l)) hidle
    simp [asks, hk, hp]
  | unregistering =>
    obtain ⟨r, hp⟩ := haimed (Or.inl hk)
    apply call_live (c := .unregister (.inl l)) hidle
    simp [asks, hk, hp]
  | releasing =>
    obtain ⟨r, hp⟩ := haimed (Or.inr hk)
    exact ⟨_, _, id, .link s l (.release r) _ rfl (by simp) (.release _ r hk hp)⟩
  | clearing => exact ⟨_, _, id, .link s l .clear _ rfl (by simp) (.clear _ hk)⟩

theorem server_live {s : State L T H M} {e : ServerEvent L ((L × T) ⊕ H) M}
    {server : Server L ((L × T) ⊕ H) M} (he : ¬ NotificationProgress.IsCall e) (hfree : Free e)
    (hs : NotificationThreads.Step s.server e server) : ∃ e u, QuietStep s e u :=
  ⟨.server e, _, he, .server s e server hfree hs⟩

theorem return_live {s : State L T H M} {l : L} {c : Change (L ⊕ M)} (hi : Invariant s)
    (hp : s.server.pc (.inl l) = .changed c) : ∃ e u, QuietStep s e u := by
  obtain ⟨d, ha, hc⟩ := link_thread hi.subscriptions hp (by simp)
  obtain rfl := carries_unique hc (Or.inr (Or.inr rfl))
  have hs := NotificationThreads.Step.unlockChange s.server (.inl l) _ hp
  unfold asks at ha
  split at ha
  · next r hk hr =>
    obtain rfl := Option.some.inj ha
    exact ⟨_, _, id, .returned s l (.register r) _ _ _ rfl (.register _ r hk hr) hs⟩
  · next r hk hr =>
    obtain rfl := Option.some.inj ha
    exact ⟨_, _, id, .returned s l (.unregister r) _ _ _ rfl (.unregister _ r hk hr) hs⟩
  · cases ha

theorem raised_live {s : State L T H M} {p : Party L T H} {taken called : List (L ⊕ M)}
    (hi : Invariant s) (hp : s.server.pc p = .raised taken called) : ∃ e u, QuietStep s e u := by
  have hs := NotificationThreads.Step.unlockRaise s.server p taken called hp
  obtain ⟨g, rfl⟩ := actor_other hi.subscriptions hp (by simp) (by simp [Carries])
  cases g with
  | inr g => exact server_live (e := .unlock (.inr (.inr g)) .raise) id trivial hs
  | inl user =>
    obtain ⟨l, t⟩ := user
    obtain ⟨⟨message, result, p, hinvoking⟩, -⟩ := greeting_user hi
      (show s.server.pc (user l t) ≠ .idle by rw [user, hp]; simp)
    exact ⟨_, _, id, .greeted s l t message result p _ _ (.invoke _ t _ _ hinvoking) hs⟩

/-- Nobody waits in a circle: the mutex is always given back, and links and wrappers wait for
nothing but their own server thread. -/
theorem quiet_live {s : State L T H M} (hi : Invariant s) (hr : Resolved s)
    (hs : ¬ Settled s) : ∃ e u, QuietStep s e u := by
  by_cases hserver : NotificationProgress.Settled s.server
  · have hbusy : ∃ l, (s.link l).pc ≠ .idle ∨
        ∃ t, (s.link l).app t ≠ .idle ∧ ¬ Lost (s.link l) t := by
      by_contra hn
      push Not at hn
      exact hs ⟨fun l => ⟨(hn l).1, fun t => or_iff_not_imp_left.mpr ((hn l).2 t)⟩, hserver⟩
    obtain ⟨l, hl | ⟨t, ht, hlost⟩⟩ := hbusy
    · exact link_live hi hr (hserver.2 _) hl
    · exact app_live ht hlost (hserver.2 _)
  · obtain ⟨e, server, he, hstep⟩ :=
      NotificationProgress.quiet_live hi.subscriptions.server hserver
    have hserved := hstep
    cases hstep with
    | call t c hp => exact absurd trivial he
    | greet t distribution message result reply p hp hg => exact absurd trivial he
    | unlockChange t c hp =>
      rcases t with l | ⟨l, t⟩ | g
      · exact return_live hi hp
      · have hc := (greeting_user hi (l := l) (t := t) (by rw [user, hp]; simp)).2 c
        exact absurd (Or.inr (Or.inr hp)) hc
      · exact server_live he trivial hserved
    | unlockRaise t taken called hp => exact raised_live hi hp
    | _ => exact server_live he trivial hserved

/-- From every reachable state in which no link has got null from Interface(): once nothing
new comes in, every schedule is over within `remaining s` steps, none is stuck while an
Operational, a wrapper whose call is not lost, a request or a raise is still under way, and
so all of them return. -/
theorem links_and_plugin_settle [Fintype L] [Fintype T] [Fintype H] (greetings : List String)
    {es : List (Event L T H M)} {s : State L T H M} (h : Run Step (start greetings) es s)
    (hr : Resolved s) : Settles QuietStep s (remaining s) Settled := by
  apply settles_of_measure (fun s => Invariant s ∧ Resolved s) remaining
  · exact fun _ _ _ hs hstep => ⟨step_preserves_invariant hs.1 hstep.2, step_resolved hs.2 hstep⟩
  · exact fun _ _ _ hs hstep => quiet_remaining hs.1 hstep.2 hstep.1
  · exact fun _ hs hn => quiet_live hs.1 hs.2 hn
  · exact ⟨run_invariant h (start_invariant greetings), hr⟩

/-- Link 0 is up and its user's Greet waits for the mutex while link 1 is told to come up. -/
theorem links_and_plugin_settle_greeting :
    ∃ (es : List (Event (Fin 2) (Fin 1) (Fin 1) ℕ)) (s : State (Fin 2) (Fin 1) (Fin 1) ℕ),
      Run Step (start ["Hello"]) es s ∧ s.server.pc (user 0 0) = .atLock .raise ∧
        (s.link 1).pc = .testing true ∧ Settles QuietStep s 13 Settled := by
  have h₁ := Run.single (Step.link
    (start ["Hello"] : State (Fin 2) (Fin 1) (Fin 1) ℕ) 0 (.operational true) _ rfl (by simp)
    (.operational _ true rfl))
  have h₂ := h₁.tail (.link _ 0 _ _ rfl (by simp) (.testUp _ rfl rfl))
  have h₃ := h₂.tail (.link _ 0 _ _ rfl (by simp)
    (.interface _ (some 0) rfl (by intro r hr; cases hr; rfl)))
  have h₄ := h₃.tail (.call _ 0 _ _ rfl (.call _ _ _ rfl))
  have h₅ := h₄.tail (.server _ (.lock (.inl 0) _) _ trivial (.lockChange _ _ _ rfl rfl))
  have h₆ := h₅.tail (.server _ (.change (.inl 0) _) _ trivial (.change _ _ _ rfl))
  have h₇ := h₆.tail (.returned _ 0 (.register 0) _ _ _ rfl (.register _ 0 rfl rfl)
    (.unlockChange _ _ _ rfl))
  have h₈ := h₇.tail (.link _ 0 _ _ rfl (by simp) (.enter _ 0 (.greet "World" "") rfl))
  have h₉ := h₈.tail (.link _ 0 _ _ rfl (by simp) (.tested _ 0 _ rfl (by decide)))
  have h₁₀ := h₉.tail (.link _ 0 _ _ rfl (by simp) (.read _ 0 _ rfl))
  have h₁₁ := h₁₀.tail (.greet _ 0 0 (.favouring 0) "World" "" 0 _ rfl rfl
    (.greet _ _ _ _ _ _ _ rfl rfl) (by decide))
  have h₁₂ := h₁₁.tail (.link _ 1 (.operational true) _ rfl (by simp) (.operational _ true rfl))
  obtain ⟨es, s, h, hraise, htesting, hidle, hremaining⟩ : ∃ es s, Run Step
      (start ["Hello"] : State (Fin 2) (Fin 1) (Fin 1) ℕ) es s ∧
      s.server.pc (user 0 0) = .atLock .raise ∧ (s.link 1).pc = .testing true ∧
      (s.link 0).pc = .idle ∧ remaining s = 13 := ⟨_, _, h₁₂, rfl, rfl, rfl, rfl⟩
  have hr : Resolved s := by
    refine Fin.forall_fin_two.mpr ⟨?_, ?_⟩
    · simp [hidle]
    · simp [htesting]
  exact ⟨es, s, h, hraise, htesting, hremaining ▸ links_and_plugin_settle ["Hello"] h hr⟩

end Live

end SubscriptionProgress
