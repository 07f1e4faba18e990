import SampleThunderPlugin.LinkThreads
import SampleThunderPlugin.NotificationThreads
import SampleThunderPlugin.RunSimulation

/-! Any number of links on one plugin, every party on threads of its own: LinkThreads for
each link and NotificationThreads for the plugin. A Register or Unregister of a link blocks
its Operational while a server thread of that link carries it out. The other server threads
serve whoever else there is: Greets, by whichever link, and callbacks that are no link's. -/
namespace SubscriptionThreads

open LabelledRuns
open NotificationThreads (Change Pc)

variable {L T G M : Type}

abbrev Server (L G M : Type) := NotificationThreads.State (L ⊕ G) (L ⊕ M)

abbrev ServerEvent (L G M : Type) := NotificationThreads.Event (L ⊕ G) (L ⊕ M)

structure State (L T G M : Type) where
  server : Server L G M
  link : L → LinkThreads.State T

inductive Event (L T G M : Type) where
  | link (l : L) (e : LinkThreads.Event T)
  | call (l : L) (c : Change (L ⊕ M))
  | server (e : ServerEvent L G M)

def start (greetings : List String) : State L T G M :=
  ⟨NotificationThreads.start greetings, fun _ => LinkThreads.start⟩

def State.pointer (s : State L T G M) (l : L) : Option ℕ := (s.link l).link.samplePluginInterface

def asks (l : L) (k : LinkThreads.State T) : Option (Change (L ⊕ M)) :=
  match k.pc, k.link.samplePluginInterface with
  | .registering, some _ => some (.register (.inl l))
  | .unregistering, some _ => some (.unregister (.inl l))
  | _, _ => none

def returnsFrom (l : L) : LinkThreads.Event T → Option (Change (L ⊕ M))
  | .register _ => some (.register (.inl l))
  | .unregister _ => some (.unregister (.inl l))
  | _ => none

def callback {N : Type} : Change N → N
  | .register n | .unregister n => n

/-- What the plugin's threads do by themselves. Calls of a link begin and return with a step
of the link, and nobody else passes its handler. -/
def Free : ServerEvent L G M → Prop
  | .call t c => t.isRight ∧ (callback c).isRight
  | .greet t _ _ _ | .unlock t _ => t.isRight
  | _ => True

/-- The plugin's share of a step. -/
def served : Event L T G M → Option (ServerEvent L G M)
  | .link l e => (returnsFrom l e).map fun c => .unlock (.inl l) (.change c)
  | .call l c => some (.call (.inl l) c)
  | .server e => some e

section Steps
variable [DecidableEq L] [DecidableEq T] [DecidableEq G] [DecidableEq M]

def State.setLink (s : State L T G M) (l : L) (k : LinkThreads.State T) : State L T G M :=
  { s with link := Function.update s.link l k }

inductive Step : State L T G M → Event L T G M → State L T G M → Prop where
  | link (s l e k) (hr : returnsFrom l e = (none : Option (Change (L ⊕ M))))
      (hk : LinkThreads.Step (s.link l) e k) : Step s (.link l e) (s.setLink l k)
  | call (s l c server) (ha : asks l (s.link l) = some c)
      (hs : NotificationThreads.Step s.server (.call (.inl l) c) server) :
      Step s (.call l c) { s with server := server }
  | returned (s l e c k server) (hr : returnsFrom l e = some c)
      (hk : LinkThreads.Step (s.link l) e k)
      (hs : NotificationThreads.Step s.server (.unlock (.inl l) (.change c)) server) :
      Step s (.link l e) { s.setLink l k with server := server }
  | server (s e server) (he : Free e) (hs : NotificationThreads.Step s.server e server) :
      Step s (.server e) { s with server := server }

end Steps

def Carries {N : Type} (c : Change N) (pc : Pc N) : Prop :=
  pc = .atLock (.change c) ∨ pc = .changing c ∨ pc = .changed c

/-- Where a link's handler has its place in the list: from the list change of its Register to
that of its Unregister. -/
def Subscribed (k : LinkThreads.State T) (pc : Pc (L ⊕ M)) : Prop :=
  match k.pc with
  | .idle | .testing _ => k.link.samplePluginInterface ≠ none
  | .registering => ∃ c, pc = .changed c
  | .unregistering => ¬ ∃ c, pc = .changed c
  | .resolving | .releasing | .clearing => False

/-- Unregister, Release and the assignment that follow the test find the pointer set. -/
def Aimed (k : LinkThreads.State T) : Prop :=
  k.pc = .unregistering ∨ k.pc = .releasing ∨ k.pc = .clearing →
    k.link.samplePluginInterface ≠ none

section Invariants
variable [DecidableEq L] [DecidableEq M]

structure Invariant (s : State L T G M) : Prop where
  server : NotificationThreads.Invariant s.server
  links : ∀ l, LinkThreads.Invariant (s.link l)
  aimed : ∀ l, Aimed (s.link l)
  calls : ∀ l, s.server.pc (.inl l) = .idle ∨
    ∃ c, asks l (s.link l) = some c ∧ Carries c (s.server.pc (.inl l))
  others : ∀ g c, Carries c (s.server.pc (.inr g)) → (callback c).isRight
  subscribed : ∀ l, Sum.inl l ∈ s.server.plugin.callbacks ↔
    Subscribed (s.link l) (s.server.pc (.inl l))

theorem start_invariant (greetings : List String) :
    Invariant (start greetings : State L T G M) where
  server := NotificationThreads.start_invariant greetings
  links := fun _ => LinkThreads.start_invariant
  aimed := fun _ h => by rcases h with h | h | h <;> cases h
  calls := fun _ => Or.inl rfl
  others := fun _ _ h => by rcases h with h | h | h <;> cases h
  subscribed := fun _ => ⟨fun h => absurd h List.not_mem_nil, fun h => absurd rfl h⟩

end Invariants

theorem asks_callback {l : L} {k : LinkThreads.State T} {c : Change (L ⊕ M)}
    (h : asks l k = some c) :
    (k.pc = .registering ∧ c = .register (.inl l)) ∨
    (k.pc = .unregistering ∧ c = .unregister (.inl l)) := by
  unfold asks at h
  split at h
  · next hp _ => exact Or.inl ⟨hp, (Option.some.inj h).symm⟩
  · next hp _ => exact Or.inr ⟨hp, (Option.some.inj h).symm⟩
  · cases h

theorem carries_unique {N : Type} {c d : Change N} {pc : Pc N} (hc : Carries c pc)
    (hd : Carries d pc) : c = d := by
  rcases hc with rfl | rfl | rfl <;> rcases hd with hd | hd | hd <;> cases hd <;> rfl

theorem change_keeps {N : Type} [DecidableEq N] {p : SamplePluginImplementation N}
    (h : p.Invariant) {c : Change N} {n : N} (hn : callback c ≠ n) :
    n ∈ (c.run p).callbacks ↔ n ∈ p.callbacks := by
  rw [NotificationThreads.mem_change h]
  cases c with
  | register m => simpa using fun hm : m = n => absurd hm hn
  | unregister m =>
    have hm : m ≠ n := hn
    simp [hm]

/-! What one party's steps do to its own part. -/

section Parts
variable [DecidableEq T] {l : L} {k k' : LinkThreads.State T} {e : LinkThreads.Event T}

theorem aimed_step (h : Aimed k) (hk : LinkThreads.Step k e k') : Aimed k' := by
  cases hk with
  | testDown hl hn => exact fun _ => hn
  | unregister r hl hp => exact fun _ => by simp [hp]
  | release r hl hp => exact fun _ => by simp [hp]
  | enter t w hp => exact h
  | unavailable t w hp hn => exact h
  | tested t w hp hn => exact h
  | read t w hp => exact h
  | invoke t w p hp => exact h
  | interface returned hl hr =>
    intro hpc
    cases returned <;> simp [LinkThreads.State.resolve] at hpc
  | _ => intro hpc; simp at hpc

theorem link_step (hr : returnsFrom l e = (none : Option (Change (L ⊕ M))))
    (hk : LinkThreads.Step k e k') :
    (k'.pc = k.pc ∧ k'.link = k.link) ∨
    (asks l k = (none : Option (Change (L ⊕ M))) ∧
      (Subscribed k' (.idle : Pc (L ⊕ M)) ↔ Subscribed k (.idle : Pc (L ⊕ M)))) := by
  cases hk with
  | enter t w hp => exact Or.inl ⟨rfl, rfl⟩
  | unavailable t w hp hn => exact Or.inl ⟨rfl, rfl⟩
  | tested t w hp hn => exact Or.inl ⟨rfl, rfl⟩
  | read t w hp => exact Or.inl ⟨rfl, rfl⟩
  | invoke t w p hp => exact Or.inl ⟨rfl, rfl⟩
  | register r hl hp => cases hr
  | unregister r hl hp => cases hr
  | operational upAndRunning hl => exact Or.inr (by simp [asks, Subscribed, hl])
  | testUp hl hn => exact Or.inr (by simp [asks, Subscribed, hl, hn])
  | testDown hl hn => exact Or.inr (by simp [asks, Subscribed, hl, hn])
  | skip upAndRunning hl hn => exact Or.inr (by simp [asks, Subscribed, hl])
  | interface returned hl hr =>
    cases returned <;> exact Or.inr (by simp [asks, Subscribed, hl, LinkThreads.State.resolve])
  | release r hl hp => exact Or.inr (by simp [asks, Subscribed, hl])
  | clear hl => exact Or.inr (by simp [asks, Subscribed, hl])

theorem return_step {c : Change (L ⊕ M)} (hr : returnsFrom l e = some c)
    (hk : LinkThreads.Step k e k') :
    Subscribed k' (.idle : Pc (L ⊕ M)) ↔ Subscribed k (.changed c) := by
  cases hk with
  | register r hl hp => simp [Subscribed, hl, hp]
  | unregister r hl hp => simp [Subscribed, hl]
  | _ => cases hr

end Parts

section ServerSteps
variable {N S : Type} [DecidableEq N] [DecidableEq S] {s u : NotificationThreads.State S N}
  {t : S} {c : Change N}

theorem call_server (h : NotificationThreads.Step s (.call t c) u) :
    s.pc t = .idle ∧ u = s.goto t (.atLock (.change c)) := by
  cases h with
  | call t c hp => exact ⟨hp, rfl⟩

theorem unlock_server (h : NotificationThreads.Step s (.unlock t (.change c)) u) :
    s.pc t = .changed c ∧ u = { s.goto t .idle with mutex := none } := by
  cases h with
  | unlockChange t c hp => exact ⟨hp, rfl⟩

end ServerSteps

section Preserved
variable [DecidableEq L] [DecidableEq M]
variable {s : State L T G M} (h : Invariant s)
include h

theorem link_moves {l : L} {k : LinkThreads.State T} {server : Server L G M}
    (hserver : NotificationThreads.Invariant server) (hlink : LinkThreads.Invariant k)
    (haimed : Aimed k)
    (hcalls : server.pc (.inl l) = .idle ∨
      ∃ c, asks l k = some c ∧ Carries c (server.pc (.inl l)))
    (hpc : ∀ t, t ≠ Sum.inl l → server.pc t = s.server.pc t)
    (hmem : ∀ m, m ≠ l →
      (Sum.inl m ∈ server.plugin.callbacks ↔ Sum.inl m ∈ s.server.plugin.callbacks))
    (hsub : Sum.inl l ∈ server.plugin.callbacks ↔ Subscribed k (server.pc (.inl l))) :
    Invariant ({ s.setLink l k with server := server } : State L T G M) := by
  have hsame : (s.setLink l k).link l = k := by simp [State.setLink]
  have hrest {m : L} (hm : m ≠ l) : (s.setLink l k).link m = s.link m := by
    simp [State.setLink, hm]
  have hthread {m : L} (hm : m ≠ l) : server.pc (.inl m) = s.server.pc (.inl m) :=
    hpc _ fun he => hm (Sum.inl.inj he)
  refine ⟨hserver, ?_, ?_, ?_, ?_, ?_⟩
  · intro m
    rcases eq_or_ne m l with rfl | hm
    · simpa only [hsame] using hlink
    · simpa only [hrest hm] using h.links m
  · intro m
    rcases eq_or_ne m l with rfl | hm
    · simpa only [hsame] using haimed
    · simpa only [hrest hm] using h.aimed m
  · intro m
    rcases eq_or_ne m l with rfl | hm
    · simpa only [hsame] using hcalls
    · simpa only [hrest hm, hthread hm] using h.calls m
  · intro g c hc
    apply h.others g c
    rwa [← hpc (.inr g) (by simp)]
  · intro m
    rcases eq_or_ne m l with rfl | hm
    · simpa only [hsame] using hsub
    · simpa only [hrest hm, hthread hm, hmem m hm] using h.subscribed m

theorem thread_moves {l : L} {server : Server L G M}
    (hserver : NotificationThreads.Invariant server)
    (hcalls : server.pc (.inl l) = .idle ∨
      ∃ c, asks l (s.link l) = some c ∧ Carries c (server.pc (.inl l)))
    (hpc : ∀ t, t ≠ Sum.inl l → server.pc t = s.server.pc t)
    (hmem : ∀ m, m ≠ l →
      (Sum.inl m ∈ server.plugin.callbacks ↔ Sum.inl m ∈ s.server.plugin.callbacks))
    (hsub : Sum.inl l ∈ server.plugin.callbacks ↔ Subscribed (s.link l) (server.pc (.inl l))) :
    Invariant ({ s with server := server } : State L T G M) := by
  have hmoves := link_moves h hserver (h.links l) (h.aimed l) hcalls hpc hmem hsub
  rwa [State.setLink, Function.update_eq_self] at hmoves

theorem other_moves {g : G} {server : Server L G M}
    (hserver : NotificationThreads.Invariant server)
    (hpc : ∀ t, t ≠ Sum.inr g → server.pc t = s.server.pc t)
    (hcarries : ∀ c, Carries c (server.pc (.inr g)) → (callback c).isRight)
    (hmem : ∀ l, Sum.inl l ∈ server.plugin.callbacks ↔ Sum.inl l ∈ s.server.plugin.callbacks) :
    Invariant ({ s with server := server } : State L T G M) := by
  have hthread (l : L) : server.pc (.inl l) = s.server.pc (.inl l) := hpc _ (by simp)
  refine ⟨hserver, h.links, h.aimed, ?_, ?_, ?_⟩
  · intro l
    simpa only [hthread] using h.calls l
  · intro f c hc
    rcases eq_or_ne f g with rfl | hf
    · exact hcarries c hc
    · apply h.others f c
      rwa [← hpc (.inr f) fun he => hf (Sum.inr.inj he)]
  · intro l
    simpa only [hthread, hmem] using h.subscribed l

theorem link_thread {l : L} {pc : Pc (L ⊕ M)} (hp : s.server.pc (.inl l) = pc)
    (hpc : pc ≠ .idle) : ∃ c, asks l (s.link l) = some c ∧ Carries c pc := by
  rcases h.calls l with hidle | hc
  · exact absurd (hp.symm.trans hidle) hpc
  · rwa [hp] at hc

theorem actor_other {t : L ⊕ G} {pc : Pc (L ⊕ M)} (hp : s.server.pc t = pc) (hpc : pc ≠ .idle)
    (hc : ∀ c, ¬ Carries c pc) : ∃ g, t = .inr g := by
  cases t with
  | inl l =>
    obtain ⟨c, -, hcarries⟩ := link_thread h hp hpc
    exact absurd hcarries (hc c)
  | inr g => exact ⟨g, rfl⟩

variable [DecidableEq G]

theorem lock_preserves {t : L ⊕ G} {c : Change (L ⊕ M)} {server : Server L G M}
    (hs : NotificationThreads.Step s.server (.lock t (.change c)) server) :
    Invariant ({ s with server := server } : State L T G M) := by
  have hserver := NotificationThreads.step_preserves_invariant h.server hs
  have hpc (v : L ⊕ G) (hv : v ≠ t) : server.pc v = s.server.pc v :=
    NotificationThreads.step_other hs hv
  cases hs with
  | lockChange t c hp hm =>
    cases t with
    | inl l =>
      obtain ⟨d, hd, hcarries⟩ := link_thread h hp (by simp)
      obtain rfl := carries_unique hcarries (Or.inl rfl)
      have hsub := h.subscribed l
      rw [hp] at hsub
      apply thread_moves h hserver (Or.inr ⟨_, hd, ?_⟩) hpc (fun _ _ => Iff.rfl)
      · simp only [NotificationThreads.State.goto, Function.update_self]
        rcases asks_callback hd with ⟨hk, -⟩ | ⟨hk, -⟩ <;> simpa [Subscribed, hk] using hsub
      · simp [NotificationThreads.State.goto, Carries]
    | inr g =>
      refine other_moves h hserver hpc ?_ fun _ => Iff.rfl
      intro d hd
      simp only [NotificationThreads.State.goto, Function.update_self] at hd
      obtain rfl := carries_unique hd (Or.inr (Or.inl rfl))
      exact h.others g _ (Or.inl hp)

theorem change_preserves {t : L ⊕ G} {c : Change (L ⊕ M)} {server : Server L G M}
    (hs : NotificationThreads.Step s.server (.change t c) server) :
    Invariant ({ s with server := server } : State L T G M) := by
  have hserver := NotificationThreads.step_preserves_invariant h.server hs
  have hpc (v : L ⊕ G) (hv : v ≠ t) : server.pc v = s.server.pc v :=
    NotificationThreads.step_other hs hv
  cases hs with
  | change t c hp =>
    cases t with
    | inl l =>
      obtain ⟨d, hd, hcarries⟩ := link_thread h hp (by simp)
      obtain rfl := carries_unique hcarries (Or.inr (Or.inl rfl))
      apply thread_moves h hserver (Or.inr ⟨_, hd, ?_⟩) hpc
      · intro m hm
        apply change_keeps h.server.plugin
        rcases asks_callback hd with ⟨-, rfl⟩ | ⟨-, rfl⟩ <;> simpa [callback] using Ne.symm hm
      · simp only [NotificationThreads.State.goto, Function.update_self,
          NotificationThreads.mem_change h.server.plugin]
        rcases asks_callback hd with ⟨hk, rfl⟩ | ⟨hk, rfl⟩ <;> simp [Subscribed, hk]
      · simp [NotificationThreads.State.goto, Carries]
    | inr g =>
      have hright := h.others g c (Or.inr (Or.inl hp))
      refine other_moves h hserver hpc ?_ ?_
      · intro d hd
        simp only [NotificationThreads.State.goto, Function.update_self] at hd
        obtain rfl := carries_unique hd (Or.inr (Or.inr rfl))
        exact hright
      · intro l
        apply change_keeps h.server.plugin
        intro hl
        simp [hl] at hright

theorem quiet_preserves {g : G} {e : ServerEvent L G M} {server : Server L G M}
    (hs : NotificationThreads.Step s.server e server) (he : e.actor = .inr g)
    (hcarries : ∀ c, ¬ Carries c (server.pc (.inr g)))
    (hnodes : server.plugin.notificationCallbacks = s.server.plugin.notificationCallbacks) :
    Invariant ({ s with server := server } : State L T G M) := by
  have hcallbacks : server.plugin.callbacks = s.server.plugin.callbacks :=
    congrArg StableList.values hnodes
  apply other_moves h (NotificationThreads.step_preserves_invariant h.server hs)
  · intro t ht
    exact NotificationThreads.step_other hs (he ▸ ht)
  · exact fun c hc => absurd hc (hcarries c)
  · intro l
    rw [hcallbacks]

theorem server_preserves {e : ServerEvent L G M} {server : Server L G M} (he : Free e)
    (hs : NotificationThreads.Step s.server e server) :
    Invariant ({ s with server := server } : State L T G M) := by
  have hstep := hs
  cases hs with
  | lockChange t c hp hm => exact lock_preserves h hstep
  | change t c hp => exact change_preserves h hstep
  | call t c hp =>
    obtain ⟨g, rfl⟩ := Sum.isRight_iff.mp he.1
    refine other_moves h (NotificationThreads.step_preserves_invariant h.server hstep)
      (fun v hv => NotificationThreads.step_other hstep hv) ?_ fun _ => Iff.rfl
    intro d hd
    simp only [NotificationThreads.State.goto, Function.update_self] at hd
    obtain rfl := carries_unique hd (Or.inl rfl)
    exact he.2
  | greet t distribution message result reply p hp hg =>
    obtain ⟨g, rfl⟩ := Sum.isRight_iff.mp he
    apply quiet_preserves h hstep rfl
    · intro c
      simp only [NotificationThreads.State.goto, Function.update_self]
      split <;> simp [Carries]
    · exact (SamplePluginImplementation.greet_frame hg).1
  | lockRaise t hp hm =>
    obtain ⟨g, rfl⟩ := actor_other h hp (by simp) (by simp [Carries])
    apply quiet_preserves h hstep rfl _ rfl
    intro c
    simp only [NotificationThreads.State.goto, Function.update_self]
    cases s.server.plugin.notificationCallbacks.front <;>
      simp [NotificationThreads.loopAt, Carries]
  | deliver t taken called it n hp hd =>
    obtain ⟨g, rfl⟩ := actor_other h hp (by simp) (by simp [Carries])
    apply quiet_preserves h hstep rfl _ rfl
    simp [NotificationThreads.State.goto, Carries]
  | returned t taken called it n hp hd =>
    obtain ⟨g, rfl⟩ := actor_other h hp (by simp) (by simp [Carries])
    apply quiet_preserves h hstep rfl _ rfl
    intro c
    simp only [NotificationThreads.State.goto, Function.update_self]
    cases s.server.plugin.notificationCallbacks.next it <;>
      simp [NotificationThreads.loopAt, Carries]
  | unlockChange t c hp =>
    obtain ⟨g, rfl⟩ := Sum.isRight_iff.mp he
    apply quiet_preserves h hstep rfl _ rfl
    simp [NotificationThreads.State.goto, Carries]
  | unlockRaise t taken called hp =>
    obtain ⟨g, rfl⟩ := Sum.isRight_iff.mp he
    apply quiet_preserves h hstep rfl _ rfl
    simp [NotificationThreads.State.goto, Carries]
  | dangle t taken called it hp hd =>
    exact absurd hstep (NotificationThreads.no_dangle h.server)

end Preserved

theorem unlock_served {t : L ⊕ G} {es : List (Event L T G M)}
    (h : Event.server (.unlock t .raise) ∉ es) (e : ServerEvent L G M)
    (he : e ∈ es.filterMap served) : e ≠ .unlock t .raise := by
  rintro rfl
  obtain ⟨f, hf, hserved⟩ := List.mem_filterMap.mp he
  cases f with
  | link l f => simp [served] at hserved
  | call l c => simp [served] at hserved
  | server e =>
    obtain rfl := Option.some.inj hserved
    exact h hf

section Runs
variable [DecidableEq L] [DecidableEq T] [DecidableEq G] [DecidableEq M]

theorem step_preserves_invariant {s u : State L T G M} {e : Event L T G M} (h : Invariant s)
    (hstep : Step s e u) : Invariant u := by
  cases hstep with
  | server e server he hs => exact server_preserves h he hs
  | call l c server ha hs =>
    have hserver := NotificationThreads.step_preserves_invariant h.server hs
    obtain ⟨hidle, rfl⟩ := call_server hs
    have hsub := h.subscribed l
    rw [hidle] at hsub
    apply thread_moves h hserver (Or.inr ⟨c, ha, ?_⟩)
      (fun v hv => NotificationThreads.step_other hs hv) fun _ _ => Iff.rfl
    · simp only [NotificationThreads.State.goto, Function.update_self]
      rcases asks_callback ha with ⟨hk, -⟩ | ⟨hk, -⟩ <;> simpa [Subscribed, hk] using hsub
    · simp [NotificationThreads.State.goto, Carries]
  | returned l e c k server hr hk hs =>
    have hserver := NotificationThreads.step_preserves_invariant h.server hs
    obtain ⟨hchanged, rfl⟩ := unlock_server hs
    have hsub := h.subscribed l
    rw [hchanged, ← return_step hr hk] at hsub
    apply link_moves h hserver (LinkThreads.step_preserves_invariant (h.links l) hk)
      (aimed_step (h.aimed l) hk) _ (fun v hv => NotificationThreads.step_other hs hv)
      (fun _ _ => Iff.rfl)
    · simpa [NotificationThreads.State.goto] using hsub
    · simp [NotificationThreads.State.goto]
  | link l e k hr hk =>
    have hcalls := h.calls l
    have hsub := h.subscribed l
    apply link_moves h h.server (LinkThreads.step_preserves_invariant (h.links l) hk)
      (aimed_step (h.aimed l) hk) _ (fun _ _ => rfl) (fun _ _ => Iff.rfl)
    · rcases link_step hr hk with ⟨hpc, hlink⟩ | ⟨hnone, hiff⟩
      · simpa only [Subscribed, hpc, hlink] using hsub
      · rcases hcalls with hidle | ⟨c, hc, -⟩
        · rw [hidle] at hsub ⊢
          exact hsub.trans hiff.symm
        · rw [hnone] at hc
          cases hc
    · rcases link_step hr hk with ⟨hpc, hlink⟩ | ⟨hnone, -⟩
      · simpa only [asks, hpc, hlink] using hcalls
      · rcases hcalls with hidle | ⟨c, hc, -⟩
        · exact Or.inl hidle
        · rw [hnone] at hc
          cases hc

theorem run_invariant {s u : State L T G M} {es : List (Event L T G M)} (h : Run Step s es u)
    (hs : Invariant s) : Invariant u :=
  h.invariant (fun _ _ _ hi hstep => step_preserves_invariant hi hstep) hs

theorem run_served {s u : State L T G M} {es : List (Event L T G M)} (h : Run Step s es u) :
    Run NotificationThreads.Step s.server (es.filterMap served) u.server := by
  apply h.project State.server served
  intro s e u hstep
  cases hstep with
  | link l e k hr hk => simp [served, hr, State.setLink]
  | call l c server ha hs => simpa [served] using hs
  | returned l e c k server hr hk hs => simpa [served, hr] using hs
  | server e server he hs => simpa [served] using hs

end Runs

theorem raising_holds {N : Type} {p : SamplePluginImplementation N} {pc : Pc N}
    {taken called : List N} (h : pc.Raising taken called) (hs : pc.Sound p) :
    pc.Holds ∧ taken = p.callbacks ∧ ∀ c, pc ≠ .changed c := by
  cases pc with
  | looping => exact ⟨trivial, h.1 ▸ hs.1, by simp⟩
  | calling => exact ⟨trivial, h.1 ▸ hs.1, by simp⟩
  | raised => exact ⟨trivial, h.1 ▸ hs.1, by simp⟩
  | _ => exact h.elim

section Agreement
variable [DecidableEq L] [DecidableEq M] {s : State L T G M} (h : Invariant s)
include h

theorem idle_agrees {l : L} (hl : (s.link l).pc = .idle) :
    Sum.inl l ∈ s.server.plugin.callbacks ↔ s.pointer l ≠ none := by
  rw [h.subscribed l]
  simp only [Subscribed, hl, State.pointer]

theorem raising_held {t : L ⊕ G} {taken called : List (L ⊕ M)} {l : L}
    (ht : (s.server.pc t).Raising taken called) (hl : Sum.inl l ∈ taken) :
    ∃ r, s.pointer l = some r ∧ (s.link l).held.balance r = 1 := by
  obtain ⟨hholds, rfl, hnot⟩ := raising_holds ht (h.server.sound t)
  have hunchanged : ¬ ∃ c, s.server.pc (.inl l) = .changed c := by
    rintro ⟨c, hc⟩
    have hown := (h.server.owner (.inl l)).mp (by rw [hc]; trivial)
    rw [(h.server.owner t).mp hholds] at hown
    obtain rfl := Option.some.inj hown
    exact hnot c hc
  have hsub := (h.subscribed l).mp hl
  have hup : s.pointer l ≠ none ∧ (s.link l).pc ≠ .clearing := by
    cases hk : (s.link l).pc with
    | idle => simpa [Subscribed, hk, State.pointer] using hsub
    | testing upAndRunning => simpa [Subscribed, hk, State.pointer] using hsub
    | unregistering => exact ⟨h.aimed l (Or.inl hk), by simp⟩
    | registering =>
      simp only [Subscribed, hk] at hsub
      exact absurd hsub hunchanged
    | _ => simp [Subscribed, hk] at hsub
  obtain ⟨r, hr⟩ := Option.ne_none_iff_exists'.mp hup.1
  refine ⟨r, hr, ?_⟩
  exact ((h.links l).held r).trans (if_pos ⟨hr, hup.2⟩)

end Agreement

section Results
variable [DecidableEq L] [DecidableEq T] [DecidableEq G] [DecidableEq M]

/-- Whatever the threads of all parties do: a link that is not inside Operational has its
handler in the plugin's list exactly if its pointer is set, and holds the one reference it
points to; a handler that a raise has taken belongs to a link that still holds its interface;
and a raise calls, from Lock to Unlock, the handler of every link that is up when it takes the
mutex exactly once and no handler of a link that is down. -/
theorem links_agree_across_threads (greetings : List String) {es : List (Event L T G M)}
    {s : State L T G M} (h : Run Step (start greetings) es s) :
    (∀ l, (s.link l).pc = .idle →
      (Sum.inl l ∈ s.server.plugin.callbacks ↔ s.pointer l ≠ none) ∧
      ∀ r, (s.link l).held.balance r = if s.pointer l = some r then 1 else 0) ∧
    (∀ t taken called l, (s.server.pc t).Raising taken called → Sum.inl l ∈ taken →
      ∃ r, s.pointer l = some r ∧ (s.link l).held.balance r = 1) ∧
    (∀ t fs s' q q', Step s (.server (.lock t .raise)) s' → Run Step s' fs q →
      Event.server (.unlock t .raise) ∉ fs → Step q (.server (.unlock t .raise)) q' →
      (NotificationThreads.deliveriesOf t (fs.filterMap served)).Nodup ∧
      ∀ l, (s.link l).pc = .idle →
        (Sum.inl l ∈ NotificationThreads.deliveriesOf t (fs.filterMap served) ↔
          s.pointer l ≠ none)) := by
  have hi := run_invariant h (start_invariant greetings)
  refine ⟨?_, ?_, ?_⟩
  · intro l hl
    refine ⟨idle_agrees hi hl, fun r => ?_⟩
    rw [(hi.links l).held r]
    by_cases hr : s.pointer l = some r
    · rw [if_pos hr, if_pos ⟨hr, by simp [hl]⟩]
    · rw [if_neg hr, if_neg fun hc => hr hc.1]
  · exact fun t taken called l ht hl => raising_held hi ht hl
  · intro t fs s' q q' hlock hfs hunlocked hunlock
    have hsnapshot : NotificationThreads.deliveriesOf t (fs.filterMap served) =
        s.server.plugin.callbacks := by
      cases hlock with
      | server _ server he hs =>
        cases hunlock with
        | server _ server' he' hs' =>
          exact NotificationThreads.raise_delivers_snapshot hi.server hs (run_served hfs)
            (unlock_served hunlocked) hs'
    rw [hsnapshot]
    exact ⟨hi.server.plugin.nodup, fun l hl => idle_agrees hi hl⟩

/-- Link 0 has come up and someone else's greeting is about to call its handler. -/
theorem links_agree_across_threads_at_call :
    ∃ (es : List (Event ℕ ℕ ℕ ℕ)) (s : State ℕ ℕ ℕ ℕ), Run Step (start ["Hello"]) es s ∧
      s.server.pc (.inr 0) = .looping [.inl 0] [] 0 ∧
      ∃ r, s.pointer 0 = some r ∧ (s.link 0).held.balance r = 1 := by
  have h₁ := Run.single (Step.link (start (L := ℕ) (T := ℕ) (G := ℕ) (M := ℕ) ["Hello"]) 0 _ _ rfl
    (.operational _ true rfl))
  have h₂ := h₁.tail (.link _ 0 _ _ rfl (.testUp _ rfl rfl))
  have h₃ := h₂.tail (.link _ 0 _ _ rfl (.interface _ (some 0) rfl (by intro r hr; cases hr; rfl)))
  have h₄ := h₃.tail (.call _ 0 _ _ rfl (.call _ _ _ rfl))
  have h₅ := h₄.tail (.server _ (.lock (.inl 0) _) _ trivial (.lockChange _ _ _ rfl rfl))
  have h₆ := h₅.tail (.server _ (.change (.inl 0) _) _ trivial (.change _ _ _ rfl))
  have h₇ := h₆.tail (.returned _ 0 (.register 0) _ _ _ rfl (.register _ 0 rfl rfl)
    (.unlockChange _ _ _ rfl))
  have h₈ := h₇.tail (.server _ (.greet (.inr 0) (.favouring 0) "World" "") _ rfl
    (.greet _ _ _ _ _ _ _ rfl rfl))
  have h₉ := h₈.tail (.server _ (.lock (.inr 0) _) _ trivial (.lockRaise _ _ rfl rfl))
  obtain ⟨es, s, h, hpc⟩ : ∃ es s, Run Step (start (L := ℕ) (T := ℕ) (G := ℕ) (M := ℕ) ["Hello"])
      es s ∧ s.server.pc (.inr 0) = .looping [.inl 0] [] 0 := ⟨_, _, h₉, rfl⟩
  have hraising : (s.server.pc (.inr 0)).Raising [.inl 0] [] := by
    rw [hpc]
    exact ⟨rfl, rfl⟩
  exact ⟨es, s, h, hpc, (links_agree_across_threads ["Hello"] h).2.1 _ _ _ 0 hraising
    List.mem_cons_self⟩

end Results

end SubscriptionThreads
