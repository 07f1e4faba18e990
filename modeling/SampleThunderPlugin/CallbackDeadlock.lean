import SampleThunderPlugin.NotificationThreads
import SampleThunderPlugin.WaitForGraph

/-! The plugin process and its out-of-process clients. A client's request is a message that
a server thread of its own picks up; the caller waits for the reply. Delivering to a callback
is a message too, and the raising thread waits until the client's handler has returned. The
handler may send Register and Unregister requests of its own and wait for their replies.
The server threads are the threads that contend for _notificationMutex. -/
namespace CallbackDeadlock

open LabelledRuns
open NotificationThreads (Change Work Pc)

/-- The server thread of a client's request, and that of a request sent by the handler which
the raise of the first is waiting for. -/
inductive Thread (C : Type) where
  | main (c : C)
  | nested (c : C)
  deriving DecidableEq, Repr

inductive Request (N : Type) where
  | change (c : Change N)
  | greet (distribution : UniformInt) (message result : String)

/-- A request from the sending to the receipt of its reply. -/
inductive Link (N : Type) where
  | free
  | requested (q : Request N)
  | serving
  | replied

/-- The handler that a delivery runs in a client; invoked and returned are messages on the way. -/
inductive Handler (N : Type) where
  | off
  | invoked (n : N)
  | running (n : N)
  | blocked (n : N)
  | returned (n : N)
  deriving DecidableEq, Repr

structure State (C N : Type) where
  threads : NotificationThreads.State (Thread C) N
  link : Thread C → Link N
  handler : C → Handler N

inductive Event (C N : Type) where
  | request (c : C) (q : Request N)
  | callBack (c : C) (ch : Change N)
  | accept (t : Thread C) (q : Request N)
  | work (e : NotificationThreads.Event (Thread C) N)
  | deliver (c : C) (n : N)
  | handle (c : C)
  | finish (c : C)
  | resume (c : C)
  | reply (t : Thread C)
  | receive (c : C)
  | receiveNested (c : C)

variable {C N : Type}

def start (greetings : List String) : State C N :=
  ⟨NotificationThreads.start greetings, fun _ => .free, fun _ => .off⟩

def Request.event (t : Thread C) : Request N → NotificationThreads.Event (Thread C) N
  | .change c => .call t c
  | .greet distribution message result => .greet t distribution message result

def IsWork : NotificationThreads.Event (Thread C) N → Prop
  | .lock _ _ | .change _ _ | .unlock _ _ | .dangle _ => True
  | _ => False

variable [DecidableEq C]

def State.setLink (s : State C N) (t : Thread C) (l : Link N) : State C N :=
  { s with link := Function.update s.link t l }

def State.setHandler (s : State C N) (c : C) (h : Handler N) : State C N :=
  { s with handler := Function.update s.handler c h }

inductive Step [DecidableEq N] : State C N → Event C N → State C N → Prop where
  | request (s c q) (hl : s.link (.main c) = .free) :
      Step s (.request c q) (s.setLink (.main c) (.requested q))
  | callBack (s c ch n) (hh : s.handler c = .running n) (hl : s.link (.nested c) = .free) :
      Step s (.callBack c ch)
        ((s.setLink (.nested c) (.requested (.change ch))).setHandler c (.blocked n))
  | accept (s t q threads) (hl : s.link t = .requested q)
      (ht : NotificationThreads.Step s.threads (q.event t) threads) :
      Step s (.accept t q) { s.setLink t .serving with threads := threads }
  | work (s e threads) (he : IsWork e) (ht : NotificationThreads.Step s.threads e threads) :
      Step s (.work e) { s with threads := threads }
  | deliver (s c n threads)
      (ht : NotificationThreads.Step s.threads (.deliver (.main c) n) threads) :
      Step s (.deliver c n) { s.setHandler c (.invoked n) with threads := threads }
  | handle (s c n) (hh : s.handler c = .invoked n) :
      Step s (.handle c) (s.setHandler c (.running n))
  | finish (s c n) (hh : s.handler c = .running n) :
      Step s (.finish c) (s.setHandler c (.returned n))
  | resume (s c n threads) (hh : s.handler c = .returned n)
      (ht : NotificationThreads.Step s.threads (.returned (.main c)) threads) :
      Step s (.resume c) { s.setHandler c .off with threads := threads }
  | reply (s t) (hl : s.link t = .serving) (hp : s.threads.pc t = .idle) :
      Step s (.reply t) (s.setLink t .replied)
  | receive (s c) (hl : s.link (.main c) = .replied) :
      Step s (.receive c) (s.setLink (.main c) .free)
  | receiveNested (s c n) (hl : s.link (.nested c) = .replied) (hh : s.handler c = .blocked n) :
      Step s (.receiveNested c) ((s.setLink (.nested c) .free).setHandler c (.running n))

inductive Party (C : Type) where
  | caller (c : C)
  | server (t : Thread C)
  | handler (c : C)
  deriving DecidableEq, Repr

/-- A request that no reply is on its way to. -/
def Link.Open : Link N → Prop
  | .requested _ | .serving => True
  | _ => False

def Handler.Busy : Handler N → Prop
  | .invoked _ | .running _ | .blocked _ => True
  | _ => False

/-- Who waits for whom: for a reply, for the owner of the mutex, for a handler. -/
inductive WaitsFor (s : State C N) : Party C → Party C → Prop where
  | reply (c) (hl : (s.link (.main c)).Open) : WaitsFor s (.caller c) (.server (.main c))
  | nestedReply (c n) (hh : s.handler c = .blocked n) (hl : (s.link (.nested c)).Open) :
      WaitsFor s (.handler c) (.server (.nested c))
  | mutex (t u work) (hp : s.threads.pc t = .atLock work) (hm : s.threads.mutex = some u) :
      WaitsFor s (.server t) (.server u)
  | handler (c taken called it) (hp : s.threads.pc (.main c) = .calling taken called it)
      (hh : (s.handler c).Busy) : WaitsFor s (.server (.main c)) (.handler c)

def Event.IsRequest : Event C N → Prop
  | .request _ _ | .callBack _ _ => True
  | _ => False

/-- Nobody waits in a cycle, and an unanswered request leaves some party a step to take that
is not one more request. -/
def DeadlockFree [DecidableEq N] (s : State C N) : Prop :=
  ¬ WaitForGraph.Cyclic (WaitsFor s) ∧
    ((∃ t, ¬ s.link t matches .free) → ∃ e u, ¬ e.IsRequest ∧ Step s e u)

def Calling : Pc N → Prop
  | .calling _ _ _ => True
  | _ => False

structure Invariant [DecidableEq N] (s : State C N) : Prop where
  threads : NotificationThreads.Invariant s.threads
  unserved : ∀ t, s.link t ≠ .serving → s.threads.pc t = .idle
  handled : ∀ c, s.handler c ≠ .off ↔ Calling (s.threads.pc (.main c))
  asked : ∀ c, s.link (.nested c) ≠ .free ↔ ∃ n, s.handler c = .blocked n
  changes : ∀ c q, s.link (.nested c) = .requested q → ∃ ch, q = .change ch

variable [DecidableEq N]

omit [DecidableEq C] in
theorem start_invariant (greetings : List String) :
    Invariant (start greetings : State C N) where
  threads := NotificationThreads.start_invariant greetings
  unserved := fun _ _ => rfl
  handled := fun _ => ⟨fun h => absurd rfl h, fun h => h.elim⟩
  asked := fun _ => ⟨fun h => absurd rfl h, fun ⟨_, h⟩ => by cases h⟩
  changes := fun _ _ h => by cases h

section ServerThreads
variable {p u : NotificationThreads.State (Thread C) N}

theorem work_pc {e : NotificationThreads.Event (Thread C) N}
    (hi : NotificationThreads.Invariant p) (he : IsWork e) (h : NotificationThreads.Step p e u)
    (t : Thread C) :
    (p.pc t = .idle → u.pc t = .idle) ∧ (Calling (u.pc t) ↔ Calling (p.pc t)) := by
  by_cases ht : t = e.actor
  · subst ht
    cases h with
    | lockChange t c hp hm =>
      simp [NotificationThreads.Event.actor, NotificationThreads.State.goto, hp, Calling]
    | lockRaise t hp hm =>
      cases hf : p.plugin.notificationCallbacks.front <;>
        simp [NotificationThreads.Event.actor, NotificationThreads.State.goto, hp, Calling,
          NotificationThreads.loopAt]
    | change t c hp =>
      simp [NotificationThreads.Event.actor, NotificationThreads.State.goto, hp, Calling]
    | unlockChange t c hp =>
      simp [NotificationThreads.Event.actor, NotificationThreads.State.goto, hp, Calling]
    | unlockRaise t taken called hp =>
      simp [NotificationThreads.Event.actor, NotificationThreads.State.goto, hp, Calling]
    | dangle t taken called it hp hd =>
      exact absurd (.dangle p t taken called it hp hd) (NotificationThreads.no_dangle hi)
    | call t c hp => exact he.elim
    | greet t d m r reply q hp hg => exact he.elim
    | deliver t taken called it n hp hd => exact he.elim
    | returned t taken called it n hp hd => exact he.elim
  · simp [NotificationThreads.step_other h ht]

theorem event_pc {t : Thread C} {q : Request N} (h : NotificationThreads.Step p (q.event t) u) :
    p.pc t = .idle ∧ ¬ Calling (u.pc t) ∧ ∀ v, v ≠ t → u.pc v = p.pc v := by
  refine ⟨?_, ?_, ?_⟩
  · cases q <;> cases h <;> assumption
  · cases q with
    | change c =>
      cases h
      simp [NotificationThreads.State.goto, Calling]
    | greet d m r =>
      cases h
      simp only [NotificationThreads.State.goto, Function.update_self]
      split <;> exact id
  · intro v hv
    refine NotificationThreads.step_other h ?_
    cases q <;> exact hv

theorem deliver_pc {c : C} {n : N} (h : NotificationThreads.Step p (.deliver (.main c) n) u) :
    p.pc (.main c) ≠ .idle ∧ ¬ Calling (p.pc (.main c)) ∧ Calling (u.pc (.main c)) ∧
      ∀ v, v ≠ .main c → u.pc v = p.pc v := by
  refine ⟨?_, ?_, ?_, fun v hv => NotificationThreads.step_other h hv⟩
  all_goals
    cases h with
    | deliver t taken called it n hp hd =>
      simp [hp, Calling, NotificationThreads.State.goto]

theorem returned_pc {c : C} (h : NotificationThreads.Step p (.returned (.main c)) u) :
    p.pc (.main c) ≠ .idle ∧ ¬ Calling (u.pc (.main c)) ∧
      ∀ v, v ≠ .main c → u.pc v = p.pc v := by
  refine ⟨?_, ?_, fun v hv => NotificationThreads.step_other h hv⟩
  · cases h with
    | returned t taken called it n hp hd => simp [hp]
  · cases h with
    | returned t taken called it n hp hd =>
      cases hn : p.plugin.notificationCallbacks.next it <;>
        simp [NotificationThreads.State.goto, NotificationThreads.loopAt, Calling]

end ServerThreads

section Frames
variable {s : State C N} (h : Invariant s)
include h

private theorem setLink_unserved {t : Thread C} {l : Link N}
    (hl : l ≠ .serving → s.threads.pc t = .idle) (v : Thread C)
    (hv : (s.setLink t l).link v ≠ .serving) : s.threads.pc v = .idle := by
  by_cases hc : v = t
  · subst hc
    exact hl (by simpa [State.setLink] using hv)
  · exact h.unserved v (by simpa [State.setLink, hc] using hv)

private theorem setLink_asked {t : Thread C} {l : Link N} (hl : l = .free ↔ s.link t = .free)
    (d : C) : (s.setLink t l).link (.nested d) ≠ .free ↔ ∃ n, s.handler d = .blocked n := by
  by_cases hc : .nested d = t
  · subst hc
    simpa [State.setLink, hl] using h.asked d
  · simpa [State.setLink, hc] using h.asked d

private theorem setLink_changes {t : Thread C} {l : Link N}
    (hl : ∀ d q, t = .nested d → l = .requested q → ∃ ch, q = .change ch) (d : C) (q : Request N)
    (hq : (s.setLink t l).link (.nested d) = .requested q) : ∃ ch, q = .change ch := by
  by_cases hc : .nested d = t
  · subst hc
    exact hl d q rfl (by simpa [State.setLink] using hq)
  · exact h.changes d q (by simpa [State.setLink, hc] using hq)

private theorem setHandler_handled {c : C} {k : Handler N} (hk : k = .off ↔ s.handler c = .off)
    (d : C) : (s.setHandler c k).handler d ≠ .off ↔ Calling (s.threads.pc (.main d)) := by
  by_cases hc : d = c
  · subst hc
    simpa [State.setHandler, hk] using h.handled d
  · simpa [State.setHandler, hc] using h.handled d

private theorem setHandler_asked {c : C} {k : Handler N} (hk : ∀ n, k ≠ .blocked n)
    (hh : ∀ n, s.handler c ≠ .blocked n) (d : C) :
    s.link (.nested d) ≠ .free ↔ ∃ n, (s.setHandler c k).handler d = .blocked n := by
  by_cases hc : d = c
  · subst hc
    simpa [State.setHandler, hk, hh] using h.asked d
  · simpa [State.setHandler, hc] using h.asked d

private theorem setBoth_asked {c : C} {k : Handler N} {l : Link N}
    (hk : l ≠ .free ↔ ∃ n, k = .blocked n) (d : C) :
    ((s.setLink (.nested c) l).setHandler c k).link (.nested d) ≠ .free ↔
      ∃ n, ((s.setLink (.nested c) l).setHandler c k).handler d = .blocked n := by
  by_cases hc : d = c
  · subst hc
    simpa [State.setHandler, State.setLink] using hk
  · simpa [State.setHandler, State.setLink, hc] using h.asked d

private theorem delivery_handled {c : C} {k : Handler N}
    {threads : NotificationThreads.State (Thread C) N}
    (hk : k ≠ .off ↔ Calling (threads.pc (.main c)))
    (hother : ∀ v, v ≠ .main c → threads.pc v = s.threads.pc v) (d : C) :
    (s.setHandler c k).handler d ≠ .off ↔ Calling (threads.pc (.main d)) := by
  by_cases hc : d = c
  · subst hc
    simpa [State.setHandler] using hk
  · have hne : Thread.main d ≠ .main c := fun hd => hc (Thread.main.inj hd)
    simpa [State.setHandler, hc, hother _ hne] using h.handled d

private theorem delivery_unserved {c : C} {threads : NotificationThreads.State (Thread C) N}
    (hbusy : s.threads.pc (.main c) ≠ .idle)
    (hother : ∀ v, v ≠ .main c → threads.pc v = s.threads.pc v) (v : Thread C)
    (hv : s.link v ≠ .serving) : threads.pc v = .idle := by
  by_cases hc : v = .main c
  · subst hc
    exact absurd (h.unserved _ hv) hbusy
  · exact (hother v hc).trans (h.unserved v hv)

end Frames

theorem step_preserves_invariant {s u : State C N} {e : Event C N} (h : Invariant s)
    (hstep : Step s e u) : Invariant u := by
  cases hstep with
  | request c q hl =>
    refine ⟨h.threads, setLink_unserved h fun _ => h.unserved _ (by simp [hl]), h.handled,
      fun d => ?_, setLink_changes h fun d r hd => by cases hd⟩
    simpa [State.setLink] using h.asked d
  | callBack c ch n hh hl =>
    refine ⟨h.threads, setLink_unserved h fun _ => h.unserved _ (by simp [hl]),
      setHandler_handled h (by simp [hh]), setBoth_asked h (by simp),
      setLink_changes h ?_⟩
    intro d r _ hr
    exact ⟨ch, (Link.requested.inj hr).symm⟩
  | accept t q threads hl ht =>
    obtain ⟨hidle, hcall, hother⟩ := event_pc ht
    refine ⟨NotificationThreads.step_preserves_invariant h.threads ht, ?_, ?_,
      setLink_asked h (by simp [hl]), setLink_changes h fun d r _ hr => by cases hr⟩
    · intro v hv
      have hc : v ≠ t := by
        rintro rfl
        simp [State.setLink] at hv
      exact (hother v hc).trans (h.unserved v (by simpa [State.setLink, hc] using hv))
    · intro d
      have hd := h.handled d
      by_cases hc : .main d = t
      · subst hc
        rw [hidle] at hd
        exact hd.trans ⟨False.elim, hcall⟩
      · rwa [← hother _ hc] at hd
  | work e threads he ht =>
    have hpc := work_pc h.threads he ht
    exact ⟨NotificationThreads.step_preserves_invariant h.threads ht,
      fun v hv => (hpc v).1 (h.unserved v hv), fun d => (h.handled d).trans (hpc _).2.symm,
      h.asked, h.changes⟩
  | deliver c n threads ht =>
    obtain ⟨hbusy, hbefore, hafter, hother⟩ := deliver_pc ht
    have hoff : s.handler c = .off := by
      by_contra hn
      exact hbefore ((h.handled c).mp hn)
    exact ⟨NotificationThreads.step_preserves_invariant h.threads ht,
      delivery_unserved h hbusy hother, delivery_handled h (by simp [hafter]) hother,
      setHandler_asked h (by simp) (by simp [hoff]), h.changes⟩
  | handle c n hh =>
    exact ⟨h.threads, h.unserved, setHandler_handled h (by simp [hh]),
      setHandler_asked h (by simp) (by simp [hh]), h.changes⟩
  | finish c n hh =>
    exact ⟨h.threads, h.unserved, setHandler_handled h (by simp [hh]),
      setHandler_asked h (by simp) (by simp [hh]), h.changes⟩
  | resume c n threads hh ht =>
    obtain ⟨hbusy, hafter, hother⟩ := returned_pc ht
    exact ⟨NotificationThreads.step_preserves_invariant h.threads ht,
      delivery_unserved h hbusy hother, delivery_handled h (by simp [hafter]) hother,
      setHandler_asked h (by simp) (by simp [hh]), h.changes⟩
  | reply t hl hp =>
    exact ⟨h.threads, setLink_unserved h fun _ => hp, h.handled, setLink_asked h (by simp [hl]),
      setLink_changes h fun d r _ hr => by cases hr⟩
  | receive c hl =>
    refine ⟨h.threads, setLink_unserved h fun _ => h.unserved _ (by simp [hl]), h.handled,
      fun d => ?_, setLink_changes h fun d r hd => by cases hd⟩
    simpa [State.setLink] using h.asked d
  | receiveNested c n hl hh =>
    exact ⟨h.threads, setLink_unserved h fun _ => h.unserved _ (by simp [hl]),
      setHandler_handled h (by simp [hh]), setBoth_asked h (by simp),
      setLink_changes h fun d r _ hr => by cases hr⟩

theorem run_invariant {s u : State C N} {es : List (Event C N)} (h : Run Step s es u)
    (hs : Invariant s) : Invariant u :=
  h.invariant (fun _ _ _ hi hstep => step_preserves_invariant hi hstep) hs

/-- The mutex is held while the handler runs, so a server thread that picks up the
handler's request closes the circle. -/
theorem accept_nested_cyclic {s u : State C N} {c : C} {q : Request N} (h : Invariant s)
    (hstep : Step s (.accept (.nested c) q) u) : WaitForGraph.Cyclic (WaitsFor u) := by
  cases hstep with
  | accept t q threads hl ht =>
    obtain ⟨ch, rfl⟩ := h.changes c q hl
    obtain ⟨n, hn⟩ := (h.asked c).mp (by simp [hl])
    have hcall : Calling (s.threads.pc (.main c)) := (h.handled c).mp (by simp [hn])
    cases hp : s.threads.pc (.main c) with
    | calling taken called it =>
      have hm : s.threads.mutex = some (.main c) := by
        rw [← h.threads.owner, hp]
        trivial
      cases ht
      refine WaitForGraph.cyclic_of_triangle (p := .server (.main c)) (q := .handler c)
        (r := .server (.nested c)) ?_ ?_ ?_
      · refine .handler c taken called it ?_ ?_
        · simpa [NotificationThreads.State.goto] using hp
        · simp [State.setLink, hn, Handler.Busy]
      · exact .nestedReply c n hn (by simp [State.setLink, Link.Open])
      · exact .mutex (.nested c) (.main c) (.change ch)
          (by simp [NotificationThreads.State.goto]) hm
    | _ => rw [hp] at hcall; exact hcall.elim

/-- No request of a handler has reached a server thread. -/
def Unanswered (s : State C N) : Prop :=
  ∀ c, s.link (.nested c) = .free ∨ ∃ q, s.link (.nested c) = .requested q

theorem step_unanswered {s u : State C N} {e : Event C N} (h : Unanswered s) (hstep : Step s e u)
    (he : ∀ c q, e ≠ .accept (.nested c) q) : Unanswered u := by
  intro d
  cases hstep with
  | callBack c ch n hh hl =>
    by_cases hd : d = c
    · subst hd
      exact Or.inr ⟨_, by simp [State.setHandler, State.setLink]; rfl⟩
    · simpa [State.setHandler, State.setLink, hd] using h d
  | accept t q threads hl ht =>
    cases t with
    | main c => simpa [State.setLink] using h d
    | nested c => exact absurd rfl (he c q)
  | reply t hl hp =>
    have hd : .nested d ≠ t := by
      rintro rfl
      rcases h d with hf | ⟨q, hq⟩
      · simp [hf] at hl
      · simp [hq] at hl
    simpa [State.setLink, hd] using h d
  | receiveNested c n hl hh =>
    by_cases hd : d = c
    · subst hd
      exact Or.inl (by simp [State.setHandler, State.setLink])
    · simpa [State.setHandler, State.setLink, hd] using h d
  | request c q hl => simpa [State.setLink] using h d
  | receive c hl => simpa [State.setLink] using h d
  | _ => exact h d

theorem run_unanswered {s u : State C N} {es : List (Event C N)} (h : Run Step s es u)
    (hs : Unanswered s) (he : ∀ c q, Event.accept (.nested c) q ∉ es) : Unanswered u :=
  Run.persists (fun _ => True) Unanswered (fun e => ∃ c q, e = Event.accept (.nested c) q)
    (fun _ _ _ _ _ => trivial)
    (fun _ _ _ _ hp hb hstep => step_unanswered hp hstep fun c q hc => hb ⟨c, q, hc⟩)
    h trivial hs (fun _ hm ⟨c, q, hc⟩ => he c q (hc ▸ hm))

omit [DecidableEq C] in
theorem nested_idle {s : State C N} (h : Invariant s) (hu : Unanswered s) (c : C) :
    s.threads.pc (.nested c) = .idle := by
  refine h.unserved _ ?_
  rcases hu c with hf | ⟨q, hq⟩
  · simp [hf]
  · simp [hq]

/-- A caller waits for a server thread, that one for the owner of the mutex, the owner for a
handler, and a handler for a server thread that has not started. -/
def rank (s : State C N) : Party C → ℕ
  | .caller _ => 4
  | .server t =>
    match s.threads.pc t with
    | .atLock _ => 3
    | .calling _ _ _ => 2
    | _ => 0
  | .handler _ => 1

omit [DecidableEq C] [DecidableEq N] in
theorem rank_server_le (s : State C N) (t : Thread C) : rank s (.server t) ≤ 3 := by
  simp only [rank]
  split <;> omega

omit [DecidableEq C] in
theorem rank_holder_le {s : State C N} (h : Invariant s) {t : Thread C}
    (hm : s.threads.mutex = some t) : rank s (.server t) ≤ 2 := by
  have hh := (h.threads.owner t).mpr hm
  cases hp : s.threads.pc t with
  | atLock work => rw [hp] at hh; exact hh.elim
  | _ => simp [rank, hp]

omit [DecidableEq C] in
theorem waits_descend {s : State C N} (h : Invariant s) (hu : Unanswered s) (p q : Party C)
    (hw : WaitsFor s p q) : rank s q < rank s p := by
  cases hw with
  | reply c hl =>
    have hle := rank_server_le s (.main c)
    simp only [rank] at hle ⊢
    omega
  | nestedReply c n hh hl => simp [rank, nested_idle h hu c]
  | mutex t v work hp hm =>
    have hle := rank_holder_le h hm
    simp only [rank, hp] at hle ⊢
    omega
  | handler c taken called it hp hh => simp [rank, hp]

def Active (s : State C N) : Party C → Prop
  | .caller c => s.link (.main c) ≠ .free
  | .server t => (s.link t).Open
  | .handler c => s.handler c ≠ .off

omit [DecidableEq C] in
theorem waited_for_active {s : State C N} (h : Invariant s) (p q : Party C)
    (hw : WaitsFor s p q) : Active s q := by
  cases hw with
  | reply c hl => exact hl
  | nestedReply c n hh hl => exact hl
  | mutex t v work hp hm =>
    have hh := (h.threads.owner v).mpr hm
    have hs : s.link v = .serving := by
      by_contra hn
      rw [h.unserved v hn] at hh
      exact hh
    simp [Active, hs, Link.Open]
  | handler c taken called it hp hh => exact (h.handled c).mpr (by rw [hp]; trivial)

def CanMove (s : State C N) : Prop := ∃ e u, ¬ e.IsRequest ∧ Step s e u

theorem handler_resumes {s : State C N} (h : Invariant s) {c : C} {n : N}
    (hh : s.handler c = .returned n) : CanMove s := by
  have hcall : Calling (s.threads.pc (.main c)) := (h.handled c).mp (by simp [hh])
  cases hp : s.threads.pc (.main c) with
  | calling taken called it =>
    have hs := h.threads.sound (.main c)
    rw [hp] at hs
    obtain ⟨-, ⟨m, hm⟩, -⟩ := hs
    exact ⟨_, _, id, .resume s c n _ hh (.returned _ _ taken called it m hp hm)⟩
  | _ => rw [hp] at hcall; exact hcall.elim

theorem server_accepts {s : State C N} (h : Invariant s) {t : Thread C} {q : Request N}
    (hl : s.link t = .requested q) : CanMove s := by
  have hp : s.threads.pc t = .idle := h.unserved t (by simp [hl])
  cases q with
  | change c => exact ⟨_, _, id, .accept s t _ _ hl (.call _ t c hp)⟩
  | greet d m r =>
    rcases SamplePluginImplementation.greet_cases d s.threads.plugin m r with
      ⟨-, hg⟩ | ⟨-, -, hg⟩ | ⟨-, greeting, -, hg⟩
    all_goals exact ⟨_, _, id, .accept s t _ _ hl (.greet _ t d m r _ _ hp hg)⟩

theorem thread_works {s : State C N} {e : NotificationThreads.Event (Thread C) N}
    {threads : NotificationThreads.State (Thread C) N}
    (ht : NotificationThreads.Step s.threads e threads) (he : IsWork e) : CanMove s :=
  ⟨_, _, id, .work s e threads he ht⟩

theorem server_moves {s : State C N} (h : Invariant s) {c : C}
    (hl : s.link (.main c) = .serving) (hw : ∀ q, ¬ WaitsFor s (.server (.main c)) q) :
    CanMove s := by
  cases hp : s.threads.pc (.main c) with
  | idle => exact ⟨_, _, id, .reply s _ hl hp⟩
  | atLock work =>
    have hm : s.threads.mutex = none := by
      cases hm : s.threads.mutex with
      | none => rfl
      | some v => exact absurd (.mutex _ v work hp hm) (hw (.server v))
    cases work with
    | change ch => exact thread_works (.lockChange _ _ ch hp hm) trivial
    | raise => exact thread_works (.lockRaise _ _ hp hm) trivial
  | changing ch => exact thread_works (.change _ _ ch hp) trivial
  | changed ch => exact thread_works (.unlockChange _ _ ch hp) trivial
  | looping taken called it =>
    have hs := h.threads.sound (.main c)
    rw [hp] at hs
    obtain ⟨-, ⟨n, hn⟩, -⟩ := hs
    exact ⟨_, _, id, .deliver s c n _ (.deliver _ _ taken called it n hp hn)⟩
  | calling taken called it =>
    have hon : s.handler c ≠ .off := (h.handled c).mpr (by rw [hp]; trivial)
    cases hh : s.handler c with
    | off => exact absurd hh hon
    | returned n => exact handler_resumes h hh
    | _ => exact absurd (.handler c taken called it hp (by rw [hh]; trivial)) (hw _)
  | raised taken called => exact thread_works (.unlockRaise _ _ taken called hp) trivial
  | dangling =>
    have hs := h.threads.sound (.main c)
    rw [hp] at hs
    exact hs.elim

theorem unblocked_moves {s : State C N} (h : Invariant s) (hu : Unanswered s) (p : Party C)
    (ha : Active s p) (hw : ∀ q, ¬ WaitsFor s p q) : CanMove s := by
  cases p with
  | caller c =>
    cases hl : s.link (.main c) with
    | free => exact absurd hl ha
    | replied => exact ⟨_, _, id, .receive s c hl⟩
    | _ => exact absurd (.reply c (by rw [hl]; trivial)) (hw _)
  | server t =>
    cases hl : s.link t with
    | requested q => exact server_accepts h hl
    | serving =>
      cases t with
      | main c => exact server_moves h hl hw
      | nested c => rcases hu c with hf | ⟨q, hq⟩ <;> simp_all
    | _ => simp [Active, hl, Link.Open] at ha
  | handler c =>
    cases hh : s.handler c with
    | off => exact absurd hh ha
    | invoked n => exact ⟨_, _, id, .handle s c n hh⟩
    | running n => exact ⟨_, _, id, .finish s c n hh⟩
    | returned n => exact handler_resumes h hh
    | blocked n =>
      rcases hu c with hf | ⟨q, hq⟩
      · exact absurd hf ((h.asked c).mpr ⟨n, hh⟩)
      · exact absurd (.nestedReply c n hh (by rw [hq]; trivial)) (hw _)

theorem deadlockFree_of_unanswered {s : State C N} (h : Invariant s) (hu : Unanswered s) :
    DeadlockFree s := by
  refine ⟨WaitForGraph.acyclic_of_rank (rank s) (waits_descend h hu), ?_⟩
  rintro ⟨t, ht⟩
  have hactive : ∃ p, Active s p := by
    cases t with
    | main c => exact ⟨.caller c, fun hl => ht (by rw [hl])⟩
    | nested c =>
      obtain ⟨n, hn⟩ := (h.asked c).mp fun hl => ht (by rw [hl])
      exact ⟨.handler c, by simp [Active, hn]⟩
  obtain ⟨p, hp⟩ := hactive
  have hmoves : ∃ _ : Party C, CanMove s :=
    WaitForGraph.progress_of_rank (rank s) (waits_descend h hu) (waited_for_active h)
      (unblocked_moves h hu) hp
  exact hmoves.choose_spec

/-- A run is free of deadlocks exactly as long as no server thread picks up a request that a
handler sent: until then every wait leads to a party that can move, and from then on the raise
waits for a handler that waits for a thread that waits for the mutex of the raise. -/
theorem deadlock_free_iff (greetings : List String) {es : List (Event C N)} {s : State C N}
    (h : Run Step (start greetings) es s) :
    Throughout Step DeadlockFree (start greetings) es ↔
      ∀ c q, Event.accept (.nested c) q ∉ es := by
  constructor
  · intro hfree c q hm
    obtain ⟨fs, gs, rfl⟩ := List.append_of_mem hm
    obtain ⟨v, hv, hrest⟩ := h.split
    obtain ⟨w, hw, -⟩ := hrest.cons_inv
    have hcycle := accept_nested_cyclic (run_invariant hv (start_invariant greetings)) hw
    exact (hfree (fs ++ [.accept (.nested c) q]) gs w (by simp) (hv.tail hw)).1 hcycle
  · intro hnone fs gs u hes hu
    refine deadlockFree_of_unanswered (run_invariant hu (start_invariant greetings)) ?_
    exact run_unanswered hu (fun _ => Or.inl rfl) fun c q hm => hnone c q (by simp [hes, hm])

private theorem handler_runs :
    ∃ (es : List (Event ℕ ℕ)) (s : State ℕ ℕ), Run Step (start ["Hello"]) es s ∧
      (∀ c q, Event.accept (.nested c) q ∉ es) ∧ s.handler 0 = .running 7 ∧
      s.link (.main 0) = .serving ∧ s.link (.nested 0) = .free ∧
      s.threads.pc (.main 0) = .calling [7] [7] 0 ∧ s.threads.pc (.nested 0) = .idle ∧
      s.threads.plugin.notificationCallbacks.deref 0 = some 7 ∧
      s.threads.plugin.notificationCallbacks.next 0 = none := by
  have h₁ := Run.single (Step.request (start (C := ℕ) (N := ℕ) ["Hello"]) 0
    (.change (.register 7)) rfl)
  have h₂ := h₁.tail (.accept _ (.main 0) _ _ rfl (.call _ _ _ rfl))
  have h₃ := h₂.tail (.work _ (.lock _ _) _ trivial (.lockChange _ (.main 0) _ rfl rfl))
  have h₄ := h₃.tail (.work _ (.change _ _) _ trivial (.change _ (.main 0) _ rfl))
  have h₅ := h₄.tail (.work _ (.unlock _ _) _ trivial (.unlockChange _ (.main 0) _ rfl))
  have h₆ := h₅.tail (.reply _ (.main 0) rfl rfl)
  have h₇ := h₆.tail (.receive _ 0 rfl)
  have h₈ := h₇.tail (.request _ 0 (.greet (.favouring 0) "World" "") rfl)
  have h₉ := h₈.tail (.accept _ (.main 0) _ _ rfl (.greet _ _ _ _ _ _ _ rfl rfl))
  have h₁₀ := h₉.tail (.work _ (.lock _ _) _ trivial (.lockRaise _ (.main 0) rfl rfl))
  have h₁₁ := h₁₀.tail (.deliver _ 0 7 _ (.deliver _ _ [7] [] 0 7 rfl rfl))
  have h₁₂ := h₁₁.tail (.handle _ 0 7 rfl)
  exact ⟨_, _, h₁₂, by simp, rfl, rfl, rfl, rfl, rfl, rfl, rfl⟩

/-- The handler's Unregister waits for the mutex of the raise that waits for the handler. -/
theorem handler_request_deadlocks :
    ¬ ∀ (es : List (Event ℕ ℕ)) (s : State ℕ ℕ), Run Step (start ["Hello"]) es s →
      DeadlockFree s := by
  intro hclaim
  obtain ⟨es, s, hs, -, hrunning, -, hfree, -, hidle, -, -⟩ := handler_runs
  have hsent := hs.tail (.callBack s 0 (.unregister 7) 7 hrunning hfree)
  have haccept := Step.accept
    ((s.setLink (.nested 0) (.requested (.change (.unregister 7)))).setHandler 0 (.blocked 7))
    (.nested 0) (.change (.unregister 7)) _ (by simp [State.setLink, State.setHandler])
    (.call _ _ _ hidle)
  have hcycle := accept_nested_cyclic (run_invariant hsent (start_invariant _)) haccept
  exact (hclaim _ _ (hsent.tail haccept)).1 hcycle

/-- The handler calls nothing and returns, and the Greet that waits for it is answered. -/
theorem deadlock_free_iff_of_answered_greet :
    ∃ (es : List (Event ℕ ℕ)) (s : State ℕ ℕ),
      Run Step (start ["Hello"]) (es ++ [.finish 0] ++ [.resume 0] ++
        [.work (.unlock (.main 0) .raise)] ++ [.reply (.main 0)] ++ [.receive 0]) s ∧
      Throughout Step DeadlockFree (start ["Hello"]) (es ++ [.finish 0] ++ [.resume 0] ++
        [.work (.unlock (.main 0) .raise)] ++ [.reply (.main 0)] ++ [.receive 0]) := by
  obtain ⟨es, s, hs, hnone, hrunning, hserving, -, hcalling, -, hderef, hnext⟩ := handler_runs
  have h₁ := hs.tail (.finish s 0 7 hrunning)
  have h₂ := h₁.tail (.resume _ 0 7 _ (by simp [State.setHandler])
    (.returned _ _ [7] [7] 0 7 hcalling hderef))
  have h₃ := h₂.tail (.work _ (.unlock _ _) _ trivial (.unlockRaise _ (.main 0) [7] [7]
    (by simp [NotificationThreads.State.goto, State.setHandler, hnext,
      NotificationThreads.loopAt])))
  have h₄ := h₃.tail (.reply _ (.main 0) hserving (by simp [NotificationThreads.State.goto]))
  have h₅ := h₄.tail (.receive _ 0 (by simp [State.setLink]))
  refine ⟨es, _, h₅, (deadlock_free_iff ["Hello"] h₅).mpr ?_⟩
  simpa using hnone

end CallbackDeadlock
