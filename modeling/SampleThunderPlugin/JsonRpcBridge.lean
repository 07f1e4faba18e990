import SampleThunderPlugin.LifecycleHoldings

/-! The JSON-RPC side of the plugin: the handlers that point to the implementation, and the
events that the sink raises for what the implementation delivers to it. -/
namespace JsonRpcBridge

open LabelledRuns PluginLifecycle LifecycleHoldings
open SamplePlugin (Host)
open SamplePluginImplementation (Request Reply deliveredTo)

variable {S I N : Type} [DecidableEq S] [DecidableEq I] [DecidableEq N]
variable {fromString : SamplePluginConfiguration → String → SamplePluginConfiguration}
variable {grants : Reference S I → Bool}

def HandlersHeld (s : State S I N) : Prop :=
  ∀ i ∈ s.host.jsonHandlers, 0 < s.host.held.balance i

theorem initializeStep_handlers {service : S} {a : Answers I} {stmt next : InitializeAt}
    {h h' : Host S I N} {e : Holdings S I} (hs : Stands h e)
    (ha : InitializeAllows service a.root e stmt)
    (hstep : InitializeStep fromString service a stmt h next h')
    (hh : ∀ i ∈ h.jsonHandlers, 0 < h.held.balance i) :
    ∀ i ∈ h'.jsonHandlers, 0 < h'.held.balance i := by
  have hnone : stmt = .root → ∀ i, i ∉ h.jsonHandlers := by
    rintro rfl i hi
    subst ha
    have hpos := hh i hi
    rw [hs.held i] at hpos
    exact absurd hpos (by simp [Holdings.watching, Holdings.down])
  cases hstep with
  | rootFound _ i hr => exact fun j hj => absurd hj (hnone rfl j)
  | rootNull _ hr => exact fun j hj => absurd hj (hnone rfl j)
  | registerJson _ i hi =>
    obtain ⟨k, hk, rfl⟩ := ha
    obtain rfl := Option.some.inj (hs.samplePlugin.symm.trans hi)
    intro j hj
    rcases List.mem_append.mp hj with hj | hj
    · exact hh j hj
    · rw [List.mem_singleton.mp hj]
      change 0 < h.held.balance k
      rw [hs.held k]
      simp [Holdings.rooted]
  | announce _ k =>
    rw [SamplePlugin.announce_jsonHandlers, SamplePlugin.announce_held]
    exact hh
  | deleteServer =>
    rw [SamplePlugin.deleteServer_jsonHandlers, SamplePlugin.deleteServer_held]
    exact hh
  | _ => exact hh

theorem step_handlers {s u : State S I N} {ev : Event S I N} (hi : Invariant s)
    (hh : HandlersHeld s) (hstep : Step fromString grants s ev u)
    (he : ev ≠ .deinitializing .releaseSamplePlugin) : HandlersHeld u := by
  cases hstep with
  | initializing service a stmt next host hp hst hq =>
    obtain ⟨e, hs, ha⟩ := hi
    rw [hp] at ha
    exact initializeStep_handlers hs ha.2 hst hh
  | deinitializing service stmt next host hp hst hq =>
    cases hst with
    | deleteServer =>
      simp only [HandlersHeld, SamplePlugin.deleteServer_jsonHandlers,
        SamplePlugin.deleteServer_held]
      exact hh
    | releaseSamplePlugin _ i hi => exact absurd rfl he
    | _ => exact hh
  | deactivated service id hr =>
    simp only [HandlersHeld, deactivated_host]
    exact hh
  | _ => exact hh

theorem release_leaves_handler {s u : State S I N} (hi : Invariant s)
    (hstep : Step fromString grants s (.deinitializing .releaseSamplePlugin) u) :
    ¬ HandlersHeld u := by
  intro hh
  obtain ⟨e, hs, ha⟩ := hi
  cases hstep with
  | deinitializing service stmt next host hp hst hq =>
    rw [hp] at ha
    obtain ⟨a, i, -, -, rfl⟩ := ha
    cases hst with
    | releaseSamplePlugin _ j hj =>
      obtain rfl := Option.some.inj (hs.samplePlugin.symm.trans hj)
      have hpos := hh i (hs.handler i rfl)
      simp [Host.release, hs.held, Holdings.up, Holdings.rooted] at hpos

/-- Every handler has its implementation exactly as long as no Deinitialize has released one:
none of its statements withdraws the handlers. -/
theorem handlers_held_iff {es : List (Event S I N)} {s : State S I N}
    (h : Run (Step fromString grants) start es s) :
    Throughout (Step fromString grants) HandlersHeld start es ↔
      Event.deinitializing .releaseSamplePlugin ∉ es := by
  constructor
  · intro hheld hm
    obtain ⟨fs, gs, rfl⟩ := List.append_of_mem hm
    obtain ⟨v, hv, hrest⟩ := h.split
    obtain ⟨w, hw, -⟩ := hrest.cons_inv
    exact release_leaves_handler (run_invariant hv start_invariant) hw
      (hheld (fs ++ [.deinitializing .releaseSamplePlugin]) gs w (by simp) (hv.tail hw))
  · intro hnone fs gs u hes hu
    exact Run.persists Invariant HandlersHeld (· = .deinitializing .releaseSamplePlugin)
      (fun _ _ _ hi hstep => step_preserves_invariant hi hstep)
      (fun _ _ _ hi hp hb hstep => step_handlers hi hp hstep hb)
      hu start_invariant (fun _ hi => absurd hi List.not_mem_nil)
      (fun ev hev he => hnone (by rw [hes, ← he]; exact List.mem_append_left gs hev))

private def activated : State ℕ ℕ ℕ :=
  ⟨(SamplePlugin.initializePlugin (fun _ _ => .default) 0 ⟨some 7, none, "", false⟩ .fresh).2,
    .idle, some (0, ⟨some 7, none, "", false⟩), [], [], []⟩

private theorem start_reaches_activated :
    Reaches (Step (fun _ _ => .default) fun _ => true) UndisturbedCalls.OfInitialize start
      activated :=
  (UndisturbedCalls.initialize_reaches (fun _ _ => .default) (fun _ => true) start 0
    ⟨some 7, none, "", false⟩ rfl ⟨rfl, rfl⟩ rfl).leave rfl

/-- After a complete Deinitialize the handler still leads to the released implementation. -/
theorem deinitialize_leaves_handlers :
    ¬ ∀ (fromString : SamplePluginConfiguration → String → SamplePluginConfiguration)
        (grants : Reference ℕ ℕ → Bool) (es : List (Event ℕ ℕ ℕ)) (s : State ℕ ℕ ℕ),
      Run (Step fromString grants) start es s → HandlersHeld s := by
  intro hclaim
  obtain ⟨es, -, hup⟩ := start_reaches_activated
  obtain ⟨fs, -, hdown⟩ := UndisturbedCalls.deinitialize_reaches (fun _ _ => .default)
    (fun _ => true) activated 0 rfl ⟨rfl, by decide⟩ rfl
  have hheld := hclaim _ _ _ _ (hup.trans hdown) 7 (by decide)
  exact absurd hheld (by decide)

theorem handlers_held_iff_activated :
    ∃ (es : List (Event ℕ ℕ ℕ)) (s : State ℕ ℕ ℕ),
      Run (Step (fun _ _ => .default) fun _ => true) start es s ∧
        7 ∈ s.host.jsonHandlers ∧
        Throughout (Step (fun _ _ => .default) fun _ => true) HandlersHeld start es := by
  obtain ⟨es, hes, hup⟩ := start_reaches_activated
  refine ⟨es, _, hup, by decide, (handlers_held_iff hup).mpr ?_⟩
  intro hm
  exact hes _ hm

/-! The event stream. -/

def greets (i : I) (es : List (Event S I N)) : List (Reply (Callback N)) :=
  es.filterMap fun ev =>
    match ev with
    | .request _ j (.greet _ _ _) reply =>
      if j = i ∧ reply.code = .errorNone then some reply else none
    | _ => none

omit [DecidableEq S] [DecidableEq N] in
theorem greets_append (i : I) (es fs : List (Event S I N)) :
    greets i (es ++ fs) = greets i es ++ greets i fs := List.filterMap_append

/-- A reply whose raise called the sink once, with what it passed to everyone it called. -/
def RelayedAs (reply : Reply (Callback N)) (source : Source) : Prop :=
  (.notification, source) ∈ reply.delivered ∧ ∀ d ∈ reply.delivered, d.2 = source

omit [DecidableEq S] in
theorem serve_delivered {p p' : SamplePluginImplementation (Callback N)}
    {q : Request (Callback N)} {reply : Reply (Callback N)}
    (hs : p.serve fromString q = .ok (reply, p')) (channel : Channel) (i j : I) :
    (reply.delivered = [] ∧ greets (S := S) i [.request channel j q reply] = []) ∨
    ((∃ source, reply.delivered = p.callbacks.map fun callback => (callback, source)) ∧
      greets (S := S) i [.request channel j q reply] = if j = i then [reply] else []) := by
  cases q with
  | configure line => cases hs; exact Or.inl ⟨rfl, rfl⟩
  | echo message result => cases hs; exact Or.inl ⟨rfl, rfl⟩
  | register n => cases hs; exact Or.inl ⟨rfl, rfl⟩
  | unregister n => cases hs; exact Or.inl ⟨rfl, rfl⟩
  | greet distribution message result =>
    rcases SamplePluginImplementation.greet_cases distribution p message result with
      ⟨-, hg⟩ | ⟨-, -, hg⟩ | ⟨-, greeting, -, hg⟩ <;>
      obtain ⟨rfl, rfl⟩ := Prod.mk.inj (Except.ok.inj (hg.symm.trans hs))
    · exact Or.inl ⟨rfl, by simp [greets]⟩
    · exact Or.inl ⟨rfl, by simp [greets]⟩
    · refine Or.inr ⟨⟨_, rfl⟩, ?_⟩
      by_cases hj : j = i <;> simp [greets, hj]

omit [DecidableEq S] in
theorem request_relays {i j : I} {channel : Channel}
    {p p' : SamplePluginImplementation (Callback N)} {q : Request (Callback N)}
    {reply : Reply (Callback N)} (hp : p.Invariant)
    (hn : Callback.notification ∈ p.callbacks ↔ i = j)
    (hs : p.serve fromString q = .ok (reply, p')) :
    List.Forall₂ RelayedAs (greets (S := S) i [.request channel j q reply])
      (deliveredTo .notification reply.delivered) := by
  rcases serve_delivered (S := S) hs channel i j with ⟨hd, hg⟩ | ⟨⟨source, hd⟩, hg⟩
  · rw [hd, hg]
    exact .nil
  · rw [hd, hg]
    by_cases hij : i = j
    · have hm := hn.mpr hij
      rw [SamplePluginImplementation.deliveredTo_of_mem source hp.nodup hm, if_pos hij.symm]
      refine .cons ⟨?_, ?_⟩ .nil
      · rw [hd]
        exact List.mem_map.mpr ⟨_, hm, rfl⟩
      · intro d hmem
        rw [hd] at hmem
        obtain ⟨callback, -, rfl⟩ := List.mem_map.mp hmem
        rfl
    · rw [SamplePluginImplementation.deliveredTo_of_notMem source fun hm => hij (hn.mp hm),
        if_neg (Ne.symm hij)]
      exact .nil

theorem request_unheard {p p' : SamplePluginImplementation (Callback N)}
    {q : Request (Callback N)} {reply : Reply (Callback N)}
    (hn : Callback.notification ∉ p.callbacks)
    (hs : p.serve fromString q = .ok (reply, p')) :
    deliveredTo .notification reply.delivered = [] := by
  rcases serve_delivered (S := ℕ) hs .comRpc 0 0 with ⟨hd, -⟩ | ⟨⟨source, hd⟩, -⟩
  · rw [hd]
    rfl
  · rw [hd]
    exact SamplePluginImplementation.deliveredTo_of_notMem source hn

def Serving (i : I) (s : State S I N) : Prop :=
  s.pc = .idle ∧ s.host.plugin.samplePlugin = some i

def Withdrawn (s : State S I N) : Prop := s.pc = .idle ∧ s.host.plugin.samplePlugin = none

theorem idle_notified {s : State S I N} (hi : Invariant s) (hp : s.pc = .idle) (j : I) :
    (s.host.implementations j).Invariant ∧
      (Callback.notification ∈ (s.host.implementations j).callbacks ↔
        s.host.plugin.samplePlugin = some j) := by
  obtain ⟨e, hs, ha⟩ := hi
  rw [hp] at ha
  refine ⟨hs.implementations j, ?_⟩
  rw [hs.notified, hs.samplePlugin]
  rcases ha with rfl | ⟨service, a, i, server, -, -, rfl⟩
  · rfl
  · rfl

theorem step_serving {i : I} {s u : State S I N} {ev : Event S I N} (h : Serving i s)
    (hstep : Step fromString grants s ev u) (he : ∀ service, ev ≠ .deinitializeCalled service) :
    Serving i u := by
  obtain ⟨hp, hplugin⟩ := h
  cases hstep with
  | initializeCalled service a hp' hm =>
    rw [hm.2] at hplugin
    cases hplugin
  | deinitializeCalled service hp' hm => exact absurd rfl (he service)
  | initializing service a stmt next host hp' hst hq =>
    rw [hp] at hp'
    cases hp'
  | deinitializing service stmt next host hp' hst hq =>
    rw [hp] at hp'
    cases hp'
  | deactivated service id hr =>
    unfold State.deactivated
    split <;> exact ⟨hp, hplugin⟩
  | initializeReturned service a success hp' => exact ⟨rfl, hplugin⟩
  | deinitializeReturned service hp' => exact ⟨rfl, hplugin⟩
  | _ => exact ⟨hp, hplugin⟩

theorem step_withdrawn {s u : State S I N} {ev : Event S I N} (hi : Invariant s)
    (h : Withdrawn s) (hstep : Step fromString grants s ev u)
    (he : ∀ service a, ev ≠ .initializeCalled service a) :
    Withdrawn u ∧ u.jsonEvents = s.jsonEvents := by
  obtain ⟨hp, hplugin⟩ := h
  cases hstep with
  | initializeCalled service a hp' hm => exact absurd rfl (he service a)
  | deinitializeCalled service hp' hm => exact absurd hplugin hm.2
  | initializing service a stmt next host hp' hst hq =>
    rw [hp] at hp'
    cases hp'
  | deinitializing service stmt next host hp' hst hq =>
    rw [hp] at hp'
    cases hp'
  | deactivated service id hr =>
    unfold State.deactivated
    split <;> exact ⟨⟨hp, hplugin⟩, rfl⟩
  | initializeReturned service a success hp' => exact ⟨⟨rfl, hplugin⟩, rfl⟩
  | deinitializeReturned service hp' => exact ⟨⟨rfl, hplugin⟩, rfl⟩
  | request channel j q reply p hq hj hs =>
    have hn : Callback.notification ∉ (s.host.implementations j).callbacks := by
      rw [(idle_notified hi hp j).2, hplugin]
      simp
    refine ⟨⟨hp, hplugin⟩, ?_⟩
    change s.jsonEvents ++ deliveredTo .notification reply.delivered = s.jsonEvents
    rw [request_unheard hn hs, List.append_nil]
  | _ => exact ⟨⟨hp, hplugin⟩, rfl⟩

theorem step_relays {i : I} {s u : State S I N} {ev : Event S I N} (hi : Invariant s)
    (h : Serving i s) (hstep : Step fromString grants s ev u) :
    ∃ events, u.jsonEvents = s.jsonEvents ++ events ∧
      List.Forall₂ RelayedAs (greets i [ev]) events := by
  cases hstep with
  | request channel j q reply p hq hj hs =>
    obtain ⟨hinv, hn⟩ := idle_notified hi h.1 j
    rw [h.2, Option.some.injEq] at hn
    exact ⟨deliveredTo .notification reply.delivered, rfl, request_relays hinv hn hs⟩
  | deactivated service id hr =>
    refine ⟨[], ?_, .nil⟩
    unfold State.deactivated
    split <;> simp
  | _ => exact ⟨[], by simp, .nil⟩

theorem run_relays {i : I} {s u : State S I N} {es : List (Event S I N)} (hi : Invariant s)
    (h : Serving i s) (hr : Run (Step fromString grants) s es u)
    (he : ∀ service, Event.deinitializeCalled service ∉ es) :
    ∃ events, u.jsonEvents = s.jsonEvents ++ events ∧
      List.Forall₂ RelayedAs (greets i es) events := by
  induction hr with
  | refl => exact ⟨[], by simp, .nil⟩
  | @tail v w es ev hr hstep ih =>
    have hserving : Serving i v := Run.persists Invariant (Serving i)
      (fun ev => ∃ service, ev = Event.deinitializeCalled service)
      (fun _ _ _ hi hstep => step_preserves_invariant hi hstep)
      (fun _ _ _ _ hp hb hstep => step_serving hp hstep fun service hs => hb ⟨service, hs⟩)
      hr hi h (fun _ hm ⟨service, hs⟩ => he service (by simp [← hs, hm]))
    obtain ⟨events, hevents, hrelayed⟩ := ih fun service hm => he service (by simp [hm])
    obtain ⟨more, hmore, hrelayedMore⟩ := step_relays (run_invariant hr hi) hserving hstep
    refine ⟨events ++ more, by rw [hmore, hevents, List.append_assoc], ?_⟩
    rw [greets_append]
    exact List.rel_append hrelayed hrelayedMore

theorem run_withdrawn {s u : State S I N} {es : List (Event S I N)} (hi : Invariant s)
    (h : Withdrawn s) (hr : Run (Step fromString grants) s es u)
    (he : ∀ service a, Event.initializeCalled service a ∉ es) :
    u.jsonEvents = s.jsonEvents := by
  have hend : Withdrawn u ∧ u.jsonEvents = s.jsonEvents :=
    Run.persists Invariant (fun u => Withdrawn u ∧ u.jsonEvents = s.jsonEvents)
      (fun ev => ∃ service a, ev = Event.initializeCalled service a)
      (fun _ _ _ hi hstep => step_preserves_invariant hi hstep)
      (fun _ _ _ hi hp hb hstep => by
        obtain ⟨hw, hev⟩ := step_withdrawn hi hp.1 hstep fun service a hs => hb ⟨service, a, hs⟩
        exact ⟨hw, hev.trans hp.2⟩)
      hr hi ⟨h, rfl⟩ (fun _ hm ⟨service, a, hs⟩ => he service a (hs ▸ hm))
  exact hend.2

/-- From the successful return of Initialize to the call of Deinitialize, whatever else
happens, the JSON-RPC events are those of the successful Greets, one each, in their order
and with the Source that every callback got; after Deinitialize has returned there are none
until the next Initialize. -/
theorem json_events_follow_greets {es : List (Event S I N)} {s₀ s : State S I N}
    (h : Run (Step fromString grants) start es s₀)
    (hleave : Step fromString grants s₀ (.initializeReturned "") s) :
    ∃ i, s.host.plugin.samplePlugin = some i ∧
      (∀ fs u, Run (Step fromString grants) s fs u →
        (∀ service, Event.deinitializeCalled service ∉ fs) →
        ∃ events, u.jsonEvents = s.jsonEvents ++ events ∧
          List.Forall₂ RelayedAs (greets i fs) events) ∧
      (∀ fs u u', Run (Step fromString grants) s fs u →
        Step fromString grants u .deinitializeReturned u' →
        ∀ gs w, Run (Step fromString grants) u' gs w →
          (∀ service a, Event.initializeCalled service a ∉ gs) → w.jsonEvents = u'.jsonEvents) := by
  have hi₀ := run_invariant h start_invariant
  have hi := step_preserves_invariant hi₀ hleave
  have hserving : ∃ i, Serving i s := by
    obtain ⟨e, hs, ha⟩ := hi₀
    cases hleave with
    | initializeReturned service a success hp =>
      rw [hp] at ha
      obtain ⟨-, ⟨hmessage, -⟩ | ⟨i, server, -, rfl⟩⟩ := ha
      · exact absurd hmessage (by decide)
      · exact ⟨i, rfl, hs.samplePlugin⟩
  obtain ⟨i, hserving⟩ := hserving
  refine ⟨i, hserving.2, fun fs u hr he => run_relays hi hserving hr he, ?_⟩
  intro fs u u' hr hstep gs w hw he
  have hiu := run_invariant hr hi
  have hdown : Withdrawn u' := by
    obtain ⟨e, hs, ha⟩ := hiu
    cases hstep with
    | deinitializeReturned service hp =>
      rw [hp] at ha
      obtain ⟨a, j, -, -, rfl⟩ := ha
      exact ⟨rfl, hs.samplePlugin⟩
  exact run_withdrawn (step_preserves_invariant hiu hstep) hdown hw he

/-- One Greet after Initialize, and the event it raises. -/
theorem json_events_follow_greets_once :
    ∃ (u : State ℕ ℕ ℕ) (events : List Source), u.jsonEvents = events ∧
      List.Forall₂ RelayedAs [⟨.errorNone, "Hello, World",
        [((.notification : Callback ℕ), .excitingThingHappened)]⟩] events := by
  obtain ⟨es, -, hrun⟩ := UndisturbedCalls.initialize_reaches
    (fun _ _ => ⟨⟨true, false, ["Hello"]⟩, false⟩) (fun _ => true) (start : State ℕ ℕ ℕ) 0
    ⟨some 7, none, "", false⟩ rfl ⟨rfl, rfl⟩ rfl
  obtain ⟨i, hi, hevents, -⟩ := json_events_follow_greets hrun (.initializeReturned _ 0 _ "" rfl)
  obtain rfl : 7 = i := Option.some.inj hi
  obtain ⟨events, he, hr⟩ := hevents _ _ (Run.single (.request _ .comRpc 7
    (.greet (.favouring 0) "World" "") _ _ trivial (by simp) rfl)) (by simp)
  exact ⟨_, events, he, hr⟩

end JsonRpcBridge
