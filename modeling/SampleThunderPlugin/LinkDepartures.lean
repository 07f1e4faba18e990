import SampleThunderPlugin.RunSimulation
import SampleThunderPlugin.SubscriptionAgreement

/-! The links of SubscriptionAgreement with their destructors. A link that is destroyed while
its pointer is set, and whose Close does not deliver a last Operational(false), leaves its
notification handler in the plugin's list; the handler itself goes with the link. -/
namespace LinkDepartures

open LabelledRuns
open SamplePluginImplementation (deliveredTo)

structure State (L : Type) where
  links : SubscriptionAgreement.State L
  gone : List L

inductive Event (L : Type) where
  | event (e : SubscriptionAgreement.Event L) (code : ErrorCode)
  | destroy (l : L) (closeDelivers : Bool)

def owner {L : Type} : SubscriptionAgreement.Event L → L
  | .operational l _ | .greet l _ _ _ | .echo l _ _ => l

variable {L : Type}

def State.pointer (s : State L) (l : L) : Option ℕ := (s.links.link l).samplePluginInterface

def abandons (s : State L) : Event L → List L
  | .destroy l false => if s.pointer l = none then [] else [l]
  | _ => []

def start (greetings : List String) : State L := ⟨SubscriptionAgreement.start greetings, []⟩

variable [DecidableEq L]

/-- Nothing happens to a link that is gone. -/
inductive Step : State L → Event L → State L → Prop where
  | event (s e code u) (hl : owner e ∉ s.gone)
      (hs : SubscriptionAgreement.step s.links e = .ok (code, u)) :
      Step s (.event e code) ⟨u, s.gone⟩
  | destroy (s l closeDelivers u) (hl : l ∉ s.gone)
      (hs : SubscriptionAgreement.performAll (.favouring 0) l s.links
        ((s.links.link l).destroy closeDelivers).1 = .ok u) :
      Step s (.destroy l closeDelivers)
        ⟨u.setLink l ((s.links.link l).destroy closeDelivers).2, l :: s.gone⟩

section Outcomes
variable {s u : SubscriptionAgreement.State L}

/-- The destructor's own cleanup gives the reference back and leaves the registration. -/
def abandon (s : SubscriptionAgreement.State L) (l : L) (r : ℕ) : SubscriptionAgreement.State L :=
  { s with
    held := Function.update s.held l ((s.held l).release r)
    link := Function.update s.link l ⟨none⟩ }

theorem destroy_outcome {l : L} {closeDelivers : Bool}
    (h : SubscriptionAgreement.performAll (.favouring 0) l s
      ((s.link l).destroy closeDelivers).1 = .ok u) :
    ((s.link l).samplePluginInterface = none ∧
      u.setLink l ((s.link l).destroy closeDelivers).2 = s) ∨
    ∃ r, (s.link l).samplePluginInterface = some r ∧
      u.setLink l ((s.link l).destroy closeDelivers).2 =
        if closeDelivers then s.disconnect l r else abandon s l r := by
  cases hl : (s.link l).samplePluginInterface with
  | none =>
    rw [SamplePluginLink.destroy_down hl] at h ⊢
    cases h
    exact Or.inl ⟨rfl, by simp [SubscriptionAgreement.State.setLink]⟩
  | some r =>
    refine Or.inr ⟨r, rfl, ?_⟩
    cases closeDelivers with
    | true =>
      rw [SamplePluginLink.destroy_told hl] at h ⊢
      cases h
      rfl
    | false =>
      rw [SamplePluginLink.destroy_untold hl] at h ⊢
      cases h
      rfl

end Outcomes

structure Invariant (s : State L) (abandoned : List L) : Prop where
  links : SubscriptionAgreement.Invariant s.links abandoned
  gone : ∀ l ∈ s.gone, s.pointer l = none
  abandoned_gone : ∀ l ∈ abandoned, l ∈ s.gone
  nodup : abandoned.Nodup

theorem start_invariant (greetings : List String) : Invariant (start greetings : State L) [] where
  links := SubscriptionAgreement.start_invariant greetings
  gone := by simp [start]
  abandoned_gone := by simp
  nodup := List.nodup_nil

section Preserved
variable {s : State L} {abandoned : List L} {l : L} (h : Invariant s abandoned)
include h

theorem event_gone {e : SubscriptionAgreement.Event L} {code : ErrorCode}
    {u : SubscriptionAgreement.State L} (hl : owner e ∉ s.gone)
    (ho : SubscriptionAgreement.Outcome s.links e code u) (m : L) (hm : m ∈ s.gone) :
    (u.link m).samplePluginInterface = none := by
  have hdown : (s.links.link m).samplePluginInterface = none := h.gone m hm
  have hne : m ≠ owner e := fun hme => hl (hme ▸ hm)
  cases ho with
  | connected l hp => simpa [SubscriptionAgreement.State.connect, show m ≠ l from hne] using hdown
  | disconnected l r hp =>
    simpa [SubscriptionAgreement.State.disconnect, show m ≠ l from hne] using hdown
  | unchanged _ _ hc => exact hdown
  | greeted l distribution message result reply plugin hg => exact hdown

theorem not_abandoned (hl : l ∉ s.gone) : l ∉ abandoned := fun ha => hl (h.abandoned_gone l ha)

theorem abandon_invariant {r : ℕ} (hl : l ∉ s.gone) (hp : s.pointer l = some r) :
    SubscriptionAgreement.Invariant (abandon s.links l r) (abandoned ++ [l]) := by
  refine ⟨h.links.plugin, ?_, ?_⟩
  · intro m
    have hsub := h.links.subscribed m
    simp only [abandon, List.mem_append, List.mem_singleton]
    rcases eq_or_ne m l with rfl | hm
    · have hin := hsub.mpr (Or.inl fun hn => by cases hp.symm.trans hn)
      simpa using hin
    · simpa [hm] using hsub
  · have hone : (s.links.held l).OneOn (some r) := hp ▸ h.links.held l
    exact SubscriptionAgreement.held_update h.links hone.release

theorem destroyed_invariant {links : SubscriptionAgreement.State L} {left : List L}
    (hl : l ∉ s.gone) (hlinks : SubscriptionAgreement.Invariant links (abandoned ++ left))
    (hleft : left = [] ∨ left = [l]) (hdown : (links.link l).samplePluginInterface = none)
    (hother : ∀ m, m ≠ l → links.link m = s.links.link m) :
    Invariant ⟨links, l :: s.gone⟩ (abandoned ++ left) := by
  refine ⟨hlinks, ?_, ?_, ?_⟩
  · intro m hm
    rcases eq_or_ne m l with rfl | hne
    · exact hdown
    · have hgone := h.gone m ((List.mem_cons.mp hm).resolve_left hne)
      simpa only [State.pointer, hother m hne] using hgone
  · intro m hm
    rcases List.mem_append.mp hm with ha | ha
    · exact List.mem_cons_of_mem l (h.abandoned_gone m ha)
    · rcases hleft with rfl | rfl
      · cases ha
      · rw [List.mem_singleton.mp ha]
        exact List.mem_cons_self
  · rcases hleft with rfl | rfl
    · simpa using h.nodup
    · rw [List.nodup_append]
      refine ⟨h.nodup, List.nodup_singleton l, ?_⟩
      intro m hm k hk hmk
      rw [List.mem_singleton.mp hk] at hmk
      exact not_abandoned h hl (hmk ▸ hm)

end Preserved

theorem step_preserves_invariant {s u : State L} {e : Event L} {abandoned : List L}
    (h : Invariant s abandoned) (hstep : Step s e u) : Invariant u (abandoned ++ abandons s e) := by
  cases hstep with
  | event e code u hl hs =>
    simp only [abandons, List.append_nil]
    have ho := SubscriptionAgreement.outcome_of_step hs
    refine ⟨SubscriptionAgreement.outcome_invariant h.links ho ?_, event_gone h hl ho,
      h.abandoned_gone, h.nodup⟩
    rintro l rfl
    exact not_abandoned h hl
  | destroy l closeDelivers u hl hs =>
    rcases destroy_outcome hs with ⟨hp, hu⟩ | ⟨r, hp, hu⟩
    · rw [hu]
      have hnone : abandons s (.destroy l closeDelivers) = [] := by
        cases closeDelivers
        · simp [abandons, State.pointer, hp]
        · rfl
      rw [hnone]
      exact destroyed_invariant h hl (by simpa using h.links) (Or.inl rfl) hp fun _ _ => rfl
    · rw [hu]
      cases closeDelivers with
      | true =>
        have hdisconnect := SubscriptionAgreement.disconnect_invariant h.links hp
          (not_abandoned h hl)
        refine destroyed_invariant h hl (by simpa [abandons] using hdisconnect) (Or.inl rfl) ?_ ?_
        · simp [SubscriptionAgreement.State.disconnect]
        · intro m hm
          simp [SubscriptionAgreement.State.disconnect, hm]
      | false =>
        have hp' : s.pointer l ≠ none := by simp [State.pointer, hp]
        simp only [abandons, if_neg hp', Bool.false_eq_true, if_false]
        refine destroyed_invariant h hl (abandon_invariant h hl hp) (Or.inr rfl) ?_ ?_
        · simp [abandon]
        · intro m hm
          simp [abandon, hm]

theorem run_invariant {s u : State L} {es : List (Event L)} {ls abandoned : List L}
    (h : Recorded Step abandons s es ls u) (hs : Invariant s abandoned) :
    Invariant u (abandoned ++ ls) := by
  induction h with
  | refl => simpa using hs
  | tail _ hv ih =>
    rw [← List.append_assoc]
    exact step_preserves_invariant ih hv

theorem step_heard {s u : State L} {e : SubscriptionAgreement.Event L} {code : ErrorCode}
    {abandoned : List L} (h : Invariant s abandoned) (hstep : Step s (.event e code) u) (m : L) :
    (u.links.received m).length = (s.links.received m).length +
      if e.IsGreet ∧ code = .errorNone ∧ (s.pointer m ≠ none ∨ m ∈ abandoned) then 1 else 0 := by
  cases hstep with
  | event e code u hl hs =>
    exact SubscriptionAgreement.outcome_heard h.links (SubscriptionAgreement.outcome_of_step hs) m

/-- With links coming and going in any order: the plugin's list holds, once each, the
handlers of the links that are up and of those destroyed while up whose Close delivered no
last Operational(false), and no others; every link holds the one reference it points to, so a
destroyed one holds none; and each successful Greet is heard by the handlers left behind, of
links that are gone, exactly as by those of the links that are up. -/
theorem departed_links_stay_subscribed (greetings : List String) {es : List (Event L)}
    {abandoned : List L} {s : State L}
    (h : Recorded Step abandons (start greetings) es abandoned s) :
    s.links.plugin.callbacks.Nodup ∧ abandoned.Nodup ∧ (∀ l ∈ abandoned, l ∈ s.gone) ∧
    (∀ l, l ∈ s.links.plugin.callbacks ↔ s.pointer l ≠ none ∨ l ∈ abandoned) ∧
    (∀ l r, (s.links.held l).balance r = if s.pointer l = some r then 1 else 0) ∧
    (∀ l ∈ s.gone, s.pointer l = none) ∧
    (∀ e code u l, Step s (.event e code) u → (u.links.received l).length =
      (s.links.received l).length + if e.IsGreet ∧ code = .errorNone ∧
        (s.pointer l ≠ none ∨ l ∈ abandoned) then 1 else 0) := by
  have hi : Invariant s abandoned := by
    simpa using run_invariant h (start_invariant greetings)
  exact ⟨hi.links.plugin.nodup, hi.nodup, hi.abandoned_gone, hi.links.subscribed, hi.links.held,
    hi.gone,
    fun e code u l hstep => step_heard hi hstep l⟩

/-- Link 0 is destroyed while up and untold; when link 1 greets, its handler is called. -/
theorem departed_links_stay_subscribed_called :
    ∃ s u : State ℕ, s.gone = [0] ∧
      Step s (.event (.greet 1 (.favouring 0) "World" "") .errorNone) u ∧
      (u.links.received 0).length = (s.links.received 0).length + 1 := by
  have h₀ : Recorded Step abandons (start (L := ℕ) ["Hello"]) [] [] _ := .refl _
  have h₁ := h₀.tail (.event _ (.operational 0 true) _ _ List.not_mem_nil
    (SubscriptionAgreement.step_up rfl))
  have h₂ := h₁.tail (.event _ (.operational 1 true) _ _ List.not_mem_nil
    (SubscriptionAgreement.step_up rfl))
  have h₃ := h₂.tail (.destroy _ 0 false _ List.not_mem_nil rfl)
  obtain ⟨es, s, h, hgone, hup, delivered, p, hgreet⟩ : ∃ es s,
      Recorded Step abandons (start (L := ℕ) ["Hello"]) es [0] s ∧ s.gone = [0] ∧
      s.pointer 1 = some 1 ∧ ∃ delivered p, s.links.plugin.greet (.favouring 0) "World" "" =
        .ok (⟨.errorNone, "Hello, World", delivered⟩, p) :=
    ⟨_, _, h₃, rfl, rfl, _, _, rfl⟩
  have hg : Step s (.event (.greet 1 (.favouring 0) "World" "") .errorNone) _ :=
    .event s _ _ _ (by simp [owner, hgone]) (SubscriptionAgreement.step_forwarded hup hgreet)
  have hheard := (departed_links_stay_subscribed ["Hello"] h).2.2.2.2.2.2 _ _ _ 0 hg
  rw [if_pos ⟨rfl, rfl, Or.inr List.mem_cons_self⟩] at hheard
  exact ⟨s, _, hgone, hg, hheard⟩

end LinkDepartures
