import Mathlib.Data.List.Induction
import SampleThunderPlugin.PluginLifecycle

/-! Which lost connection the plugin takes for its own. Root writes a connection id through
its reference parameter, Deinitialize resets it, and Deactivated compares a lost connection
with whatever is there. What the calls say about the ids is read off the trace. -/
namespace LostConnections

open LabelledRuns PluginLifecycle
open SamplePlugin (Host)

/-- The ids a trace accounts for: what the Root of the current attempt has written, and what
the Root of an attempt wrote that has returned an error since, if no Root has written another
id and no Deinitialize has reset it. -/
structure Connections (I : Type) where
  attempt : Option (Answers I)
  written : Option ℕ
  leftOver : Option ℕ

variable {S I N : Type}

namespace Connections

def initial : Connections I := ⟨none, none, none⟩

def next (c : Connections I) : Event S I N → Connections I
  | .initializeCalled _ a => { c with attempt := some a, written := none }
  | .initializing .root =>
    match c.attempt.bind Answers.connectionId with
    | some id => { c with written := some id, leftOver := none }
    | none => c
  | .initializeReturned success =>
    if success = "" then c else { c with written := none, leftOver := c.written.or c.leftOver }
  | .deinitializing .clearConnectionId => { c with written := none, leftOver := none }
  | _ => c

end Connections

def connections (es : List (Event S I N)) : Connections I := es.foldl Connections.next .initial

@[simp] theorem connections_snoc (es : List (Event S I N)) (e : Event S I N) :
    connections (es ++ [e]) = (connections es).next e := by simp [connections]

def issued (es : List (Event S I N)) : List ℕ :=
  es.filterMap fun e =>
    match e with
    | .initializeCalled _ a => a.connectionId
    | _ => none

/-- No connection is lost whose id is left over from a failed attempt. -/
def NoneLeftOver (es : List (Event S I N)) : Prop :=
  ∀ fs gs id, es = fs ++ .deactivated id :: gs → (connections fs).leftOver ≠ some id

theorem leftOver_of_successful {es : List (Event S I N)}
    (hr : ∀ success, Event.initializeReturned success ∈ es → success = "") :
    (connections es).leftOver = none := by
  induction es using List.reverseRecOn with
  | nil => rfl
  | append_singleton es e ih =>
    have hleft := ih fun success hm => hr success (List.mem_append_left _ hm)
    rw [connections_snoc]
    cases e with
    | initializing stmt =>
      cases stmt with
      | root => cases hid : (connections es).attempt.bind Answers.connectionId <;>
          simp [Connections.next, hid, hleft]
      | _ => exact hleft
    | initializeReturned success => simp [Connections.next, hr success (by simp), hleft]
    | deinitializing stmt =>
      cases stmt with
      | clearConnectionId => rfl
      | _ => exact hleft
    | _ => exact hleft

theorem noneLeftOver_of_successful {es : List (Event S I N)}
    (hr : ∀ success, Event.initializeReturned success ∈ es → success = "") :
    NoneLeftOver es := by
  rintro fs gs id rfl hleft
  rw [leftOver_of_successful fun success hm => hr success (List.mem_append_left _ hm)] at hleft
  cases hleft

section Steps
variable [DecidableEq S] [DecidableEq I] [DecidableEq N]
variable (fromString : SamplePluginConfiguration → String → SamplePluginConfiguration)
variable (grants : Reference S I → Bool)

/-- Deactivated submits its job only for the id that the Root of the current activation wrote. -/
def SubmitsOwn (es : List (Event S I N)) : Prop :=
  ∀ fs gs id s u, es = fs ++ .deactivated id :: gs → Run (Step fromString grants) start fs s →
    Step fromString grants s (.deactivated id) u → u.jobs ≠ s.jobs →
    (connections fs).written = some id

end Steps

def BeforeRoot : InitializeAt → Prop
  | .setService | .registerSink | .root => True
  | _ => False

def AfterReset : DeinitializeAt → Prop
  | .clearService | .clearSamplePlugin | .done => True
  | _ => False

def Rootless : InitializeAt → Prop
  | .unregisterSink | .clearService => True
  | .done success => success ≠ ""
  | stmt => BeforeRoot stmt

/-- What the trace says at each place of the two calls. -/
def PcAgrees (c : Connections I) (p : SamplePlugin S I) : Pc S I → Prop
  | .idle => p.samplePlugin = none → c.written = none
  | .initializing _ a stmt => c.attempt = some a ∧ (BeforeRoot stmt → c.written = none) ∧
      (¬ Rootless stmt → p.samplePlugin ≠ none)
  | .deinitializing _ stmt => AfterReset stmt → c.written = none

structure Agrees (c : Connections I) (s : State S I N) : Prop where
  connectionId : s.host.plugin.connectionId = (c.written.or c.leftOver).getD 0
  overwritten : c.written ≠ none → c.leftOver = none
  pc : PcAgrees c s.host.plugin s.pc

theorem start_agrees : Agrees .initial (start : State S I N) :=
  ⟨rfl, fun _ => rfl, fun _ => rfl⟩

section Preservation
variable [DecidableEq S] [DecidableEq I] [DecidableEq N]
variable {fromString : SamplePluginConfiguration → String → SamplePluginConfiguration}
variable {grants : Reference S I → Bool}

theorem initializeStep_members {service : S} {a : Answers I} {stmt next : InitializeAt}
    {h h' : Host S I N} (hstep : InitializeStep fromString service a stmt h next h')
    (hroot : stmt ≠ .root) :
    h'.plugin.connectionId = h.plugin.connectionId ∧
      h'.plugin.samplePlugin = h.plugin.samplePlugin ∧ (BeforeRoot next → BeforeRoot stmt) ∧
      (Rootless stmt → Rootless next) := by
  cases hstep with
  | rootFound _ i hr => exact absurd rfl hroot
  | rootNull _ hr => exact absurd rfl hroot
  | announce _ k => simp [BeforeRoot, Rootless]
  | deleteServer => simp [BeforeRoot, Rootless]
  | _ => exact ⟨rfl, rfl, by simp [BeforeRoot], by simp [BeforeRoot, Rootless]⟩

theorem rootStep_members {service : S} {a : Answers I} {next : InitializeAt} {h h' : Host S I N}
    (hstep : InitializeStep fromString service a .root h next h') :
    h'.plugin.connectionId = a.connectionId.getD h.plugin.connectionId ∧ ¬ BeforeRoot next ∧
      (¬ Rootless next → h'.plugin.samplePlugin ≠ none) := by
  cases hstep with
  | rootFound _ i hr => exact ⟨rfl, id, fun _ => by simp [Host.root, hr]⟩
  | rootNull _ hr => exact ⟨rfl, id, fun hn => absurd trivial hn⟩

theorem initializing_agrees {service : S} {a : Answers I} {stmt next : InitializeAt}
    {c : Connections I} {s : State S I N} {h' : Host S I N} (h : Agrees c s)
    (hp : s.pc = .initializing service a stmt)
    (hstep : InitializeStep fromString service a stmt s.host next h') :
    Agrees (c.next (.initializing stmt : Event S I N))
      { s with host := h', pc := .initializing service a next } := by
  obtain ⟨hid, hover, hpc⟩ := h
  rw [hp] at hpc
  obtain ⟨hattempt, hbefore, hafter⟩ := hpc
  by_cases hroot : stmt = .root
  · subst hroot
    obtain ⟨hid', hnext, hplugin'⟩ := rootStep_members hstep
    have hnone := hbefore trivial
    cases hw : a.connectionId with
    | none =>
      have hc : c.next (.initializing .root : Event S I N) = c := by
        simp [Connections.next, hattempt, hw]
      rw [hc]
      refine ⟨?_, hover, hattempt, fun hb => absurd hb hnext, hplugin'⟩
      rw [hid', hw]
      exact hid
    | some id =>
      have hc : c.next (.initializing .root : Event S I N) =
          { c with written := some id, leftOver := none } := by
        simp [Connections.next, hattempt, hw]
      rw [hc]
      refine ⟨?_, fun _ => rfl, hattempt, fun hb => absurd hb hnext, hplugin'⟩
      rw [hid', hw]
      rfl
  · obtain ⟨hid', hplugin', hbefore', hrootless⟩ := initializeStep_members hstep hroot
    have hc : c.next (.initializing stmt : Event S I N) = c := by
      cases stmt with
      | root => exact absurd rfl hroot
      | _ => rfl
    rw [hc]
    refine ⟨hid'.trans hid, hover, hattempt, fun hb => hbefore (hbefore' hb), fun hb => ?_⟩
    rw [hplugin']
    exact hafter fun hn => hb (hrootless hn)

theorem deinitializing_agrees {service : S} {stmt next : DeinitializeAt}
    {c : Connections I} {s : State S I N} {h' : Host S I N} (h : Agrees c s)
    (hp : s.pc = .deinitializing service stmt) (hstep : DeinitializeStep stmt s.host next h') :
    Agrees (c.next (.deinitializing stmt : Event S I N))
      { s with host := h', pc := .deinitializing service next } := by
  obtain ⟨hid, hover, hpc⟩ := h
  rw [hp] at hpc
  cases hstep with
  | clearConnectionId => exact ⟨rfl, fun hn => absurd rfl hn, fun _ => rfl⟩
  | clearService => exact ⟨hid, hover, fun _ => hpc trivial⟩
  | clearSamplePlugin => exact ⟨hid, hover, fun _ => hpc trivial⟩
  | deleteServer =>
    refine ⟨?_, hover, fun ha => ha.elim⟩
    rw [SamplePlugin.deleteServer_plugin]
    exact hid
  | _ => exact ⟨hid, hover, fun ha => ha.elim⟩

theorem step_agrees {c : Connections I} {s u : State S I N} {e : Event S I N} (h : Agrees c s)
    (hstep : Step fromString grants s e u) : Agrees (c.next e) u := by
  cases hstep with
  | initializeCalled service a hp hm =>
    obtain ⟨hid, hover, hpc⟩ := h
    rw [hp] at hpc
    -- the entry ASSERT on _samplePlugin: no attempt before this one is still up
    have hnone := hpc hm.2
    refine ⟨?_, fun hn => absurd rfl hn, rfl, fun _ => rfl, fun hb => absurd trivial hb⟩
    rw [hnone] at hid
    exact hid
  | initializing service a stmt next host hp hst hq => exact initializing_agrees h hp hst
  | initializeReturned service a success hp =>
    obtain ⟨hid, hover, hpc⟩ := h
    rw [hp] at hpc
    obtain ⟨-, -, hplugin⟩ := hpc
    by_cases hs : success = ""
    · have hc : c.next (.initializeReturned success : Event S I N) = c := if_pos hs
      rw [hc]
      exact ⟨hid, hover, fun hn => absurd hn (hplugin fun hne => hne hs)⟩
    · have hc : c.next (.initializeReturned success : Event S I N) =
          { c with written := none, leftOver := c.written.or c.leftOver } := if_neg hs
      rw [hc]
      exact ⟨hid, fun hn => absurd rfl hn, fun _ => rfl⟩
  | deinitializeCalled service hp hm => exact ⟨h.connectionId, h.overwritten, fun ha => ha.elim⟩
  | deinitializing service stmt next host hp hst hq => exact deinitializing_agrees h hp hst
  | deinitializeReturned service hp =>
    have hpc := h.pc
    rw [hp] at hpc
    exact ⟨h.connectionId, h.overwritten, fun _ => hpc trivial⟩
  | deactivated service id hr =>
    unfold State.deactivated
    split <;> exact ⟨h.connectionId, h.overwritten, h.pc⟩
  | acquire r v hv => exact ⟨h.connectionId, h.overwritten, h.pc⟩
  | acquired r v hv hr => exact ⟨h.connectionId, h.overwritten, h.pc⟩
  | request channel i q reply p hq hj hs => exact ⟨h.connectionId, h.overwritten, h.pc⟩
  | constructed i hi => exact ⟨h.connectionId, h.overwritten, h.pc⟩

theorem run_agrees {s : State S I N} {es : List (Event S I N)}
    (h : Run (Step fromString grants) start es s) : Agrees (connections es) s := by
  induction h with
  | refl => exact start_agrees
  | tail _ hstep ih =>
    rw [connections_snoc]
    exact step_agrees ih hstep

theorem deactivated_jobs {s u : State S I N} {id : ℕ}
    (hstep : Step fromString grants s (.deactivated id) u) :
    u.jobs ≠ s.jobs ↔ id = s.host.plugin.connectionId := by
  cases hstep with
  | deactivated service id hr =>
    unfold State.deactivated
    split
    · next hid => simp [hid]
    · next hid => simp [hid]

/-- Every job of a run was for the present activation's connection exactly if no connection
was lost whose id an attempt had left behind that returned an error. -/
theorem deactivated_submits_own_iff {es : List (Event S I N)} {s : State S I N}
    (h : Run (Step fromString grants) start es s)
    (hids : ∀ id, Event.deactivated id ∈ es → id ≠ 0) :
    SubmitsOwn fromString grants es ↔ NoneLeftOver es := by
  constructor
  · intro hown fs gs id hes hleft
    subst hes
    obtain ⟨v, hv, hrest⟩ := h.split
    obtain ⟨w, hw, -⟩ := hrest.cons_inv
    obtain ⟨hid, hover, -⟩ := run_agrees hv
    have hnone : (connections fs).written = none := by
      by_contra hn
      rw [hover hn] at hleft
      cases hleft
    have hsubmits : w.jobs ≠ v.jobs := by
      rw [deactivated_jobs hw, hid, hnone, hleft]
      rfl
    rw [hown fs gs id v w rfl hv hw hsubmits] at hnone
    cases hnone
  · intro hnone fs gs id v w hes hv hw hsubmits
    obtain ⟨hid, -, -⟩ := run_agrees hv
    rw [deactivated_jobs hw] at hsubmits
    rw [← hsubmits] at hid
    cases hwritten : (connections fs).written with
    | some j =>
      rw [hwritten] at hid
      exact congrArg some hid.symm
    | none =>
      rw [hwritten] at hid
      cases hleft : (connections fs).leftOver with
      | some j =>
        rw [hleft] at hid
        exact absurd (hleft.trans (congrArg some hid.symm)) (hnone fs gs id hes)
      | none =>
        rw [hleft] at hid
        exact absurd hid (hids id (by simp [hes]))

end Preservation

/-- Root returns null and has written 5; the connection is lost during the next attempt. -/
theorem failed_attempt_submits_later :
    ¬ ∀ (fromString : SamplePluginConfiguration → String → SamplePluginConfiguration)
        (grants : Reference ℕ ℕ → Bool) (es : List (Event ℕ ℕ ℕ)) (s : State ℕ ℕ ℕ),
      Run (Step fromString grants) start es s → (issued es).Nodup → 0 ∉ issued es →
      (∀ id, Event.deactivated id ∈ es → id ≠ 0) → SubmitsOwn fromString grants es := by
  intro hclaim
  have h₁ : Run (Step (fun _ _ => .default) fun _ => true) (start : State ℕ ℕ ℕ) _ _ :=
    Run.single (.initializeCalled _ 0 ⟨none, some 5, "", false⟩ rfl ⟨rfl, rfl⟩)
  have h₂ := h₁.tail (.initializing _ 0 _ .setService _ _ rfl (.setService _) (by simp))
  have h₃ := h₂.tail (.initializing _ 0 _ .registerSink _ _ rfl (.registerSink _ 0 rfl) (by simp))
  have h₄ := h₃.tail (.initializing _ 0 _ .root _ _ rfl (.rootNull _ rfl) (by simp))
  have h₅ := h₄.tail (.initializing _ 0 _ .unregisterSink _ _ rfl (.unregisterSink _ 0 rfl)
    (by simp))
  have h₆ := h₅.tail (.initializing _ 0 _ .clearService _ _ rfl (.clearService _) (by simp))
  have h₇ := h₆.tail (.initializeReturned _ 0 _ _ rfl)
  have h₈ := h₇.tail (.initializeCalled _ 0 ⟨some 7, some 6, "", false⟩ rfl ⟨rfl, rfl⟩)
  have h₉ := h₈.tail (.initializing _ 0 _ .setService _ _ rfl (.setService _) (by simp))
  have h₁₀ := h₉.tail (.initializing _ 0 _ .registerSink _ _ rfl (.registerSink _ 0 rfl)
    (by simp))
  have h₁₁ := h₁₀.tail (.deactivated _ 0 5 (by decide))
  have hown := hclaim _ _ _ _ h₁₁ (by decide) (by decide) (by simp)
  exact absurd (hown _ [] 5 _ _ rfl h₁₀ (.deactivated _ 0 5 (by decide)) (by decide)) (by decide)

/-- The connection of a running activation is lost. -/
theorem deactivated_submits_own_iff_running :
    ∃ (es : List (Event ℕ ℕ ℕ)) (s : State ℕ ℕ ℕ),
      Run (Step (fun _ _ => .default) fun _ => true) start es s ∧ s.jobs = [some 0] ∧
        SubmitsOwn (fun _ _ => .default) (fun _ => true) es := by
  have h₁ : Run (Step (fun _ _ => .default) fun _ => true) (start : State ℕ ℕ ℕ) _ _ :=
    Run.single (.initializeCalled _ 0 ⟨some 7, some 5, "", false⟩ rfl ⟨rfl, rfl⟩)
  have h₂ := h₁.tail (.initializing _ 0 _ .setService _ _ rfl (.setService _) (by simp))
  have h₃ := h₂.tail (.initializing _ 0 _ .registerSink _ _ rfl (.registerSink _ 0 rfl) (by simp))
  have h₄ := h₃.tail (.initializing _ 0 _ .root _ _ rfl (.rootFound _ 7 rfl) (by simp))
  have h₅ := h₄.tail (.deactivated _ 0 5 (by decide))
  refine ⟨_, _, h₅, rfl, (deactivated_submits_own_iff h₅ (by simp)).mpr ?_⟩
  apply noneLeftOver_of_successful
  simp

end LostConnections
