import SampleThunderPlugin.RunSimulation
import Mathlib.Logic.Function.Basic

/-! Linearizable histories of an object that many threads call. Between its call and its
answer each operation takes effect at one instant, and the effects in their order are a run
of the object served one operation at a time. Nothing here knows a program. -/
namespace Linearization

open LabelledRuns

inductive Mark (τ Op Ret : Type*) where
  | call (t : τ) (op : Op)
  | effect (t : τ) (op : Op) (ret : Ret)
  | answer (t : τ) (ret : Ret)

inductive Stage (Op Ret : Type*) where
  | idle
  | called (op : Op)
  | done (op : Op) (ret : Ret)

variable {τ Op Ret α : Type*}

def Mark.thread : Mark τ Op Ret → τ
  | .call t _ | .effect t _ _ | .answer t _ => t

def effects (ms : List (Mark τ Op Ret)) : List (Op × Ret) :=
  ms.filterMap fun m =>
    match m with
    | .effect _ op ret => some (op, ret)
    | _ => none

theorem effects_append (ms ns : List (Mark τ Op Ret)) :
    effects (ms ++ ns) = effects ms ++ effects ns := List.filterMap_append

structure Atomic (α τ Op Ret : Type*) where
  object : α
  stage : τ → Stage Op Ret

/-- Calls and answers are a thread's own business; only an effect touches the object. -/
inductive AtomicStep [DecidableEq τ] (serves : α → Op × Ret → α → Prop) :
    Atomic α τ Op Ret → Mark τ Op Ret → Atomic α τ Op Ret → Prop where
  | call (s t op) (h : s.stage t = .idle) :
      AtomicStep serves s (.call t op) ⟨s.object, Function.update s.stage t (.called op)⟩
  | effect (s t op ret b) (h : s.stage t = .called op) (hb : serves s.object (op, ret) b) :
      AtomicStep serves s (.effect t op ret) ⟨b, Function.update s.stage t (.done op ret)⟩
  | answer (s t op ret) (h : s.stage t = .done op ret) :
      AtomicStep serves s (.answer t ret) ⟨s.object, Function.update s.stage t .idle⟩

def fresh (a : α) : Atomic α τ Op Ret := ⟨a, fun _ => .idle⟩

/-- What a thread's own marks say, newest last, about the stage it is in. -/
def StageFollows (ms : List (Mark τ Op Ret)) (t : τ) : Stage Op Ret → Prop
  | .idle => True
  | .called op => ∃ as bs, ms = as ++ .call t op :: bs ∧ ∀ m ∈ bs, m.thread ≠ t
  | .done op ret => ∃ as bs cs, ms = as ++ .call t op :: bs ++ .effect t op ret :: cs ∧
      ∀ m ∈ bs ++ cs, m.thread ≠ t

/-- The marks are a history of the object, served one operation at a time: the effects in
their order are a run of it, each effect lies after its call, and each answer returns what
the one effect since its call returned. -/
structure Linearizable (serves : α → Op × Ret → α → Prop) (a : α) (ms : List (Mark τ Op Ret)) :
    Prop where
  legal : ∃ b, Run serves a (effects ms) b
  effect_after_call : ∀ xs ys t op ret, ms = xs ++ .effect t op ret :: ys →
    ∃ as bs, xs = as ++ .call t op :: bs ∧ ∀ m ∈ bs, m.thread ≠ t
  answer_after_effect : ∀ xs ys t ret, ms = xs ++ .answer t ret :: ys →
    ∃ as bs cs op, xs = as ++ .call t op :: bs ++ .effect t op ret :: cs ∧
      ∀ m ∈ bs ++ cs, m.thread ≠ t

theorem stageFollows_other {ms : List (Mark τ Op Ret)} {m : Mark τ Op Ret} {t : τ}
    {p : Stage Op Ret} (h : StageFollows ms t p) (ht : m.thread ≠ t) :
    StageFollows (ms ++ [m]) t p := by
  cases p with
  | idle => trivial
  | called op =>
    obtain ⟨as, bs, rfl, hbs⟩ := h
    refine ⟨as, bs ++ [m], by simp, ?_⟩
    intro m' hm'
    rcases List.mem_append.mp hm' with hm' | hm'
    · exact hbs m' hm'
    · rw [List.mem_singleton.mp hm']
      exact ht
  | done op ret =>
    obtain ⟨as, bs, cs, rfl, hbs⟩ := h
    refine ⟨as, bs, cs ++ [m], by simp, ?_⟩
    intro m' hm'
    rw [← List.append_assoc] at hm'
    rcases List.mem_append.mp hm' with hm' | hm'
    · exact hbs m' hm'
    · rw [List.mem_singleton.mp hm']
      exact ht

section Atomically
variable [DecidableEq τ] {serves : α → Op × Ret → α → Prop}

theorem atomicStep_follows {ms : List (Mark τ Op Ret)} {s u : Atomic α τ Op Ret}
    {m : Mark τ Op Ret} (h : AtomicStep serves s m u)
    (hs : ∀ t, StageFollows ms t (s.stage t)) (t : τ) :
    StageFollows (ms ++ [m]) t (u.stage t) := by
  by_cases ht : m.thread = t
  · subst ht
    cases h with
    | call t op h =>
      simp only [Mark.thread, Function.update_self]
      exact ⟨ms, [], rfl, by simp⟩
    | effect t op ret b h hb =>
      have hf := hs t
      rw [h] at hf
      obtain ⟨as, bs, rfl, hbs⟩ := hf
      simp only [Mark.thread, Function.update_self]
      exact ⟨as, bs, [], rfl, by simpa using hbs⟩
    | answer t op ret h =>
      simp only [Mark.thread, Function.update_self]
      trivial
  · have hu : u.stage t = s.stage t := by
      cases h <;> exact Function.update_of_ne (Ne.symm ht) _ _
    rw [hu]
    exact stageFollows_other (hs t) ht

theorem run_follows {s u : Atomic α τ Op Ret} {ms : List (Mark τ Op Ret)}
    (h : Run (AtomicStep serves) s ms u) (hs : ∀ t, s.stage t = .idle) (t : τ) :
    StageFollows ms t (u.stage t) := by
  induction h generalizing t with
  | refl => rw [hs t]; trivial
  | tail _ hv ih => exact atomicStep_follows hv ih t

theorem run_effects {s u : Atomic α τ Op Ret} {ms : List (Mark τ Op Ret)}
    (h : Run (AtomicStep serves) s ms u) : Run serves s.object (effects ms) u.object := by
  induction h with
  | refl => exact .refl _
  | tail hr hv ih =>
    rw [effects_append]
    cases hv with
    | call t op h => simpa [effects] using ih
    | effect t op ret b h hb => exact ih.tail hb
    | answer t op ret h => simpa [effects] using ih

theorem linearizable_of_run {a : α} {u : Atomic α τ Op Ret} {ms : List (Mark τ Op Ret)}
    (h : Run (AtomicStep serves) (fresh a) ms u) : Linearizable serves a ms where
  legal := ⟨u.object, run_effects h⟩
  effect_after_call := by
    rintro xs ys t op ret rfl
    obtain ⟨v, hv, hw⟩ := h.split
    obtain ⟨w, hw, -⟩ := hw.cons_inv
    have hf := run_follows hv (fun _ => rfl) t
    cases hw with
    | effect t op ret b hc hb =>
      rw [hc] at hf
      exact hf
  answer_after_effect := by
    rintro xs ys t ret rfl
    obtain ⟨v, hv, hw⟩ := h.split
    obtain ⟨w, hw, -⟩ := hw.cons_inv
    have hf := run_follows hv (fun _ => rfl) t
    cases hw with
    | answer t op ret hd =>
      rw [hd] at hf
      obtain ⟨as, bs, cs, hxs, hbs⟩ := hf
      exact ⟨as, bs, cs, op, hxs, hbs⟩

end Atomically

end Linearization
