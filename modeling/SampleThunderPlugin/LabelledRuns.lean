import Mathlib.Data.List.Basic

/-! Runs of a labelled transition relation, kept with their traces.
Nothing here knows a program. An invariant is carried over a run once, a guard
on the steps is a restriction of the relation, and a fact that only some labels
can end is carried between two positions of a trace. -/
namespace LabelledRuns

variable {σ ε : Type*} {step : σ → ε → σ → Prop}

/-- The trace lists the labels taken, oldest first. -/
inductive Run (step : σ → ε → σ → Prop) : σ → List ε → σ → Prop where
  | refl (s) : Run step s [] s
  | tail {s u v es e} : Run step s es u → step u e v → Run step s (es ++ [e]) v

theorem Run.single {s u : σ} {e : ε} (h : step s e u) : Run step s [e] u :=
  .tail (.refl s) h

theorem Run.trans {s u v : σ} {es fs : List ε} (h : Run step s es u) (k : Run step u fs v) :
    Run step s (es ++ fs) v := by
  induction k with
  | refl => simpa using h
  | tail _ hv ih => rw [← List.append_assoc]; exact .tail ih hv

theorem Run.head {s u v : σ} {e : ε} {es : List ε} (h : step s e u) (k : Run step u es v) :
    Run step s (e :: es) v := (Run.single h).trans k

theorem Run.split {s v : σ} {es fs : List ε} (h : Run step s (es ++ fs) v) :
    ∃ u, Run step s es u ∧ Run step u fs v := by
  generalize hl : es ++ fs = ls at h
  induction h generalizing fs with
  | refl =>
    obtain ⟨rfl, rfl⟩ := List.append_eq_nil_iff.mp hl
    exact ⟨_, .refl _, .refl _⟩
  | @tail u v ls e hr hv ih =>
    rcases List.eq_nil_or_concat fs with rfl | ⟨gs, g, rfl⟩
    · rw [List.append_nil] at hl
      subst hl
      exact ⟨_, .tail hr hv, .refl _⟩
    · rw [List.concat_eq_append, ← List.append_assoc] at hl
      obtain ⟨hls, he⟩ := List.append_inj' hl rfl
      obtain rfl := List.singleton_inj.mp he
      obtain ⟨w, hw, hg⟩ := ih hls
      rw [List.concat_eq_append]
      exact ⟨w, hw, .tail hg hv⟩

theorem Run.nil_inv {s u : σ} (h : Run step s [] u) : u = s := by
  generalize hl : ([] : List ε) = ls at h
  cases h with
  | refl => rfl
  | tail => simp at hl

theorem Run.single_inv {s u : σ} {e : ε} (h : Run step s [e] u) : step s e u := by
  generalize hl : [e] = ls at h
  cases h with
  | refl => cases hl
  | @tail v _ fs f hr hs =>
    obtain ⟨rfl, he⟩ := List.append_inj' (show [] ++ [e] = fs ++ [f] from hl) rfl
    obtain rfl := List.singleton_inj.mp he
    obtain rfl := hr.nil_inv
    exact hs

theorem Run.cons_inv {s v : σ} {e : ε} {es : List ε} (h : Run step s (e :: es) v) :
    ∃ u, step s e u ∧ Run step u es v := by
  obtain ⟨u, hu, hv⟩ := Run.split (show Run step s ([e] ++ es) v from h)
  exact ⟨u, hu.single_inv, hv⟩

/-- The invariant rule. -/
theorem Run.invariant {Inv : σ → Prop} (hstep : ∀ s e u, Inv s → step s e u → Inv u)
    {s u : σ} {es : List ε} (h : Run step s es u) (hs : Inv s) : Inv u := by
  induction h with
  | refl => exact hs
  | tail _ hv ih => exact hstep _ _ _ ih hv

/-- The invariant rule for a fact that only the labels of B can end. -/
theorem Run.persists (Inv P : σ → Prop) (B : ε → Prop)
    (hinv : ∀ s e u, Inv s → step s e u → Inv u)
    (hstep : ∀ s e u, Inv s → P s → ¬ B e → step s e u → P u)
    {s u : σ} {es : List ε} (h : Run step s es u) (hs : Inv s) (hp : P s)
    (hB : ∀ e ∈ es, ¬ B e) : P u := by
  induction h with
  | refl => exact hp
  | tail hr hv ih =>
    exact hstep _ _ _ (hr.invariant hinv hs) (ih fun e he => hB e (by simp [he]))
      (hB _ (by simp)) hv

theorem Run.ended_before (Inv P : σ → Prop) (B : ε → Prop)
    (hinv : ∀ s e u, Inv s → step s e u → Inv u)
    (hstep : ∀ s e u, Inv s → P s → ¬ B e → step s e u → P u)
    {s u v : σ} {es : List ε} {d : ε} (h : Run step s es u) (hs : Inv s) (hp : P s)
    (hd : step u d v) (hblock : ∀ s v, Inv s → P s → ¬ step s d v) : ∃ e ∈ es, B e := by
  classical
  by_contra hn
  push Not at hn
  exact hblock u v (h.invariant hinv hs) (Run.persists Inv P B hinv hstep h hs hp hn) hd

/-- The relation restricted to the steps that meet a condition on the state before them. -/
def Guarded (C : σ → ε → Prop) (step : σ → ε → σ → Prop) (s : σ) (e : ε) (u : σ) : Prop :=
  C s e ∧ step s e u

theorem Run.mono {step' : σ → ε → σ → Prop} (hstep : ∀ s e u, step s e u → step' s e u)
    {s u : σ} {es : List ε} (h : Run step s es u) : Run step' s es u := by
  induction h with
  | refl => exact .refl _
  | tail _ hv ih => exact .tail ih (hstep _ _ _ hv)

theorem Run.tail_guarded {C : σ → ε → Prop} {s u v : σ} {es : List ε} {e : ε}
    (h : Run (Guarded C step) s es u) (hv : step u e v) (hC : C u e) :
    Run (Guarded C step) s (es ++ [e]) v := h.tail ⟨hC, hv⟩

theorem Run.guarded_imp {C D : σ → ε → Prop} (Inv : σ → Prop)
    (hinv : ∀ s e u, Inv s → C s e → step s e u → Inv u)
    (himp : ∀ s e u, Inv s → C s e → step s e u → D s e) {s u : σ} {es : List ε}
    (h : Run (Guarded C step) s es u) (hs : Inv s) : Run (Guarded D step) s es u := by
  induction h with
  | refl => exact .refl _
  | tail hr hv ih =>
    have hi := hr.invariant (fun s e u hi hv => hinv s e u hi hv.1 hv.2) hs
    exact ih.tail ⟨himp _ _ _ hi hv.1 hv.2, hv.2⟩

/-- Two guards that agree on the steps from states of the invariant admit the same runs. -/
theorem Run.guarded_congr {C D : σ → ε → Prop} (Inv : σ → Prop)
    (hinv : ∀ s e u, Inv s → step s e u → Inv u)
    (hagree : ∀ s e u, Inv s → step s e u → (C s e ↔ D s e)) {s u : σ} {es : List ε} (hs : Inv s) :
    Run (Guarded C step) s es u ↔ Run (Guarded D step) s es u := by
  constructor
  · intro h
    refine h.guarded_imp Inv ?_ ?_ hs
    · exact fun s e u hi _ hv => hinv s e u hi hv
    · exact fun s e u hi hC hv => (hagree s e u hi hv).mp hC
  · intro h
    refine h.guarded_imp Inv ?_ ?_ hs
    · exact fun s e u hi _ hv => hinv s e u hi hv
    · exact fun s e u hi hD hv => (hagree s e u hi hv).mpr hD

theorem Run.unique (hstep : ∀ s e u v, step s e u → step s e v → u = v) {s u v : σ} {es : List ε}
    (h : Run step s es u) (k : Run step s es v) : u = v := by
  induction h generalizing v with
  | refl => exact k.nil_inv.symm
  | tail hr hu ih =>
    obtain ⟨w, hw, hv⟩ := k.split
    obtain rfl := ih hw
    exact hstep _ _ _ _ hu hv.single_inv

def Reaches (step : σ → ε → σ → Prop) (C : ε → Prop) (s u : σ) : Prop :=
  ∃ es, (∀ e ∈ es, C e) ∧ Run step s es u

section Reaching
variable {C : ε → Prop} {s u v : σ}

theorem Reaches.refl : Reaches step C s s := ⟨[], by simp, .refl s⟩

theorem Reaches.next {e : ε} (h : Reaches step C s u) (hv : step u e v) (he : C e) :
    Reaches step C s v := by
  obtain ⟨es, hes, hr⟩ := h
  refine ⟨es ++ [e], ?_, hr.tail hv⟩
  intro f hf
  rcases List.mem_append.mp hf with hf | hf
  · exact hes f hf
  · exact List.mem_singleton.mp hf ▸ he

theorem Reaches.trans (h : Reaches step C s u) (k : Reaches step C u v) : Reaches step C s v := by
  obtain ⟨es, hes, hr⟩ := h
  obtain ⟨fs, hfs, hk⟩ := k
  refine ⟨es ++ fs, ?_, hr.trans hk⟩
  intro e he
  rcases List.mem_append.mp he with he | he
  · exact hes e he
  · exact hfs e he

end Reaching

def Throughout (step : σ → ε → σ → Prop) (Q : σ → Prop) (s : σ) (es : List ε) : Prop :=
  ∀ fs gs u, es = fs ++ gs → Run step s fs u → Q u

end LabelledRuns
