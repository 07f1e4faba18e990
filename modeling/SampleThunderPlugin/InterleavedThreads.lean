import Mathlib.Algebra.BigOperators.Group.Finset.Basic
import Mathlib.Algebra.Order.BigOperators.Group.Finset

/-! Threads that take their steps one at a time: a step moves the place of one thread and of
no other. The lock that some places hold has one owner, and a weight on the places adds up
over finitely many threads. Nothing here knows a program. -/
namespace InterleavedThreads

open scoped BigOperators

variable {τ P : Type*}

/-- The places that hold the lock are those its owner may stand at. -/
def Owned (Holds : P → Prop) (lock : Option τ) (pc : τ → P) : Prop :=
  ∀ t, Holds (pc t) ↔ lock = some t

section Lock
variable {Holds : P → Prop} {lock : Option τ} {pc : τ → P} (h : Owned Holds lock pc)
include h

theorem Owned.exclusive {t u : τ} (ht : Holds (pc t)) (hu : Holds (pc u)) : t = u :=
  Option.some.inj (((h t).mp ht).symm.trans ((h u).mp hu))

variable [DecidableEq τ] {t : τ} {p : P}

theorem Owned.move (hp : Holds p ↔ Holds (pc t)) :
    Owned Holds lock (Function.update pc t p) := by
  intro u
  rcases eq_or_ne u t with rfl | hu
  · rw [Function.update_self, hp]
    exact h u
  · rw [Function.update_of_ne hu]
    exact h u

theorem Owned.take (hfree : lock = none) (hp : Holds p) :
    Owned Holds (some t) (Function.update pc t p) := by
  intro u
  rcases eq_or_ne u t with rfl | hu
  · simpa using hp
  · have hout : ¬ Holds (pc u) := by simp [h u, hfree]
    simpa [hu, Ne.symm hu] using hout

theorem Owned.drop (ht : Holds (pc t)) (hp : ¬ Holds p) :
    Owned Holds none (Function.update pc t p) := by
  intro u
  rcases eq_or_ne u t with rfl | hu
  · simpa using hp
  · have hout : ¬ Holds (pc u) := fun hh => hu (h.exclusive hh ht)
    simpa [hu] using hout

end Lock

theorem sum_update_weight [Fintype τ] [DecidableEq τ] (weight : P → ℕ) (pc : τ → P) (t : τ)
    (p : P) : ∑ v, weight (Function.update pc t p v) + weight (pc t) =
      ∑ v, weight (pc v) + weight p := by
  have hrest : ∑ v ∈ Finset.univ.erase t, weight (Function.update pc t p v) =
      ∑ v ∈ Finset.univ.erase t, weight (pc v) := by
    apply Finset.sum_congr rfl
    intro v hv
    rw [Function.update_of_ne (Finset.ne_of_mem_erase hv)]
  have hu := Finset.add_sum_erase Finset.univ (fun v => weight (Function.update pc t p v))
    (Finset.mem_univ t)
  have hs := Finset.add_sum_erase Finset.univ (fun v => weight (pc v)) (Finset.mem_univ t)
  simp only [Function.update_self] at hu
  omega

/-- Where a thread's weight grows with all that the threads may still add to n: one of them
moves to where it weighs less, and adds no more than it was to. -/
theorem sum_weight_lt [Fintype τ] [DecidableEq τ] {weight : ℕ → P → ℕ} {adds : P → ℕ}
    (hmono : ∀ b c, b ≤ c → ∀ p, weight b p ≤ weight c p) {pc : τ → P} {t : τ} {p : P} {m n : ℕ}
    (hlt : weight (n + ∑ v, adds (pc v)) p < weight (n + ∑ v, adds (pc v)) (pc t))
    (hadds : m + adds p ≤ n + adds (pc t)) :
    ∑ v, weight (m + ∑ u, adds (Function.update pc t p u)) (Function.update pc t p v) <
      ∑ v, weight (n + ∑ u, adds (pc u)) (pc v) := by
  have hadd := sum_update_weight adds pc t p
  have hweight := sum_update_weight (weight (n + ∑ v, adds (pc v))) pc t p
  have hbound : m + ∑ u, adds (Function.update pc t p u) ≤ n + ∑ u, adds (pc u) := by omega
  have hle := Finset.sum_le_sum fun v (_ : v ∈ Finset.univ) =>
    hmono _ _ hbound (Function.update pc t p v)
  omega

theorem countP_eq_of_threads {ε : Type*} [DecidableEq τ] (actor : ε → τ) {P Q : ε → Bool}
    {es : List ε} (h : ∀ t, es.countP (fun e => actor e == t && P e) =
      es.countP (fun e => actor e == t && Q e)) : es.countP P = es.countP Q := by
  have hcount (R : ε → Bool) (t : τ) : List.count t ((es.filter R).map actor) =
      es.countP fun e => actor e == t && R e := by
    rw [List.count, List.countP_map, List.countP_filter]
    rfl
  have hperm : ((es.filter P).map actor).Perm ((es.filter Q).map actor) := by
    rw [List.perm_iff_count]
    intro t
    rw [hcount P t, hcount Q t, h t]
  have hlength := hperm.length_eq
  rwa [List.length_map, List.length_map, ← List.countP_eq_length_filter,
    ← List.countP_eq_length_filter] at hlength

end InterleavedThreads
