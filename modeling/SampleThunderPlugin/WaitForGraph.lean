import Mathlib.Data.Nat.Notation
import Mathlib.Logic.Relation

/-! Parties that wait for one another, as a relation in one state of a system.
A rank that falls along every wait excludes cycles, and it sends whoever follows the
waits from a party to one that waits for nobody. -/
namespace WaitForGraph

open Relation (ReflTransGen TransGen)

variable {π : Type*}

def Cyclic (waits : π → π → Prop) : Prop := ∃ p, TransGen waits p p

section Ranked
variable {waits : π → π → Prop} (rank : π → ℕ) (hrank : ∀ p q, waits p q → rank q < rank p)
include hrank

theorem rank_lt_of_wait {p q : π} (h : TransGen waits p q) : rank q < rank p := by
  induction h with
  | single h => exact hrank _ _ h
  | tail _ h ih => exact Nat.lt_trans (hrank _ _ h) ih

theorem acyclic_of_rank : ¬ Cyclic waits :=
  fun ⟨_, h⟩ => Nat.lt_irrefl _ (rank_lt_of_wait rank hrank h)

theorem exists_unblocked (p : π) : ∃ q, ReflTransGen waits p q ∧ ∀ r, ¬ waits q r := by
  induction hn : rank p using Nat.strongRecOn generalizing p with
  | ind n ih =>
    by_cases hp : ∃ q, waits p q
    · obtain ⟨q, hq⟩ := hp
      obtain ⟨r, hr, hend⟩ := ih (rank q) (hn ▸ hrank p q hq) q rfl
      exact ⟨r, .head hq hr, hend⟩
    · exact ⟨p, .refl, not_exists.mp hp⟩

/-- If whoever is waited for is active, and an active party that waits for nobody can move,
then one active party is enough for some party to move. -/
theorem progress_of_rank {Active CanMove : π → Prop} (hactive : ∀ p q, waits p q → Active q)
    (hmove : ∀ p, Active p → (∀ q, ¬ waits p q) → CanMove p) {p : π} (hp : Active p) :
    ∃ q, CanMove q := by
  obtain ⟨q, hpq, hend⟩ := exists_unblocked rank hrank p
  refine ⟨q, hmove q ?_ hend⟩
  rcases hpq.cases_tail with rfl | ⟨r, -, hr⟩
  · exact hp
  · exact hactive r q hr

end Ranked

theorem cyclic_of_triangle {waits : π → π → Prop} {p q r : π} (hpq : waits p q)
    (hqr : waits q r) (hrp : waits r p) : Cyclic waits :=
  ⟨p, ((TransGen.single hpq).tail hqr).tail hrp⟩

end WaitForGraph
