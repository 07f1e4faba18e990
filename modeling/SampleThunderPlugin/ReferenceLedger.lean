import Mathlib.Data.Int.Notation
import Mathlib.Data.List.Nodup
import Mathlib.Logic.Function.Basic

/-! Reference counting seen from the holder: how often it took a reference on each
object and how often it gave one back. The balance is what it still holds. -/

structure ReferenceLedger (ι : Type*) where
  addRefs : ι → ℕ
  releases : ι → ℕ

namespace ReferenceLedger

variable {ι : Type*}

def empty : ReferenceLedger ι := ⟨fun _ => 0, fun _ => 0⟩

def balance (r : ReferenceLedger ι) (a : ι) : ℤ := r.addRefs a - r.releases a

@[simp] theorem balance_empty (a : ι) : (empty : ReferenceLedger ι).balance a = 0 := by
  simp [balance, empty]

variable [DecidableEq ι]

def addRef (r : ReferenceLedger ι) (a : ι) : ReferenceLedger ι :=
  { r with addRefs := Function.update r.addRefs a (r.addRefs a + 1) }

def release (r : ReferenceLedger ι) (a : ι) : ReferenceLedger ι :=
  { r with releases := Function.update r.releases a (r.releases a + 1) }

@[simp] theorem balance_addRef_self (r : ReferenceLedger ι) (a : ι) :
    (r.addRef a).balance a = r.balance a + 1 := by
  simp only [balance, addRef, Function.update_self]
  omega

@[simp] theorem balance_addRef_ne (r : ReferenceLedger ι) {a b : ι} (h : b ≠ a) :
    (r.addRef a).balance b = r.balance b := by
  simp [balance, addRef, h]

@[simp] theorem balance_release_self (r : ReferenceLedger ι) (a : ι) :
    (r.release a).balance a = r.balance a - 1 := by
  simp only [balance, release, Function.update_self]
  omega

@[simp] theorem balance_release_ne (r : ReferenceLedger ι) {a b : ι} (h : b ≠ a) :
    (r.release a).balance b = r.balance b := by
  simp [balance, release, h]

/-- One reference on every member of the list and none on anything else. -/
def OneEach (r : ReferenceLedger ι) (l : List ι) : Prop :=
  ∀ a, r.balance a = if a ∈ l then 1 else 0

theorem oneEach_empty : OneEach (empty : ReferenceLedger ι) [] := by
  intro a
  simp

theorem OneEach.join {r : ReferenceLedger ι} {l : List ι} {a : ι} (h : OneEach r l)
    (ha : a ∉ l) : OneEach (r.addRef a) (l ++ [a]) := by
  intro b
  by_cases hb : b = a
  · subst b
    rw [balance_addRef_self, h a]
    simp [ha]
  · rw [balance_addRef_ne r hb, h b]
    simp [hb]

theorem OneEach.leave {r : ReferenceLedger ι} {l : List ι} {a : ι} (h : OneEach r l)
    (hn : l.Nodup) (ha : a ∈ l) : OneEach (r.release a) (l.erase a) := by
  intro b
  by_cases hb : b = a
  · subst b
    rw [balance_release_self, h a]
    simp [ha, hn.mem_erase_iff]
  · rw [balance_release_ne r hb, h b]
    simp [hn.mem_erase_iff, hb]

/-- The one reference behind a pointer, or none where it is null. -/
def OneOn (r : ReferenceLedger ι) (p : Option ι) : Prop :=
  ∀ a, r.balance a = if p = some a then 1 else 0

theorem OneOn.addRef {r : ReferenceLedger ι} (h : OneOn r none) (a : ι) :
    OneOn (r.addRef a) (some a) := by
  intro b
  have hb := h b
  rw [if_neg (by simp)] at hb
  rcases eq_or_ne b a with rfl | hba
  · simp [hb]
  · simp [hb, hba, hba.symm]

theorem OneOn.release {r : ReferenceLedger ι} {a : ι} (h : OneOn r (some a)) :
    OneOn (r.release a) none := by
  intro b
  have hb := h b
  rcases eq_or_ne b a with rfl | hba
  · simp [hb]
  · simp [hb, hba, hba.symm]

end ReferenceLedger
