import Mathlib.Data.List.Nodup

/-! A linked list seen through its iterators, with insertion at the back and erasure.
An iterator names a node. Nodes are numbered in the order they were inserted, so the
numbering is increasing along the list and an erased number never comes back: an
iterator stays good under every change but the erasure of its own node. -/

structure StableList (α : Type*) where
  nodes : List (ℕ × α)
  fresh : ℕ
  sorted : (nodes.map Prod.fst).Pairwise (· < ·)
  bounded : ∀ p ∈ nodes, p.1 < fresh

namespace StableList

variable {α : Type*}

def empty : StableList α := ⟨[], 0, by simp, by simp⟩

def values (l : StableList α) : List α := l.nodes.map Prod.snd

def pushBack (l : StableList α) (a : α) : StableList α where
  nodes := l.nodes ++ [(l.fresh, a)]
  fresh := l.fresh + 1
  sorted := by
    rw [List.map_append, List.pairwise_append]
    refine ⟨l.sorted, by simp, ?_⟩
    intro i hi j hj
    obtain ⟨p, hp, rfl⟩ := List.mem_map.mp hi
    obtain rfl : j = l.fresh := by simpa using hj
    exact l.bounded p hp
  bounded := by
    intro p hp
    rcases List.mem_append.mp hp with hp | hp
    · exact Nat.lt_succ_of_lt (l.bounded p hp)
    · obtain rfl := List.mem_singleton.mp hp
      exact Nat.lt_succ_self _

def erase (l : StableList α) (it : ℕ) : StableList α where
  nodes := l.nodes.filter (fun p => p.1 ≠ it)
  fresh := l.fresh
  sorted := l.sorted.sublist (List.filter_sublist.map _)
  bounded := fun p hp => l.bounded p (List.mem_filter.mp hp).1

def find [DecidableEq α] (l : StableList α) (a : α) : Option ℕ :=
  (l.nodes.find? (fun p => p.2 = a)).map Prod.fst

/-- none when the node has been erased. -/
def deref (l : StableList α) (it : ℕ) : Option α :=
  (l.nodes.find? (fun p => p.1 = it)).map Prod.snd

def front (l : StableList α) : Option ℕ := l.nodes.head?.map Prod.fst

/-- The node after it, none at the end; only a node still in the list may be advanced. -/
def next (l : StableList α) (it : ℕ) : Option ℕ :=
  (l.nodes.find? (fun p => it < p.1)).map Prod.fst

def rest (l : StableList α) : Option ℕ → List α
  | none => []
  | some it => (l.nodes.filter (fun p => it ≤ p.1)).map Prod.snd

@[simp] theorem values_empty : (empty : StableList α).values = [] := rfl

@[simp] theorem values_pushBack (l : StableList α) (a : α) :
    (l.pushBack a).values = l.values ++ [a] := by simp [values, pushBack]

theorem mem_values {l : StableList α} {a : α} : a ∈ l.values ↔ ∃ i, (i, a) ∈ l.nodes := by
  simp [values]

theorem split_at_node {l : StableList α} {i : ℕ} {a : α} (h : (i, a) ∈ l.nodes) :
    ∃ older newer, l.nodes = older ++ (i, a) :: newer ∧ (∀ p ∈ older, p.1 < i) ∧
      ∀ p ∈ newer, i < p.1 := by
  obtain ⟨older, newer, hn⟩ := List.append_of_mem h
  have hs := List.pairwise_map.mp l.sorted
  rw [hn, List.pairwise_append, List.pairwise_cons] at hs
  exact ⟨older, newer, hn, fun p hp => hs.2.2 p hp (i, a) (by simp), hs.2.1.1⟩

theorem node_unique {l : StableList α} {i : ℕ} {a b : α} (ha : (i, a) ∈ l.nodes)
    (hb : (i, b) ∈ l.nodes) : a = b := by
  obtain ⟨older, newer, hn, ho, hw⟩ := split_at_node ha
  rw [hn, List.mem_append, List.mem_cons] at hb
  rcases hb with hb | hb | hb
  · exact absurd (ho _ hb) (Nat.lt_irrefl i)
  · simpa using hb.symm
  · exact absurd (hw _ hb) (Nat.lt_irrefl i)

theorem deref_eq_some {l : StableList α} {i : ℕ} {a : α} :
    l.deref i = some a ↔ (i, a) ∈ l.nodes := by
  constructor
  · intro h
    obtain ⟨p, hp, rfl⟩ := Option.map_eq_some_iff.mp h
    have hi := List.find?_some hp
    have hm := List.mem_of_find?_eq_some hp
    simp only [decide_eq_true_eq] at hi
    rwa [← hi]
  · intro h
    cases hf : l.nodes.find? (fun p => p.1 = i) with
    | none => simpa using List.find?_eq_none.mp hf _ h
    | some p =>
      have hi := List.find?_some hf
      have hm := List.mem_of_find?_eq_some hf
      simp only [decide_eq_true_eq] at hi
      subst hi
      simp [deref, hf, node_unique hm h]

theorem iterator_unique {l : StableList α} (hn : l.values.Nodup) {i j : ℕ} {a : α}
    (hi : l.deref i = some a) (hj : l.deref j = some a) : i = j := by
  have hinj := List.inj_on_of_nodup_map hn (deref_eq_some.mp hi) (deref_eq_some.mp hj) rfl
  exact congrArg Prod.fst hinj

theorem deref_mem_values {l : StableList α} {i : ℕ} {a : α} (h : l.deref i = some a) :
    a ∈ l.values := mem_values.mpr ⟨i, deref_eq_some.mp h⟩

section Find
variable [DecidableEq α]

theorem find_eq_none {l : StableList α} {a : α} : l.find a = none ↔ a ∉ l.values := by
  simp only [find, Option.map_eq_none_iff, List.find?_eq_none, decide_eq_true_eq, mem_values]
  constructor
  · rintro h ⟨i, hi⟩
    exact h _ hi rfl
  · rintro h ⟨i, b⟩ hp rfl
    exact h ⟨i, hp⟩

theorem deref_of_find {l : StableList α} {a : α} {i : ℕ} (h : l.find a = some i) :
    l.deref i = some a := by
  obtain ⟨p, hp, rfl⟩ := Option.map_eq_some_iff.mp h
  have ha := List.find?_some hp
  simp only [decide_eq_true_eq] at ha
  subst ha
  exact deref_eq_some.mpr (List.mem_of_find?_eq_some hp)

theorem values_erase_find {l : StableList α} {a : α} {i : ℕ} (h : l.find a = some i) :
    (l.erase i).values = l.values.erase a := by
  obtain ⟨p, hp, rfl⟩ := Option.map_eq_some_iff.mp h
  obtain ⟨ha, older, newer, hn, hfirst⟩ := List.find?_eq_some_iff_append.mp hp
  have hs := List.pairwise_map.mp l.sorted
  rw [hn, List.pairwise_append, List.pairwise_cons] at hs
  have ho : older.filter (fun q => q.1 ≠ p.1) = older := by
    rw [List.filter_eq_self]
    intro q hq
    simpa using Nat.ne_of_lt (hs.2.2 q hq p (by simp))
  have hw : newer.filter (fun q => q.1 ≠ p.1) = newer := by
    rw [List.filter_eq_self]
    intro q hq
    simpa using Nat.ne_of_gt (hs.2.1.1 q hq)
  have hnot : a ∉ older.map Prod.snd := by
    intro hm
    obtain ⟨q, hq, hqa⟩ := List.mem_map.mp hm
    simpa [hqa] using hfirst q hq
  simp only [decide_eq_true_eq] at ha
  simp only [values, erase, hn, List.filter_append, ho, List.filter_cons, hw, List.map_append]
  simp [List.erase_append_right _ hnot, ha]

end Find

theorem deref_pushBack {l : StableList α} {i : ℕ} {a : α} (h : l.deref i = some a) (b : α) :
    (l.pushBack b).deref i = some a :=
  deref_eq_some.mpr (List.mem_append_left _ (deref_eq_some.mp h))

/-- Erasing one node leaves every other iterator good. -/
theorem deref_erase_of_ne {l : StableList α} {i j : ℕ} {a : α} (h : l.deref i = some a)
    (hne : i ≠ j) : (l.erase j).deref i = some a :=
  deref_eq_some.mpr (List.mem_filter.mpr ⟨deref_eq_some.mp h, by simpa using hne⟩)

theorem deref_erase_self (l : StableList α) (i : ℕ) : (l.erase i).deref i = none := by
  rw [Option.eq_none_iff_forall_not_mem]
  intro a ha
  simpa using (List.mem_filter.mp (deref_eq_some.mp ha)).2

/-- A number that has been given out and is not in use never comes back into use. -/
theorem deref_pushBack_none {l : StableList α} {i : ℕ} (h : l.deref i = none)
    (hi : i < l.fresh) (b : α) : (l.pushBack b).deref i = none := by
  rw [Option.eq_none_iff_forall_not_mem] at h ⊢
  intro a ha
  rcases List.mem_append.mp (deref_eq_some.mp ha) with hm | hm
  · exact h a (deref_eq_some.mpr hm)
  · obtain ⟨rfl, -⟩ := Prod.mk.inj (List.mem_singleton.mp hm)
    exact Nat.lt_irrefl _ hi

theorem deref_erase_none {l : StableList α} {i : ℕ} (h : l.deref i = none) (j : ℕ) :
    (l.erase j).deref i = none := by
  rw [Option.eq_none_iff_forall_not_mem] at h ⊢
  exact fun a ha => h a (deref_eq_some.mpr (List.mem_filter.mp (deref_eq_some.mp ha)).1)

theorem deref_of_pushBack {l : StableList α} {i : ℕ} {a b : α}
    (h : (l.pushBack b).deref i = some a) : l.deref i = some a ∨ (i = l.fresh ∧ a = b) := by
  rcases List.mem_append.mp (deref_eq_some.mp h) with hm | hm
  · exact Or.inl (deref_eq_some.mpr hm)
  · exact Or.inr (Prod.mk.inj (List.mem_singleton.mp hm))

theorem deref_of_erase {l : StableList α} {i j : ℕ} {a : α} (h : (l.erase j).deref i = some a) :
    l.deref i = some a :=
  deref_eq_some.mpr (List.mem_filter.mp (deref_eq_some.mp h)).1

theorem node_lt_fresh {l : StableList α} {i : ℕ} {a : α} (h : l.deref i = some a) :
    i < l.fresh := l.bounded _ (deref_eq_some.mp h)

theorem front_eq_none {l : StableList α} : l.front = none ↔ l.values = [] := by
  simp [front, values]

theorem front_deref {l : StableList α} {i : ℕ} (h : l.front = some i) :
    ∃ a, l.deref i = some a := by
  obtain ⟨p, hp, rfl⟩ := Option.map_eq_some_iff.mp h
  exact ⟨p.2, deref_eq_some.mpr (List.mem_of_head? hp)⟩

theorem next_spec {l : StableList α} {i j : ℕ} (h : l.next i = some j) :
    i < j ∧ ∃ a, l.deref j = some a := by
  obtain ⟨p, hp, rfl⟩ := Option.map_eq_some_iff.mp h
  have hi := List.find?_some hp
  simp only [decide_eq_true_eq] at hi
  exact ⟨hi, p.2, deref_eq_some.mpr (List.mem_of_find?_eq_some hp)⟩

theorem next_le_of_node {l : StableList α} {i j k : ℕ} {a : α} (h : l.next i = some j)
    (hk : l.deref k = some a) (hik : i < k) : j ≤ k := by
  obtain ⟨p, hp, rfl⟩ := Option.map_eq_some_iff.mp h
  obtain ⟨-, older, newer, hn, hfirst⟩ := List.find?_eq_some_iff_append.mp hp
  have hs := List.pairwise_map.mp l.sorted
  have hm := deref_eq_some.mp hk
  rw [hn, List.pairwise_append, List.pairwise_cons] at hs
  rw [hn, List.mem_append, List.mem_cons] at hm
  rcases hm with hm | rfl | hm
  · simpa [hik] using hfirst _ hm
  · exact Nat.le_refl _
  · exact Nat.le_of_lt (hs.2.1.1 _ hm)

theorem next_eq_none {l : StableList α} {i k : ℕ} {a : α} (h : l.next i = none)
    (hk : l.deref k = some a) : k ≤ i := by
  have hn := List.find?_eq_none.mp (Option.map_eq_none_iff.mp h) _ (deref_eq_some.mp hk)
  simpa using hn

theorem front_le_of_node {l : StableList α} {i k : ℕ} {a : α} (h : l.front = some i)
    (hk : l.deref k = some a) : i ≤ k := by
  obtain ⟨p, hp, rfl⟩ := Option.map_eq_some_iff.mp h
  obtain ⟨tail, hn⟩ := List.head?_eq_some_iff.mp hp
  have hs := List.pairwise_map.mp l.sorted
  have hm := deref_eq_some.mp hk
  rw [hn, List.pairwise_cons] at hs
  rw [hn, List.mem_cons] at hm
  rcases hm with rfl | hm
  · exact Nat.le_refl _
  · exact Nat.le_of_lt (hs.1 _ hm)

@[simp] theorem rest_none (l : StableList α) : l.rest none = [] := rfl

theorem rest_front (l : StableList α) : l.rest l.front = l.values := by
  cases h : l.front with
  | none => rw [rest_none, front_eq_none.mp h]
  | some i =>
    have hall : l.nodes.filter (fun p => i ≤ p.1) = l.nodes := by
      rw [List.filter_eq_self]
      intro p hp
      simpa using front_le_of_node h (deref_eq_some.mpr hp)
    simp [rest, values, hall]

/-- One turn of a loop takes the element at the iterator off what is left. -/
theorem rest_deref {l : StableList α} {i : ℕ} {a : α} (h : l.deref i = some a) :
    l.rest (some i) = a :: l.rest (l.next i) := by
  obtain ⟨older, newer, hn, ho, hw⟩ := split_at_node (deref_eq_some.mp h)
  have hfrom : l.nodes.filter (fun p => i ≤ p.1) = (i, a) :: newer := by
    rw [hn, List.filter_append, List.filter_cons, if_pos (by simp)]
    rw [List.filter_eq_nil_iff.mpr fun p hp => by simpa using ho p hp]
    rw [List.filter_eq_self.mpr fun p hp => by simpa using Nat.le_of_lt (hw p hp)]
    rfl
  have hnext : l.rest (l.next i) = newer.map Prod.snd := by
    cases hj : l.next i with
    | none =>
      have hnil : newer = [] := by
        rw [List.eq_nil_iff_forall_not_mem]
        intro p hp
        have hle := next_eq_none hj (deref_eq_some.mpr (by rw [hn]; simp [hp] : p ∈ l.nodes))
        exact absurd (hw p hp) (Nat.not_lt.mpr hle)
      simp [hnil]
    | some j =>
      obtain ⟨hij, -⟩ := next_spec hj
      have hsame : l.nodes.filter (fun p => j ≤ p.1) = newer := by
        rw [hn, List.filter_append, List.filter_cons, if_neg (by simpa using hij)]
        rw [List.filter_eq_nil_iff.mpr fun p hp => by
          simpa using Nat.lt_trans (ho p hp) hij]
        rw [List.filter_eq_self.mpr fun p hp => by
          simpa using next_le_of_node hj
            (deref_eq_some.mpr (by rw [hn]; simp [hp] : p ∈ l.nodes)) (hw p hp)]
        rfl
      simp only [rest, hsame]
  rw [hnext]
  simp only [rest, hfrom, List.map_cons]

end StableList
