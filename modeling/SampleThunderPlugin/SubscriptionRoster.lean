import Mathlib.Data.List.Induction
import Mathlib.Data.List.Nodup

/-! The members of a group, read off the history of who joined and who left.
The history may hold anything: a view says which of its entries are moves. Joining
twice changes nothing and leaving ends the membership, so a member's place is given
by the join that began its present membership. -/
namespace SubscriptionRoster

inductive Move (α : Type*) where
  | join (a : α)
  | leave (a : α)
  deriving DecidableEq, Repr

variable {α ε : Type*}

section History
variable (view : ε → Option (Move α))

def LastIsJoin (h : List ε) (a : α) : Prop :=
  ∃ p e q, h = p ++ e :: q ∧ view e = some (.join a) ∧
    ∀ x ∈ q, view x ≠ some (.join a) ∧ view x ≠ some (.leave a)

/-- Position i is the first join of a after the last time a left: nobody leaves as a
from there on, and before it a is not a member. -/
def JoinedAt (h : List ε) (a : α) (i : ℕ) : Prop :=
  ∃ p e q, h = p ++ e :: q ∧ p.length = i ∧ view e = some (.join a) ∧
    (∀ x ∈ q, view x ≠ some (.leave a)) ∧ ¬ LastIsJoin view p a

end History

variable {view : ε → Option (Move α)}

private theorem snoc_split {h p q : List ε} {e x : ε} (hs : h ++ [e] = p ++ x :: q) :
    (q = [] ∧ h = p ∧ e = x) ∨ ∃ r, q = r ++ [e] ∧ h = p ++ x :: r := by
  rcases List.eq_nil_or_concat q with rfl | ⟨r, y, rfl⟩
  · obtain ⟨hp, hx⟩ := List.append_inj' hs rfl
    exact Or.inl ⟨rfl, hp, List.singleton_inj.mp hx⟩
  · rw [List.concat_eq_append] at hs ⊢
    rw [← List.cons_append, ← List.append_assoc] at hs
    obtain ⟨hp, hy⟩ := List.append_inj' hs rfl
    obtain rfl := List.singleton_inj.mp hy
    exact Or.inr ⟨r, rfl, hp⟩

theorem not_lastIsJoin_nil (a : α) : ¬ LastIsJoin view [] a := by
  rintro ⟨p, e, q, h, -⟩
  simp at h

theorem lastIsJoin_snoc {h : List ε} {e : ε} {a : α} :
    LastIsJoin view (h ++ [e]) a ↔
      view e = some (.join a) ∨ (view e ≠ some (.leave a) ∧ LastIsJoin view h a) := by
  constructor
  · rintro ⟨p, x, q, hs, hx, hq⟩
    rcases snoc_split hs with ⟨-, -, rfl⟩ | ⟨r, rfl, rfl⟩
    · exact Or.inl hx
    · refine Or.inr ⟨(hq e (by simp)).2, p, x, r, rfl, hx, fun y hy => hq y (by simp [hy])⟩
  · rintro (he | ⟨hl, p, x, q, rfl, hx, hq⟩)
    · exact ⟨h, e, [], rfl, he, by simp⟩
    · by_cases he : view e = some (.join a)
      · exact ⟨p ++ x :: q, e, [], rfl, he, by simp⟩
      · refine ⟨p, x, q ++ [e], by simp, hx, ?_⟩
        intro y hy
        rcases List.mem_append.mp hy with hy | hy
        · exact hq y hy
        · obtain rfl := List.mem_singleton.mp hy
          exact ⟨he, hl⟩

theorem joinedAt_lt {h : List ε} {a : α} {i : ℕ} (hj : JoinedAt view h a i) : i < h.length := by
  obtain ⟨p, e, q, rfl, rfl, -⟩ := hj
  simp

theorem joinedAt_snoc {h : List ε} {e : ε} {a : α} {i : ℕ} :
    JoinedAt view (h ++ [e]) a i ↔
      (view e ≠ some (.leave a) ∧ JoinedAt view h a i) ∨
      (view e = some (.join a) ∧ i = h.length ∧ ¬ LastIsJoin view h a) := by
  constructor
  · rintro ⟨p, x, q, hs, rfl, hx, hq, hp⟩
    rcases snoc_split hs with ⟨-, rfl, rfl⟩ | ⟨r, rfl, rfl⟩
    · exact Or.inr ⟨hx, rfl, hp⟩
    · exact Or.inl ⟨hq e (by simp), p, x, r, rfl, rfl, hx, fun y hy => hq y (by simp [hy]), hp⟩
  · rintro (⟨he, p, x, q, rfl, rfl, hx, hq, hp⟩ | ⟨he, rfl, hn⟩)
    · refine ⟨p, x, q ++ [e], by simp, rfl, hx, ?_, hp⟩
      intro y hy
      rcases List.mem_append.mp hy with hy | hy
      · exact hq y hy
      · obtain rfl := List.mem_singleton.mp hy
        exact he
    · exact ⟨h, e, [], rfl, rfl, he, by simp, hn⟩

theorem exists_joinedAt {h : List ε} {a : α} :
    (∃ i, JoinedAt view h a i) ↔ LastIsJoin view h a := by
  induction h using List.reverseRecOn with
  | nil =>
    constructor
    · rintro ⟨i, hi⟩
      exact absurd (joinedAt_lt hi) (Nat.not_lt_zero i)
    · intro hl
      exact absurd hl (not_lastIsJoin_nil a)
  | append_singleton h e ih =>
    simp only [joinedAt_snoc, lastIsJoin_snoc, exists_or, exists_and_left, ih]
    constructor
    · rintro (⟨hl, hj⟩ | ⟨hj, -⟩)
      · exact Or.inr ⟨hl, hj⟩
      · exact Or.inl hj
    · rintro (hj | hl)
      · by_cases hm : LastIsJoin view h a
        · exact Or.inl ⟨by simp [hj], hm⟩
        · exact Or.inr ⟨hj, by simp [hm]⟩
      · exact Or.inl hl

section Roster
variable [DecidableEq α]

def apply (l : List α) : Option (Move α) → List α
  | some (.join a) => if a ∈ l then l else l ++ [a]
  | some (.leave a) => l.erase a
  | none => l

def roster (view : ε → Option (Move α)) (h : List ε) : List α :=
  h.foldl (fun l e => apply l (view e)) []

@[simp] theorem roster_nil : roster view ([] : List ε) = [] := rfl

@[simp] theorem roster_snoc (h : List ε) (e : ε) :
    roster view (h ++ [e]) = apply (roster view h) (view e) := by simp [roster]

theorem apply_nodup {l : List α} (hl : l.Nodup) (m : Option (Move α)) : (apply l m).Nodup := by
  match m with
  | some (.join a) =>
    simp only [apply]
    split
    · exact hl
    · next ha => exact List.nodup_append.mpr ⟨hl, by simp, by rintro b hb c hc rfl; simp_all⟩
  | some (.leave a) => exact hl.erase a
  | none => exact hl

theorem roster_nodup (h : List ε) : (roster view h).Nodup := by
  induction h using List.reverseRecOn with
  | nil => simp
  | append_singleton h e ih => rw [roster_snoc]; exact apply_nodup ih _

theorem mem_apply {l : List α} (hl : l.Nodup) {m : Option (Move α)} {a : α} :
    a ∈ apply l m ↔ m = some (.join a) ∨ (m ≠ some (.leave a) ∧ a ∈ l) := by
  match m with
  | some (.join b) =>
    by_cases hb : b ∈ l <;> simp only [apply, hb, if_true, if_false] <;> grind
  | some (.leave b) => simp only [apply, hl.mem_erase_iff]; grind
  | none => simp [apply]

theorem mem_roster {h : List ε} {a : α} : a ∈ roster view h ↔ LastIsJoin view h a := by
  induction h using List.reverseRecOn with
  | nil => simpa using not_lastIsJoin_nil a
  | append_singleton h e ih =>
    rw [roster_snoc, mem_apply (roster_nodup h), lastIsJoin_snoc, ih]

instance (h : List ε) (a : α) : Decidable (LastIsJoin view h a) :=
  decidable_of_iff _ mem_roster

theorem roster_ordered (h : List ε) :
    (roster view h).Pairwise fun a b =>
      ∀ i j, JoinedAt view h a i → JoinedAt view h b j → i < j := by
  induction h using List.reverseRecOn with
  | nil => simp
  | append_singleton h e ih =>
    rw [roster_snoc]
    -- a place in the longer history of somebody who was a member already is the old place
    have old : ∀ {a i}, a ∈ roster view h → JoinedAt view (h ++ [e]) a i →
        JoinedAt view h a i := by
      intro a i ha hj
      rcases joinedAt_snoc.mp hj with ⟨-, hj⟩ | ⟨-, -, hn⟩
      · exact hj
      · exact absurd (mem_roster.mp ha) hn
    have kept : (roster view h).Pairwise fun a b =>
        ∀ i j, JoinedAt view (h ++ [e]) a i → JoinedAt view (h ++ [e]) b j → i < j :=
      ih.imp_of_mem fun ha hb hab i j hi hj => hab i j (old ha hi) (old hb hj)
    match hv : view e with
    | some (.join b) =>
      simp only [apply]
      split
      · exact kept
      · next hb =>
        refine List.pairwise_append.mpr ⟨kept, by simp, ?_⟩
        intro a ha c hc i j hi hj
        obtain rfl := List.mem_singleton.mp hc
        have hlt := joinedAt_lt (old ha hi)
        rcases joinedAt_snoc.mp hj with ⟨-, hj⟩ | ⟨-, rfl, -⟩
        · exact absurd (mem_roster.mpr (exists_joinedAt.mp ⟨j, hj⟩)) hb
        · exact hlt
    | some (.leave b) => exact kept.sublist List.erase_sublist
    | none => exact kept

end Roster

end SubscriptionRoster
