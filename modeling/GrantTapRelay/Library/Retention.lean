import Mathlib.Data.List.Basic
import Mathlib.Data.List.Sublists

/-!
# Lists that lose rows and gain rows at the end

`Keeps p old new`: `new` is `old` with some rows deleted and others appended, and none of the
deleted rows satisfies `p`. The relation composes (`Keeps.trans`), so that a bounded queue whose
every operation keeps the protected rows keeps them, in order, over any sequence of operations.
-/

namespace Retention

variable {α : Type*} {p : α → Bool}

/-- Some rows not satisfying `p` are deleted, then rows are appended. -/
def Keeps (p : α → Bool) (old new : List α) : Prop :=
  ∃ kept added, new = kept ++ added ∧ kept.Sublist old ∧ kept.filter p = old.filter p

namespace Keeps

theorem of_sublist {old new : List α} (h : new.Sublist old)
    (hp : new.filter p = old.filter p) : Keeps p old new :=
  ⟨new, [], (List.append_nil _).symm, h, hp⟩

theorem refl (l : List α) : Keeps p l l := of_sublist (List.Sublist.refl l) rfl

theorem append (l added : List α) : Keeps p l (l ++ added) := ⟨l, added, rfl, .refl l, rfl⟩

/-- Protecting fewer rows. -/
theorem mono {q : α → Bool} (hpq : ∀ x, q x = true → p x = true) {old new : List α}
    (h : Keeps p old new) : Keeps q old new := by
  obtain ⟨k, a, rfl, hk, hf⟩ := h
  refine ⟨k, a, rfl, hk, ?_⟩
  have e : ∀ l : List α, l.filter q = (l.filter p).filter q := fun l => by
    rw [List.filter_filter]
    refine List.filter_congr fun x _ => ?_
    cases hqx : q x with
    | false => rfl
    | true => rw [hpq x hqx]; rfl
  rw [e k, e old, hf]

/-- A filter that every protected row passes. -/
theorem filter {q : α → Bool} {l : List α} (h : ∀ x ∈ l, p x = true → q x = true) :
    Keeps p l (l.filter q) := by
  refine of_sublist List.filter_sublist ?_
  rw [List.filter_filter]
  refine List.filter_congr fun x hx => ?_
  cases hpx : p x with
  | false => rfl
  | true => rw [h x hx hpx]; rfl

/-- Deleting one unprotected row. -/
theorem eraseIdx {l : List α} {i : ℕ} (hi : i < l.length) (h : p l[i] = false) :
    Keeps p l (l.eraseIdx i) := by
  refine of_sublist (List.eraseIdx_sublist l i) ?_
  rw [List.eraseIdx_eq_take_drop_succ, List.filter_append]
  conv_rhs => rw [← List.take_append_drop i l, List.drop_eq_getElem_cons hi, List.filter_append,
    List.filter_cons_of_neg (by simp [h])]

theorem trans {l₁ l₂ l₃ : List α} (h₁ : Keeps p l₁ l₂) (h₂ : Keeps p l₂ l₃) : Keeps p l₁ l₃ := by
  obtain ⟨k₁, a₁, rfl, hk₁, hf₁⟩ := h₁
  obtain ⟨k₂, a₂, rfl, hk₂, hf₂⟩ := h₂
  obtain ⟨k, a, rfl, hk, ha⟩ := List.sublist_append_iff.1 hk₂
  refine ⟨k, a ++ a₂, by rw [List.append_assoc], hk.trans hk₁, ?_⟩
  -- neither part of the second step can lose a protected row, because together they lose none
  rw [List.filter_append, List.filter_append] at hf₂
  have hlen := congrArg List.length hf₂
  have hk' := (hk.filter p).length_le
  have ha' := (ha.filter p).length_le
  rw [List.length_append, List.length_append] at hlen
  rw [(hk.filter p).eq_of_length (by omega), hf₁]

/-- A protected last row stays, after a sublist of the rows before it. -/
theorem of_snoc {l new : List α} {x : α} (hx : p x = true) (h : Keeps p (l ++ [x]) new) :
    ∃ kept added, new = kept ++ x :: added ∧ kept.Sublist l := by
  obtain ⟨k, a, rfl, hk, hf⟩ := h
  obtain ⟨k₁, k₂, rfl, hk₁, hk₂⟩ := List.sublist_append_iff.1 hk
  have hlen := congrArg List.length hf
  rw [List.filter_append, List.filter_append, List.length_append, List.length_append,
    List.filter_cons_of_pos hx] at hlen
  have h₁ := (hk₁.filter p).length_le
  have h₂ : k₂ = [x] := by
    refine hk₂.eq_of_length (le_antisymm hk₂.length_le ?_)
    have := List.length_filter_le p k₂
    simp only [List.filter_nil, List.length_cons, List.length_nil] at hlen ⊢
    omega
  exact ⟨k₁, a, by rw [h₂, List.append_assoc]; rfl, hk₁⟩

end Keeps

end Retention
