import Mathlib.Data.List.Basic
import Mathlib.Data.List.Perm.Basic
import Mathlib.Algebra.Order.BigOperators.Group.List
import Mathlib.Algebra.Order.Group.Nat
import Mathlib.Algebra.Order.Ring.Int

/-!
# Eviction by age

A bounded queue whose rows are protected or not. `evict p k l` is `l` without the first `k` rows
that `p` does not protect: the oldest unprotected rows go first, and the others keep their order.

* `filter_evict`, `filter_evict_not`: the protected rows all stay, and of the others a suffix.
* `Fits`: both limits hold; a sublist of a list that fits, fits (`Fits.of_sublist`).
* `Longest`: the suffix that stays is the longest one that fits beside the protected rows.
-/

namespace Retention

variable {α : Type*} (p : α → Bool)

/-- The list without the first `k` rows that are not protected. -/
def evict : ℕ → List α → List α
  | 0, l => l
  | _ + 1, [] => []
  | k + 1, a :: l => if p a then a :: evict (k + 1) l else evict k l

@[simp] theorem evict_zero (l : List α) : evict p 0 l = l := by cases l <;> rfl

@[simp] theorem evict_nil (k : ℕ) : evict p k [] = [] := by cases k <;> rfl

theorem evict_sublist (k : ℕ) (l : List α) : (evict p k l).Sublist l := by
  induction l generalizing k with
  | nil => simp
  | cons a l ih =>
    cases k with
    | zero => simp
    | succ k =>
      unfold evict
      split_ifs
      · exact (ih (k + 1)).cons_cons a
      · exact (ih k).cons a

/-- Every protected row stays. -/
theorem filter_evict (k : ℕ) (l : List α) : (evict p k l).filter p = l.filter p := by
  induction l generalizing k with
  | nil => simp
  | cons a l ih =>
    cases k with
    | zero => simp
    | succ k =>
      unfold evict
      split_ifs with ha
      · rw [List.filter_cons_of_pos ha, List.filter_cons_of_pos ha, ih]
      · rw [List.filter_cons_of_neg ha, ih]

/-- Of the other rows a suffix stays. -/
theorem filter_evict_not (k : ℕ) (l : List α) :
    (evict p k l).filter (!p ·) = (l.filter (!p ·)).drop k := by
  induction l generalizing k with
  | nil => simp
  | cons a l ih =>
    cases k with
    | zero => simp
    | succ k =>
      unfold evict
      split_ifs with ha
      · rw [List.filter_cons_of_neg (by simp [ha]), List.filter_cons_of_neg (by simp [ha]), ih]
      · rw [List.filter_cons_of_pos (by simp [ha]), List.drop_succ_cons, ih]

/-- One row more: the oldest unprotected one. -/
theorem evict_eraseIdx {l : List α} {i : ℕ} (hi : l.findIdx? (!p ·) = some i) (k : ℕ) :
    evict p k (l.eraseIdx i) = evict p (k + 1) l := by
  induction l generalizing i with
  | nil => simp at hi
  | cons a l ih =>
    rw [List.findIdx?_cons] at hi
    cases ha : p a with
    | false =>
      simp only [ha, Bool.not_false, if_true, Option.some.injEq] at hi
      subst hi
      simp [evict, ha]
    | true =>
      simp only [ha, Bool.not_true, Bool.false_eq_true, if_false, Option.map_eq_some_iff] at hi
      obtain ⟨j, hj, rfl⟩ := hi
      rw [List.eraseIdx_cons_succ, evict, if_pos ha, ← ih hj]
      cases k with
      | zero => simp
      | succ k => rw [evict, if_pos ha]

/-! ## Limits -/

variable (size : α → ℕ) (maxCount maxSize : ℕ)

/-- Both limits hold. -/
def Fits (l : List α) : Prop := l.length ≤ maxCount ∧ (l.map size).sum ≤ maxSize

variable {size maxCount maxSize}

theorem Fits.of_sublist {l l' : List α} (h : Fits size maxCount maxSize l') (hl : l.Sublist l') :
    Fits size maxCount maxSize l :=
  ⟨hl.length_le.trans h.1, ((hl.map size).sum_le_sum fun _ _ => Nat.zero_le _).trans h.2⟩

theorem Fits.perm {l l' : List α} (h : Fits size maxCount maxSize l) (hl : l.Perm l') :
    Fits size maxCount maxSize l' :=
  ⟨hl.length_eq ▸ h.1, (hl.map size).sum_eq ▸ h.2⟩

variable (size maxCount maxSize) in
/-- `front` are the rows of `old` that stay beside the new row `x`: every protected row, and the
longest suffix of the others for which both limits hold. -/
structure Longest (old : List α) (x : α) (front : List α) : Prop where
  /-- The oldest unprotected rows went, and nothing else. -/
  evicted : ∃ k, front = evict p k old
  fits : Fits size maxCount maxSize (front ++ [x])
  longest : ∀ suffix, suffix <:+ old.filter (!p ·) →
    Fits size maxCount maxSize (old.filter p ++ suffix ++ [x]) →
      suffix.length ≤ (front.filter (!p ·)).length

namespace Longest

variable {p} {old front : List α} {x : α}

theorem sublist (h : Longest p size maxCount maxSize old x front) : front.Sublist old := by
  obtain ⟨k, rfl⟩ := h.evicted
  exact evict_sublist p k old

/-- The order of the rows, and every protected one. -/
theorem filter_eq (h : Longest p size maxCount maxSize old x front) :
    front.filter p = old.filter p := by
  obtain ⟨k, rfl⟩ := h.evicted
  exact filter_evict p k old

theorem suffix (h : Longest p size maxCount maxSize old x front) :
    front.filter (!p ·) <:+ old.filter (!p ·) := by
  obtain ⟨k, rfl⟩ := h.evicted
  rw [filter_evict_not]
  exact List.drop_suffix _ _

/-- The protected rows fit beside the new one. -/
theorem fits_filter (h : Longest p size maxCount maxSize old x front) :
    Fits size maxCount maxSize (old.filter p ++ [x]) :=
  h.fits.of_sublist (h.filter_eq ▸ List.filter_sublist.append_right [x])

/-- Everything fits. -/
theorem of_fits (h : Fits size maxCount maxSize (old ++ [x])) :
    Longest p size maxCount maxSize old x old where
  evicted := ⟨0, (evict_zero p old).symm⟩
  fits := h
  longest _ hsuffix _ := hsuffix.sublist.length_le

/-- Not everything fits: the oldest unprotected row goes. -/
theorem of_eraseIdx {i : ℕ} (hfits : ¬Fits size maxCount maxSize (old ++ [x]))
    (hi : old.findIdx? (!p ·) = some i)
    (h : Longest p size maxCount maxSize (old.eraseIdx i) x front) :
    Longest p size maxCount maxSize old x front := by
  have hp : (old.eraseIdx i).filter p = old.filter p := by
    rw [← filter_evict p 1 old, ← evict_eraseIdx p hi, evict_zero]
  have hnot : (old.eraseIdx i).filter (!p ·) = (old.filter (!p ·)).drop 1 := by
    rw [← filter_evict_not p 1 old, ← evict_eraseIdx p hi, evict_zero]
  refine ⟨?_, h.fits, fun suffix hsuffix hf => ?_⟩
  · obtain ⟨k, rfl⟩ := h.evicted
    exact ⟨k + 1, evict_eraseIdx p hi k⟩
  · refine h.longest suffix ?_ (hp ▸ hf)
    rw [hnot]
    -- a suffix is the whole list, which does not fit, or a suffix of its tail
    cases hrows : old.filter (!p ·) with
    | nil => rwa [hrows] at hsuffix
    | cons a rest =>
      rw [hrows] at hsuffix
      rcases List.suffix_cons_iff.1 hsuffix with hall | hrest
      · refine absurd (hf.perm ?_) hfits
        rw [hall, ← hrows]
        exact (List.filter_append_perm p old).append_right [x]
      · exact hrest

end Longest

end Retention
