import GrantTapRelay.Library.Table
import Mathlib.Algebra.BigOperators.Group.Finset.Basic
import Mathlib.Algebra.Order.BigOperators.Group.Finset
import Mathlib.Algebra.Ring.Nat
import Mathlib.Data.Nat.Cast.Basic

/-!
# Loads

A store maps indexes to the values it keeps, and each value has a weight. A `Bounded` store has a
total weight of at most `n`, which is said of the finite sets of its indexes, so that it needs no
enumeration of the store: an operation that adds no weight at any index keeps the bound
(`Bounded.mono`), and one that writes one index raises it by the weight of what it writes
(`Bounded.write`), as one that deletes an index lowers it (`Bounded.erase`). The rows of a table bound
it (`bounded_rows`).
-/

namespace Loads

open Finset

variable {ι ν : Type*} {w : ν → ℕ} {f : ι → Option ν} {m n : ℕ}

/-- The weight at an index. -/
def weight (w : ν → ℕ) (v : Option ν) : ℕ := v.elim 0 w

@[simp] theorem weight_none : weight w none = 0 := rfl

@[simp] theorem weight_some (v : ν) : weight w (some v) = w v := rfl

/-- The weight of every finite set of indexes is at most `n`. -/
def Bounded (w : ν → ℕ) (f : ι → Option ν) (n : ℕ) : Prop :=
  ∀ ids : Finset ι, ∑ i ∈ ids, weight w (f i) ≤ n

theorem bounded_empty (h : ∀ i, f i = none) : Bounded w f n := by
  intro ids
  simp [h]

/-- What adds no weight keeps the bound. -/
theorem Bounded.mono {ν' : Type*} {w' : ν' → ℕ} {f' : ι → Option ν'} (hf : Bounded w f n)
    (hle : ∀ i, weight w' (f' i) ≤ weight w (f i)) : Bounded w' f' n := fun ids =>
  (sum_le_sum fun i _ => hle i).trans (hf ids)

/-- **Writing at one index** raises the bound by the weight of what is written. -/
theorem Bounded.write [DecidableEq ι] {i : ι}
    (hf : Bounded w (fun j => if j = i then none else f j) m) (hsum : m + weight w (f i) ≤ n) :
    Bounded w f n := by
  intro ids
  have hrest : ∑ j ∈ ids.erase i, weight w (f j) ≤ m := by
    refine le_trans (sum_le_sum fun j hj => ?_) (hf (ids.erase i))
    simp [ne_of_mem_erase hj]
  by_cases hi : i ∈ ids
  · rw [← add_sum_erase ids _ hi]
    omega
  · rw [erase_eq_of_notMem hi] at hrest
    omega

/-- **Deleting one index** lowers the bound by the weight of what was there. -/
theorem Bounded.erase [DecidableEq ι] (hf : Bounded w f n) (i : ι) :
    Bounded w (fun j => if j = i then none else f j) (n - weight w (f i)) := by
  intro ids
  have hids := hf (insert i (ids.erase i))
  rw [sum_insert (notMem_erase i ids)] at hids
  have hrest : ∑ j ∈ ids, weight w (if j = i then none else f j) ≤
      ∑ j ∈ ids.erase i, weight w (f j) := by
    refine (sum_le_sum_of_ne_zero fun j hj hne => mem_erase.2 ⟨?_, hj⟩).trans
      (sum_le_sum fun j hj => ?_)
    · rintro rfl
      simp at hne
    · simp [ne_of_mem_erase hj]
  refine hrest.trans ?_
  omega

/-- The number of indexes whose values satisfy `p`. -/
theorem Bounded.card_le {p : ν → Bool} (hf : Bounded (fun v => if p v then 1 else 0) f n)
    {ids : Finset ι} (h : ∀ i ∈ ids, (f i).any p = true) : ids.card ≤ n := by
  have hone : ∀ i ∈ ids, weight (fun v => if p v then 1 else 0) (f i) = 1 := by
    intro i hi
    obtain ⟨v, hv, hp⟩ := (Option.any_eq_true ..).1 (h i hi)
    simp [hv, hp]
  simpa [sum_congr rfl hone] using hf ids

/-- A family of indexes keeps the bound. -/
theorem Bounded.comp {κ : Type*} {key : ι → κ} (hkey : Function.Injective key) {t : κ → Option ν}
    (h : Bounded w t n) : Bounded w (fun i => t (key i)) n := fun ids => by
  have hmap := h (ids.map ⟨key, hkey⟩)
  rwa [sum_map] at hmap

/-- The weights of the rows of a table bound it. -/
theorem bounded_rows {κ : Type*} [DecidableEq κ] (w : ν → ℕ) (t : Table κ ν) :
    Bounded w t.get? (t.rows.map fun r => w r.2).sum := by
  intro ids
  have hrows : ∑ k ∈ (t.rows.map Prod.fst).toFinset, weight w (t.get? k) =
      (t.rows.map fun r => w r.2).sum := by
    rw [List.sum_toFinset _ t.nodup, List.map_map]
    refine congrArg List.sum (List.map_congr_left fun r hr => ?_)
    rw [Function.comp_apply, Table.mem_rows.1 hr, weight_some]
  rw [← hrows]
  refine sum_le_sum_of_ne_zero fun k _ hk => List.mem_toFinset.2 ?_
  have hsome : t.get? k ≠ none := by
    intro hnone
    rw [hnone] at hk
    exact hk rfl
  exact Classical.not_not.1 fun hnone => hsome (Table.get?_eq_none.2 hnone)

end Loads
