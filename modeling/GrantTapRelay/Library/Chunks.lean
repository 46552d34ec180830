import GrantTapRelay.Library.Table
import Mathlib.Tactic.Ring

/-!
# Values in chunks

A long list is stored as slices of a fixed size under a family of keys. Joining the slices gives
the list back (`flatten_slices`), and a pass that writes or deletes a family touches the keys of
that family only (`Table.get?_putAll`, `Table.get?_eraseAll`).
-/

namespace Chunks

variable {α : Type*}

/-- The slice of `l` at position `i`. -/
def slice (n : ℕ) (l : List α) (i : ℕ) : List α := (l.drop (i * n)).take n

/-- The number of slices. -/
def count (n length : ℕ) : ℕ := (length + n - 1) / n

theorem flatten_slices_take (n : ℕ) (l : List α) (m : ℕ) :
    ((List.range m).map (slice n l)).flatten = l.take (m * n) := by
  induction m with
  | zero => rw [List.range_zero, Nat.zero_mul, List.take_zero]; rfl
  | succ m ih =>
    rw [List.range_succ, List.map_append, List.flatten_append, ih, Nat.succ_mul, List.take_add]
    simp [slice]

theorem length_le_count_mul {n : ℕ} (hn : 0 < n) (length : ℕ) : length ≤ count n length * n := by
  have h := Nat.div_add_mod (length + n - 1) n
  have hmod := Nat.mod_lt (length + n - 1) hn
  have hcomm : n * ((length + n - 1) / n) = count n length * n := Nat.mul_comm _ _
  omega

theorem count_mono (n : ℕ) {a b : ℕ} (h : a ≤ b) : count n a ≤ count n b :=
  Nat.div_le_div_right (by omega)

/-- **Joining the slices.** -/
theorem flatten_slices {n : ℕ} (hn : 0 < n) (l : List α) :
    ((List.range (count n l.length)).map (slice n l)).flatten = l := by
  rw [flatten_slices_take, List.take_of_length_le (length_le_count_mul hn l.length)]

theorem length_slice_le (n : ℕ) (l : List α) (i : ℕ) : (slice n l i).length ≤ n := by
  rw [slice, List.length_take]
  exact min_le_left _ _

/-- Reading every element of a list. -/
theorem mapM_some {β : Type*} {f : α → Option β} {g : α → β} {l : List α}
    (h : ∀ a ∈ l, f a = some (g a)) : l.mapM f = some (l.map g) := by
  induction l with
  | nil => rfl
  | cons a l ih =>
    rw [List.mapM_cons, h a List.mem_cons_self, ih fun b hb => h b (List.mem_cons_of_mem _ hb)]
    rfl

/-- The elements of a list that was read. -/
theorem mapM_eq_some {β : Type*} {f : α → Option β} {l : List α} {bs : List β}
    (h : l.mapM f = some bs) (d : β) :
    bs = l.map (fun a => (f a).getD d) ∧ ∀ a ∈ l, f a = some ((f a).getD d) := by
  induction l generalizing bs with
  | nil =>
    cases h
    exact ⟨rfl, fun a ha => absurd ha List.not_mem_nil⟩
  | cons a l ih =>
    rw [List.mapM_cons] at h
    obtain ⟨b, hb, h⟩ := Option.bind_eq_some_iff.1 h
    obtain ⟨rest, hrest, h⟩ := Option.bind_eq_some_iff.1 h
    cases h
    obtain ⟨rfl, hmem⟩ := ih hrest
    refine ⟨by rw [List.map_cons, hb, Option.getD_some], fun x hx => ?_⟩
    rcases List.mem_cons.1 hx with rfl | hx
    · rw [hb, Option.getD_some]
    · exact hmem x hx

end Chunks

namespace Table

variable {ι κ ν : Type*} [DecidableEq κ]

/-- Delete a family of keys. -/
def eraseAll (t : Table κ ν) (key : ι → κ) (l : List ι) : Table κ ν :=
  l.foldl (fun t i => t.erase (key i)) t

/-- Write a family of values. -/
def putAll (t : Table κ ν) (key : ι → κ) (value : ι → ν) (l : List ι) : Table κ ν :=
  l.foldl (fun t i => t.put (key i) (value i)) t

theorem get?_eraseAll (t : Table κ ν) (key : ι → κ) (l : List ι) (k : κ) :
    (t.eraseAll key l).get? k = if k ∈ l.map key then none else t.get? k := by
  induction l generalizing t with
  | nil => rfl
  | cons i l ih =>
    rw [eraseAll, List.foldl_cons, ← eraseAll, ih, get?_erase, List.map_cons]
    by_cases hk : k ∈ l.map key
    · rw [if_pos hk, if_pos (List.mem_cons_of_mem _ hk)]
    · rw [if_neg hk]
      by_cases hi : k = key i
      · rw [if_pos hi, if_pos (List.mem_cons.2 (.inl hi))]
      · rw [if_neg hi, if_neg fun h => (List.mem_cons.1 h).elim hi hk]

theorem get?_putAll_of_notMem (t : Table κ ν) {key : ι → κ} (value : ι → ν) {l : List ι} {k : κ}
    (hk : k ∉ l.map key) : (t.putAll key value l).get? k = t.get? k := by
  induction l generalizing t with
  | nil => rfl
  | cons i l ih =>
    rw [List.map_cons, List.mem_cons, not_or] at hk
    rw [putAll, List.foldl_cons, ← putAll, ih _ hk.2, get?_put, if_neg hk.1]

theorem get?_putAll_of_mem (t : Table κ ν) {key : ι → κ} (hkey : Function.Injective key)
    (value : ι → ν) {l : List ι} {i : ι} (hi : i ∈ l) :
    (t.putAll key value l).get? (key i) = some (value i) := by
  induction l generalizing t with
  | nil => cases hi
  | cons j l ih =>
    rw [putAll, List.foldl_cons, ← putAll]
    by_cases hl : i ∈ l
    · exact ih _ hl
    · obtain rfl := (List.mem_cons.1 hi).resolve_right hl
      have hnot : key i ∉ l.map key := fun h => by
        obtain ⟨j, hj, he⟩ := List.mem_map.1 h
        exact hl (hkey he ▸ hj)
      rw [get?_putAll_of_notMem _ _ hnot, get?_put, if_pos rfl]

end Table
