import Mathlib.Data.List.Nodup
import Mathlib.Data.List.Basic

/-!
# Keyed tables

`Table κ ν` is a finite table with one row for each key: a relation with a primary key, or the
entries of a key-value store. The uniqueness of the keys is a field, so that a row is determined
by its key (`mem_rows`), and every operation keeps it.
-/

/-- Rows with pairwise distinct keys. -/
structure Table (κ ν : Type*) where
  rows : List (κ × ν)
  nodup : (rows.map Prod.fst).Nodup

namespace Table

variable {κ ν : Type*}

/-- The table without rows. -/
def empty : Table κ ν := ⟨[], List.nodup_nil⟩

/-- The values, in row order. -/
def values (t : Table κ ν) : List ν := t.rows.map Prod.snd

/-- The number of rows. -/
def size (t : Table κ ν) : ℕ := t.rows.length

/-- The rows that satisfy `p`. -/
def filter (t : Table κ ν) (p : κ → ν → Bool) : Table κ ν where
  rows := t.rows.filter fun r => p r.1 r.2
  nodup := t.nodup.sublist (List.filter_sublist.map Prod.fst)

/-- The table without its first row. -/
def tail (t : Table κ ν) : Table κ ν where
  rows := t.rows.tail
  nodup := t.nodup.sublist ((List.tail_sublist _).map Prod.fst)

/-- Every value rewritten in place. -/
def map (t : Table κ ν) (f : κ → ν → ν) : Table κ ν where
  rows := t.rows.map fun r => (r.1, f r.1 r.2)
  nodup := by
    rw [List.map_map]
    exact t.nodup

/-- Every row rewritten or deleted. -/
def filterMap (t : Table κ ν) (f : κ → ν → Option ν) : Table κ ν where
  rows := t.rows.filterMap fun r => (f r.1 r.2).map (Prod.mk r.1)
  nodup := by
    have hsub : ∀ rows : List (κ × ν),
        ((rows.filterMap fun r => (f r.1 r.2).map (Prod.mk r.1)).map Prod.fst).Sublist
          (rows.map Prod.fst) := fun rows => by
      induction rows with
      | nil => exact .slnil
      | cons r rows ih =>
        rw [List.filterMap_cons]
        cases h : (f r.1 r.2).map (Prod.mk r.1) with
        | none => exact ih.cons _
        | some r' =>
          obtain ⟨v, -, rfl⟩ := Option.map_eq_some_iff.1 h
          exact ih.cons_cons _
    exact t.nodup.sublist (hsub t.rows)

theorem mem_rows_filter {t : Table κ ν} {p : κ → ν → Bool} {r : κ × ν} :
    r ∈ (t.filter p).rows ↔ r ∈ t.rows ∧ p r.1 r.2 = true := List.mem_filter

theorem ext_rows {t u : Table κ ν} (h : t.rows = u.rows) : t = u := by
  cases t
  cases u
  cases h
  rfl

theorem map_map (t : Table κ ν) (f g : κ → ν → ν) :
    (t.map f).map g = t.map fun k v => g k (f k v) := ext_rows List.map_map

theorem map_congr {t : Table κ ν} {f g : κ → ν → ν} (h : ∀ k v, f k v = g k v) :
    t.map f = t.map g := ext_rows (List.map_congr_left fun r _ => by rw [h])

variable [DecidableEq κ]

/-- The value at a key. -/
def get? (t : Table κ ν) (k : κ) : Option ν := t.rows.lookup k

/-- Delete the row at a key. -/
def erase (t : Table κ ν) (k : κ) : Table κ ν := t.filter fun k' _ => k' ≠ k

/-- Insert a row, or replace the value of the row at its key. -/
def put (t : Table κ ν) (k : κ) (v : ν) : Table κ ν where
  rows := if k ∈ t.rows.map Prod.fst then (t.map fun k' v' => if k' = k then v else v').rows
    else t.rows ++ [(k, v)]
  nodup := by
    split_ifs with h
    · exact (t.map _).nodup
    · rw [List.map_append]
      exact t.nodup.append (List.nodup_singleton _) (by simpa using h)

/-! ## Lookups -/

theorem lookup_eq_some_of_mem {rows : List (κ × ν)} (h : (rows.map Prod.fst).Nodup) {k : κ} {v : ν}
    (hm : (k, v) ∈ rows) : rows.lookup k = some v := by
  induction rows with
  | nil => cases hm
  | cons r rows ih =>
    rw [List.map_cons, List.nodup_cons] at h
    rcases List.mem_cons.1 hm with rfl | hm
    · simp
    · have hk : k ≠ r.1 := fun e => h.1 (e ▸ List.mem_map_of_mem (f := Prod.fst) hm)
      rw [List.lookup_cons, beq_false_of_ne hk]
      exact ih h.2 hm

theorem mem_of_lookup_eq_some {rows : List (κ × ν)} {k : κ} {v : ν} (h : rows.lookup k = some v) :
    (k, v) ∈ rows := by
  induction rows with
  | nil => cases h
  | cons r rows ih =>
    rw [List.lookup_cons] at h
    split at h
    · rename_i heq
      obtain rfl := LawfulBEq.eq_of_beq heq
      cases h
      exact List.mem_cons_self
    · exact List.mem_cons_of_mem _ (ih h)

/-- A row is the value at its key. -/
theorem mem_rows {t : Table κ ν} {k : κ} {v : ν} : (k, v) ∈ t.rows ↔ t.get? k = some v :=
  ⟨lookup_eq_some_of_mem t.nodup, mem_of_lookup_eq_some⟩

theorem mem_values {t : Table κ ν} {v : ν} : v ∈ t.values ↔ ∃ k, t.get? k = some v := by
  simp [values, mem_rows]

theorem get?_eq_none {t : Table κ ν} {k : κ} : t.get? k = none ↔ k ∉ t.rows.map Prod.fst := by
  rw [← not_iff_not, not_not, List.mem_map, ← ne_eq, Option.ne_none_iff_exists']
  constructor
  · rintro ⟨v, h⟩
    exact ⟨(k, v), mem_rows.2 h, rfl⟩
  · rintro ⟨⟨k', v⟩, h, rfl⟩
    exact ⟨v, mem_rows.1 h⟩

@[simp] theorem get?_empty (k : κ) : (empty : Table κ ν).get? k = none := rfl

theorem get?_filter (t : Table κ ν) (p : κ → ν → Bool) (k : κ) :
    (t.filter p).get? k = (t.get? k).filter (p k) := by
  cases h : t.get? k with
  | none =>
    refine get?_eq_none.2 fun hm => get?_eq_none.1 h ?_
    exact (List.filter_sublist.map Prod.fst).subset hm
  | some v =>
    by_cases hp : p k v = true
    · rw [Option.filter_some, if_pos hp]
      exact mem_rows.1 (List.mem_filter.2 ⟨mem_rows.2 h, hp⟩)
    · rw [Option.filter_some, if_neg hp]
      refine Option.eq_none_iff_forall_ne_some.2 fun w hw => ?_
      obtain ⟨hm, hpw⟩ := List.mem_filter.1 (mem_rows.2 hw)
      rw [mem_rows.1 hm] at h
      cases h
      exact hp hpw

theorem get?_map (t : Table κ ν) (f : κ → ν → ν) (k : κ) :
    (t.map f).get? k = (t.get? k).map (f k) := by
  cases h : t.get? k with
  | none =>
    refine get?_eq_none.2 fun hm => get?_eq_none.1 h ?_
    rw [map, List.map_map] at hm
    exact hm
  | some v => exact mem_rows.1 (List.mem_map.2 ⟨(k, v), mem_rows.2 h, rfl⟩)

theorem get?_filterMap (t : Table κ ν) (f : κ → ν → Option ν) (k : κ) :
    (t.filterMap f).get? k = (t.get? k).bind (f k) := by
  refine Option.ext fun w => ?_
  rw [← mem_rows, filterMap, List.mem_filterMap, Option.bind_eq_some_iff]
  constructor
  · rintro ⟨⟨k', v⟩, hm, hv⟩
    obtain ⟨w', hw, he⟩ := Option.map_eq_some_iff.1 hv
    cases he
    exact ⟨v, mem_rows.1 hm, hw⟩
  · rintro ⟨v, hm, hv⟩
    exact ⟨(k, v), mem_rows.2 hm, Option.map_eq_some_iff.2 ⟨w, hv, rfl⟩⟩

@[simp] theorem get?_erase (t : Table κ ν) (k k' : κ) :
    (t.erase k).get? k' = if k' = k then none else t.get? k' := by
  rw [erase, get?_filter]
  by_cases h : k' = k
  · cases hv : t.get? k' <;> simp [h]
  · cases hv : t.get? k' <;> simp [h]

@[simp] theorem get?_put (t : Table κ ν) (k k' : κ) (v : ν) :
    (t.put k v).get? k' = if k' = k then some v else t.get? k' := by
  by_cases hk : k ∈ t.rows.map Prod.fst
  · have e : t.put k v = t.map fun k' v' => if k' = k then v else v' := by
      simp only [put, hk, if_true]
    rw [e, get?_map]
    obtain ⟨w, hw⟩ := Option.ne_none_iff_exists'.1 (mt get?_eq_none.1 (not_not.2 hk))
    by_cases h : k' = k
    · simp [h, hw]
    · cases hv : t.get? k' <;> simp [h]
  · have e : (t.put k v).rows = t.rows ++ [(k, v)] := by simp only [put, hk, if_false]
    by_cases h : k' = k
    · subst h
      rw [if_pos rfl]
      exact mem_rows.1 (e ▸ List.mem_append_right _ (List.mem_singleton.2 rfl))
    · rw [if_neg h]
      refine Option.ext fun w => ?_
      rw [← mem_rows, ← mem_rows, e]
      simp [h]

theorem mem_rows_put {t : Table κ ν} {k k' : κ} {v w : ν} (h : (k', w) ∈ (t.put k v).rows) :
    (k', w) = (k, v) ∨ (k', w) ∈ t.rows := by
  rw [mem_rows, get?_put] at h
  split_ifs at h with e
  · cases h
    exact .inl (by rw [e])
  · exact .inr (mem_rows.2 h)

/-! ## Rewriting -/

theorem map_put (t : Table κ ν) (f : κ → ν → ν) (k : κ) (v : ν) :
    (t.put k v).map f = (t.map f).put k (f k v) := by
  have hkeys : (t.map f).rows.map Prod.fst = t.rows.map Prod.fst := by
    rw [map, List.map_map]
    rfl
  refine ext_rows ?_
  simp only [put, hkeys]
  by_cases hk : k ∈ t.rows.map Prod.fst
  · simp only [map, if_pos hk, List.map_map]
    refine List.map_congr_left fun r _ => ?_
    dsimp only [Function.comp_apply]
    by_cases hr : r.1 = k
    · rw [if_pos hr, if_pos hr, hr]
    · rw [if_neg hr, if_neg hr]
  · simp only [map, if_neg hk, List.map_append, List.map_cons, List.map_nil]

/-- Writing what is there. -/
theorem put_eq_self {t : Table κ ν} {k : κ} {v : ν} (h : t.get? k = some v) : t.put k v = t := by
  have hkey : k ∈ t.rows.map Prod.fst := List.mem_map_of_mem (mem_rows.2 h)
  refine ext_rows ((if_pos hkey).trans ?_)
  refine (List.map_congr_left fun r hr => ?_).trans (List.map_id _)
  dsimp only [id]
  by_cases he : r.1 = k
  · have hv : t.get? r.1 = some r.2 := mem_rows.1 hr
    rw [he, h] at hv
    rw [if_pos he, Option.some_inj.1 hv]
  · rw [if_neg he]

/-! ## Sizes -/

/-- A row that is deleted and inserted again is the last one. -/
theorem rows_put_erase (t : Table κ ν) (k : κ) (v : ν) :
    ((t.erase k).put k v).rows = (t.erase k).rows ++ [(k, v)] := by
  refine if_neg (get?_eq_none.1 ?_)
  rw [get?_erase, if_pos rfl]

theorem erase_eq_self {t : Table κ ν} {k : κ} (h : t.get? k = none) : t.erase k = t := by
  obtain ⟨rows, nodup⟩ := t
  simp only [erase, filter, mk.injEq, List.filter_eq_self]
  intro r hr
  refine decide_eq_true fun he => get?_eq_none.1 h ?_
  exact List.mem_map.2 ⟨r, hr, he⟩

theorem size_erase_le (t : Table κ ν) (k : κ) : (t.erase k).size ≤ t.size := by
  exact List.length_filter_le _ _

theorem size_erase_lt {t : Table κ ν} {k : κ} {v : ν} (h : t.get? k = some v) :
    (t.erase k).size < t.size := by
  refine List.length_filter_lt_length_iff_exists.2 ⟨(k, v), mem_rows.2 h, ?_⟩
  simp

theorem size_put_le (t : Table κ ν) (k : κ) (v : ν) : (t.put k v).size ≤ t.size + 1 := by
  unfold size put
  dsimp only
  split_ifs
  · simp [map]
  · simp

/-- The row of a key is replaced. -/
theorem size_put_of_isSome {t : Table κ ν} {k : κ} (h : (t.get? k).isSome) (v : ν) :
    (t.put k v).size = t.size := by
  have hk : k ∈ t.rows.map Prod.fst := by
    by_contra hk
    rw [get?_eq_none.2 hk] at h
    cases h
  unfold size put
  simp only [hk, if_true]
  exact List.length_map _

/-! ## Visiting rows

A pass over some rows of a table that touches only the row it visits. -/

section Visit

variable {σ ω : Type*} (get : σ → κ → ω) {step : σ → κ × ν → σ}

omit [DecidableEq κ] in
theorem foldl_of_notMem {l : List (κ × ν)}
    (hstep : ∀ s, ∀ r ∈ l, ∀ k, k ≠ r.1 → get (step s r) k = get s k) (s : σ) {k : κ}
    (hk : k ∉ l.map Prod.fst) : get (l.foldl step s) k = get s k := by
  induction l generalizing s with
  | nil => rfl
  | cons r l ih =>
    rw [List.map_cons, List.mem_cons, not_or] at hk
    rw [List.foldl_cons, ih (fun s r' hr => hstep s r' (List.mem_cons_of_mem _ hr)) _ hk.2,
      hstep s r List.mem_cons_self k hk.1]

omit [DecidableEq κ] in
/-- A visited row is as it was before its visit, and nothing touches it after. -/
theorem foldl_of_mem {l : List (κ × ν)} (hnodup : (l.map Prod.fst).Nodup)
    (hstep : ∀ s, ∀ r ∈ l, ∀ k, k ≠ r.1 → get (step s r) k = get s k) (s : σ) {r : κ × ν}
    (hr : r ∈ l) : ∃ s', get s' r.1 = get s r.1 ∧
      get (l.foldl step s) r.1 = get (step s' r) r.1 := by
  induction l generalizing s with
  | nil => cases hr
  | cons r₀ l ih =>
    rw [List.map_cons, List.nodup_cons] at hnodup
    have htail : ∀ s, ∀ r ∈ l, ∀ k, k ≠ r.1 → get (step s r) k = get s k :=
      fun s r' hr' => hstep s r' (List.mem_cons_of_mem _ hr')
    rw [List.foldl_cons]
    rcases List.mem_cons.1 hr with rfl | hr
    · exact ⟨s, rfl, foldl_of_notMem get htail _ hnodup.1⟩
    · have hne : r.1 ≠ r₀.1 := fun e => hnodup.1 (e ▸ List.mem_map_of_mem hr)
      obtain ⟨s', hs', hfold⟩ := ih hnodup.2 htail (step s r₀) hr
      exact ⟨s', hs'.trans (hstep s r₀ List.mem_cons_self _ hne), hfold⟩

end Visit

end Table
