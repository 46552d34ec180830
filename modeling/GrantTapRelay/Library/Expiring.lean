import GrantTapRelay.Library.Table
import Mathlib.Data.Set.Card
import Mathlib.Logic.Function.Basic

/-!
# Maps whose entries expire

A store keeps values under keys until they expire, and deletes expired ones when it likes. What
counts of its contents, a map `κ → Option ν`, is the entries that are `live`: two maps are `Alike`
at a time when nobody who looks then, or later, can tell them apart. The keys fall into groups, and
a group that is full takes no new key (`HasRoom`).

* `Alike.later`, `Alike.update`, `Alike.erase`, `Alike.sweep`: what keeps maps alike.
* `Alike.hasRoom`: maps that are alike have room for the same keys.
* `occupied_rows`: the live entries of a group, counted in the rows of a table.
* `Within.update`: **a store that asks for room** keeps its groups within the limit.
-/

namespace Expiring

variable {κ ν γ τ : Type*} [LinearOrder τ] (expiry : ν → τ) (group : κ → γ) (limit : ℕ)
  {t t' : τ} {m m' : κ → Option ν} {k : κ} {v : ν} {g : γ}

/-! ## Live entries -/

/-- The entries that have not expired. -/
def live (t : τ) (m : κ → Option ν) (k : κ) : Option ν := (m k).filter fun v => t < expiry v

/-- The maps have the same live entries. -/
def Alike (t : τ) (m m' : κ → Option ν) : Prop := live expiry t m = live expiry t m'

variable {expiry}

theorem live_eq_some : live expiry t m k = some v ↔ m k = some v ∧ t < expiry v := by
  simp [live, Option.filter_eq_some_iff]

theorem live_live (h : t ≤ t') (m : κ → Option ν) :
    live expiry t' (live expiry t m) = live expiry t' m := by
  ext k v
  simp only [live_eq_some]
  constructor
  · rintro ⟨⟨hm, -⟩, hv⟩
    exact ⟨hm, hv⟩
  · rintro ⟨hm, hv⟩
    exact ⟨⟨hm, lt_of_le_of_lt h hv⟩, hv⟩

namespace Alike

theorem refl (t : τ) (m : κ → Option ν) : Alike expiry t m m := rfl

theorem symm (h : Alike expiry t m m') : Alike expiry t m' m := Eq.symm h

theorem trans {m'' : κ → Option ν} (h : Alike expiry t m m') (h' : Alike expiry t m' m'') :
    Alike expiry t m m'' := Eq.trans h h'

theorem live_eq (h : Alike expiry t m m') (k : κ) : live expiry t m k = live expiry t m' k :=
  congrFun h k

/-- Maps stay alike while time passes. -/
theorem later (h : Alike expiry t m m') (hle : t ≤ t') : Alike expiry t' m m' := by
  unfold Alike at h ⊢
  rw [← live_live hle m, h, live_live hle]

/-- Expired entries may go. -/
theorem sweep (h : t ≤ t') (m : κ → Option ν) : Alike expiry t' (live expiry t m) m :=
  live_live h m

/-- Entry by entry. -/
theorem of_live (h : ∀ k, live expiry t m k = live expiry t m' k) : Alike expiry t m m' := funext h

variable [DecidableEq κ]

/-- The same entry is written. -/
theorem update (h : Alike expiry t m m') (k : κ) (entry : Option ν) :
    Alike expiry t (Function.update m k entry) (Function.update m' k entry) := by
  refine of_live fun k' => ?_
  by_cases hk : k' = k
  · subst hk
    simp [live]
  · have hsame := h.live_eq k'
    simpa [live, hk] using hsame

/-- An entry that has expired may be deleted. -/
theorem erase (h : live expiry t m k = none) : Alike expiry t (Function.update m k none) m := by
  refine of_live fun k' => ?_
  by_cases hk : k' = k
  · subst hk
    rw [h]
    simp [live]
  · simp [live, hk]

end Alike

/-! ## Groups -/

variable (expiry) in
/-- How many live entries a group has. -/
noncomputable def occupied (t : τ) (m : κ → Option ν) (g : γ) : ℕ :=
  {k | group k = g ∧ (live expiry t m k).isSome}.ncard

variable (expiry) in
/-- A key that is there may be written; a new one needs a place in its group. -/
def HasRoom (t : τ) (m : κ → Option ν) (k : κ) : Prop :=
  (live expiry t m k).isSome ∨ occupied expiry group t m (group k) < limit

variable {group} {limit}

theorem Alike.occupied_eq (h : Alike expiry t m m') (g : γ) :
    occupied expiry group t m g = occupied expiry group t m' g := by
  unfold occupied
  rw [show live expiry t m = live expiry t m' from h]

/-- Maps that are alike have room for the same keys. -/
theorem Alike.hasRoom (h : Alike expiry t m m') (k : κ) :
    HasRoom expiry group limit t m k ↔ HasRoom expiry group limit t m' k := by
  unfold HasRoom
  rw [h.live_eq, h.occupied_eq]

/-- No group has more live entries than the limit, which are finitely many. -/
structure Within (group : κ → γ) (limit : ℕ) (t : τ) (expiry : ν → τ) (m : κ → Option ν) :
    Prop where
  finite : {k | (live expiry t m k).isSome}.Finite
  le : ∀ g, occupied expiry group t m g ≤ limit

theorem Within.mono (h : Within group limit t expiry m)
    (hle : ∀ k, (live expiry t' m' k).isSome → (live expiry t m k).isSome) :
    Within group limit t' expiry m' where
  finite := h.finite.subset hle
  le g := by
    refine le_trans (Set.ncard_le_ncard ?_ (h.finite.subset fun k hk => hk.2)) (h.le g)
    rintro k ⟨hg, hk⟩
    exact ⟨hg, hle k hk⟩

variable [DecidableEq κ]

/-- The live entries of a group, in a table. -/
theorem occupied_rows [DecidableEq γ] (table : Table κ ν) (g : γ) :
    occupied expiry group t table.get? g =
      (table.rows.filter fun r => group r.1 = g && t < expiry r.2).length := by
  have hkeys : {k | group k = g ∧ (live expiry t table.get? k).isSome} =
      (((table.rows.filter fun r => group r.1 = g && t < expiry r.2).map Prod.fst).toFinset :
        Set κ) := by
    ext k
    simp only [Set.mem_ofPred_eq, List.coe_toFinset, List.mem_map, List.mem_filter, Prod.exists,
      Table.mem_rows, Option.isSome_iff_exists, live_eq_some, Bool.and_eq_true, decide_eq_true_eq,
      exists_and_right, exists_eq_right]
    constructor
    · rintro ⟨hg, v, hv, hlive⟩
      exact ⟨v, hv, hg, hlive⟩
    · rintro ⟨v, hv, hg, hlive⟩
      exact ⟨hg, v, hv, hlive⟩
  unfold occupied
  rw [hkeys, Set.ncard_coe_finset, List.toFinset_card_of_nodup, List.length_map]
  exact table.nodup.sublist (List.filter_sublist.map Prod.fst)

/-- **A store that asks for room** keeps its groups within the limit. -/
theorem Within.update (h : Within group limit t expiry m)
    (hroom : HasRoom expiry group limit t m k) (entry : Option ν) :
    Within group limit t expiry (Function.update m k entry) := by
  have hold {k' : κ} (hk : k' ≠ k) (hlive : (live expiry t (Function.update m k entry) k').isSome) :
      (live expiry t m k').isSome := by
    simpa [live, hk] using hlive
  rcases hroom with hthere | hfree
  · refine h.mono fun k' hk' => ?_
    by_cases hk : k' = k
    · exact hk ▸ hthere
    · exact hold hk hk'
  · refine ⟨(h.finite.insert k).subset fun k' hk' => ?_, fun g => ?_⟩
    · by_cases hk : k' = k
      · exact .inl hk
      · exact .inr (hold hk hk')
    · have hfinite (g : γ) : {k | group k = g ∧ (live expiry t m k).isSome}.Finite :=
        h.finite.subset fun k hk => hk.2
      by_cases hg : group k = g
      · -- at most one more entry
        subst hg
        have hsub : {k' | group k' = group k ∧
            (live expiry t (Function.update m k entry) k').isSome} ⊆
              insert k {k' | group k' = group k ∧ (live expiry t m k').isSome} := by
          rintro k' ⟨hg, hk'⟩
          by_cases hk : k' = k
          · exact .inl hk
          · exact .inr ⟨hg, hold hk hk'⟩
        have hcard := Set.ncard_le_ncard hsub ((hfinite (group k)).insert k)
        have hinsert := Set.ncard_insert_le k
          {k' | group k' = group k ∧ (live expiry t m k').isSome}
        unfold occupied at hfree ⊢
        omega
      · refine le_trans (Set.ncard_le_ncard ?_ (hfinite g)) (h.le g)
        rintro k' ⟨hg', hk'⟩
        refine ⟨hg', hold ?_ hk'⟩
        rintro rfl
        exact hg hg'

end Expiring
