import GrantTapRelay.Library.Table

/-!
# Pages

A long sorted list is read page by page: a page is what comes after the key of the last element read
before it. After any number of elements the rest of the list is what comes after their last key
(`after_getLast?`). The elements of the pages are collected in a table, which keeps them all
(`Table.rows_collect`).
-/

namespace Pages

variable {α κ : Type*} (lt : κ → κ → Bool) (key : α → κ)

/-- The elements whose keys come after the cursor. -/
def after (cursor : Option κ) (l : List α) : List α :=
  l.filter fun a => cursor.all fun c => lt c (key a)

variable {lt key}

/-- **The rest of a sorted list** comes after the last key of what was read. -/
theorem after_getLast? (hirrefl : ∀ c, lt c c = false)
    (hasymm : ∀ c d, lt c d = true → lt d c = false) {front rest : List α}
    (hsorted : (front ++ rest).Pairwise fun a b => lt (key a) (key b) = true) :
    after lt key (front.getLast?.map key) (front ++ rest) = rest := by
  rcases List.eq_nil_or_concat' front with rfl | ⟨init, last, rfl⟩
  · exact List.filter_eq_self.2 fun _ _ => rfl
  · obtain ⟨hfront, -, hcross⟩ := List.pairwise_append.1 hsorted
    obtain ⟨-, -, hinit⟩ := List.pairwise_append.1 hfront
    rw [List.getLast?_append, List.getLast?_singleton, Option.some_or, Option.map_some, after,
      List.filter_append]
    have hread : (init ++ [last]).filter (fun a => (some (key last)).all fun c => lt c (key a)) =
        [] := by
      refine List.filter_eq_nil_iff.2 fun a ha => Bool.eq_false_iff.1 ?_
      rcases List.mem_append.1 ha with ha | ha
      · exact hasymm _ _ (hinit a ha last (List.mem_singleton.2 rfl))
      · rw [List.mem_singleton.1 ha]
        exact hirrefl (key last)
    have hleft : rest.filter (fun a => (some (key last)).all fun c => lt c (key a)) = rest :=
      List.filter_eq_self.2 fun a ha => hcross last (by simp) a ha
    rw [hread, hleft, List.nil_append]

end Pages

namespace Table

variable {κ ν : Type*} [DecidableEq κ]

/-- Write some rows. -/
def collect (t : Table κ ν) (rows : List (κ × ν)) : Table κ ν :=
  rows.foldl (fun t r => t.put r.1 r.2) t

/-- New rows are written after the others. -/
theorem rows_collect (t : Table κ ν) {rows : List (κ × ν)}
    (hnew : ((t.rows ++ rows).map Prod.fst).Nodup) : (t.collect rows).rows = t.rows ++ rows := by
  induction rows generalizing t with
  | nil => rw [List.append_nil]; rfl
  | cons r rows ih =>
    have hput : (t.put r.1 r.2).rows = t.rows ++ [r] := by
      refine if_neg fun hin => ?_
      rw [List.map_append, List.map_cons] at hnew
      exact (List.nodup_append.1 hnew).2.2 _ hin _ List.mem_cons_self rfl
    have hnext := ih (t.put r.1 r.2) (by rwa [hput, List.append_assoc])
    rw [hput, List.append_assoc] at hnext
    exact hnext

end Table
