import GrantTapRelay.Library.Eviction
import GrantTapRelay.Relay.SubmissionReceipts

/-!
# The longest suffix

`retainSubmission` as an optimum. Its loop deletes the oldest transient row, one by one, and stops
at the first list for which both limits hold, or at the incoming row. `retainLoop_longest` follows
the loop: what it returns is `Longest`, and when it refuses, the explicit submissions alone leave no
room for the incoming row.

* `retainLoop_turns`: the loop ends within one turn for each row.
* `retainSubmission_longest_suffix`: the policy is the longest-suffix policy.
-/

namespace GrantTap

open Js Retention

variable {maxCount maxBytes : ℕ} {front kept : List QueueRow} {x : QueueRow}

/-- Both limits of a mailbox hold. -/
abbrev FitsMailbox (maxCount maxBytes : ℕ) (rows : List QueueRow) : Prop :=
  Fits rowBytes maxCount maxBytes rows

/-- The bytes that remain once a row is deleted. -/
theorem rowBytes_eraseIdx {rows : List QueueRow} {i : ℕ} (hi : i < rows.length) :
    (rows.map rowBytes).sum - (rows[i]?.elim 0 rowBytes) =
      ((rows.eraseIdx i).map rowBytes).sum := by
  induction rows generalizing i with
  | nil => simp at hi
  | cons row rows ih =>
    cases i with
    | zero => simp
    | succ i =>
      have hlt : i < rows.length := by simpa using hi
      have hle : rows[i]?.elim 0 rowBytes ≤ (rows.map rowBytes).sum := by
        rw [List.getElem?_eq_getElem hlt]
        exact List.single_le_sum (fun _ _ => Nat.zero_le _) _
          (List.mem_map_of_mem (List.getElem_mem hlt))
      simp only [List.map_cons, List.sum_cons, List.getElem?_cons_succ, List.eraseIdx_cons_succ]
      rw [← ih hlt]
      omega

/-- The guard of the loop, at the sum it keeps. -/
theorem guard_iff {rows : List QueueRow} :
    (maxCount < rows.length ∨ maxBytes < (rows.map rowBytes).sum) ↔
      ¬FitsMailbox maxCount maxBytes rows := by
  unfold FitsMailbox Fits
  omega

/-- A queue whose first transient row is its last one, or that has none. -/
theorem filter_durable_of_last {i : ℕ} (hlast : i = front.length)
    (hi : (front ++ [x]).findIdx? (!QueueRow.durable ·) = some i) :
    front.filter QueueRow.durable = front := by
  obtain ⟨hlt, hrow, hbefore⟩ := List.findIdx?_eq_some_iff_getElem.1 hi
  refine List.filter_eq_self.2 fun row hrow => ?_
  obtain ⟨j, hj, rfl⟩ := List.getElem_of_mem hrow
  have hdurable := hbefore j (hlast ▸ hj)
  rw [List.getElem_append_left hj] at hdurable
  simpa using hdurable

/-- **The loop**: with a turn for each row it returns the longest suffix that fits, or refuses a
row that does not fit beside the explicit submissions. -/
theorem retainLoop_longest (maxCount maxBytes fuel : ℕ) (front : List QueueRow) (x : QueueRow)
    (hfuel : front.length < fuel) :
    match retainLoop maxCount maxBytes fuel (front ++ [x]) ((front ++ [x]).map rowBytes).sum with
    | none => ¬FitsMailbox maxCount maxBytes (front.filter QueueRow.durable ++ [x])
    | some kept => ∃ front', kept = front' ++ [x] ∧
        Longest QueueRow.durable rowBytes maxCount maxBytes front x front' := by
  induction fuel generalizing front with
  | zero => omega
  | succ fuel ih =>
    rw [retainLoop]
    by_cases hfits : FitsMailbox maxCount maxBytes (front ++ [x])
    · rw [if_neg (not_not.2 hfits ∘ guard_iff.1)]
      exact ⟨front, rfl, .of_fits hfits⟩
    · have hdurable : (fun row : QueueRow => !isDurableSubmission row.deliveryId) =
          (!QueueRow.durable ·) := rfl
      rw [if_pos (guard_iff.2 hfits), hdurable]
      cases hi : (front ++ [x]).findIdx? (!QueueRow.durable ·) with
      | none =>
        -- every row is an explicit submission
        have hall : front.filter QueueRow.durable = front := by
          refine List.filter_eq_self.2 fun row hrow => ?_
          have hdurable := List.findIdx?_eq_none_iff.1 hi row (List.mem_append_left _ hrow)
          simpa using hdurable
        rwa [hall]
      | some i =>
        have hlength : (front ++ [x]).length = front.length + 1 := by simp
        obtain ⟨hlt, hrow, hbefore⟩ := List.findIdx?_eq_some_iff_getElem.1 hi
        dsimp only
        by_cases hlast : i + 1 = (front ++ [x]).length
        · rw [if_pos hlast, filter_durable_of_last (by omega) hi]
          exact hfits
        · have hi' : i < front.length := by omega
          have hfront : front.findIdx? (!QueueRow.durable ·) = some i := by
            refine List.findIdx?_eq_some_iff_getElem.2 ⟨hi', ?_, fun j hj => ?_⟩
            · rwa [List.getElem_append_left hi'] at hrow
            · have hdurable := hbefore j hj
              rwa [List.getElem_append_left (hj.trans hi')] at hdurable
          have hshorter : (front.eraseIdx i).length < fuel := by
            rw [List.length_eraseIdx_of_lt hi']
            omega
          rw [if_neg hlast, rowBytes_eraseIdx hlt, List.eraseIdx_append_of_lt_length hi']
          have hnext := ih (front.eraseIdx i) hshorter
          revert hnext
          cases retainLoop maxCount maxBytes fuel (front.eraseIdx i ++ [x])
              ((front.eraseIdx i ++ [x]).map rowBytes).sum with
          | none =>
            intro hnext hfull
            refine hnext ?_
            rwa [← filter_evict QueueRow.durable 1 front, ← evict_eraseIdx _ hfront, evict_zero]
              at hfull
          | some kept =>
            rintro ⟨front', rfl, hlongest⟩
            exact ⟨front', rfl, hlongest.of_eraseIdx hfits hfront⟩

/-- Once there is a turn for each row, more turns change nothing. -/
theorem retainLoop_turns (fuel more bytes : ℕ) (hfuel : front.length < fuel) :
    retainLoop maxCount maxBytes (fuel + more) (front ++ [x]) bytes =
      retainLoop maxCount maxBytes fuel (front ++ [x]) bytes := by
  induction fuel generalizing front bytes with
  | zero => omega
  | succ fuel ih =>
    rw [Nat.add_right_comm, retainLoop, retainLoop]
    split_ifs with hguard
    · cases hi : (front ++ [x]).findIdx? fun row => !isDurableSubmission row.deliveryId with
      | none => rfl
      | some i =>
        obtain ⟨hlt, -, -⟩ := List.findIdx?_eq_some_iff_getElem.1 hi
        have hlength : (front ++ [x]).length = front.length + 1 := by simp
        dsimp only
        split_ifs with hlast
        · rfl
        · have hi' : i < front.length := by omega
          have hshorter : (front.eraseIdx i).length < fuel := by
            rw [List.length_eraseIdx_of_lt hi']
            omega
          rw [List.eraseIdx_append_of_lt_length hi', ih _ hshorter]
    · rfl

/-- **The longest-suffix policy**. The loop ends within one turn for each row; the incoming row is
refused exactly when it does not fit beside the explicit submissions; else it is stored behind the
explicit submissions and the longest suffix of the transient rows that fits, in their order. -/
theorem retainSubmission_longest_suffix (queue : List QueueRow) (incoming : Frame)
    (maxCount maxBytes : ℕ) :
    (∀ turns ≥ (queue ++ [QueueRow.frame incoming]).length, ∀ bytes,
      retainLoop maxCount maxBytes turns (queue ++ [QueueRow.frame incoming]) bytes =
        retainLoop maxCount maxBytes (queue ++ [QueueRow.frame incoming]).length
          (queue ++ [QueueRow.frame incoming]) bytes) ∧
      (retainSubmission queue (.frame incoming) maxCount maxBytes = (.full, queue) ↔
        ¬FitsMailbox maxCount maxBytes (queue.filter QueueRow.durable ++ [QueueRow.frame incoming])) ∧
      (retainSubmission queue (.frame incoming) maxCount maxBytes = (.full, queue) ∨
        ∃ front, retainSubmission queue (.frame incoming) maxCount maxBytes =
            (.stored, front ++ [.frame incoming]) ∧
          Longest QueueRow.durable rowBytes maxCount maxBytes queue (.frame incoming) front) := by
  have hlength : (queue ++ [QueueRow.frame incoming]).length = queue.length + 1 := by simp
  have hloop := retainLoop_longest maxCount maxBytes (queue.length + 1) queue (.frame incoming)
    (Nat.lt_succ_self queue.length)
  unfold retainSubmission
  dsimp only
  rw [hlength]
  refine ⟨fun turns hturns bytes => ?_, ?_⟩
  · obtain ⟨more, rfl⟩ := Nat.exists_eq_add_of_le hturns
    exact retainLoop_turns _ more bytes (Nat.lt_succ_self _)
  · revert hloop
    cases retainLoop maxCount maxBytes (queue.length + 1) (queue ++ [QueueRow.frame incoming])
        ((queue ++ [QueueRow.frame incoming]).map rowBytes).sum with
    | none =>
      intro hfull
      exact ⟨iff_of_true rfl hfull, .inl rfl⟩
    | some kept =>
      rintro ⟨front, rfl, hlongest⟩
      refine ⟨iff_of_false (by simp) (not_not.2 hlongest.fits_filter), .inr ⟨front, rfl, hlongest⟩⟩

end GrantTap
