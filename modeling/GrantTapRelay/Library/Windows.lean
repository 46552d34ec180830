import Mathlib.Algebra.Order.Group.Int
import Mathlib.Data.List.Pairwise
import Mathlib.Tactic.Linarith

/-!
# Fixed windows

A counter with fixed windows starts a window at the first event that no window covers, and counts
the events of the current window. The accepted events are a list of the starts of their windows and
their times. `Paced` says that every event lies in its window, that windows do not overlap and that
none has more events than the limit. The counter keeps it (`Paced.turn`, `Paced.count`,
`Paced.accept`), and it bounds the events of any interval (`Paced.length_le`).
-/

namespace Windows

/-- The current window; `none` is no window yet. -/
structure Window where
  start : Option ℤ
  used : ℕ

variable {length : ℤ} {limit : ℕ} {w : Window} {events : List (ℤ × ℤ)} {clock now : ℤ}

/-- The window at `now`: a new one, unless the current one covers the time. -/
def Window.turn (length : ℤ) (w : Window) (now : ℤ) : Window :=
  if w.start.any fun start => now - start < length then w else ⟨some now, 0⟩

/-- The windows of a list of accepted events. -/
structure Paced (length : ℤ) (limit : ℕ) (w : Window) (events : List (ℤ × ℤ)) (clock : ℤ) :
    Prop where
  /-- The events lie in their windows. -/
  inside : ∀ e ∈ events, e.1 ≤ e.2 ∧ e.2 < e.1 + length
  /-- Windows do not overlap. -/
  apart : ∀ e ∈ events, ∀ e' ∈ events, e.1 = e'.1 ∨ e.1 + length ≤ e'.1 ∨ e'.1 + length ≤ e.1
  limited : ∀ start, (events.filter fun e => e.1 = start).length ≤ limit
  /-- The current window is the last one. -/
  current : ∀ e ∈ events, ∃ start, w.start = some start ∧ (e.1 = start ∨ e.1 + length ≤ start)
  used : ∀ start, w.start = some start →
    start ≤ clock ∧ (events.filter fun e => e.1 = start).length ≤ w.used

theorem paced_nil (h : ∀ start, w.start = some start → start ≤ clock) :
    Paced length limit w [] clock where
  inside _ he := absurd he List.not_mem_nil
  apart _ he := absurd he List.not_mem_nil
  limited _ := Nat.zero_le _
  current _ he := absurd he List.not_mem_nil
  used start hs := ⟨h start hs, Nat.zero_le _⟩

theorem Paced.later (h : Paced length limit w events clock) (hle : clock ≤ now) :
    Paced length limit w events now :=
  { h with used := fun start hs => ⟨(h.used start hs).1.trans hle, (h.used start hs).2⟩ }

/-- More use than events. -/
theorem Paced.count (h : Paced length limit w events clock) :
    Paced length limit { w with used := w.used + 1 } events clock :=
  { h with used := fun start hs => ⟨(h.used start hs).1, (h.used start hs).2.trans (Nat.le_succ _)⟩ }

/-- **A window at every time**: the current one, or a new one after its end. -/
theorem Paced.turn (h : Paced length limit w events now) (hlength : 0 < length) :
    Paced length limit (w.turn length now) events now ∧
      ∃ start, (w.turn length now).start = some start ∧ start ≤ now ∧ now < start + length := by
  unfold Window.turn
  split_ifs with hcovers
  · obtain ⟨start, hstart, hlt⟩ := (Option.any_eq_true ..).1 hcovers
    have hlt := of_decide_eq_true hlt
    exact ⟨h, start, hstart, (h.used start hstart).1, by omega⟩
  · have hbefore : ∀ e ∈ events, e.1 + length ≤ now := by
      intro e he
      obtain ⟨start, hstart, hle⟩ := h.current e he
      have hclock := (h.used start hstart).1
      rw [hstart, Option.any_some, decide_eq_true_eq] at hcovers
      omega
    refine ⟨⟨h.inside, h.apart, h.limited, fun e he => ⟨now, rfl, .inr (hbefore e he)⟩, ?_⟩, now,
      rfl, le_rfl, by omega⟩
    intro start hstart
    cases hstart
    refine ⟨le_rfl, le_of_eq (List.length_eq_zero_iff.2 (List.filter_eq_nil_iff.2 ?_))⟩
    intro e he heq
    have hle := hbefore e he
    have heq := of_decide_eq_true heq
    omega

theorem filter_snoc_length (events : List (ℤ × ℤ)) (e : ℤ × ℤ) (start : ℤ) :
    ((events ++ [e]).filter fun e => e.1 = start).length =
      (events.filter fun e => e.1 = start).length + if e.1 = start then 1 else 0 := by
  rw [List.filter_append, List.length_append]
  split_ifs with he <;> simp [he]

/-- **One more event** in the current window. -/
theorem Paced.accept (h : Paced length limit w events now) {start : ℤ}
    (hstart : w.start = some start) (hle : start ≤ now) (hlt : now < start + length)
    (hlimit : w.used < limit) :
    Paced length limit { w with used := w.used + 1 } (events ++ [(start, now)]) now := by
  have hlast : ∀ e ∈ events, e.1 = start ∨ e.1 + length ≤ start := by
    intro e he
    obtain ⟨start', hstart', hcases⟩ := h.current e he
    rw [hstart] at hstart'
    cases hstart'
    exact hcases
  have hused := (h.used start hstart).2
  refine ⟨fun e he => ?_, fun e he e' he' => ?_, fun s => ?_, fun e he => ⟨start, hstart, ?_⟩, ?_⟩
  · rcases List.mem_append.1 he with he | he
    · exact h.inside e he
    · rw [List.mem_singleton.1 he]
      exact ⟨hle, hlt⟩
  · rcases List.mem_append.1 he with he | he <;> rcases List.mem_append.1 he' with he' | he'
    · exact h.apart e he e' he'
    · rw [List.mem_singleton.1 he']
      exact (hlast e he).imp_right .inl
    · rw [List.mem_singleton.1 he]
      exact (hlast e' he').imp Eq.symm .inr
    · rw [List.mem_singleton.1 he, List.mem_singleton.1 he']
      exact .inl rfl
  · rw [filter_snoc_length]
    split_ifs with hs
    · have hs : start = s := hs
      subst hs
      omega
    · exact h.limited s
  · rcases List.mem_append.1 he with he | he
    · exact hlast e he
    · rw [List.mem_singleton.1 he]
      exact .inl rfl
  · intro s hs
    rw [hstart] at hs
    cases hs
    refine ⟨hle, ?_⟩
    rw [filter_snoc_length, if_pos rfl]
    exact Nat.succ_le_succ hused

/-! ## Counting -/

/-- A list whose elements fall into `n` classes of at most `m` elements. -/
theorem length_le_of_classes {α : Type*} (bin : α → ℕ) (m : ℕ) :
    ∀ (n : ℕ) (l : List α), (∀ a ∈ l, bin a < n) →
      (∀ j, (l.filter fun a => bin a = j).length ≤ m) → l.length ≤ n * m
  | 0, l, hlt, _ => by
    cases l with
    | nil => simp
    | cons a l => exact absurd (hlt a List.mem_cons_self) (Nat.not_lt_zero _)
  | n + 1, l, hlt, hm => by
    have hrest : (l.filter fun a => bin a ≠ n).length ≤ n * m := by
      refine length_le_of_classes bin m n _ (fun a ha => ?_) fun j => ?_
      · obtain ⟨ha, hne⟩ := List.mem_filter.1 ha
        have hne := of_decide_eq_true hne
        have hlt := hlt a ha
        omega
      · refine le_trans (List.Sublist.length_le ?_) (hm j)
        exact List.Sublist.filter _ List.filter_sublist
    have hsplit : l.length = (l.filter fun a => bin a = n).length +
        (l.filter fun a => bin a ≠ n).length := by
      have hcount := l.length_eq_countP_add_countP fun a => decide (bin a = n)
      rw [List.countP_eq_length_filter, List.countP_eq_length_filter] at hcount
      simpa using hcount
    have hlast := hm n
    rw [hsplit, Nat.succ_mul]
    omega

/-- **The events of an interval**: at most one window more than would cover it. -/
theorem Paced.length_le (h : Paced length limit w events clock) (hlength : 0 < length) (a : ℤ)
    (k : ℕ) : (events.filter fun e => a ≤ e.2 ∧ e.2 < a + k * length).length ≤ (k + 1) * limit := by
  -- the class of an event is the number of whole lengths from just after `a - length` to its window
  refine length_le_of_classes (fun e => ((e.1 - (a - length + 1)) / length).toNat) limit (k + 1) _
    (fun e he => ?_) fun j => ?_
  · obtain ⟨he, hin⟩ := List.mem_filter.1 he
    obtain ⟨-, hlt⟩ := of_decide_eq_true hin
    obtain ⟨hle, -⟩ := h.inside e he
    have hdiv : (e.1 - (a - length + 1)) / length < k + 1 := by
      rw [Int.ediv_lt_iff_lt_mul hlength, add_mul, one_mul]
      omega
    omega
  · cases hfirst : (events.filter fun e => a ≤ e.2 ∧ e.2 < a + k * length).filter
        fun e => ((e.1 - (a - length + 1)) / length).toNat = j with
    | nil => exact Nat.zero_le _
    | cons e rest =>
      have hmem : ∀ b ∈ e :: rest, b ∈ events ∧ 0 ≤ b.1 - (a - length + 1) ∧
          (b.1 - (a - length + 1)) / length = j := by
        intro b hb
        rw [← hfirst] at hb
        obtain ⟨hb, hclass⟩ := List.mem_filter.1 hb
        obtain ⟨hb, hin⟩ := List.mem_filter.1 hb
        obtain ⟨hle, -⟩ := of_decide_eq_true hin
        obtain ⟨-, hlt⟩ := h.inside b hb
        have hnonneg : 0 ≤ b.1 - (a - length + 1) := by omega
        have hdiv := Int.ediv_nonneg hnonneg hlength.le
        have hclass := of_decide_eq_true hclass
        exact ⟨hb, hnonneg, by omega⟩
      obtain ⟨he, -, hdiv⟩ := hmem e List.mem_cons_self
      have hsame : ∀ b ∈ e :: rest, b.1 = e.1 := by
        intro b hb
        obtain ⟨hb, -, hdiv'⟩ := hmem b hb
        have hx := Int.mul_ediv_add_emod (b.1 - (a - length + 1)) length
        have hy := Int.mul_ediv_add_emod (e.1 - (a - length + 1)) length
        have hxr := Int.emod_nonneg (b.1 - (a - length + 1)) hlength.ne'
        have hyr := Int.emod_nonneg (e.1 - (a - length + 1)) hlength.ne'
        have hxl := Int.emod_lt_of_pos (b.1 - (a - length + 1)) hlength
        have hyl := Int.emod_lt_of_pos (e.1 - (a - length + 1)) hlength
        rw [hdiv'] at hx
        rw [hdiv] at hy
        have hapart := h.apart b hb e he
        omega
      have hsub : (e :: rest).Sublist (events.filter fun b => b.1 = e.1) := by
        have hself : (e :: rest).filter (fun b => b.1 = e.1) = e :: rest :=
          List.filter_eq_self.2 fun b hb => decide_eq_true (hsame b hb)
        rw [← hself, ← hfirst]
        exact (List.filter_sublist.trans List.filter_sublist).filter _
      exact hsub.length_le.trans (h.limited e.1)

end Windows
