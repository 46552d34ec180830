import GrantTapRelay.Relay.CoolDown
import Mathlib.Data.Finset.Card
import Mathlib.Data.List.DropRight

/-!
# The cool-down of one key

A series of strikes of a key ends when more than `resetMs` pass after the end of its window, or when
an admitted lookup clears a series of admission strikes. What the registry answers for a key depends
on the current series of the key alone (`CoolDownRegistry.view_eq`), unless a sweep evicts its
entry: a sweep takes the oldest entries first, and none of a live key that fewer than `maxEntries`
other keys were struck after (`sweepRows_keeps`).

* `currentSeries`: the series, from the calls of the key.
* `cool_down_of_own_calls`: **the answers of the registry**, and its size.
* `empty_key_never_waits`: the empty key is never told to wait.
-/

namespace GrantTap

open Js

/-! ## Series -/

inductive CoolDownCall
  | strike (key : Str) (admission : Bool)
  | remaining (key : Option Str) (admitted : Bool)

namespace CoolDownCall

/-- The key that the call is about. -/
def key : CoolDownCall → Option Str
  | strike key _ => some key
  | remaining key _ => key

/-- The key that the call strikes. -/
def struck : CoolDownCall → Option Str
  | strike key _ => some key
  | remaining _ _ => none

end CoolDownCall

/-- The strikes of a series, each with its time and whether it is an admission strike. -/
abbrev Series := List (ℤ × Bool)

namespace Series

variable (limits : CoolDownLimits)

/-- The end of the window: the last strike and the backoff of the strikes so far. -/
def windowEnd? (series : Series) : Option ℤ :=
  series.getLast?.map fun s => s.1 + CoolDownRegistry.backoffMs limits series.length

/-- The series, unless more than `resetMs` have passed after the end of its window. -/
def alive (series : Series) (now : ℤ) : Series :=
  if (windowEnd? limits series).any fun e => limits.resetMs < now - e then [] else series

/-- The strikes are admission strikes. -/
def admissions (series : Series) : Bool := series.all (·.2)

/-- The series after a call of its key. -/
def next (series : Series) (call : ℤ × CoolDownCall) : Series :=
  match call.2 with
  | .strike _ admission => alive limits series call.1 ++ [(call.1, admission)]
  | .remaining _ admitted => if admitted && admissions series then [] else series

/-- What `remaining` answers. -/
def remaining (series : Series) (admitted : Bool) (now : ℤ) : ℤ :=
  if admitted && admissions series then 0
  else ((windowEnd? limits (alive limits series now)).map fun e => max 0 (e - now)).getD 0

end Series

/-- The calls that are about a key. -/
def ownCalls (key : Str) (calls : List (ℤ × CoolDownCall)) : List (ℤ × CoolDownCall) :=
  calls.filter fun call => call.2.key = some key

/-- The current series of a key, from its own calls. -/
def currentSeries (limits : CoolDownLimits) (key : Str) (calls : List (ℤ × CoolDownCall)) : Series :=
  (ownCalls key calls).foldl (Series.next limits) []

namespace CoolDownRegistry

/-- The entries after a call. -/
def call (limits : CoolDownLimits) (r : CoolDownRegistry) (call : ℤ × CoolDownCall) :
    CoolDownRegistry :=
  match call.2 with
  | .strike key admission => (r.strike limits key admission call.1).2
  | .remaining key admitted => (r.remaining limits key admitted call.1).2

/-- The entries after some calls. -/
def after (limits : CoolDownLimits) (calls : List (ℤ × CoolDownCall)) : CoolDownRegistry :=
  calls.foldl (CoolDownRegistry.call limits) .empty

end CoolDownRegistry

/-! ## The sweep -/

namespace CoolDownRegistry

variable {limits : CoolDownLimits} {now : ℤ}

/-- The limit holds after a sweep; `kept` rows stand before those that remain. -/
theorem length_sweepRows_le (kept : ℕ) :
    ∀ (checked size : ℕ) (rows : List (Str × CoolDownEntry)), size = kept + rows.length →
      kept = 0 ∨ size ≤ limits.maxEntries →
      kept + (sweepRows limits now checked size rows).length ≤ limits.maxEntries
  | _, size, [], hsize, hkept => by
    simp only [List.length_nil] at hsize
    unfold sweepRows
    simp only [List.length_nil]
    omega
  | checked, size, row :: rows, hsize, hkept => by
    rw [List.length_cons] at hsize
    unfold sweepRows
    by_cases hstop : size ≤ limits.maxEntries ∧ SWEEP_PER_STRIKE ≤ checked
    · rw [if_pos hstop, List.length_cons]
      omega
    · rw [if_neg hstop]
      by_cases hdelete : limits.maxEntries < size ∨ stale limits now row.2
      · rw [if_pos hdelete]
        exact length_sweepRows_le kept _ _ rows (by omega) (by omega)
      · rw [if_neg hdelete, List.length_cons]
        have hrest := length_sweepRows_le (kept + 1) (checked + 1) size rows (by omega) (by omega)
        omega

/-- **The size of the registry.** -/
theorem size_strike_le (r : CoolDownRegistry) (limits : CoolDownLimits) (key : Str)
    (admission : Bool) (now : ℤ) : (r.strike limits key admission now).2.size ≤ limits.maxEntries := by
  have h : 0 + (r.strike limits key admission now).2.rows.length ≤ limits.maxEntries :=
    length_sweepRows_le 0 0 _ _ (Nat.zero_add _).symm (.inl rfl)
  rwa [Nat.zero_add] at h

/-- **A sweep leaves a live row** that fewer than `maxEntries` rows follow. -/
theorem sweepRows_keeps {row : Str × CoolDownEntry} {newer : List (Str × CoolDownEntry)}
    (hlive : stale limits now row.2 = false) (hnewer : newer.length < limits.maxEntries) :
    ∀ (checked size : ℕ) (older : List (Str × CoolDownEntry)),
      size ≤ limits.maxEntries ∨ size ≤ older.length + newer.length + 1 →
      ∃ older' newer', sweepRows limits now checked size (older ++ row :: newer) =
        older' ++ row :: newer' ∧ newer'.Sublist newer
  | checked, size, [], hsize => by
    have hfits : size ≤ limits.maxEntries := by
      simp only [List.length_nil] at hsize
      omega
    rw [List.nil_append]
    unfold sweepRows
    by_cases hstop : size ≤ limits.maxEntries ∧ SWEEP_PER_STRIKE ≤ checked
    · rw [if_pos hstop]
      exact ⟨[], newer, rfl, .refl _⟩
    · rw [if_neg hstop, if_neg (by rw [hlive]; simpa using hfits)]
      exact ⟨[], _, rfl, sweepRows_sublist ..⟩
  | checked, size, first :: older, hsize => by
    rw [List.length_cons] at hsize
    rw [List.cons_append]
    unfold sweepRows
    by_cases hstop : size ≤ limits.maxEntries ∧ SWEEP_PER_STRIKE ≤ checked
    · rw [if_pos hstop]
      exact ⟨first :: older, newer, rfl, .refl _⟩
    · rw [if_neg hstop]
      by_cases hdelete : limits.maxEntries < size ∨ stale limits now first.2
      · rw [if_pos hdelete]
        exact sweepRows_keeps hlive hnewer _ _ older (by omega)
      · rw [if_neg hdelete]
        obtain ⟨older', newer', hrows, hsub⟩ :=
          sweepRows_keeps hlive hnewer (checked + 1) size older (by omega)
        exact ⟨first :: older', newer', by rw [hrows, List.cons_append], hsub⟩

end CoolDownRegistry

/-! ## Independence of the other keys -/

/-- The other keys that were struck by some calls. -/
def otherKeys (key : Str) (calls : List (ℤ × CoolDownCall)) : Finset Str :=
  (calls.filterMap fun call => call.2.struck).toFinset.erase key

/-- Between two consecutive strikes of the key, and since the latest one, fewer than `maxEntries`
other keys were struck. -/
def Uncrowded (maxEntries : ℕ) (key : Str) (calls : List (ℤ × CoolDownCall)) : Prop :=
  ∀ before now admission between after,
    calls = before ++ (now, .strike key admission) :: (between ++ after) →
      (∀ call ∈ between, call.2.struck ≠ some key) → (otherKeys key between).card < maxEntries

theorem Uncrowded.of_append {maxEntries : ℕ} {key : Str} {calls rest : List (ℤ × CoolDownCall)}
    (h : Uncrowded maxEntries key (calls ++ rest)) : Uncrowded maxEntries key calls := by
  intro before now admission between after hsplit
  refine h before now admission between (after ++ rest) ?_
  rw [hsplit]
  simp only [List.append_assoc, List.cons_append]

/-- Few calls crowd out no key. -/
theorem uncrowded_of_length_le {maxEntries : ℕ} (key : Str) {calls : List (ℤ × CoolDownCall)}
    (h : calls.length ≤ maxEntries) : Uncrowded maxEntries key calls := by
  intro before now admission between after hsplit _
  have hlength := congrArg List.length hsplit
  rw [List.length_append, List.length_cons, List.length_append] at hlength
  have hcard : (otherKeys key between).card ≤ between.length :=
    (Finset.card_erase_le.trans (List.toFinset_card_le _)).trans (List.length_filterMap_le _ _)
  omega

theorem otherKeys_append_subset (key : Str) (calls rest : List (ℤ × CoolDownCall)) :
    otherKeys key calls ⊆ otherKeys key (calls ++ rest) := by
  refine Finset.erase_subset_erase _ fun other hother => ?_
  rw [List.mem_toFinset, List.filterMap_append] at *
  exact List.mem_append_left _ hother

theorem mem_otherKeys_snoc {key other : Str} (hne : other ≠ key) (calls : List (ℤ × CoolDownCall))
    {call : ℤ × CoolDownCall} (hcall : call.2.struck = some other) :
    other ∈ otherKeys key (calls ++ [call]) := by
  refine Finset.mem_erase.2 ⟨hne, List.mem_toFinset.2 (List.mem_filterMap.2 ⟨call, ?_, hcall⟩)⟩
  exact List.mem_append_right _ (List.mem_singleton_self call)

theorem currentSeries_own {limits : CoolDownLimits} {key : Str} (calls : List (ℤ × CoolDownCall))
    {call : ℤ × CoolDownCall} (h : call.2.key = some key) :
    currentSeries limits key (calls ++ [call]) =
      Series.next limits (currentSeries limits key calls) call := by
  unfold currentSeries ownCalls
  rw [List.filter_append, List.foldl_append, List.filter_singleton, decide_eq_true h]
  rfl

theorem currentSeries_other {limits : CoolDownLimits} {key : Str} (calls : List (ℤ × CoolDownCall))
    {call : ℤ × CoolDownCall} (h : call.2.key ≠ some key) :
    currentSeries limits key (calls ++ [call]) = currentSeries limits key calls := by
  unfold currentSeries ownCalls
  rw [List.filter_append, List.foldl_append, List.filter_singleton, decide_eq_false h]
  rfl

namespace CoolDownRegistry

variable {limits : CoolDownLimits} {r : CoolDownRegistry} {key : Str} {now later : ℤ}

/-- The entry of a series. -/
def entryOf (limits : CoolDownLimits) (series : Series) : Option CoolDownEntry :=
  series.getLast?.map fun s =>
    ⟨series.length, s.1 + backoffMs limits series.length, series.admissions⟩

@[simp] theorem entryOf_nil (limits : CoolDownLimits) : entryOf limits [] = none := rfl

theorem windowEnd?_eq (series : Series) :
    series.windowEnd? limits = (entryOf limits series).map CoolDownEntry.untilMs := by
  rw [Series.windowEnd?, entryOf, Option.map_map]
  rfl

/-- The entry of a series that may have ended. -/
theorem entryOf_alive (series : Series) (now : ℤ) : entryOf limits (series.alive limits now) =
    (entryOf limits series).filter fun entry => !stale limits now entry := by
  unfold Series.alive
  rw [windowEnd?_eq]
  cases hentry : entryOf limits series with
  | none => simp [hentry]
  | some entry =>
    rw [Option.map_some, Option.any_some, Option.filter_some]
    by_cases hstale : stale limits now entry = true
    · rw [if_pos (by simpa [stale] using hstale), hstale]
      rfl
    · rw [if_neg (by simpa [stale] using hstale), hentry, if_pos (by simpa using hstale)]

theorem length_eq_strikes {series : Series} {entry : CoolDownEntry}
    (h : entryOf limits series = some entry) :
    entry.strikes = series.length ∧ entry.admissionOnly = series.admissions := by
  obtain ⟨s, -, rfl⟩ := Option.map_eq_some_iff.1 h
  exact ⟨rfl, rfl⟩

theorem eq_nil_of_entryOf {series : Series} (h : entryOf limits series = none) : series = [] := by
  rwa [entryOf, Option.map_eq_none_iff, List.getLast?_eq_none_iff] at h

/-- A strike of an entry that may be stale. -/
theorem struck_filter (limits : CoolDownLimits) (previous : Option CoolDownEntry) (admission : Bool)
    (now : ℤ) : struck limits (previous.filter fun entry => !stale limits now entry) admission now =
      struck limits previous admission now := by
  unfold struck
  rw [Option.filter_filter]
  simp only [Bool.and_self]

/-- **A strike** extends the series, or begins one. -/
theorem struck_entryOf (series : Series) (admission : Bool) (now : ℤ) :
    some (struck limits (entryOf limits series) admission now) =
      entryOf limits (series.alive limits now ++ [(now, admission)]) := by
  have hadmissions : (series.alive limits now ++ [(now, admission)]).admissions =
      (admission && (series.alive limits now).admissions) := by
    rw [Series.admissions, List.all_append, Bool.and_comm]
    simp [Series.admissions]
  have hentry : entryOf limits (series.alive limits now ++ [(now, admission)]) =
      some ⟨(series.alive limits now).length + 1,
        now + backoffMs limits ((series.alive limits now).length + 1),
        admission && (series.alive limits now).admissions⟩ := by
    rw [entryOf, List.getLast?_concat, Option.map_some, hadmissions, List.length_append]
    rfl
  rw [hentry, ← struck_filter, ← entryOf_alive]
  unfold struck
  cases hlast : entryOf limits (series.alive limits now) with
  | none =>
    rw [eq_nil_of_entryOf hlast]
    simp [Series.admissions]
  | some entry =>
    have hlive : stale limits now entry = false := by
      rw [entryOf_alive] at hlast
      simpa using (Option.filter_eq_some_iff.1 hlast).2
    obtain ⟨hstrikes, hall⟩ := length_eq_strikes hlast
    rw [Option.filter_some, hlive, Bool.not_false, if_pos rfl, ← hstrikes, ← hall]

/-- **An admitted check** clears a series of admission strikes. -/
theorem entryOf_cleared (series : Series) (admitted : Bool) :
    entryOf limits (if admitted && series.admissions then [] else series) =
      (entryOf limits series).filter fun entry => !(admitted && entry.admissionOnly) := by
  cases hentry : entryOf limits series with
  | none => rw [eq_nil_of_entryOf hentry, ite_self, entryOf_nil, Option.filter_none]
  | some entry =>
    rw [← (length_eq_strikes hentry).2, Option.filter_some]
    by_cases hcleared : (admitted && entry.admissionOnly) = true
    · rw [if_pos hcleared, hcleared]
      rfl
    · rw [if_neg hcleared, hentry, Bool.eq_false_iff.2 hcleared]
      rfl

/-- An entry that is not stale later is not stale now. -/
theorem filter_stale_later (h : now ≤ later) (entry : Option CoolDownEntry) :
    (entry.filter fun entry => !stale limits now entry).filter
        (fun entry => !stale limits later entry) =
      entry.filter fun entry => !stale limits later entry := by
  cases entry with
  | none => rfl
  | some entry =>
    by_cases hs : stale limits now entry = true
    · rw [Option.filter_some, Option.filter_some, hs, stale_mono h hs]
      rfl
    · rw [Bool.not_eq_true] at hs
      simp only [Option.filter_some, hs, Bool.not_false, if_true]

theorem filter_comm {α : Type*} (p q : α → Bool) (o : Option α) :
    (o.filter p).filter q = (o.filter q).filter p := by
  rw [Option.filter_filter, Option.filter_filter]
  simp only [Bool.and_comm]

theorem view_eq_some {entry : CoolDownEntry} : view limits r key now = some entry ↔
    r.get? key = some entry ∧ stale limits now entry = false := by
  rw [view, Option.filter_eq_some_iff, Bool.not_eq_true']

/-- The registry shows the current series of a key. -/
structure Tracks (limits : CoolDownLimits) (key : Str) (calls : List (ℤ × CoolDownCall))
    (r : CoolDownRegistry) (now : ℤ) : Prop where
  size_le : r.size ≤ limits.maxEntries
  /-- The rows behind a live row of the key were struck after its latest strike. -/
  placed : ∀ entry, view limits r key now = some entry → ∃ before time admission since older newer,
    calls = before ++ (time, .strike key admission) :: since ∧
      (∀ call ∈ since, call.2.struck ≠ some key) ∧
      r.rows = older ++ (key, entry) :: newer ∧ ∀ row ∈ newer, row.1 ∈ otherKeys key since
  shown : ∀ later, now ≤ later → view limits r key later =
    (entryOf limits (currentSeries limits key calls)).filter fun entry => !stale limits later entry

variable {calls : List (ℤ × CoolDownCall)}

theorem tracks_empty (limits : CoolDownLimits) (key : Str) (now : ℤ) :
    Tracks limits key [] .empty now where
  size_le := Nat.zero_le _
  placed entry h := absurd (view_eq_some.1 h).1 (Option.some_ne_none entry).symm
  shown _ _ := rfl

theorem Tracks.mono (h : Tracks limits key calls r now) (hle : now ≤ later) :
    Tracks limits key calls r later :=
  { h with
    placed := fun entry hentry => by
      rw [view_later hle] at hentry
      exact h.placed entry (Option.filter_eq_some_iff.1 hentry).1
    shown := fun time htime => h.shown time (hle.trans htime) }

/-- A check deletes at most one row. -/
theorem remaining_snd (r : CoolDownRegistry) (limits : CoolDownLimits) (checked : Option Str)
    (admitted : Bool) (now : ℤ) : (r.remaining limits checked admitted now).2 = r ∨
      ∃ other, (r.remaining limits checked admitted now).2 = r.erase other := by
  unfold remaining
  cases checked.filter (· ≠ []) with
  | none => exact .inl rfl
  | some other =>
    dsimp only
    cases r.get? other with
    | none => exact .inl rfl
    | some entry =>
      dsimp only
      split_ifs
      · exact .inr ⟨other, rfl⟩
      · exact .inr ⟨other, rfl⟩
      · exact .inl rfl

/-- **Lookups** leave the entries, or delete one. -/
theorem get?_remaining {checked : Option Str} {admitted : Bool} {other : Str} {entry : CoolDownEntry}
    (h : (r.remaining limits checked admitted now).2.get? other = some entry) :
    r.get? other = some entry := by
  rcases remaining_snd r limits checked admitted now with hr | ⟨deleted, hr⟩
  · rwa [hr] at h
  · rw [hr, Table.get?_erase] at h
    split_ifs at h
    exact h

/-- The rows behind a row, without some of the rows. -/
theorem rows_erase {older newer : List (Str × CoolDownEntry)} {row : Str × CoolDownEntry}
    {other : Str} (hrows : r.rows = older ++ row :: newer) (hne : row.1 ≠ other) :
    ∃ older' newer', (r.erase other).rows = older' ++ row :: newer' ∧ newer'.Sublist newer := by
  refine ⟨older.filter fun row => row.1 ≠ other, newer.filter fun row => row.1 ≠ other, ?_,
    List.filter_sublist⟩
  have herase : (r.erase other).rows = r.rows.filter fun row => row.1 ≠ other := rfl
  rw [herase, hrows, List.filter_append, List.filter_cons_of_pos]
  exact decide_eq_true hne

/-- **A check** keeps what the registry shows. -/
theorem Tracks.remaining (h : Tracks limits key calls r now) (hkey : key ≠ [])
    (checked : Option Str) (admitted : Bool) :
    Tracks limits key (calls ++ [(now, .remaining checked admitted)])
      (r.remaining limits checked admitted now).2 now where
  size_le := by
    rcases remaining_snd r limits checked admitted now with hr | ⟨other, hr⟩
    · rw [hr]
      exact h.size_le
    · rw [hr]
      exact (Table.size_erase_le _ _).trans h.size_le
  placed entry hview := by
    obtain ⟨hentry, hlive⟩ := view_eq_some.1 hview
    obtain ⟨before, time, admission, since, older, newer, hcalls, hsince, hrows, hnewer⟩ :=
      h.placed entry (view_eq_some.2 ⟨get?_remaining hentry, hlive⟩)
    have hsubset := otherKeys_append_subset key since [(now, .remaining checked admitted)]
    have hkept : ∃ older' newer', (r.remaining limits checked admitted now).2.rows =
        older' ++ (key, entry) :: newer' ∧ newer'.Sublist newer := by
      rcases remaining_snd r limits checked admitted now with hr | ⟨other, hr⟩
      · rw [hr]
        exact ⟨older, newer, hrows, .refl _⟩
      · rw [hr, Table.get?_erase] at hentry
        split_ifs at hentry with hne
        rw [hr]
        exact rows_erase hrows hne
    obtain ⟨older', newer', hrows', hsub⟩ := hkept
    refine ⟨before, time, admission, since ++ [(now, .remaining checked admitted)], older', newer',
      ?_, ?_, hrows', ?_⟩
    · rw [hcalls, List.append_assoc, List.cons_append]
    · intro call hcall
      rcases List.mem_append.1 hcall with hcall | hcall
      · exact hsince call hcall
      · rw [List.mem_singleton.1 hcall]
        exact (Option.some_ne_none key).symm
    · intro row hrow
      exact Finset.mem_of_subset hsubset (hnewer row (hsub.subset hrow))
  shown later hlater := by
    by_cases hown : checked = some key
    · subst hown
      rw [currentSeries_own calls rfl, view_later hlater,
        (remaining_eq r limits hkey admitted now).2, h.shown now le_rfl, Series.next,
        entryOf_cleared, filter_comm, filter_stale_later hlater, filter_comm]
    · rw [view_remaining_of_ne hown, currentSeries_other]
      · exact h.shown later hlater
      · exact hown

/-- **A strike leaves a live row** that fewer than `maxEntries` rows follow. -/
theorem rows_strike {other : Str} {admission : Bool}
    {older newer : List (Str × CoolDownEntry)} {entry : CoolDownEntry}
    (hrows : (r.enter limits other admission now).rows = older ++ (key, entry) :: newer)
    (hnewer : newer.length < limits.maxEntries) (hlive : stale limits now entry = false) :
    ∃ older' newer', (r.strike limits other admission now).2.rows = older' ++ (key, entry) :: newer' ∧
      newer'.Sublist newer := by
  have hsize : (r.enter limits other admission now).size = older.length + newer.length + 1 := by
    rw [Table.size, hrows, List.length_append, List.length_cons, Nat.add_assoc]
  have hkeeps : ∃ older' newer', sweepRows limits now 0 (r.enter limits other admission now).size
      (older ++ (key, entry) :: newer) = older' ++ (key, entry) :: newer' ∧ newer'.Sublist newer :=
    sweepRows_keeps hlive hnewer 0 _ older (.inr hsize.le)
  rwa [← hrows] at hkeeps

theorem rows_enter (r : CoolDownRegistry) (limits : CoolDownLimits) (key : Str) (admission : Bool)
    (now : ℤ) : (r.enter limits key admission now).rows =
      (r.erase key).rows ++ [(key, struck limits (r.get? key) admission now)] :=
  Table.rows_put_erase r key _

/-- The strike of a key, from the series that the registry shows. -/
theorem Tracks.struck_eq (h : Tracks limits key calls r now) (admission : Bool) :
    some (struck limits (r.get? key) admission now) = entryOf limits
      (Series.next limits (currentSeries limits key calls) (now, .strike key admission)) := by
  have hview := h.shown now le_rfl
  rw [Series.next, ← struck_entryOf, ← struck_filter limits (r.get? key),
    ← struck_filter limits (entryOf limits _), ← hview]
  rfl

/-- **A strike of the key** keeps what the registry shows. -/
theorem Tracks.strike (h : Tracks limits key calls r now) (hmax : 0 < limits.maxEntries)
    (admission : Bool) : Tracks limits key (calls ++ [(now, .strike key admission)])
      (r.strike limits key admission now).2 now := by
  obtain ⟨older, newer, hrows, hsub⟩ := rows_strike (rows_enter r limits key admission now) hmax
    (not_stale_struck limits (r.get? key) admission now)
  have hnewer : newer = [] := List.sublist_nil.1 hsub
  have hget : (r.strike limits key admission now).2.get? key =
      some (struck limits (r.get? key) admission now) := by
    rw [← Table.mem_rows, hrows]
    exact List.mem_append_right _ List.mem_cons_self
  refine ⟨size_strike_le r limits key admission now, fun entry hview => ?_, fun later _ => ?_⟩
  · have hentry := (view_eq_some.1 hview).1
    rw [hget] at hentry
    cases hentry
    refine ⟨calls, now, admission, [], older, newer, rfl, ?_, hrows, ?_⟩
    · intro call hcall
      exact absurd hcall List.not_mem_nil
    · intro row hrow
      rw [hnewer] at hrow
      exact absurd hrow List.not_mem_nil
  · rw [currentSeries_own calls rfl, ← h.struck_eq admission, view, hget]

/-- Keys among few keys are few. -/
theorem length_le_card {newer : List (Str × CoolDownEntry)} {others : Finset Str}
    (hnodup : (newer.map Prod.fst).Nodup) (hothers : ∀ row ∈ newer, row.1 ∈ others) :
    newer.length ≤ others.card := by
  rw [← List.length_map (f := Prod.fst), ← List.toFinset_card_of_nodup hnodup]
  refine Finset.card_le_card fun other hother => ?_
  obtain ⟨row, hrow, rfl⟩ := List.mem_map.1 (List.mem_toFinset.1 hother)
  exact hothers row hrow

theorem get?_enter_of_ne {other : Str} (hne : other ≠ key) (admission : Bool) :
    (r.enter limits other admission now).get? key = r.get? key := by
  rw [get?_enter, if_neg hne.symm]

/-- The place of a live row after a strike of another key, before the sweep: few rows are behind. -/
theorem Tracks.placed_enter (h : Tracks limits key calls r now) {other : Str} (hne : other ≠ key)
    (admission : Bool)
    (huncrowded : Uncrowded limits.maxEntries key (calls ++ [(now, .strike other admission)]))
    {entry : CoolDownEntry} (hentry : view limits r key now = some entry) :
    ∃ before time struck since older newer,
      calls ++ [(now, .strike other admission)] = before ++ (time, .strike key struck) :: since ∧
        (∀ call ∈ since, call.2.struck ≠ some key) ∧
        (r.enter limits other admission now).rows = older ++ (key, entry) :: newer ∧
        (∀ row ∈ newer, row.1 ∈ otherKeys key since) ∧ newer.length < limits.maxEntries := by
  obtain ⟨before, time, struck, since, older, newer, hcalls, hsince, hrows, hnewer⟩ :=
    h.placed entry hentry
  obtain ⟨older', newer', hrows', hsub⟩ := rows_erase hrows hne.symm
  have hrowsEnter := rows_enter r limits other admission now
  rw [hrows', List.append_assoc, List.cons_append] at hrowsEnter
  have hcallsSnoc : calls ++ [(now, .strike other admission)] =
      before ++ (time, .strike key struck) :: (since ++ [(now, .strike other admission)]) := by
    rw [hcalls, List.append_assoc, List.cons_append]
  have hsinceSnoc : ∀ call ∈ since ++ [(now, CoolDownCall.strike other admission)],
      call.2.struck ≠ some key := by
    intro call hcall
    rcases List.mem_append.1 hcall with hcall | hcall
    · exact hsince call hcall
    · rw [List.mem_singleton.1 hcall]
      exact fun hown => hne (Option.some.inj hown)
  have hbehind : ∀ row ∈ newer' ++ [(other, CoolDownRegistry.struck limits (r.get? other)
      admission now)], row.1 ∈ otherKeys key (since ++ [(now, .strike other admission)]) := by
    intro row hrow
    rcases List.mem_append.1 hrow with hrow | hrow
    · exact Finset.mem_of_subset (otherKeys_append_subset key since _)
        (hnewer row (hsub.subset hrow))
    · rw [List.mem_singleton.1 hrow]
      exact mem_otherKeys_snoc hne since rfl
  have hnodup := (r.enter limits other admission now).nodup
  rw [hrowsEnter, List.map_append, List.map_cons, List.nodup_append] at hnodup
  have hfew := huncrowded before time struck _ [] (by rw [List.append_nil]; exact hcallsSnoc)
    hsinceSnoc
  exact ⟨before, time, struck, _, older', _, hcallsSnoc, hsinceSnoc, hrowsEnter, hbehind,
    (length_le_card (List.nodup_cons.1 hnodup.2.1).2 hbehind).trans_lt hfew⟩

/-- **A strike of another key** keeps what the registry shows. -/
theorem Tracks.strike_other (h : Tracks limits key calls r now) {other : Str} (hne : other ≠ key)
    (admission : Bool)
    (huncrowded : Uncrowded limits.maxEntries key (calls ++ [(now, .strike other admission)])) :
    Tracks limits key (calls ++ [(now, .strike other admission)])
      (r.strike limits other admission now).2 now := by
  have hseries : currentSeries limits key (calls ++ [(now, .strike other admission)]) =
      currentSeries limits key calls := by
    refine currentSeries_other calls fun hown => ?_
    exact hne (Option.some.inj hown)
  refine ⟨size_strike_le r limits other admission now, fun entry hview => ?_,
    fun later hlater => ?_⟩
  · obtain ⟨hentry, hlive⟩ := view_eq_some.1 hview
    have hbefore : r.get? key = some entry := by
      rcases get?_sweep (r.enter limits other admission now) limits now key with hsweep | hsweep
      · rw [← get?_enter_of_ne hne admission, ← hsweep]
        exact hentry
      · cases hsweep.symm.trans hentry
    obtain ⟨before, time, struck, since, older, newer, hcalls, hsince, hrows, hbehind, hfew⟩ :=
      h.placed_enter hne admission huncrowded (view_eq_some.2 ⟨hbefore, hlive⟩)
    obtain ⟨older', newer', hrows', hsub⟩ := rows_strike hrows hfew hlive
    exact ⟨before, time, struck, since, older', newer', hcalls, hsince, hrows',
      fun row hrow => hbehind row (hsub.subset hrow)⟩
  · rw [hseries, ← h.shown later hlater]
    cases hview : view limits r key now with
    | none =>
      have hnone : view limits (r.strike limits other admission now).2 key now = none := by
        rcases view_sweep (r.enter limits other admission now) limits now key with hsweep | hsweep
        · exact hsweep.trans ((view_of_get?_eq (get?_enter_of_ne hne admission)).trans hview)
        · exact hsweep
      rw [view_later hlater, view_later hlater, hnone, hview]
    | some entry =>
      obtain ⟨-, -, -, -, older, newer, -, -, hrows, -, hfew⟩ :=
        h.placed_enter hne admission huncrowded hview
      obtain ⟨hentry, hlive⟩ := view_eq_some.1 hview
      obtain ⟨older', newer', hrows', -⟩ := rows_strike hrows hfew hlive
      refine view_of_get?_eq ?_
      rw [hentry, ← Table.mem_rows, hrows']
      exact List.mem_append_right _ List.mem_cons_self

/-- **After any calls**, the registry shows the current series of every uncrowded key. -/
theorem tracks_after (hmax : 0 < limits.maxEntries) (hkey : key ≠ [])
    (hsorted : calls.Pairwise fun call call' => call.1 ≤ call'.1)
    (huncrowded : Uncrowded limits.maxEntries key calls) :
    ∀ {now : ℤ}, (∀ call ∈ calls, call.1 ≤ now) →
      Tracks limits key calls (CoolDownRegistry.after limits calls) now := by
  induction calls using List.reverseRecOn with
  | nil => exact fun _ => tracks_empty limits key _
  | append_singleton calls call ih =>
    intro now hnow
    obtain ⟨hfirst, -, hlast⟩ := List.pairwise_append.1 hsorted
    have hbefore := ih hfirst huncrowded.of_append fun earlier hearlier =>
      hlast earlier hearlier call (List.mem_singleton_self call)
    have hcall := hnow call (List.mem_append_right _ (List.mem_singleton_self call))
    have hafter : CoolDownRegistry.after limits (calls ++ [call]) =
        CoolDownRegistry.call limits (CoolDownRegistry.after limits calls) call :=
      List.foldl_concat ..
    rw [hafter]
    obtain ⟨time, ⟨struck, admission⟩ | ⟨checked, admitted⟩⟩ := call
    · by_cases hown : struck = key
      · subst hown
        exact (hbefore.strike hmax admission).mono hcall
      · exact (hbefore.strike_other hown admission huncrowded).mono hcall
    · exact (hbefore.remaining hkey checked admitted).mono hcall

end CoolDownRegistry

open CoolDownRegistry in
/-- **The answers of the registry.** For a key that is not crowded out, the next backoff and the
remaining time are those of the calls of the key alone; a lookup leaves no entry that was not there,
and after a strike at most `maxEntries` are left. -/
theorem cool_down_of_own_calls (limits : CoolDownLimits) (hmax : 1 ≤ limits.maxEntries)
    (calls : List (ℤ × CoolDownCall))
    (hsorted : calls.Pairwise fun call call' => call.1 ≤ call'.1) (now : ℤ)
    (hnow : ∀ call ∈ calls, call.1 ≤ now) :
    (∀ key, key ≠ [] → Uncrowded limits.maxEntries key calls →
      (∀ admission, ((CoolDownRegistry.after limits calls).strike limits key admission now).1 =
        min limits.maxMs (limits.baseMs *
          2 ^ min ((currentSeries limits key calls).alive limits now).length 30)) ∧
      ∀ admitted, ((CoolDownRegistry.after limits calls).remaining limits (some key) admitted now).1 =
        (currentSeries limits key calls).remaining limits admitted now) ∧
    (∀ checked admitted key entry,
      ((CoolDownRegistry.after limits calls).remaining limits checked admitted now).2.get? key =
        some entry → (CoolDownRegistry.after limits calls).get? key = some entry) ∧
    ∀ key admission, ((CoolDownRegistry.after limits calls).strike limits key admission now).2.size ≤
      limits.maxEntries := by
  refine ⟨fun key hkey huncrowded => ?_, fun _ _ _ _ => get?_remaining,
    fun key admission => size_strike_le _ limits key admission now⟩
  have h := tracks_after hmax hkey hsorted huncrowded hnow
  refine ⟨fun admission => ?_, fun admitted => ?_⟩
  · obtain ⟨hstrikes, -⟩ := length_eq_strikes (h.struck_eq admission).symm
    rw [strike, hstrikes, Series.next, List.length_append]
    rfl
  · rw [(remaining_eq _ limits hkey admitted now).1, h.shown now le_rfl, Series.remaining,
      windowEnd?_eq, entryOf_alive]
    cases hentry : entryOf limits (currentSeries limits key calls) with
    | none =>
      rw [eq_nil_of_entryOf hentry, Option.filter_none]
      simp
    | some entry =>
      rw [← (length_eq_strikes hentry).2, Option.filter_some]
      cases stale limits now entry with
      | true => simp
      | false => simp

/-- A key that was struck twice and then looked up waits for its second backoff, whatever the other
key did. -/
theorem cool_down_of_own_calls_sample :
    ((CoolDownRegistry.after .standard [(0, .strike (lit "room|k|phone") false),
      (0, .strike (lit "room|k|other") true), (6000, .strike (lit "room|k|phone") true),
      (7000, .remaining (some (lit "room|k|other")) true)]).remaining .standard
        (some (lit "room|k|phone")) true 8000).1 = 8000 := by
  refine (((cool_down_of_own_calls .standard (by decide) _ (by decide) 8000 (by decide)).1
    (lit "room|k|phone") (by decide) (uncrowded_of_length_le _ (by decide))).2 true).trans ?_
  decide +kernel

/-- The empty key is never told to wait. -/
theorem empty_key_never_waits :
    Uncrowded COOL_DOWN_MAX_ENTRIES [] [(0, .strike [] false)] ∧
      ((CoolDownRegistry.after .standard [(0, .strike [] false)]).remaining .standard (some [])
        false 0).1 = 0 ∧
      (currentSeries .standard [] [(0, .strike [] false)]).remaining .standard false 0 = 5000 :=
  ⟨uncrowded_of_length_le [] (by decide), by decide +kernel, by decide +kernel⟩

end GrantTap
