import GrantTapRelay.Library.Table
import GrantTapRelay.Relay.SubmissionReceipts

/-!
# Reconnect cool-downs

`src/relay/coolDown.js`: a bounded registry of the identities that were closed for a policy, oldest
strike first. What a key can tell is its entry while it is not stale (`view`): a stale entry reads
as none, whether or not a sweep has deleted it. A strike or a check of one key changes the view of
another key only by a sweep (`view_enter_of_ne`, `view_sweep`, `view_remaining_of_ne`).
-/

namespace GrantTap

open Js

def COOL_DOWN_BASE_MS : ℕ := 5000

def COOL_DOWN_MAX_MS : ℕ := 5 * 60000

def COOL_DOWN_RESET_MS : ℕ := 15 * 60000

def COOL_DOWN_MAX_ENTRIES : ℕ := 10000

def SWEEP_PER_STRIKE : ℕ := 8

structure CoolDownEntry where
  strikes : ℕ
  untilMs : ℤ
  admissionOnly : Bool
  deriving DecidableEq

/-- The options of a registry. -/
structure CoolDownLimits where
  baseMs : ℕ
  maxMs : ℕ
  resetMs : ℕ
  maxEntries : ℕ

/-- The options that the constructor takes for the missing ones. -/
def CoolDownLimits.standard : CoolDownLimits :=
  ⟨COOL_DOWN_BASE_MS, COOL_DOWN_MAX_MS, COOL_DOWN_RESET_MS, COOL_DOWN_MAX_ENTRIES⟩

/-- The entries, in the order of their last strikes. -/
abbrev CoolDownRegistry := Table Str CoolDownEntry

namespace CoolDownRegistry

/-- `now - entry.until > this.resetMs` -/
def stale (limits : CoolDownLimits) (now : ℤ) (entry : CoolDownEntry) : Bool :=
  limits.resetMs < now - entry.untilMs

/-- The backoff of a number of strikes. -/
def backoffMs (limits : CoolDownLimits) (strikes : ℕ) : ℕ :=
  min limits.maxMs (limits.baseMs * 2 ^ min (strikes - 1) 30)

/-- The loop of `sweep` over the entries that remain, of which `size` are left in all. -/
def sweepRows (limits : CoolDownLimits) (now : ℤ) :
    ℕ → ℕ → List (Str × CoolDownEntry) → List (Str × CoolDownEntry)
  | _, _, [] => []
  | checked, size, row :: rows =>
    if size ≤ limits.maxEntries ∧ SWEEP_PER_STRIKE ≤ checked then row :: rows
    else if limits.maxEntries < size ∨ stale limits now row.2 then
      sweepRows limits now (checked + 1) (size - 1) rows
    else row :: sweepRows limits now (checked + 1) size rows

theorem sweepRows_sublist (limits : CoolDownLimits) (now : ℤ) :
    ∀ (checked size : ℕ) (rows : List (Str × CoolDownEntry)),
      (sweepRows limits now checked size rows).Sublist rows
  | _, _, [] => .slnil
  | checked, size, row :: rows => by
    unfold sweepRows
    split_ifs
    · exact .refl _
    · exact (sweepRows_sublist limits now _ _ rows).cons _
    · exact (sweepRows_sublist limits now _ _ rows).cons_cons _

def sweep (r : CoolDownRegistry) (limits : CoolDownLimits) (now : ℤ) : CoolDownRegistry where
  rows := sweepRows limits now 0 r.size r.rows
  nodup := r.nodup.sublist ((sweepRows_sublist limits now 0 r.size r.rows).map _)

/-- The entry of a strike after `previous`. -/
def struck (limits : CoolDownLimits) (previous : Option CoolDownEntry) (admission : Bool)
    (now : ℤ) : CoolDownEntry :=
  match previous.filter fun entry => !stale limits now entry with
  | none => ⟨1, now + backoffMs limits 1, admission⟩
  | some entry => ⟨entry.strikes + 1, now + backoffMs limits (entry.strikes + 1),
      admission && entry.admissionOnly⟩

/-- The entries after a strike, before the sweep. -/
def enter (r : CoolDownRegistry) (limits : CoolDownLimits) (key : Str) (admission : Bool)
    (now : ℤ) : CoolDownRegistry :=
  (r.erase key).put key (struck limits (r.get? key) admission now)

/-- `strike`: the new backoff and the entries. -/
def strike (r : CoolDownRegistry) (limits : CoolDownLimits) (key : Str) (admission : Bool)
    (now : ℤ) : ℕ × CoolDownRegistry :=
  (backoffMs limits (struck limits (r.get? key) admission now).strikes,
    (r.enter limits key admission now).sweep limits now)

/-- `remaining`: the time left of a cool-down, and the entries. -/
def remaining (r : CoolDownRegistry) (limits : CoolDownLimits) (key : Option Str)
    (admitted : Bool) (now : ℤ) : ℤ × CoolDownRegistry :=
  match key.filter (· ≠ []) with
  | none => (0, r)
  | some key =>
    match r.get? key with
    | none => (0, r)
    | some entry =>
      if admitted && entry.admissionOnly then (0, r.erase key)
      else if stale limits now entry then (0, r.erase key)
      else (max 0 (entry.untilMs - now), r)

end CoolDownRegistry

/-! ## Identities -/

/-- Two passes of a 32-bit hash, as sixteen hexadecimal digits. -/
def senderDigest (value : Str) : Str :=
  let step : UInt32 × UInt32 → UInt16 → UInt32 × UInt32 := fun h code =>
    ((h.1 ^^^ code.toUInt32) * 0x01000193, (h.2 ^^^ code.toUInt32) * 0x811c9dc5)
  let h := value.foldl step (0x811c9dc5, 0x01000193)
  let hex := fun n : UInt32 => (Nat.toDigits 16 n.toNat).flatMap utf16
  let padded := fun s : Str => List.replicate (8 - s.length) '0'.toNat.toUInt16 ++ s
  padded (hex h.1) ++ padded (hex h.2)

/-- The identity that is known before the upgrade: the room and the public-key digest. -/
def upgradeIdentity (room : Str) (recipientKeyId : Option Str) : Option Str :=
  (recipientKeyId.filter (· ≠ [])).map fun key => room.take 16 ++ lit "|k|" ++ key.take 32

/-- The name of a role. -/
def Role.text : Role → Str
  | .machine => lit "machine"
  | .phone => lit "phone"

/-- The identity of a socket: its public-key digest, or its first frame's role and sender. -/
def socketIdentity (room : Str) (recipientKeyId : Option Str) (role : Option Role)
    (senderId : Option Str) : Option Str :=
  match upgradeIdentity room recipientKeyId with
  | some key => some key
  | none =>
    match role, senderId with
    | some role, some sender =>
      some (room.take 16 ++ lit "|s|" ++ role.text ++ lit "|" ++ senderDigest sender)
    | _, _ => none

/-! ## What a key can tell -/

namespace CoolDownRegistry

variable {limits : CoolDownLimits} {r : CoolDownRegistry} {key other : Str} {now later : ℤ}

/-- The entry of a key, while it is not stale. -/
def view (limits : CoolDownLimits) (r : CoolDownRegistry) (key : Str) (now : ℤ) :
    Option CoolDownEntry :=
  (r.get? key).filter fun entry => !stale limits now entry

/-- A stale entry stays stale. -/
theorem stale_mono {entry : CoolDownEntry} (h : now ≤ later) (hs : stale limits now entry = true) :
    stale limits later entry = true := by
  simp only [stale, decide_eq_true_eq] at hs ⊢
  omega

theorem view_later (h : now ≤ later) :
    view limits r key later =
      (view limits r key now).filter fun entry => !stale limits later entry := by
  unfold view
  cases r.get? key with
  | none => rfl
  | some entry =>
    by_cases hs : stale limits now entry = true
    · rw [Option.filter_some, Option.filter_some, hs, stale_mono h hs]
      rfl
    · rw [Bool.not_eq_true] at hs
      simp only [Option.filter_some, hs, Bool.not_false, if_true]

theorem view_of_get?_eq {r' : CoolDownRegistry} (h : r'.get? key = r.get? key) :
    view limits r' key now = view limits r key now := by
  rw [view, view, h]

/-- A sweep deletes the entry of a key or leaves it. -/
theorem get?_sweep (r : CoolDownRegistry) (limits : CoolDownLimits) (now : ℤ) (key : Str) :
    (r.sweep limits now).get? key = r.get? key ∨ (r.sweep limits now).get? key = none := by
  cases h : (r.sweep limits now).get? key with
  | none => exact .inr rfl
  | some entry =>
    have hmem := (sweepRows_sublist limits now 0 r.size r.rows).subset (Table.mem_rows.2 h)
    exact .inl (Table.mem_rows.1 hmem).symm

theorem view_sweep (r : CoolDownRegistry) (limits : CoolDownLimits) (now : ℤ) (key : Str) :
    view limits (r.sweep limits now) key now = view limits r key now ∨
      view limits (r.sweep limits now) key now = none := by
  rcases get?_sweep r limits now key with h | h
  · exact .inl (view_of_get?_eq h)
  · exact .inr (by rw [view, h]; rfl)

theorem get?_enter (r : CoolDownRegistry) (limits : CoolDownLimits) (key : Str) (admission : Bool)
    (now : ℤ) (other : Str) : (r.enter limits key admission now).get? other =
      if other = key then some (struck limits (r.get? key) admission now) else r.get? other := by
  rw [enter, Table.get?_put, Table.get?_erase]
  split_ifs <;> rfl

/-- A fresh strike is not stale. -/
theorem not_stale_struck (limits : CoolDownLimits) (previous : Option CoolDownEntry)
    (admission : Bool) (now : ℤ) :
    stale limits now (struck limits previous admission now) = false := by
  unfold struck stale
  split <;> exact decide_eq_false (by dsimp only; omega)

/-- The entry after a strike, before the sweep. -/
theorem view_enter (r : CoolDownRegistry) (limits : CoolDownLimits) (key : Str) (admission : Bool)
    (now : ℤ) : view limits (r.enter limits key admission now) key now =
      some (struck limits (view limits r key now) admission now) := by
  have hview : struck limits (view limits r key now) admission now =
      struck limits (r.get? key) admission now := by
    unfold struck view
    rw [Option.filter_filter]
    simp only [Bool.and_self]
  rw [hview, view, get?_enter, if_pos rfl, Option.filter_some, not_stale_struck]
  rfl

/-- A strike of another key leaves the view, before its sweep. -/
theorem view_enter_of_ne (h : key ≠ other) (admission : Bool) (now later : ℤ) :
    view limits (r.enter limits other admission now) key later = view limits r key later :=
  view_of_get?_eq (by rw [get?_enter, if_neg h])

/-- What a check answers, and what it leaves of the view. -/
theorem remaining_eq (r : CoolDownRegistry) (limits : CoolDownLimits) (hkey : key ≠ [])
    (admitted : Bool) (now : ℤ) :
    (r.remaining limits (some key) admitted now).1 =
        (match view limits r key now with
        | none => 0
        | some entry => if admitted && entry.admissionOnly then 0 else max 0 (entry.untilMs - now)) ∧
      view limits (r.remaining limits (some key) admitted now).2 key now =
        (view limits r key now).filter fun entry => !(admitted && entry.admissionOnly) := by
  have herase : view limits (r.erase key) key now = none := by
    rw [view, Table.get?_erase, if_pos rfl]
    rfl
  unfold remaining
  rw [Option.filter_some, if_pos (by simpa using hkey)]
  dsimp only
  cases hentry : r.get? key with
  | none =>
    have hview : view limits r key now = none := by rw [view, hentry]; rfl
    dsimp only
    rw [hview]
    exact ⟨rfl, rfl⟩
  | some entry =>
    dsimp only
    by_cases hstale : stale limits now entry = true
    · have hview : view limits r key now = none := by
        rw [view, hentry, Option.filter_some, hstale]
        rfl
      rw [hview]
      by_cases hcleared : (admitted && entry.admissionOnly) = true
      · rw [if_pos hcleared]
        exact ⟨rfl, herase⟩
      · rw [if_neg hcleared, if_pos hstale]
        exact ⟨rfl, herase⟩
    · have hview : view limits r key now = some entry := by
        rw [view, hentry, Option.filter_some, if_pos (by simpa using hstale)]
      rw [hview]
      by_cases hcleared : (admitted && entry.admissionOnly) = true
      · rw [if_pos hcleared, Option.filter_some, hcleared]
        refine ⟨?_, herase⟩
        dsimp only
        rw [if_pos hcleared]
      · rw [if_neg hcleared, if_neg hstale, Option.filter_some, Bool.eq_false_iff.2 hcleared]
        refine ⟨?_, hview⟩
        dsimp only
        rw [if_neg hcleared]

/-- A check of another key leaves the view. -/
theorem view_remaining_of_ne {checked : Option Str} (h : checked ≠ some key) (admitted : Bool)
    (now : ℤ) (later : ℤ) :
    view limits (r.remaining limits checked admitted now).2 key later = view limits r key later := by
  unfold remaining
  cases hk : checked.filter (· ≠ []) with
  | none => rfl
  | some other =>
    have hne : key ≠ other := by
      rintro rfl
      exact h (Option.filter_eq_some_iff.1 hk).1
    have herase : (r.erase other).get? key = r.get? key := by
      rw [Table.get?_erase, if_neg hne]
    dsimp only
    cases r.get? other with
    | none => rfl
    | some entry =>
      dsimp only
      split_ifs
      · exact view_of_get?_eq herase
      · exact view_of_get?_eq herase
      · rfl

end CoolDownRegistry

end GrantTap
