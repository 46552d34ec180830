import Mathlib.Data.List.Induction

/-!
# The first verdict

Events happen one after another, and some of them bring a verdict, which may depend on what happened
before. The first verdict counts, and nothing that happens later changes it.

* `decided_concat`: one more event.
* `decided_eq_some`: **the event that decided**, and what happened before it.
-/

namespace Verdicts

variable {α β : Type*} (verdict : List α → α → Option β)

/-- The first verdict of some events that come after others. -/
def decidedAfter : List α → List α → Option β
  | _, [] => none
  | before, e :: rest => (verdict before e).or (decidedAfter (before ++ [e]) rest)

/-- The first verdict. -/
def decided (events : List α) : Option β := decidedAfter verdict [] events

variable {verdict} {before events rest : List α} {e : α} {b : β}

theorem decidedAfter_append (before events rest : List α) :
    decidedAfter verdict before (events ++ rest) =
      (decidedAfter verdict before events).or (decidedAfter verdict (before ++ events) rest) := by
  induction events generalizing before with
  | nil => simp [decidedAfter]
  | cons e events ih => simp [decidedAfter, ih, Option.or_assoc]

@[simp] theorem decided_nil : decided verdict [] = none := rfl

/-- One more event decides, unless another one has. -/
theorem decided_concat (events : List α) (e : α) :
    decided verdict (events ++ [e]) = (decided verdict events).or (verdict events e) := by
  simp [decided, decidedAfter_append, decidedAfter]

theorem decided_mono (h : decided verdict events = some b) (rest : List α) :
    decided verdict (events ++ rest) = some b := by
  rw [decided, decidedAfter_append, ← decided, h, Option.some_or]

/-- **One event decides.** -/
theorem decided_eq_some : decided verdict events = some b ↔ ∃ before e rest,
    events = before ++ e :: rest ∧ decided verdict before = none ∧ verdict before e = some b := by
  constructor
  · intro h
    induction events using List.reverseRecOn with
    | nil => cases h
    | append_singleton events e ih =>
      rw [decided_concat, Option.or_eq_some_iff] at h
      rcases h with h | ⟨hnone, he⟩
      · obtain ⟨before, e', rest, rfl, hbefore, he'⟩ := ih h
        exact ⟨before, e', rest ++ [e], by simp, hbefore, he'⟩
      · exact ⟨events, e, [], rfl, hnone, he⟩
  · rintro ⟨before, e, rest, rfl, hbefore, he⟩
    have hdecided : decided verdict (before ++ [e]) = some b := by
      rw [decided_concat, hbefore, he, Option.none_or]
    rw [← List.singleton_append, ← List.append_assoc]
    exact decided_mono hdecided rest

/-- No event decides. -/
theorem decided_eq_none : decided verdict events = none ↔
    ∀ before e rest, events = before ++ e :: rest → verdict before e = none := by
  constructor
  · rintro h before e rest rfl
    rw [← List.singleton_append, ← List.append_assoc] at h
    by_contra hverdict
    obtain ⟨b, hb⟩ := Option.ne_none_iff_exists'.1 hverdict
    cases hbefore : decided verdict before with
    | some b' =>
      rw [decided_mono (decided_mono hbefore [e]) rest] at h
      cases h
    | none =>
      rw [decided_mono (b := b) (by rw [decided_concat, hbefore, hb, Option.none_or]) rest] at h
      cases h
  · intro h
    by_contra hdecided
    obtain ⟨b, hb⟩ := Option.ne_none_iff_exists'.1 hdecided
    obtain ⟨before, e, rest, he, -, hverdict⟩ := decided_eq_some.1 hb
    rw [h before e rest he] at hverdict
    cases hverdict

/-- An event that decides in any case has decided, or came too late. -/
theorem decided_of_mem (he : e ∈ events) (h : ∀ before, (verdict before e).isSome) :
    (decided verdict events).isSome := by
  obtain ⟨before, rest, rfl⟩ := List.append_of_mem he
  obtain ⟨b, hb⟩ := Option.isSome_iff_exists.1 (h before)
  rw [← List.singleton_append, ← List.append_assoc]
  cases hbefore : decided verdict before with
  | some b' =>
    rw [decided_mono (decided_mono hbefore [e]) rest]
    rfl
  | none =>
    rw [decided_mono (b := b) (by rw [decided_concat, hbefore, hb, Option.none_or]) rest]
    rfl

end Verdicts
