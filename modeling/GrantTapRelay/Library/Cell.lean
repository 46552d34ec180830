import GrantTapRelay.Library.Histories
import Mathlib.Data.List.Basic
import Mathlib.Data.List.Induction
import Mathlib.Data.List.Pairwise
import Mathlib.Data.Option.Basic
import Mathlib.Algebra.Order.Group.Int

/-!
# A single-use cell

A cell holds one value for a lifetime, until it is taken. Its behaviour is said of the events that
a client sees, a request with its time and its answer: `contents` is what the events left in the
cell, and events `Conform` when each answer is the one that the events before it call for.

* `Conforms.snoc`: events conform one by one, which is how an implementation shows it.
* `Conforms.singleUse`: between two takes there is a successful put of what is taken second, and
  until it is taken a value is there for its lifetime.
-/

namespace Cell

/-- A request to a cell. -/
inductive Request (β : Type*)
  | put (value : β)
  | head
  | get

/-- What a client learns. -/
inductive Answer (β : Type*)
  | stored
  | occupied
  | present
  | absent
  | taken (value : β)

structure Event (β : Type*) where
  now : ℤ
  request : Request β
  answer : Answer β

variable {β : Type*} {ttl : ℤ} {events : List (Event β)} {e : Event β} {value : β}

/-- What an event leaves of a value and the time of its put. -/
def Event.leave (held : Option (β × ℤ)) (e : Event β) : Option (β × ℤ) :=
  match e.request, e.answer with
  | .put value, .stored => some (value, e.now)
  | .get, .taken _ => none
  | _, _ => held

/-- The last value that was put and not taken since, with its time. -/
def contents (events : List (Event β)) : Option (β × ℤ) := events.foldl Event.leave none

/-- The value is younger than the lifetime. -/
def fresh (ttl now : ℤ) (held : Option (β × ℤ)) : Option β :=
  (held.filter fun x => now < x.2 + ttl).map (·.1)

/-- The answer of a cell with these contents. -/
def answer (ttl now : ℤ) (held : Option (β × ℤ)) : Request β → Answer β
  | .put _ => if (fresh ttl now held).isSome then .occupied else .stored
  | .head => if (fresh ttl now held).isSome then .present else .absent
  | .get => (fresh ttl now held).elim .absent .taken

/-- Every answer is the one that the events before it call for. -/
def Conforms (ttl : ℤ) (events : List (Event β)) : Prop :=
  ∀ before e rest, events = before ++ e :: rest →
    e.answer = answer ttl e.now (contents before) e.request

theorem contents_snoc (events : List (Event β)) (e : Event β) :
    contents (events ++ [e]) = e.leave (contents events) := by
  rw [contents, List.foldl_append]
  rfl

theorem Conforms.nil : Conforms ttl ([] : List (Event β)) := by
  intro before e rest h
  simp at h

theorem Conforms.snoc (h : Conforms ttl events)
    (he : e.answer = answer ttl e.now (contents events) e.request) :
    Conforms ttl (events ++ [e]) := by
  intro before e' rest hsplit
  rcases Histories.split_snoc hsplit with ⟨-, rfl, rfl⟩ | ⟨rest, -, hevents⟩
  · exact he
  · exact h before e' rest hevents

/-! ## What clients rely on -/

/-- The event takes a value. -/
def Event.takes (e : Event β) (value : β) : Prop := e.request = .get ∧ e.answer = .taken value

/-- The event stores a value. -/
def Event.stores (e : Event β) (value : β) : Prop := e.request = .put value ∧ e.answer = .stored

/-- Without a put and without a take the contents stay. -/
theorem foldl_leave {held : Option (β × ℤ)} (htakes : ∀ e ∈ events, ∀ value, ¬e.takes value)
    (hstores : ∀ e ∈ events, ∀ value, ¬e.stores value) : events.foldl Event.leave held = held := by
  induction events with
  | nil => rfl
  | cons e events ih =>
    have hleave : e.leave held = held := by
      unfold Event.leave
      split
      · rename_i value hrequest hanswer
        exact absurd ⟨hrequest, hanswer⟩ (hstores e List.mem_cons_self value)
      · rename_i value hrequest hanswer
        exact absurd ⟨hrequest, hanswer⟩ (htakes e List.mem_cons_self value)
      · rfl
    rw [List.foldl_cons, hleave]
    exact ih (fun e he => htakes e (List.mem_cons_of_mem _ he))
      fun e he => hstores e (List.mem_cons_of_mem _ he)

/-- Contents come from the last put, and nothing was put or taken after it. -/
theorem contents_eq_some {since : ℤ} (h : contents events = some (value, since)) :
    ∃ before p rest, events = before ++ p :: rest ∧ p.stores value ∧ p.now = since ∧
      (∀ e ∈ rest, ∀ other, ¬e.takes other) ∧ ∀ e ∈ rest, ∀ other, ¬e.stores other := by
  induction events using List.reverseRecOn with
  | nil => simp [contents] at h
  | append_singleton events e ih =>
    rw [contents_snoc] at h
    by_cases hstores : ∃ other, e.stores other
    · obtain ⟨other, hrequest, hanswer⟩ := hstores
      rw [Event.leave, hrequest, hanswer] at h
      obtain ⟨rfl, rfl⟩ := Prod.mk.inj (Option.some_inj.1 h)
      exact ⟨events, e, [], rfl, ⟨hrequest, hanswer⟩, rfl, by simp, by simp⟩
    · have htakes : ∀ other, ¬e.takes other := by
        rintro other ⟨hrequest, hanswer⟩
        rw [Event.leave, hrequest, hanswer] at h
        cases h
      have hputs : ∀ other, ¬e.stores other := fun other ho => hstores ⟨other, ho⟩
      have hsame : contents events = some (value, since) := by
        rw [← h]
        have hleft : [e].foldl Event.leave (contents events) = contents events :=
          foldl_leave (by simpa using htakes) (by simpa using hputs)
        exact hleft.symm
      obtain ⟨before, p, rest, rfl, hp, hnow, hrest⟩ := ih hsame
      refine ⟨before, p, rest ++ [e], by simp, hp, hnow, ?_⟩
      simp only [List.mem_append, List.mem_singleton]
      refine ⟨?_, ?_⟩
      · rintro e' (he' | rfl)
        · exact hrest.1 e' he'
        · exact htakes
      · rintro e' (he' | rfl)
        · exact hrest.2 e' he'
        · exact hputs

variable (ttl events) in
/-- No value is returned twice, and none is gone within its lifetime unless it was returned. -/
structure SingleUse : Prop where
  conforms : Conforms ttl events
  /-- What is taken was put before, not longer ago than the lifetime, and nothing was put or taken
  in between. -/
  taken : ∀ before g rest value, events = before ++ g :: rest → g.takes value →
    ∃ front p middle, before = front ++ p :: middle ∧ p.stores value ∧ g.now < p.now + ttl ∧
      (∀ e ∈ middle, ∀ other, ¬e.takes other) ∧ ∀ e ∈ middle, ∀ other, ¬e.stores other
  /-- What is put and not taken is there for its lifetime. -/
  kept : ∀ before p middle e rest value, events = before ++ p :: middle ++ e :: rest →
    p.stores value → (∀ e ∈ middle, ∀ other, ¬e.takes other) → e.now < p.now + ttl →
      e.answer = match e.request with
        | .put _ => .occupied
        | .head => .present
        | .get => .taken value

theorem fresh_some {now since : ℤ} (h : now < since + ttl) :
    fresh ttl now (some (value, since)) = some value := by
  rw [fresh, Option.filter_some, if_pos (decide_eq_true h)]
  rfl

theorem fresh_eq_some {now : ℤ} {held : Option (β × ℤ)} (h : fresh ttl now held = some value) :
    ∃ since, held = some (value, since) ∧ now < since + ttl := by
  obtain ⟨⟨other, since⟩, hx, rfl⟩ := Option.map_eq_some_iff.1 h
  obtain ⟨rfl, hlt⟩ := Option.filter_eq_some_iff.1 hx
  exact ⟨since, rfl, of_decide_eq_true hlt⟩

/-- Until its lifetime ends, a value that is not taken is the contents: a put finds the cell
occupied, because it is not later than an event within the lifetime. -/
theorem Conforms.contents_kept {before middle rest : List (Event β)} {p : Event β}
    (h : Conforms ttl events) (hsorted : events.Pairwise fun x y => x.now ≤ y.now)
    (hsplit : events = before ++ p :: middle ++ e :: rest) (hp : p.stores value)
    (htakes : ∀ e ∈ middle, ∀ other, ¬e.takes other) (hlt : e.now < p.now + ttl)
    (front : List (Event β)) (hfront : front <+: middle) :
    contents (before ++ p :: front) = some (value, p.now) := by
  have hput : contents (before ++ [p]) = some (value, p.now) := by
    rw [contents_snoc, Event.leave, hp.1, hp.2]
  induction front using List.reverseRecOn with
  | nil => exact hput
  | append_singleton front x ih =>
    obtain ⟨more, rfl⟩ := hfront
    have hprev := ih ⟨x :: more, by simp⟩
    have hx : x.now ≤ e.now := by
      have hfrom : before ++ p :: (front ++ [x] ++ more) ++ e :: rest =
          (before ++ p :: front) ++ x :: (more ++ e :: rest) := by simp
      rw [hsplit, hfrom] at hsorted
      exact (List.pairwise_cons.1 (List.pairwise_append.1 hsorted).2.1).1 e (by simp)
    have hanswer := h (before ++ p :: front) x (more ++ e :: rest) (by rw [hsplit]; simp)
    rw [hprev] at hanswer
    have hx' : x.now < p.now + ttl := lt_of_le_of_lt hx hlt
    have hputs : ∀ other, ¬x.stores other := by
      rintro other ⟨hrequest, hstored⟩
      rw [hstored, hrequest, answer, fresh_some hx'] at hanswer
      cases hanswer
    have hsnoc : before ++ p :: (front ++ [x]) = (before ++ p :: front) ++ [x] := by simp
    rw [hsnoc, contents, List.foldl_append]
    exact (foldl_leave (by simpa using htakes x (by simp)) (by simpa using hputs)).trans hprev

/-- **Single use** follows from the answers, when the clock does not go back. -/
theorem Conforms.singleUse (h : Conforms ttl events)
    (hsorted : events.Pairwise fun x y => x.now ≤ y.now) : SingleUse ttl events where
  conforms := h
  taken before g rest value hsplit htakes := by
    have hanswer := h before g rest hsplit
    rw [htakes.2, htakes.1, answer] at hanswer
    cases hfresh : fresh ttl g.now (contents before) with
    | none =>
      rw [hfresh] at hanswer
      cases hanswer
    | some other =>
      rw [hfresh] at hanswer
      obtain rfl : value = other := by injection hanswer
      obtain ⟨since, hcontents, hlt⟩ := fresh_eq_some hfresh
      obtain ⟨front, p, middle, hbefore, hp, rfl, hmiddle⟩ := contents_eq_some hcontents
      exact ⟨front, p, middle, hbefore, hp, hlt, hmiddle⟩
  kept before p middle e rest value hsplit hp htakes hlt := by
    have hcontents := h.contents_kept hsorted hsplit hp htakes hlt middle (List.prefix_refl _)
    have hanswer := h (before ++ p :: middle) e rest hsplit
    rw [hcontents] at hanswer
    rw [hanswer]
    unfold answer
    rw [fresh_some hlt]
    cases e.request <;> rfl

end Cell
