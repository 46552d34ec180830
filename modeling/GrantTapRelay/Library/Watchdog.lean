import GrantTapRelay.Library.Runs
import Mathlib.Algebra.Order.Ring.Defs
import Mathlib.Tactic.Linarith

/-!
# Watchdogs

A watchdog looks after its peers in rounds. A round marks a peer, a sign of life takes the mark
away, and a peer that still has its mark at the next round is dismissed, as is one that cannot be
marked. A dismissed peer leaves a little later. What happens to one peer is a run of `Move`, whose
labels are times.

Rounds begin an `interval` apart or more. In a `Timely` run none is later than that by more than
`late`, and a dismissed peer is gone after `lag`.

* `Kept.visit_dismissed`: a peer that is dismissed was silent for an interval, or could not be
  marked.
* `heard_recently`: **a peer that stays was heard** within two intervals, and what rounds and
  leaving may take longer.
-/

namespace Watchdogs

open Runs

variable {τ : Type*}

/-- What a watchdog knows of a peer: when it was heard last, its mark, and when it was dismissed. -/
structure Peer (τ : Type*) where
  heard : τ
  marked : Bool
  dismissed : Option τ

namespace Peer

def dismiss (now : τ) (p : Peer τ) : Peer τ := { p with dismissed := some (p.dismissed.getD now) }

/-- A round comes to the peer, which `fails` when it cannot be marked. -/
def visit (fails : Bool) (now : τ) (p : Peer τ) : Peer τ :=
  if p.marked then p.dismiss now
  else
    let p := { p with marked := true }
    if fails then p.dismiss now else p

variable {p : Peer τ} {fails : Bool} {now : τ}

@[simp] theorem heard_visit : (p.visit fails now).heard = p.heard := by
  unfold visit
  dsimp only
  split_ifs <;> rfl

@[simp] theorem marked_visit : (p.visit fails now).marked = true := by
  unfold visit
  dsimp only
  split_ifs with hmarked
  · exact hmarked
  · rfl
  · rfl

theorem unmarked_of_visit (h : (p.visit fails now).dismissed = none) : p.marked = false := by
  cases hmarked : p.marked with
  | false => rfl
  | true => rw [visit, if_pos hmarked] at h; cases h

theorem dismissed_visit {t : τ} (h : (p.visit fails now).dismissed = some t) :
    p.dismissed = some t ∨ (p.dismiss now).dismissed = some t := by
  unfold visit at h
  dsimp only at h
  split_ifs at h
  · exact .inr h
  · exact .inr h
  · exact .inl h

end Peer

/-- A peer, while there is one, and the time before which no round begins. -/
structure Watch (τ : Type*) where
  due : τ
  peer : Option (Peer τ)

variable [CommRing τ] [LinearOrder τ]

/-- What happens at a time. A watchdog that starts anew has no peers. -/
inductive Move (interval : τ) : Watch τ → τ → Watch τ → Prop
  | wait (w : Watch τ) (now : τ) : Move interval w now w
  | join (due now : τ) : Move interval ⟨due, none⟩ now ⟨due, some ⟨now, false, none⟩⟩
  | hear (due now : τ) (p : Peer τ) :
      Move interval ⟨due, some p⟩ now ⟨due, some { p with heard := now, marked := false }⟩
  | round (w : Watch τ) (now : τ) (fails : Bool) (hdue : w.due ≤ now) :
      Move interval w now ⟨now + interval, w.peer.map (Peer.visit fails now)⟩
  | leave (w : Watch τ) (now : τ) : Move interval w now ⟨w.due, none⟩
  | restart (w : Watch τ) (now : τ) : Move interval w now ⟨now + interval, none⟩

/-- At this time no round is overdue by more than `late`, and no dismissed peer by more than
`lag`. -/
structure Timely (late lag now : τ) (w : Watch τ) : Prop where
  round : now ≤ w.due + late
  gone : ∀ p, w.peer = some p → ∀ t, p.dismissed = some t → now ≤ t + lag

/-- What a mark and a dismissal tell of a peer. -/
structure Standing (interval late now due : τ) (p : Peer τ) : Prop where
  heard : p.heard ≤ now
  unmarked : p.marked = false → due ≤ p.heard + interval
  marked : p.marked = true → p.heard + interval ≤ due
  pending : p.dismissed = none → due ≤ p.heard + 2 * interval + late
  dismissed : ∀ t, p.dismissed = some t → t ≤ p.heard + 2 * (interval + late)

/-- The invariant of a watchdog. -/
structure Kept (interval late now : τ) (w : Watch τ) : Prop where
  due : w.due ≤ now + interval
  peer : ∀ p, w.peer = some p → Standing interval late now w.due p

variable [IsStrictOrderedRing τ] {interval late lag now now' : τ} {w w' : Watch τ} {p : Peer τ}

theorem Kept.later (hle : now ≤ now') (h : Kept interval late now w) :
    Kept interval late now' w where
  due := by linarith [h.due]
  peer := fun p hp => { h.peer p hp with heard := (h.peer p hp).heard.trans hle }

omit [IsStrictOrderedRing τ] in
theorem Kept.of_none {due : τ} (hdue : due ≤ now + interval) :
    Kept interval late now ⟨due, none⟩ := ⟨hdue, fun p hp => by cases hp⟩

theorem standing_join {due : τ} (hinterval : 0 ≤ interval) (hlate : 0 ≤ late)
    (hdue : due ≤ now + interval) : Standing interval late now due ⟨now, false, none⟩ where
  heard := le_rfl
  unmarked := fun _ => hdue
  marked := fun h => by cases h
  pending := fun _ => by dsimp only; linarith
  dismissed := fun t h => by cases h

theorem Standing.hear {due : τ} (hinterval : 0 ≤ interval) (hlate : 0 ≤ late)
    (hdue : due ≤ now + interval) (h : Standing interval late now due p) :
    Standing interval late now due { p with heard := now, marked := false } where
  heard := le_rfl
  unmarked := fun _ => hdue
  marked := fun h => by cases h
  pending := fun _ => by dsimp only; linarith
  dismissed := fun t ht => by
    have hold := h.dismissed t ht
    have hheard := h.heard
    dsimp only
    linarith

/-- A dismissal is in time while the round is. -/
theorem Standing.dismiss {due : τ} (h : Standing interval late now due p)
    (htimely : now ≤ due + late) (t : τ) (ht : (p.dismiss now).dismissed = some t) :
    t ≤ p.heard + 2 * (interval + late) := by
  obtain ⟨heard, marked, _ | since⟩ := p
  · have hdue := h.pending rfl
    obtain rfl : now = t := Option.some.inj ht
    dsimp only at hdue ⊢
    linarith
  · obtain rfl : since = t := Option.some.inj ht
    exact h.dismissed _ rfl

/-- **A round** keeps the invariant of a peer. -/
theorem Standing.visit {due : τ} (h : Standing interval late now due p)
    (htimely : now ≤ due + late) (fails : Bool) :
    Standing interval late now (now + interval) (p.visit fails now) where
  heard := by rw [Peer.heard_visit]; exact h.heard
  unmarked := fun hmarked => by rw [Peer.marked_visit] at hmarked; cases hmarked
  marked := fun _ => by
    have hheard := h.heard
    rw [Peer.heard_visit]
    linarith
  pending := fun hpending => by
    have hdue := h.unmarked (Peer.unmarked_of_visit hpending)
    rw [Peer.heard_visit]
    linarith
  dismissed := fun t ht => by
    rw [Peer.heard_visit]
    rcases Peer.dismissed_visit ht with ht | ht
    · exact h.dismissed t ht
    · exact h.dismiss htimely t ht

theorem Kept.move (hinterval : 0 ≤ interval) (hlate : 0 ≤ late) (h : Kept interval late now w)
    (htimely : Timely late lag now w) (hmove : Move interval w now w') :
    Kept interval late now w' := by
  cases hmove with
  | wait => exact h
  | join due =>
    refine ⟨h.due, fun p hp => ?_⟩
    obtain rfl := Option.some.inj hp
    exact standing_join hinterval hlate h.due
  | hear due _ p =>
    refine ⟨h.due, fun q hq => ?_⟩
    obtain rfl := Option.some.inj hq
    exact (h.peer p rfl).hear hinterval hlate h.due
  | round _ _ fails =>
    refine ⟨le_rfl, fun q hq => ?_⟩
    obtain ⟨p, hp, rfl⟩ := Option.map_eq_some_iff.1 hq
    exact (h.peer p hp).visit htimely.round fails
  | leave => exact .of_none h.due
  | restart => exact .of_none le_rfl

/-- The steps of timely runs. -/
def TimelyMove (interval late lag : τ) (w : Watch τ) (now : τ) (w' : Watch τ) : Prop :=
  Timely late lag now w ∧ Move interval w now w'

theorem Kept.run {times : List τ} {start : τ} (hinterval : 0 ≤ interval) (hlate : 0 ≤ late)
    (hrun : Run (TimelyMove interval late lag) w times w') (hsorted : times.Pairwise (· ≤ ·))
    (hw : Kept interval late start w) (hstart : ∀ t ∈ times, start ≤ t) (hle : start ≤ now)
    (hlast : ∀ t ∈ times, t ≤ now) : Kept interval late now w' :=
  hrun.timed_invariant (I := Kept interval late) (fun _ _ _ hle h => h.later hle)
    (fun _ _ _ h hstep => h.move hinterval hlate hstep.1 hstep.2) (by rwa [List.map_id']) hw hstart
    hle hlast

/-- **A peer that stays was heard** within two intervals. -/
theorem heard_recently (h : Kept interval late now w) (htimely : Timely late lag now w)
    (hlag : 0 ≤ lag) (hp : w.peer = some p) : now ≤ p.heard + 2 * (interval + late) + lag := by
  have hround := htimely.round
  cases hdismissed : p.dismissed with
  | none =>
    have hpending := (h.peer p hp).pending hdismissed
    linarith
  | some t =>
    have hgone := htimely.gone p hp t hdismissed
    have hold := (h.peer p hp).dismissed t hdismissed
    linarith

omit [IsStrictOrderedRing τ] in
/-- A peer that a round dismisses was silent for an interval, or could not be marked. -/
theorem Kept.visit_dismissed (h : Kept interval late now w) (hp : w.peer = some p)
    (hdue : w.due ≤ now) (hstays : p.dismissed = none) {fails : Bool}
    (hgone : (p.visit fails now).dismissed ≠ none) : fails = true ∨ p.heard + interval ≤ now := by
  cases hmarked : p.marked with
  | true => exact .inr (((h.peer p hp).marked hmarked).trans hdue)
  | false =>
    cases fails with
    | true => exact .inl rfl
    | false =>
      rw [Peer.visit, hmarked] at hgone
      exact absurd hstays hgone

end Watchdogs
