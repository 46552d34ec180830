import Mathlib.Data.List.Basic

/-!
# Histories

A history is a list of events, the last one at its end. `Each P` says that every event is as the
events before it allow; one more event keeps it if it is as the history allows (`Each.snoc`).
-/

namespace Histories

variable {ε : Type*} {events before after : List ε} {e last : ε} {P Q : List ε → ε → Prop}

/-- An event of a history with one more event is the last one, or is of the history. -/
theorem split_snoc (h : events ++ [last] = before ++ e :: after) :
    (after = [] ∧ e = last ∧ before = events) ∨
      ∃ rest, after = rest ++ [last] ∧ events = before ++ e :: rest := by
  rcases List.eq_nil_or_concat' after with rfl | ⟨rest, y, rfl⟩
  · obtain ⟨hevents, hlast⟩ := List.append_inj' h rfl
    exact .inl ⟨rfl, (List.singleton_inj.1 hlast).symm, hevents.symm⟩
  · rw [← List.cons_append, ← List.append_assoc] at h
    obtain ⟨hevents, hlast⟩ := List.append_inj' h rfl
    exact .inr ⟨rest, by rw [List.singleton_inj.1 hlast], hevents⟩

/-- Every event is as the events before it allow. -/
def Each (P : List ε → ε → Prop) (events : List ε) : Prop :=
  ∀ before e after, events = before ++ e :: after → P before e

theorem Each.nil : Each P [] := by
  intro before e after h
  simp at h

/-- **One more event.** -/
theorem Each.snoc (h : Each P events) (he : P events e) : Each P (events ++ [e]) := by
  intro before e' after hsplit
  rcases split_snoc hsplit with ⟨-, rfl, rfl⟩ | ⟨rest, -, hevents⟩
  · exact he
  · exact h before e' rest hevents

theorem Each.of_snoc (h : Each P (events ++ [e])) : Each P events := by
  rintro before e' after rfl
  exact h before e' (after ++ [e]) (by rw [List.append_assoc, List.cons_append])

theorem Each.of_mem (h : Each P events) (he : e ∈ events) : ∃ before, P before e := by
  obtain ⟨before, after, rfl⟩ := List.append_of_mem he
  exact ⟨before, h before e after rfl⟩

end Histories
