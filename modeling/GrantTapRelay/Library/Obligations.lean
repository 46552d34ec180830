import Mathlib.Data.List.Basic

/-!
# Obligations of a trace

Some events of a trace incur an obligation, others settle it. An obligation is owed while no event
after the one that incurred it settles it, and a system meets its obligations when it holds
whatever it owes. The rule for a step is `Covered.append`: it covers what its own events leave owed,
and keeps or settles what was held before.
-/

namespace Obligations

variable {ε κ : Type*}

/-- Which events incur an obligation, and which settle it. -/
structure Ledger (ε κ : Type*) where
  incurs : ε → κ → Prop
  settles : ε → κ → Prop

namespace Ledger

variable {l : Ledger ε κ} {trace new : List ε} {k : κ}

/-- An event incurred `k`, and no later one settled it. -/
def Owed (l : Ledger ε κ) (trace : List ε) (k : κ) : Prop :=
  ∃ before e after, trace = before ++ e :: after ∧ l.incurs e k ∧ ∀ e' ∈ after, ¬l.settles e' k

/-- What is owed was incurred by the new events, or was owed and not settled by them. -/
theorem Owed.of_append (h : l.Owed (trace ++ new) k) :
    l.Owed new k ∨ l.Owed trace k ∧ ∀ e ∈ new, ¬l.settles e k := by
  obtain ⟨before, e, after, heq, hincurs, hafter⟩ := h
  rcases List.append_eq_append_iff.1 heq with ⟨rest, rfl, hnew⟩ | ⟨rest, htrace, hrest⟩
  · exact .inl ⟨rest, e, after, hnew, hincurs, hafter⟩
  · cases rest with
    | nil =>
      exact .inl ⟨[], e, after, hrest.symm, hincurs, hafter⟩
    | cons e' rest =>
      obtain ⟨rfl, rfl⟩ := List.cons.inj hrest
      refine .inr ⟨⟨before, e, rest, htrace, hincurs, fun e' he => ?_⟩, fun e' he => ?_⟩
      · exact hafter e' (List.mem_append_left _ he)
      · exact hafter e' (List.mem_append_right _ he)

theorem Owed.of_forall (h : l.Owed new k) (hnone : ∀ e ∈ new, ¬l.incurs e k) : False := by
  obtain ⟨before, e, after, rfl, hincurs, -⟩ := h
  exact hnone e (by simp) hincurs

/-- Everything that is owed is held. -/
def Covered (l : Ledger ε κ) (trace : List ε) (held : κ → Prop) : Prop :=
  ∀ k, l.Owed trace k → held k

/-- What covers the obligations covers each of them from the event that incurred it on. -/
theorem Covered.settled {held : κ → Prop} (h : l.Covered trace held) {before after : List ε} {e : ε}
    (htrace : trace = before ++ e :: after) (hincurs : l.incurs e k) :
    held k ∨ ∃ e' ∈ after, l.settles e' k := by
  by_cases hsettled : ∃ e' ∈ after, l.settles e' k
  · exact .inr hsettled
  · refine .inl (h k ⟨before, e, after, htrace, hincurs, fun e' he hs => ?_⟩)
    exact hsettled ⟨e', he, hs⟩

/-- **The rule for a step**: new events leave nothing owed that is not held, and what was held is
held still, or settled. -/
theorem Covered.append {held held' : κ → Prop} (h : l.Covered trace held)
    (hnew : ∀ k, l.Owed new k → held' k)
    (hkept : ∀ k, held k → held' k ∨ ∃ e ∈ new, l.settles e k) :
    l.Covered (trace ++ new) held' := by
  intro k howed
  rcases howed.of_append with howed | ⟨howed, hunsettled⟩
  · exact hnew k howed
  · rcases hkept k (h k howed) with hheld | ⟨e, he, hsettles⟩
    · exact hheld
    · exact absurd hsettles (hunsettled e he)

end Ledger

end Obligations
