import Mathlib.Data.List.Pairwise
import Mathlib.Order.Basic

/-!
# Unobserved steps

A system answers each label and moves on. Some labels are shown to an observer, and the others are
hidden. When a relation between two states is kept by time, by a shown label that both take, with one
answer, and by a hidden label that the first one takes alone (`Hides`), then hidden labels can be
put anywhere into a run: no later answer tells (`Hides.play`).
-/

namespace Unobserved

variable {σ α β τ : Type*}

/-- The answers of the shown labels. -/
def answers (step : σ → α → β × σ) (shown : α → Bool) (s : σ) : List α → List β
  | [] => []
  | a :: as =>
    if shown a then (step s a).1 :: answers step shown (step s a).2 as
    else answers step shown (step s a).2 as

/-- The state after some labels. -/
def after (step : σ → α → β × σ) (s : σ) (as : List α) : σ := as.foldl (fun s a => (step s a).2) s

variable [Preorder τ]

/-- Of two related states, hidden labels are taken by one, and shown labels by both. -/
structure Hides (step : σ → α → β × σ) (time : α → τ) (shown : α → Bool) (allowed : α → Prop)
    (R : τ → σ → σ → Prop) : Prop where
  aged : ∀ {s t now now'}, now ≤ now' → R now s t → R now' s t
  observed : ∀ {s t a}, shown a = true → allowed a → R (time a) s t →
    (step s a).1 = (step t a).1 ∧ R (time a) (step s a).2 (step t a).2
  hidden : ∀ {s t a}, shown a = false → allowed a → R (time a) s t → R (time a) (step s a).2 t

variable {step : σ → α → β × σ} {time : α → τ} {shown : α → Bool} {allowed : α → Prop}
  {R : τ → σ → σ → Prop}

/-- **Hidden labels are not observed**: without them every shown label is answered the same, and the
last states are related. -/
theorem Hides.play (h : Hides step time shown allowed R) {as : List α}
    (hsorted : (as.map time).Pairwise (· ≤ ·)) (hallowed : ∀ a ∈ as, allowed a) {start : τ}
    (hstart : ∀ a ∈ as, start ≤ time a) {s t : σ} (hs : R start s t) {now : τ} (hnow : start ≤ now)
    (hlast : ∀ a ∈ as, time a ≤ now) :
    answers step shown s as = answers step shown t (as.filter shown) ∧
      R now (after step s as) (after step t (as.filter shown)) := by
  induction as generalizing start s t with
  | nil => exact ⟨rfl, h.aged hnow hs⟩
  | cons a as ih =>
    rw [List.map_cons, List.pairwise_cons] at hsorted
    have hs := h.aged (hstart a List.mem_cons_self) hs
    have hrest : ∀ {s t : σ}, R (time a) s t →
        answers step shown s as = answers step shown t (as.filter shown) ∧
          R now (after step s as) (after step t (as.filter shown)) := fun hst =>
      ih hsorted.2 (fun b hb => hallowed b (List.mem_cons_of_mem a hb))
        (fun b hb => hsorted.1 _ (List.mem_map_of_mem hb)) hst (hlast a List.mem_cons_self)
        fun b hb => hlast b (List.mem_cons_of_mem a hb)
    have hok := hallowed a List.mem_cons_self
    cases ha : shown a with
    | true =>
      obtain ⟨hanswer, hnext⟩ := h.observed ha hok hs
      obtain ⟨hanswers, hend⟩ := hrest hnext
      rw [List.filter_cons_of_pos ha, answers, if_pos ha, answers, if_pos ha, hanswer, hanswers]
      exact ⟨rfl, hend⟩
    | false =>
      have hne : ¬shown a = true := Bool.eq_false_iff.1 ha
      obtain ⟨hanswers, hend⟩ := hrest (h.hidden ha hok hs)
      rw [List.filter_cons_of_neg hne, answers, if_neg hne]
      exact ⟨hanswers, hend⟩

end Unobserved
