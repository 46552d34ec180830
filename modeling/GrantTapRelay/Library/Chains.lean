import GrantTapRelay.Library.Table

/-!
# Chains of jobs

Jobs with a key each, in the order of their submission. A table of tails holds the last job of a
key: a new job waits for it and takes its place, and a settled job that is still the tail of its
key clears it. A job runs once the job it waits for has settled, or at once if the key had no tail.

* `Chains.Serial`: the invariant, which `empty`, `enqueue`, `advance` and `finish` keep.
* `Chains.Serial.exclusive`: two running jobs have different keys.
-/

namespace Chains

/-- How far a job is. -/
inductive Phase (β γ : Type*)
  | waiting
  | running (work : β)
  | settled (result : γ)

/-- A job and the one it waits for. -/
structure Link (κ α β γ : Type*) where
  key : κ
  job : α
  previous : Option ℕ
  phase : Phase β γ

end Chains

/-- The jobs, numbered in the order of their submission, and the tails. -/
structure Chains (κ α β γ : Type*) where
  links : List (Chains.Link κ α β γ)
  tails : Table κ ℕ

namespace Chains

variable {κ α β γ : Type*}

namespace Phase

/-- The job has settled. -/
def Settled : Phase β γ → Prop
  | settled _ => True
  | _ => False

/-- The job has not started. -/
def Waiting : Phase β γ → Prop
  | waiting => True
  | _ => False

instance (phase : Phase β γ) : Decidable phase.Settled :=
  match phase with
  | waiting => .isFalse id
  | running _ => .isFalse id
  | settled _ => .isTrue trivial

instance (phase : Phase β γ) : Decidable phase.Waiting :=
  match phase with
  | waiting => .isTrue trivial
  | running _ => .isFalse id
  | settled _ => .isFalse id

theorem Settled.not_waiting {phase : Phase β γ} (h : phase.Settled) : ¬phase.Waiting := by
  cases phase with
  | waiting => exact fun _ => h
  | running => exact id
  | settled => exact id

@[simp] theorem settled_settled (result : γ) : (settled result : Phase β γ).Settled := trivial

@[simp] theorem not_settled_running (work : β) : ¬(running work : Phase β γ).Settled := id

@[simp] theorem not_settled_waiting : ¬(waiting : Phase β γ).Settled := id

@[simp] theorem waiting_waiting : (waiting : Phase β γ).Waiting := trivial

@[simp] theorem not_waiting_running (work : β) : ¬(running work : Phase β γ).Waiting := id

@[simp] theorem not_waiting_settled (result : γ) : ¬(settled result : Phase β γ).Waiting := id

end Phase

def empty : Chains κ α β γ := ⟨[], .empty⟩

/-- The job `n` has settled. -/
def Done (c : Chains κ α β γ) (n : ℕ) : Prop := ∃ link, c.links[n]? = some link ∧ link.phase.Settled

/-- The job `n` may start: it waits, and not for an unsettled job. -/
def Ready (c : Chains κ α β γ) (n : ℕ) : Prop :=
  ∃ link, c.links[n]? = some link ∧ link.phase.Waiting ∧ ∀ p, link.previous = some p → c.Done p

instance (c : Chains κ α β γ) (n : ℕ) : Decidable (c.Done n) :=
  decidable_of_iff ((c.links[n]?).any fun link => link.phase.Settled) <| by
    simp [Done, Option.any_eq_true]

instance (c : Chains κ α β γ) (n : ℕ) : Decidable (c.Ready n) :=
  decidable_of_iff ((c.links[n]?).any fun link =>
    link.phase.Waiting ∧ ∀ p ∈ link.previous, c.Done p) <| by
    simp [Ready, Option.any_eq_true]

/-- The job `n` gets another phase. -/
def advance (c : Chains κ α β γ) (n : ℕ) (phase : Phase β γ) : Chains κ α β γ :=
  { c with links := c.links.modify n fun link => { link with phase := phase } }

theorem lt_length {l : List (Link κ α β γ)} {i : ℕ} {link : Link κ α β γ}
    (h : l[i]? = some link) : i < l.length := (List.getElem?_eq_some_iff.1 h).1

theorem getElem?_advance (c : Chains κ α β γ) (n i : ℕ) (phase : Phase β γ) :
    (c.advance n phase).links[i]? =
      (c.links[i]?).map fun link => if i = n then { link with phase := phase } else link := by
  unfold advance
  rw [List.getElem?_modify]
  cases hi : c.links[i]? with
  | none => rfl
  | some link => simp [eq_comm]

/-- A job after `advance`, and the same job before. -/
theorem of_advance {c : Chains κ α β γ} {n i : ℕ} {phase : Phase β γ} {link : Link κ α β γ}
    (h : (c.advance n phase).links[i]? = some link) : ∃ old, c.links[i]? = some old ∧
      link.key = old.key ∧ link.job = old.job ∧ link.previous = old.previous ∧
      link.phase = if i = n then phase else old.phase := by
  rw [getElem?_advance, Option.map_eq_some_iff] at h
  obtain ⟨old, hold, rfl⟩ := h
  refine ⟨old, hold, ?_⟩
  split_ifs <;> simp

variable [DecidableEq κ]

/-- A new job of a key. -/
def enqueue (c : Chains κ α β γ) (k : κ) (job : α) : Chains κ α β γ where
  links := c.links ++ [⟨k, job, c.tails.get? k, .waiting⟩]
  tails := c.tails.put k c.links.length

/-- The job `n` of a key clears the tail if it is the tail still. -/
def finish (c : Chains κ α β γ) (k : κ) (n : ℕ) : Chains κ α β γ :=
  if c.tails.get? k = some n then { c with tails := c.tails.erase k } else c

/-- Jobs of a key settle in the order of their numbers. -/
structure Serial (c : Chains κ α β γ) : Prop where
  /-- The tail of a key is its last job. -/
  tail : ∀ k n, c.tails.get? k = some n → (∃ link, c.links[n]? = some link ∧ link.key = k) ∧
    ∀ (m : ℕ) link, n < m → c.links[m]? = some link → link.key ≠ k
  /-- A key with an unsettled job has a tail. -/
  covered : ∀ (i : ℕ) link, c.links[i]? = some link → ¬link.phase.Settled →
    ∃ n, c.tails.get? link.key = some n ∧ i ≤ n
  /-- A job waits for an earlier one of its key. -/
  previous : ∀ (i : ℕ) link p, c.links[i]? = some link → link.previous = some p →
    p < i ∧ ∃ first, c.links[p]? = some first ∧ first.key = link.key
  /-- A job waits for an unsettled job of its key, or for a later one. -/
  waits : ∀ (i j : ℕ) link first, c.links[i]? = some link → c.links[j]? = some first → j < i →
    first.key = link.key → ¬first.phase.Settled → ∃ p, link.previous = some p ∧ j ≤ p
  /-- A started job has no unsettled job of its key before it. -/
  started : ∀ (i j : ℕ) link first, c.links[i]? = some link → c.links[j]? = some first → j < i →
    first.key = link.key → ¬link.phase.Waiting → first.phase.Settled

theorem getElem?_enqueue (c : Chains κ α β γ) (k : κ) (job : α) {i : ℕ} {link : Link κ α β γ} :
    (c.enqueue k job).links[i]? = some link ↔
      c.links[i]? = some link ∨
        i = c.links.length ∧ link = ⟨k, job, c.tails.get? k, .waiting⟩ := by
  unfold enqueue
  dsimp only
  rcases Nat.lt_trichotomy i c.links.length with hi | rfl | hi
  · rw [List.getElem?_append_left hi]
    exact ⟨.inl, fun h => h.resolve_right fun h => absurd h.1 (by omega)⟩
  · simp [eq_comm]
  · rw [List.getElem?_eq_none (by simp; omega), List.getElem?_eq_none (by omega)]
    constructor
    · intro h
      cases h
    · rintro (h | ⟨h, -⟩)
      · cases h
      · omega

namespace Serial

variable {c : Chains κ α β γ} {k : κ} {n : ℕ}

theorem empty : (Chains.empty : Chains κ α β γ).Serial := by
  constructor
  · intro k n h
    cases h
  all_goals
    intro i
    intros
    simp [Chains.empty] at *

theorem enqueue (h : c.Serial) (k : κ) (job : α) : (c.enqueue k job).Serial := by
  have hlink {i : ℕ} {link : Link κ α β γ} : (c.enqueue k job).links[i]? = some link ↔
      c.links[i]? = some link ∨ i = c.links.length ∧ link = ⟨k, job, c.tails.get? k, .waiting⟩ :=
    c.getElem?_enqueue k job
  have htails (k' : κ) : (c.enqueue k job).tails.get? k' =
      if k' = k then some c.links.length else c.tails.get? k' := Table.get?_put ..
  constructor
  · intro k' n hn
    rw [htails] at hn
    split_ifs at hn with hk
    · cases hn
      refine ⟨⟨_, hlink.2 (.inr ⟨rfl, rfl⟩), hk.symm⟩, fun m link hm hget => ?_⟩
      rcases hlink.1 hget with hget | ⟨rfl, -⟩
      · have hlt := lt_length hget
        omega
      · omega
    · obtain ⟨⟨link, hget, hkey⟩, hlast⟩ := h.tail k' n hn
      refine ⟨⟨link, hlink.2 (.inl hget), hkey⟩, fun m link' hm hget' => ?_⟩
      rcases hlink.1 hget' with hget' | ⟨-, rfl⟩
      · exact hlast m link' hm hget'
      · exact Ne.symm hk
  · intro i link hget hopen
    rw [htails]
    rcases hlink.1 hget with hget | ⟨rfl, rfl⟩
    · split_ifs
      · exact ⟨_, rfl, Nat.le_of_lt (lt_length hget)⟩
      · exact h.covered i link hget hopen
    · exact ⟨_, if_pos rfl, Nat.le_refl _⟩
  · intro i link p hget hprevious
    rcases hlink.1 hget with hget | ⟨rfl, rfl⟩
    · obtain ⟨hlt, first, hfirst, hkey⟩ := h.previous i link p hget hprevious
      exact ⟨hlt, first, hlink.2 (.inl hfirst), hkey⟩
    · obtain ⟨⟨first, hfirst, hkey⟩, -⟩ := h.tail k p hprevious
      exact ⟨lt_length hfirst, first, hlink.2 (.inl hfirst), hkey⟩
  · intro i j link first hget hfirst hlt hkey hopen
    rcases hlink.1 hfirst with hfirst | ⟨rfl, rfl⟩
    · rcases hlink.1 hget with hget | ⟨rfl, rfl⟩
      · exact h.waits i j link first hget hfirst hlt hkey hopen
      · obtain ⟨n, hn, hle⟩ := h.covered j first hfirst hopen
        rw [hkey] at hn
        exact ⟨n, hn, hle⟩
    · rcases hlink.1 hget with hget | ⟨rfl, -⟩
      · have hlength := lt_length hget
        omega
      · omega
  · intro i j link first hget hfirst hlt hkey hstarted
    rcases hlink.1 hget with hget | ⟨rfl, rfl⟩
    · rcases hlink.1 hfirst with hfirst | ⟨rfl, -⟩
      · exact h.started i j link first hget hfirst hlt hkey hstarted
      · have hlength := lt_length hget
        omega
    · exact absurd trivial hstarted

/-- The job `n` starts, or ends. -/
theorem advance (h : c.Serial) (phase : Phase β γ)
    (hn : ∀ link, c.links[n]? = some link →
      c.Ready n ∨ ¬link.phase.Waiting ∧ ¬link.phase.Settled) : (c.advance n phase).Serial := by
  have hsettled {link : Link κ α β γ} (hget : c.links[n]? = some link) : ¬link.phase.Settled := by
    rcases hn link hget with ⟨ready, hready, hwaiting, -⟩ | ⟨-, hopen⟩
    · rw [hget] at hready
      cases hready
      exact fun hsettled => hsettled.not_waiting hwaiting
    · exact hopen
  -- a job that has settled before has settled after
  have hback {i : ℕ} {old link : Link κ α β γ} (hget : c.links[i]? = some old)
      (hlink : link.phase = if i = n then phase else old.phase) (hopen : ¬link.phase.Settled) :
      ¬old.phase.Settled := by
    split_ifs at hlink with hi
    · subst hi
      exact hsettled hget
    · rwa [hlink] at hopen
  constructor
  · intro k m hm
    obtain ⟨⟨link, hget, hkey⟩, hlast⟩ := h.tail k m hm
    refine ⟨⟨_, (c.getElem?_advance n m phase).trans (by rw [hget]; rfl), ?_⟩, ?_⟩
    · split_ifs <;> exact hkey
    · intro i link' hlt hget'
      obtain ⟨old, hold, hkey', -⟩ := of_advance hget'
      exact hkey' ▸ hlast i old hlt hold
  · intro i link hget hopen
    obtain ⟨old, hold, hkey, -, -, hlink⟩ := of_advance hget
    exact hkey ▸ h.covered i old hold (hback hold hlink hopen)
  · intro i link p hget hprevious
    obtain ⟨old, hold, hkey, -, hp, -⟩ := of_advance hget
    obtain ⟨hlt, first, hfirst, hsame⟩ := h.previous i old p hold (hp ▸ hprevious)
    refine ⟨hlt, _, (c.getElem?_advance n p phase).trans (by rw [hfirst]; rfl), ?_⟩
    split_ifs <;> exact hsame.trans hkey.symm
  · intro i j link first hget hfirst hlt hsame hopen
    obtain ⟨old, hold, hkey, -, hp, -⟩ := of_advance hget
    obtain ⟨old', hold', hkey', -, -, hlink'⟩ := of_advance hfirst
    rw [hp]
    exact h.waits i j old old' hold hold' hlt (hkey' ▸ hsame.trans hkey) (hback hold' hlink' hopen)
  · intro i j link first hget hfirst hlt hsame hstarted
    obtain ⟨old, hold, hkey, -, hp, hlink⟩ := of_advance hget
    obtain ⟨old', hold', hkey', -, -, hlink'⟩ := of_advance hfirst
    have hkeys : old'.key = old.key := hkey' ▸ hsame.trans hkey
    have hbefore : old'.phase.Settled := by
      by_cases hi : i = n
      · subst hi
        rcases hn old hold with ⟨ready, hready, -, hdone⟩ | ⟨hstarted', -⟩
        · rw [hold] at hready
          cases hready
          by_contra hopen
          -- the unsettled job would be the one waited for, or an earlier one
          obtain ⟨p, hprevious, hle⟩ := h.waits i j old old' hold hold' hlt hkeys hopen
          obtain ⟨waited, hwaited, hdone⟩ := hdone p hprevious
          rcases Nat.lt_or_eq_of_le hle with hjp | rfl
          · obtain ⟨-, waited', hwaited', hkey''⟩ := h.previous i old p hold hprevious
            rw [hwaited] at hwaited'
            cases hwaited'
            exact hopen (h.started p j waited old' hwaited hold' hjp (hkeys.trans hkey''.symm)
              hdone.not_waiting)
          · rw [hold'] at hwaited
            cases hwaited
            exact hopen hdone
        · exact h.started i j old old' hold hold' hlt hkeys hstarted'
      · rw [if_neg hi] at hlink
        exact h.started i j old old' hold hold' hlt hkeys (hlink ▸ hstarted)
    rw [hlink']
    split_ifs with hj
    · subst hj
      exact absurd hbefore (hsettled hold')
    · exact hbefore

theorem finish (h : c.Serial) {link : Link κ α β γ} (hlink : c.links[n]? = some link)
    (hkey : link.key = k) (hdone : link.phase.Settled) : (c.finish k n).Serial := by
  unfold Chains.finish
  split_ifs with htail
  · refine ⟨fun k' m hm => ?_, fun i other hi hopen => ?_, h.previous, h.waits, h.started⟩
    · rw [Table.get?_erase] at hm
      split_ifs at hm
      exact h.tail k' m hm
    · obtain ⟨m, hm, hle⟩ := h.covered i other hi hopen
      refine ⟨m, (Table.get?_erase ..).trans ((if_neg fun hk => ?_).trans hm), hle⟩
      -- an unsettled job of the key would precede the settled tail
      rw [hk, htail] at hm
      cases hm
      rcases Nat.lt_or_eq_of_le hle with hlt | rfl
      · exact hopen (h.started n i link other hlink hi hlt (hk.trans hkey.symm) hdone.not_waiting)
      · rw [hlink] at hi
        cases hi
        exact hopen hdone
  · exact h

/-- **Jobs of a key run one at a time.** -/
theorem exclusive (h : c.Serial) {i j : ℕ} {link first : Link κ α β γ} {work work' : β}
    (hi : c.links[i]? = some link) (hj : c.links[j]? = some first) (hkey : first.key = link.key)
    (hwork : link.phase = .running work) (hwork' : first.phase = .running work') : i = j := by
  rcases Nat.lt_trichotomy i j with hlt | heq | hlt
  · have hdone := h.started j i first link hj hi hlt hkey.symm (by simp [hwork'])
    rw [hwork] at hdone
    exact absurd hdone id
  · exact heq
  · have hdone := h.started i j link first hi hj hlt hkey (by simp [hwork])
    rw [hwork'] at hdone
    exact absurd hdone id

end Serial

end Chains
