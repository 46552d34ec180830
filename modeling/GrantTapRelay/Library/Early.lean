import GrantTapRelay.Library.JsValue

/-!
# Early returns

A function that checks its input ends early in two ways: it returns a verdict, or an operation
throws. `Early ρ α` is a computation of an `α` inside a function that returns a `ρ`; `Early.run`
is the function. The `run_…` lemmas evaluate a function body statement by statement, and the
`…_ok` lemmas take a run apart into the checks it passed.
-/

namespace Js

/-- How a computation ends before its last statement. -/
inductive Exit (ρ : Type)
  | returned (value : ρ)
  | thrown (t : Throw)

/-- A computation of an `α` in a function that returns a `ρ`. -/
abbrev Early (ρ α : Type) := Except (Exit ρ) α

namespace Early

variable {ρ α β : Type}

/-- `if (!condition) return verdict` -/
def require (condition : Bool) (verdict : ρ) : Early ρ Unit :=
  if condition then .ok () else .error (.returned verdict)

/-- `if (value === undefined) return verdict` -/
def demand (value : Option α) (verdict : ρ) : Early ρ α :=
  match value with
  | some a => .ok a
  | none => .error (.returned verdict)

/-- An operation that may throw. -/
def attempt : Except Throw α → Early ρ α
  | .ok a => .ok a
  | .error t => .error (.thrown t)

/-- The result of the function. -/
def run : Early ρ ρ → Except Throw ρ
  | .ok r => .ok r
  | .error (.returned r) => .ok r
  | .error (.thrown t) => .error t

@[simp] theorem run_pure (r : ρ) : run (pure r : Early ρ ρ) = .ok r := rfl

@[simp] theorem run_ok (r : ρ) : run (.ok r : Early ρ ρ) = .ok r := rfl

@[simp] theorem run_returned (r : ρ) : run (.error (.returned r) : Early ρ ρ) = .ok r := rfl

@[simp] theorem run_require_bind (condition : Bool) (verdict : ρ) (k : Unit → Early ρ ρ) :
    run (require condition verdict >>= k) = if condition then run (k ()) else .ok verdict := by
  cases condition <;> rfl

@[simp] theorem run_demand_bind (value : Option α) (verdict : ρ) (k : α → Early ρ ρ) :
    run (demand value verdict >>= k) = value.elim (.ok verdict) fun a => run (k a) := by
  cases value <;> rfl

@[simp] theorem run_attempt_bind (e : Except Throw α) (k : α → Early ρ ρ) :
    run (attempt e >>= k) = e.bind fun a => run (k a) := by
  cases e <;> rfl

/-! ## Taking a run apart

A run ends with the verdict of its first statement or passed it. -/

theorem require_cases {condition : Bool} {verdict r : ρ} {k : Unit → Early ρ ρ}
    (h : run (require condition verdict >>= k) = .ok r) :
    (condition = false ∧ r = verdict) ∨ condition = true ∧ run (k ()) = .ok r := by
  cases condition with
  | false =>
    cases h
    exact .inl ⟨rfl, rfl⟩
  | true => exact .inr ⟨rfl, h⟩

theorem demand_cases {value : Option α} {verdict r : ρ} {k : α → Early ρ ρ}
    (h : run (demand value verdict >>= k) = .ok r) :
    (value = none ∧ r = verdict) ∨ ∃ a, value = some a ∧ run (k a) = .ok r := by
  cases value with
  | none =>
    cases h
    exact .inl ⟨rfl, rfl⟩
  | some a => exact .inr ⟨a, rfl, h⟩

theorem require_run {condition : Bool} {verdict r : ρ} {k : Unit → Early ρ ρ} (hv : verdict ≠ r)
    (h : run (require condition verdict >>= k) = .ok r) : condition = true ∧ run (k ()) = .ok r :=
  (require_cases h).resolve_left fun e => hv e.2.symm

theorem demand_run {value : Option α} {verdict r : ρ} {k : α → Early ρ ρ} (hv : verdict ≠ r)
    (h : run (demand value verdict >>= k) = .ok r) : ∃ a, value = some a ∧ run (k a) = .ok r :=
  (demand_cases h).resolve_left fun e => hv e.2.symm

theorem attempt_run {e : Except Throw α} {r : ρ} {k : α → Early ρ ρ}
    (h : run (attempt e >>= k) = .ok r) : ∃ a, e = .ok a ∧ run (k a) = .ok r := by
  cases e with
  | error t => cases h
  | ok a => exact ⟨a, rfl, h⟩

/-- What a run that does not end with the verdict says of its first check. -/
theorem require_run_iff {condition : Bool} {verdict r : ρ} {k : Unit → Early ρ ρ} (hv : verdict ≠ r) :
    run (require condition verdict >>= k) = .ok r ↔ condition = true ∧ run (k ()) = .ok r :=
  ⟨require_run hv, fun h => by rw [h.1]; exact h.2⟩

theorem attempt_run_iff {e : Except Throw α} {r : ρ} {k : α → Early ρ ρ} :
    run (attempt e >>= k) = .ok r ↔ ∃ a, e = .ok a ∧ run (k a) = .ok r :=
  ⟨attempt_run, fun h => by obtain ⟨a, rfl, h⟩ := h; exact h⟩

/-! ## Throws

A run throws at its first statement or after it. -/

theorem require_throws {condition : Bool} {verdict : ρ} {k : Unit → Early ρ ρ} :
    (∃ t, run (require condition verdict >>= k) = .error t) ↔
      condition = true ∧ ∃ t, run (k ()) = .error t := by
  cases condition with
  | false => exact iff_of_false (fun ⟨_, h⟩ => by cases h) fun h => absurd h.1 Bool.false_ne_true
  | true => exact ⟨fun h => ⟨rfl, h⟩, fun h => h.2⟩

theorem demand_throws {value : Option α} {verdict : ρ} {k : α → Early ρ ρ} :
    (∃ t, run (demand value verdict >>= k) = .error t) ↔
      ∃ a, value = some a ∧ ∃ t, run (k a) = .error t := by
  cases value with
  | none => exact iff_of_false (fun ⟨_, h⟩ => by cases h) fun ⟨_, h, _⟩ => by cases h
  | some a => exact ⟨fun h => ⟨a, rfl, h⟩, fun ⟨_, ha, h⟩ => by cases ha; exact h⟩

theorem attempt_throws {e : Except Throw α} {k : α → Early ρ ρ} :
    (∃ t, run (attempt e >>= k) = .error t) ↔
      (∃ t, e = .error t) ∨ ∃ a, e = .ok a ∧ ∃ t, run (k a) = .error t := by
  cases e with
  | error t =>
    exact iff_of_true ⟨t, rfl⟩ (.inl ⟨t, rfl⟩)
  | ok a =>
    constructor
    · exact fun h => .inr ⟨a, rfl, h⟩
    · rintro (⟨_, h⟩ | ⟨_, ha, h⟩)
      · cases h
      · cases ha
        exact h

theorem require_bind_ok {condition : Bool} {verdict : ρ} {k : Unit → Early ρ β} {b : β} :
    (require condition verdict >>= k) = .ok b ↔ condition = true ∧ k () = .ok b := by
  cases condition
  · simp [require, bind, Except.bind]
  · simp [require, bind, Except.bind]

theorem demand_bind_ok {value : Option α} {verdict : ρ} {k : α → Early ρ β} {b : β} :
    (demand value verdict >>= k) = .ok b ↔ ∃ a, value = some a ∧ k a = .ok b := by
  cases value <;> simp [demand, bind, Except.bind]

theorem require_ok {condition : Bool} {verdict : ρ} {u : Unit} :
    require condition verdict = .ok u ↔ condition = true := by
  cases condition <;> simp [require]

theorem attempt_bind_ok {e : Except Throw α} {k : α → Early ρ β} {b : β} :
    (attempt e >>= k) = .ok b ↔ ∃ a, e = .ok a ∧ k a = .ok b := by
  cases e <;> simp [attempt, bind, Except.bind]

/-! ## Two runs side by side

A run is the image of another one when their statements are, one by one. -/

theorem map_require {ρ' : Type} {f : ρ → ρ'} {condition : Bool} {verdict : ρ} {verdict' : ρ'}
    {k : Unit → Early ρ ρ} {k' : Unit → Early ρ' ρ'} (hverdict : verdict' = f verdict)
    (hk : run (k' ()) = (run (k ())).map f) :
    run (require condition verdict' >>= k') = (run (require condition verdict >>= k)).map f := by
  cases condition with
  | false => exact congrArg Except.ok hverdict
  | true => exact hk

theorem map_demand {ρ' : Type} {f : ρ → ρ'} {value : Option α} {verdict : ρ} {verdict' : ρ'}
    {k : α → Early ρ ρ} {k' : α → Early ρ' ρ'} (hverdict : verdict' = f verdict)
    (hk : ∀ a, run (k' a) = (run (k a)).map f) :
    run (demand value verdict' >>= k') = (run (demand value verdict >>= k)).map f := by
  cases value with
  | none => exact congrArg Except.ok hverdict
  | some a => exact hk a

theorem map_attempt {ρ' : Type} {f : ρ → ρ'} {e : Except Throw α} {k : α → Early ρ ρ}
    {k' : α → Early ρ' ρ'} (hk : ∀ a, run (k' a) = (run (k a)).map f) :
    run (attempt e >>= k') = (run (attempt e >>= k)).map f := by
  cases e with
  | error t => rfl
  | ok a => exact hk a

end Early

/-- A computation that succeeded passed its first part. -/
theorem except_bind_ok {ε α β : Type} {x : Except ε α} {f : α → Except ε β} {b : β} :
    (x >>= f) = .ok b ↔ ∃ a, x = .ok a ∧ f a = .ok b := by
  cases x <;> simp [bind, Except.bind]

theorem except_map_ok {ε α β : Type} {x : Except ε α} {f : α → β} {b : β} :
    x.map f = .ok b ↔ ∃ a, x = .ok a ∧ f a = b := by
  cases x <;> simp [Except.map]

end Js
