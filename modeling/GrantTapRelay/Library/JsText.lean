import Mathlib.Data.List.Basic
import Mathlib.Algebra.Order.Ring.Int
import Mathlib.Algebra.BigOperators.Group.List.Basic

/-!
# JavaScript strings

A JavaScript string is a sequence of UTF-16 code units, lone surrogates included. `Js.Str` keeps
that sequence, so that `length`, `startsWith` and a character class of a regular expression are
the list operations, and `utf8Length` is the byte count of `TextEncoder` and `Buffer.byteLength`.
-/

namespace Js

/-- A JavaScript string: its UTF-16 code units. -/
abbrev Str := List UInt16

/-- The code units of one Unicode scalar value. -/
def utf16 (c : Char) : Str :=
  if c.toNat < 0x10000 then [c.toNat.toUInt16]
  else [(0xD800 + (c.toNat - 0x10000) / 0x400).toUInt16,
    (0xDC00 + (c.toNat - 0x10000) % 0x400).toUInt16]

/-- A string literal. -/
def lit (s : String) : Str := s.toList.flatMap utf16

/-! ## Byte lengths -/

/-- A high surrogate followed by a low one encodes one character outside the basic plane. -/
def surrogatePair (u v : UInt16) : Bool :=
  0xD800 ≤ u && u < 0xDC00 && 0xDC00 ≤ v && v < 0xE000

/-- The bytes of a unit that is not part of a surrogate pair; a lone surrogate is written as
U+FFFD, which takes three. -/
def unitBytes (u : UInt16) : ℕ := if u < 0x80 then 1 else if u < 0x800 then 2 else 3

/-- The number of bytes of the UTF-8 encoding. -/
def utf8Length : Str → ℕ
  | [] => 0
  | [u] => unitBytes u
  | u :: v :: rest =>
    if surrogatePair u v then 4 + utf8Length rest else unitBytes u + utf8Length (v :: rest)

theorem unitBytes_pos (u : UInt16) : 0 < unitBytes u := by
  unfold unitBytes
  split_ifs <;> omega

theorem utf8Length_pos : ∀ {s : Str}, s ≠ [] → 0 < utf8Length s
  | [], h => absurd rfl h
  | [u], _ => unitBytes_pos u
  | u :: v :: rest, _ => by
    have := unitBytes_pos u
    simp only [utf8Length]
    split_ifs <;> omega

/-- A string has at most as many units as bytes. -/
theorem length_le_utf8Length : ∀ s : Str, s.length ≤ utf8Length s
  | [] => le_rfl
  | [u] => unitBytes_pos u
  | u :: v :: rest => by
    have hu := unitBytes_pos u
    have hrest := length_le_utf8Length rest
    have htail := length_le_utf8Length (v :: rest)
    simp only [utf8Length, List.length_cons] at *
    split_ifs <;> omega

/-! ## Character classes -/

/-- `u` lies between two ASCII characters, bounds included. -/
def unitIn (lo hi : Char) (u : UInt16) : Bool := lo.toNat.toUInt16 ≤ u && u ≤ hi.toNat.toUInt16

/-- `[0-9]` -/
def isDigit (u : UInt16) : Bool := unitIn '0' '9' u

/-- `[A-Za-z]` -/
def isLetter (u : UInt16) : Bool := unitIn 'A' 'Z' u || unitIn 'a' 'z' u

/-- `[a-f0-9]` -/
def isLowerHex (u : UInt16) : Bool := unitIn 'a' 'f' u || isDigit u

/-- `[A-Fa-f0-9]` -/
def isHex (u : UInt16) : Bool := isLowerHex u || unitIn 'A' 'F' u

/-- `[A-Za-z0-9_-]` -/
def isWord (u : UInt16) : Bool :=
  isLetter u || isDigit u || u == '_'.toNat.toUInt16 || u == '-'.toNat.toUInt16

/-- `[A-Za-z0-9+/]` -/
def isBase64 (u : UInt16) : Bool :=
  isLetter u || isDigit u || u == '+'.toNat.toUInt16 || u == '/'.toNat.toUInt16

/-- `/^[p]{lo,hi}$/` -/
def ofClass (p : UInt16 → Bool) (lo hi : ℕ) (s : Str) : Bool :=
  lo ≤ s.length && s.length ≤ hi && s.all p

theorem length_of_ofClass {p : UInt16 → Bool} {lo hi : ℕ} {s : Str} (h : ofClass p lo hi s = true) :
    lo ≤ s.length ∧ s.length ≤ hi := by
  simp only [ofClass, Bool.and_eq_true, decide_eq_true_eq] at h
  exact h.1

/-- `/^[A-Za-z0-9+/]+={0,2}$/` -/
def isPaddedBase64 (s : Str) : Bool :=
  let pad := s.reverse.takeWhile (· == '='.toNat.toUInt16)
  let body := s.take (s.length - pad.length)
  pad.length ≤ 2 && body ≠ [] && body.all isBase64

/-- `a ≤ b` by code units, the order of `<` on strings. -/
def unitsLe : Str → Str → Bool
  | [], _ => true
  | _ :: _, [] => false
  | u :: s, v :: t => u < v || u == v && unitsLe s t

theorem unitsLe_refl : ∀ s : Str, unitsLe s s = true
  | [] => rfl
  | u :: s => by simp [unitsLe, unitsLe_refl s]

theorem unitsLe_cons {u v : UInt16} {s t : Str} :
    unitsLe (u :: s) (v :: t) = true ↔ u < v ∨ u = v ∧ unitsLe s t = true := by
  simp [unitsLe]

theorem unitsLe_total (s t : Str) : unitsLe s t = true ∨ unitsLe t s = true := by
  induction s generalizing t with
  | nil => exact .inl rfl
  | cons u s ih =>
    cases t with
    | nil => exact .inr rfl
    | cons v t =>
      rw [unitsLe_cons, unitsLe_cons]
      by_cases he : u = v
      · exact (ih t).imp (fun h => .inr ⟨he, h⟩) fun h => .inr ⟨he.symm, h⟩
      · exact (UInt16.lt_or_lt_of_ne he).imp .inl .inl

theorem unitsLe_trans {r s t : Str} (h : unitsLe r s = true) (h' : unitsLe s t = true) :
    unitsLe r t = true := by
  induction r generalizing s t with
  | nil => rfl
  | cons u r ih =>
    cases s with
    | nil => cases h
    | cons v s =>
      cases t with
      | nil => cases h'
      | cons w t =>
        rw [unitsLe_cons] at h h' ⊢
        rcases h with hlt | ⟨rfl, h⟩
        · rcases h' with hlt' | ⟨rfl, -⟩
          · exact .inl (UInt16.lt_trans hlt hlt')
          · exact .inl hlt
        · rcases h' with hlt' | ⟨rfl, h'⟩
          · exact .inl hlt'
          · exact .inr ⟨rfl, ih h h'⟩

theorem unitsLe_antisymm {s t : Str} (h : unitsLe s t = true) (h' : unitsLe t s = true) : s = t := by
  induction s generalizing t with
  | nil =>
    cases t with
    | nil => rfl
    | cons v t => cases h'
  | cons u s ih =>
    cases t with
    | nil => cases h
    | cons v t =>
      rw [unitsLe_cons] at h h'
      rcases h with hlt | ⟨rfl, h⟩
      · rcases h' with hlt' | ⟨rfl, -⟩
        · exact absurd hlt' (UInt16.lt_asymm hlt)
        · exact absurd hlt (UInt16.lt_irrefl _)
      · rcases h' with hlt' | ⟨-, h'⟩
        · exact absurd hlt' (UInt16.lt_irrefl _)
        · rw [ih h h']

/-- The lower-case form of an ASCII letter. -/
def lowerUnit (u : UInt16) : UInt16 := if unitIn 'A' 'Z' u then u + 32 else u

end Js
