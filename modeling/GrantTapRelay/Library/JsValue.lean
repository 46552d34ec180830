import GrantTapRelay.Library.JsText
import Mathlib.Data.List.Sort
import Mathlib.Tactic.Positivity

/-!
# JSON values under JavaScript's operations

The values `JSON.parse` returns, with the operations a program applies to them before it knows
their types: member access, `===`, truthiness, comparison with a number, the string coercion a
regular expression's `test` makes, and `JSON.stringify`.

A number is a decimal `m · 10^e`: the shortest decimal that reads back as a double determines it,
so equality, order, integrality and `Number::toString` of the double are those of the decimal.
`JSON.parse` turns an overflowing literal into an infinity, and never returns `NaN`.

Coercing an object calls its `toString`. An object parsed from JSON inherits that of
`Object.prototype` unless it has a member of that name, which is then not callable and makes the
coercion throw.
-/

namespace Js

/-- What a JavaScript operation throws. -/
inductive Throw
  | typeError
  | syntaxError
  | error (message : String)
  deriving DecidableEq

/-! ## Numbers -/

/-- A number that a JSON text can denote. -/
inductive Number
  /-- `m · 10^e` -/
  | finite (m e : ℤ)
  | infinite (negative : Bool)
  deriving DecidableEq

namespace Number

/-- The two significands at a common exponent. -/
def align (m e m' e' : ℤ) : ℤ × ℤ :=
  let d := min e e'
  (m * 10 ^ (e - d).toNat, m' * 10 ^ (e' - d).toNat)

/-- `a < b` -/
def lt : Number → Number → Bool
  | finite m e, finite m' e' => let p := align m e m' e'; p.1 < p.2
  | infinite n, infinite n' => n && !n'
  | infinite n, finite _ _ => n
  | finite _ _, infinite n => !n

/-- `a === b` -/
def same : Number → Number → Bool
  | finite m e, finite m' e' => let p := align m e m' e'; p.1 = p.2
  | infinite n, infinite n' => n == n'
  | _, _ => false

/-- Equal numbers have equal significands at every common exponent. -/
theorem same_finite_iff {m e m' e' d : ℤ} (h : d ≤ e) (h' : d ≤ e') :
    same (finite m e) (finite m' e') = true ↔
      m * 10 ^ (e - d).toNat = m' * 10 ^ (e' - d).toNat := by
  have hpow : (0 : ℤ) < 10 ^ (min e e' - d).toNat := by positivity
  have hsplit : ∀ {a : ℤ}, min e e' ≤ a →
      (10 : ℤ) ^ (a - d).toNat = 10 ^ (a - min e e').toNat * 10 ^ (min e e' - d).toNat := by
    intro a ha
    rw [← pow_add]
    congr 1
    have hmin := le_min h h'
    omega
  have hsame : same (finite m e) (finite m' e') = decide
      (m * 10 ^ (e - min e e').toNat = m' * 10 ^ (e' - min e e').toNat) := rfl
  rw [hsame, decide_eq_true_eq, hsplit (min_le_left e e'), hsplit (min_le_right e e'),
    ← mul_assoc, ← mul_assoc]
  exact (mul_left_inj' hpow.ne').symm

theorem same_comm (x y : Number) : same x y = same y x := by
  cases x with
  | infinite n =>
    cases y with
    | infinite n' => cases n <;> cases n' <;> rfl
    | finite m e => rfl
  | finite m e =>
    cases y with
    | infinite n => rfl
    | finite m' e' =>
      rw [Bool.eq_iff_iff, same_finite_iff (min_le_left e e') (min_le_right e e'),
        same_finite_iff (min_le_right e e') (min_le_left e e')]
      exact eq_comm

theorem same_trans {x y z : Number} (hxy : same x y = true) (hyz : same y z = true) :
    same x z = true := by
  cases x with
  | infinite n =>
    cases y with
    | finite m e => cases hxy
    | infinite n' =>
      rw [eq_of_beq hxy]
      exact hyz
  | finite m e =>
    cases y with
    | infinite n => cases hxy
    | finite m' e' =>
      cases z with
      | infinite n => cases hyz
      | finite m'' e'' =>
        have hd : min e (min e' e'') ≤ e := min_le_left ..
        have hd' : min e (min e' e'') ≤ e' := (min_le_right ..).trans (min_le_left ..)
        have hd'' : min e (min e' e'') ≤ e'' := (min_le_right ..).trans (min_le_right ..)
        rw [same_finite_iff hd hd'] at hxy
        rw [same_finite_iff hd' hd''] at hyz
        rw [same_finite_iff hd hd'']
        exact hxy.trans hyz

/-- The integer a number is, if it is one. -/
def toInt? : Number → Option ℤ
  | finite m e =>
    if 0 ≤ e then some (m * 10 ^ e.toNat)
    else if m % 10 ^ (-e).toNat = 0 then some (m / 10 ^ (-e).toNat) else none
  | infinite _ => none

/-- `Number.MAX_SAFE_INTEGER` -/
def maxSafe : ℤ := 2 ^ 53 - 1

/-- The integer of a number that `Number.isSafeInteger` accepts. -/
def safe? (x : Number) : Option ℤ :=
  match x.toInt? with
  | some n => if -maxSafe ≤ n ∧ n ≤ maxSafe then some n else none
  | none => none

theorem safe?_bounds {x : Number} {n : ℤ} (h : x.safe? = some n) : -maxSafe ≤ n ∧ n ≤ maxSafe := by
  unfold safe? at h
  split at h
  · split_ifs at h with hb
    cases h
    exact hb
  · cases h

/-- A number that is an integer is compared as that integer. -/
theorem lt_int {x : Number} {n : ℤ} (h : x.toInt? = some n) (b : ℤ) :
    lt (finite b 0) x = decide (b < n) := by
  cases x with
  | infinite neg => cases h
  | finite m e =>
    simp only [toInt?] at h
    rw [lt, decide_eq_decide]
    simp only [align]
    split_ifs at h with he hm
    · cases h
      rw [min_eq_left he, sub_self, sub_zero, Int.toNat_zero, pow_zero, mul_one]
    · cases h
      have hpow : (0 : ℤ) < 10 ^ (-e).toNat := by positivity
      have hdiv : m / 10 ^ (-e).toNat * 10 ^ (-e).toNat = m :=
        Int.ediv_mul_cancel (Int.dvd_of_emod_eq_zero hm)
      rw [min_eq_right (by omega), sub_self, zero_sub, Int.toNat_zero, pow_zero, mul_one]
      constructor
      · intro hlt
        rw [← hdiv] at hlt
        exact lt_of_mul_lt_mul_right hlt hpow.le
      · intro hlt
        calc b * 10 ^ (-e).toNat < m / 10 ^ (-e).toNat * 10 ^ (-e).toNat :=
              mul_lt_mul_of_pos_right hlt hpow
          _ = m := hdiv

/-- The decimal digits of a natural number. -/
def digits (n : ℕ) : Str := (Nat.toDigits 10 n).flatMap utf16

/-- The text of `m · 10^e` for positive `m`. -/
def positiveText (m : ℕ) (e : ℤ) : Str :=
  let all := digits m
  let ds := (all.reverse.dropWhile (· == '0'.toNat.toUInt16)).reverse
  let zeros (n : ℤ) : Str := List.replicate n.toNat '0'.toNat.toUInt16
  let k : ℤ := ds.length
  -- the position of the decimal point, counted from the first digit
  let n : ℤ := all.length + e
  if k ≤ n ∧ n ≤ 21 then ds ++ zeros (n - k)
  else if 0 < n ∧ n ≤ 21 then ds.take n.toNat ++ lit "." ++ ds.drop n.toNat
  else if -6 < n ∧ n ≤ 0 then lit "0." ++ zeros (-n) ++ ds
  else
    (if k = 1 then ds else ds.take 1 ++ lit "." ++ ds.drop 1) ++ lit "e" ++
      lit (if 0 < n then "+" else "-") ++ digits (n - 1).natAbs

/-- `Number::toString` -/
def text : Number → Str
  | infinite n => lit (if n then "-Infinity" else "Infinity")
  | finite m e =>
    if m = 0 then lit "0" else (if m < 0 then lit "-" else []) ++ positiveText m.natAbs e

end Number

/-! ## Values -/

/-- A value `JSON.parse` can return. -/
inductive Json
  | null
  | bool (b : Bool)
  | num (x : Number)
  | str (s : Str)
  | arr (items : List Json)
  | obj (members : List (Str × Json))

/-- A JSON value or `undefined`. -/
abbrev Value := Option Json

namespace Json

/-- An integer as a value. -/
def int (n : ℤ) : Json := num (.finite n 0)

/-- A literal string as a value. -/
def text (s : String) : Json := str (lit s)

/-- The value of a member; only objects have members of the names a program asks for. -/
def get (j : Json) (name : Str) : Value :=
  match j with
  | obj members => members.lookup name
  | _ => none

/-- `Object.keys` -/
def keys : Json → List Str
  | obj members => members.map Prod.fst
  | arr items => (List.range items.length).map Number.digits
  | str s => (List.range s.length).map Number.digits
  | _ => []

/-- `typeof j === 'object'` for a value other than `null`. -/
def isObject : Json → Bool
  | obj _ => true
  | arr _ => true
  | _ => false

/-- An object without some of its members. -/
def without (names : List Str) : Json → Json
  | obj members => obj (members.filter fun m => !names.contains m.1)
  | j => j

/-- `{ ...j, [name]: value }` -/
def set (j : Json) (name : Str) (value : Json) : Json :=
  match j with
  | obj members =>
    if (members.lookup name).isSome then
      obj (members.map fun m => if m.1 = name then (name, value) else m)
    else obj (members ++ [(name, value)])
  | _ => obj [(name, value)]

/-- The string of a string value. -/
def str? : Json → Option Str
  | str s => some s
  | _ => none

/-- The integer of a value that `Number.isSafeInteger` accepts. -/
def int? : Json → Option ℤ
  | num x => x.safe?
  | _ => none

/-- Truthiness. -/
def truthy : Json → Bool
  | null => false
  | bool b => b
  | num x => !x.same (.finite 0 0)
  | str s => s ≠ []
  | arr _ => true
  | obj _ => true

mutual
/-- `String(j)`: the coercion of a regular expression's `test`. -/
def toText : Json → Except Throw Str
  | null => .ok (lit "null")
  | bool b => .ok (lit (if b then "true" else "false"))
  | num x => .ok x.text
  | str s => .ok s
  | arr items => joinText items
  | obj members =>
    if (members.lookup (lit "toString")).isSome then .error .typeError
    else .ok (lit "[object Object]")
/-- `Array.prototype.join`; `null` contributes nothing. -/
def joinText : List Json → Except Throw Str
  | [] => .ok []
  | [j] => itemText j
  | j :: rest =>
    match itemText j with
    | .error e => .error e
    | .ok s =>
      match joinText rest with
      | .error e => .error e
      | .ok t => .ok (s ++ lit "," ++ t)
/-- One element of a joined array. -/
def itemText : Json → Except Throw Str
  | null => .ok []
  | bool b => .ok (lit (if b then "true" else "false"))
  | num x => .ok x.text
  | str s => .ok s
  | arr items => joinText items
  | obj members =>
    if (members.lookup (lit "toString")).isSome then .error .typeError
    else .ok (lit "[object Object]")
end

/-! ## Serialization -/

/-- A code unit as `\uXXXX`. -/
def unicodeEscape (u : UInt16) : Str :=
  let hex := (Nat.toDigits 16 u.toNat).flatMap utf16
  lit "\\u" ++ List.replicate (4 - hex.length) '0'.toNat.toUInt16 ++ hex

/-- A code unit inside a JSON string literal, where it is not part of a surrogate pair. -/
def quoteUnit (u : UInt16) : Str :=
  if u == 34 then lit "\\\"" else if u == 92 then lit "\\\\"
  else if u == 8 then lit "\\b" else if u == 12 then lit "\\f"
  else if u == 10 then lit "\\n" else if u == 13 then lit "\\r" else if u == 9 then lit "\\t"
  else if u < 32 || (0xD800 ≤ u && u < 0xE000) then unicodeEscape u else [u]

/-- The inside of a JSON string literal. -/
def quoteUnits : Str → Str
  | [] => []
  | [u] => quoteUnit u
  | u :: v :: rest =>
    if surrogatePair u v then u :: v :: quoteUnits rest else quoteUnit u ++ quoteUnits (v :: rest)

/-- A JSON string literal. -/
def quote (s : Str) : Str := lit "\"" ++ quoteUnits s ++ lit "\""

mutual
/-- `JSON.stringify` -/
def stringify : Json → Str
  | null => lit "null"
  | bool b => lit (if b then "true" else "false")
  | num (.infinite _) => lit "null"
  | num x => x.text
  | str s => quote s
  | arr items => lit "[" ++ stringifyItems items ++ lit "]"
  | obj members => lit "\x7b" ++ stringifyMembers members ++ lit "\x7d"
/-- The elements of an array, separated by commas. -/
def stringifyItems : List Json → Str
  | [] => []
  | [j] => stringify j
  | j :: rest => stringify j ++ lit "," ++ stringifyItems rest
/-- The members of an object, separated by commas. -/
def stringifyMembers : List (Str × Json) → Str
  | [] => []
  | [(k, j)] => quote k ++ lit ":" ++ stringify j
  | (k, j) :: rest => quote k ++ lit ":" ++ stringify j ++ lit "," ++ stringifyMembers rest
end

theorem lookup_filter_name {p : Str → Bool} {name : Str} (hp : p name = true) :
    ∀ members : List (Str × Json),
      (members.filter fun m => p m.1).lookup name = members.lookup name
  | [] => rfl
  | (k, j) :: members => by
    have ih := lookup_filter_name hp members
    by_cases hk : name = k
    · subst hk
      rw [List.filter_cons, if_pos hp, List.lookup_cons_self, List.lookup_cons_self]
    · have hne : (name == k) = false := beq_false_of_ne hk
      rw [List.filter_cons]
      split_ifs
      · rw [List.lookup_cons, List.lookup_cons, hne, ih]
      · rw [List.lookup_cons, hne, ih]

/-- Dropping some members leaves the others. -/
theorem get_without {names : List Str} {name : Str} (h : name ∉ names) (j : Json) :
    (j.without names).get name = j.get name := by
  cases j with
  | obj members =>
    have hp : (!names.contains name) = true := by simpa using h
    exact lookup_filter_name (p := fun k => !names.contains k) hp members
  | null | bool | num | str | arr => rfl

/-- A dropped member is not found. -/
theorem get_without_of_mem {names : List Str} {name : Str} (h : name ∈ names) (j : Json) :
    (j.without names).get name = none := by
  cases j with
  | obj members =>
    refine List.lookup_eq_none_iff.2 fun m hm => ?_
    have hkept : m.1 ∉ names := by simpa using (List.mem_filter.1 hm).2
    rw [bne_iff_ne]
    rintro rfl
    exact hkept h
  | null | bool | num | str | arr => rfl

theorem lookup_map_set (name name' : Str) (value : Json) :
    ∀ members : List (Str × Json), (members.lookup name).isSome →
      (members.map fun m => if m.1 = name then (name, value) else m).lookup name' =
        if name' = name then some value else members.lookup name'
  | [], h => nomatch h
  | (k, j) :: members, h => by
    have hother (e : name' ≠ name) : ∀ members : List (Str × Json),
        (members.map fun m => if m.1 = name then (name, value) else m).lookup name' =
          members.lookup name' := fun members => by
      induction members with
      | nil => rfl
      | cons m members ih =>
        rw [List.map_cons, List.lookup_cons, List.lookup_cons, ih]
        split_ifs with hm
        · rw [hm, beq_false_of_ne e]
        · rfl
    by_cases e : name' = name
    · subst e
      rw [if_pos rfl, List.map_cons]
      by_cases hk : k = name'
      · rw [if_pos hk, List.lookup_cons_self]
      · rw [if_neg hk, List.lookup_cons, beq_false_of_ne (Ne.symm hk)]
        rw [List.lookup_cons, beq_false_of_ne (Ne.symm hk)] at h
        exact (lookup_map_set name' name' value members h).trans (if_pos rfl)
    · rw [if_neg e]
      exact hother e _

theorem lookup_append_set (name name' : Str) (value : Json) (members : List (Str × Json))
    (h : members.lookup name = none) : (members ++ [(name, value)]).lookup name' =
      if name' = name then some value else members.lookup name' := by
  induction members with
  | nil =>
    by_cases e : name' = name
    · subst e
      rw [List.nil_append, List.lookup_cons_self, if_pos rfl]
    · rw [List.nil_append, List.lookup_cons, beq_false_of_ne e, if_neg e]
  | cons m members ih =>
    rw [List.lookup_cons] at h
    split at h
    · cases h
    · rename_i hne
      rw [List.cons_append, List.lookup_cons, ih h, List.lookup_cons]
      by_cases e : name' = name
      · subst e
        rw [hne, if_pos rfl]
      · rw [if_neg e, if_neg e]

/-- Setting a member changes what its name finds. -/
theorem get_set (name : Str) (value j : Json) (name' : Str) :
    (j.set name value).get name' = if name' = name then some value else j.get name' := by
  cases j with
  | obj members =>
    unfold set
    dsimp only
    by_cases h : (members.lookup name).isSome
    · rw [if_pos h]
      exact lookup_map_set name name' value members h
    · rw [if_neg h]
      exact lookup_append_set name name' value members (Option.not_isSome_iff_eq_none.1 h)
  | null | bool | num | str | arr =>
    exact lookup_append_set name name' value [] rfl

theorem without_of_subset {names names' : List Str} (h : names' ⊆ names) (j : Json) :
    (j.without names).without names' = j.without names := by
  cases j with
  | obj members =>
    rw [without, without, List.filter_filter]
    refine congrArg obj (List.filter_congr fun m _ => ?_)
    by_cases hm : m.1 ∈ names'
    · simp [hm, h hm]
    · simp [hm]
  | null | bool | num | str | arr => rfl

@[simp] theorem without_without (names : List Str) (j : Json) :
    (j.without names).without names = j.without names := by
  cases j with
  | obj members => simp [without, List.filter_filter]
  | null | bool | num | str | arr => rfl

end Json

/-! ## Operations on possibly undefined values -/

namespace Value

/-- `v?.name` -/
def get (v : Value) (name : Str) : Value := v.bind (·.get name)

/-- `v == null` -/
def nullish : Value → Bool
  | none => true
  | some .null => true
  | some _ => false

/-- Truthiness. -/
def truthy : Value → Bool
  | none => false
  | some j => j.truthy

/-- The string of a string value. -/
def str? (v : Value) : Option Str := v.bind Json.str?

/-- The integer of a value that `Number.isSafeInteger` accepts. -/
def int? (v : Value) : Option ℤ := v.bind Json.int?

/-- `v === w`; arrays and objects of two parsed texts are never the same reference. -/
def same : Value → Value → Bool
  | none, none => true
  | some .null, some .null => true
  | some (.bool b), some (.bool c) => b == c
  | some (.num x), some (.num y) => x.same y
  | some (.str s), some (.str t) => s == t
  | _, _ => false

/-- `v === 's'` -/
def is (v : Value) (s : Str) : Bool := v.str? == some s

/-- `/^…$/.test(v)` for the language `p`. -/
def test (p : Str → Bool) : Value → Except Throw Bool
  | none => .ok (p (lit "undefined"))
  | some j => j.toText.map p

/-- `v > n` for a value that is a number. -/
def exceeds (v : Value) (n : ℤ) : Bool :=
  match v with
  | some (.num x) => Number.lt (.finite n 0) x
  | _ => false

/-- `v ?? ''` -/
def orEmpty (v : Value) : Value := if v.nullish then some (.str []) else v

theorem is_iff {v : Value} {s : Str} : v.is s = true ↔ v = some (.str s) := by
  rcases v with _ | (_ | _ | _ | _ | _ | _) <;> simp [is, str?, Json.str?, Option.bind]

theorem not_nullish_of_truthy {v : Value} (h : v.truthy = true) : v.nullish = false := by
  cases v with
  | none => cases h
  | some j =>
    cases j with
    | null => cases h
    | bool | num | str | arr | obj => rfl

theorem str?_eq_some {v : Value} {s : Str} : v.str? = some s ↔ v = some (.str s) := by
  rcases v with _ | (_ | _ | _ | _ | _ | _) <;> simp [str?, Json.str?, Option.bind]

theorem int?_bounds {v : Value} {n : ℤ} (h : v.int? = some n) :
    -Number.maxSafe ≤ n ∧ n ≤ Number.maxSafe := by
  rcases v with _ | (_ | _ | x | _ | _ | _) <;> simp only [int?, Json.int?, Option.bind,
    reduceCtorEq] at h
  exact Number.safe?_bounds h

theorem same_comm (v w : Value) : v.same w = w.same v := by
  rcases v with _ | (_ | b | x | s | _ | _) <;> rcases w with _ | (_ | c | y | t | _ | _)
  all_goals first | rfl | skip
  · exact Bool.beq_comm
  · exact x.same_comm y
  · exact Bool.beq_comm

theorem same_trans {u v w : Value} (huv : u.same v = true) (hvw : v.same w = true) :
    u.same w = true := by
  rcases v with _ | (_ | b | x | s | _ | _)
  · rcases u with _ | (_ | _ | _ | _ | _ | _)
    · exact hvw
    all_goals cases huv
  · rcases u with _ | (_ | _ | _ | _ | _ | _)
    on_goal 2 => exact hvw
    all_goals cases huv
  · rcases u with _ | (_ | b' | _ | _ | _ | _)
    on_goal 3 =>
      rw [eq_of_beq huv]
      exact hvw
    all_goals cases huv
  · rcases u with _ | (_ | _ | x' | _ | _ | _)
    on_goal 4 =>
      rcases w with _ | (_ | _ | y | _ | _ | _)
      on_goal 4 => exact Number.same_trans huv hvw
      all_goals cases hvw
    all_goals cases huv
  · rcases u with _ | (_ | _ | _ | s' | _ | _)
    on_goal 5 =>
      rw [eq_of_beq huv]
      exact hvw
    all_goals cases huv
  · rcases w with _ | (_ | _ | _ | _ | _ | _)
    all_goals cases hvw
  · rcases w with _ | (_ | _ | _ | _ | _ | _)
    all_goals cases hvw

theorem same_str {v : Value} {s : Str} : v.same (some (.str s)) = true ↔ v = some (.str s) := by
  rcases v with _ | (_ | _ | _ | _ | _ | _) <;> simp [same]

theorem same_comm_str {v : Value} {s : Str} :
    same (some (.str s)) v = true ↔ v = some (.str s) := by
  rcases v with _ | (_ | _ | _ | t | _ | _) <;> simp only [same, reduceCtorEq, Option.some.injEq,
    Json.str.injEq, Bool.false_eq_true, beq_iff_eq]
  exact eq_comm

@[simp] theorem test_str (p : Str → Bool) (s : Str) : test p (some (.str s)) = .ok (p s) := by
  simp [test, Json.toText, Except.map]

@[simp] theorem orEmpty_str (s : Str) : orEmpty (some (.str s)) = some (.str s) := rfl

end Value

end Js
