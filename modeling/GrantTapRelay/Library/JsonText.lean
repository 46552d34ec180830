import GrantTapRelay.Library.JsValue

/-!
# What the text of a JSON value determines

`Number::toString` writes a natural number below `10^21` as its decimal digits, so its text
determines it and holds no comma. The text of an object whose members start with such numbers
therefore determines them (`stringify_numbers`).
-/

namespace Js

/-! ## Decimal digits -/

namespace Number

theorem isDigit_of_mem_toDigits {n : ℕ} {c : Char} (h : c ∈ Nat.toDigits 10 n) :
    48 ≤ c.toNat ∧ c.toNat ≤ 57 :=
  Char.isDigit_iff_toNat.1 (Nat.isDigit_of_mem_toDigits (by decide) (by decide) h)

theorem digits_eq_map (n : ℕ) : digits n = (Nat.toDigits 10 n).map fun c => c.toNat.toUInt16 := by
  have h : ∀ c ∈ Nat.toDigits 10 n, utf16 c = [c.toNat.toUInt16] := fun c hc => by
    have := isDigit_of_mem_toDigits hc
    rw [utf16, if_pos (by omega)]
  rw [digits, List.flatMap_congr h, ← List.map_eq_flatMap]

theorem isDigit_of_mem_digits {n : ℕ} {u : UInt16} (h : u ∈ digits n) : isDigit u = true := by
  rw [digits_eq_map, List.mem_map] at h
  obtain ⟨c, hc, rfl⟩ := h
  have := isDigit_of_mem_toDigits hc
  have hc' : c.toNat.toUInt16.toNat = c.toNat := Nat.mod_eq_of_lt (by omega)
  simp only [isDigit, unitIn, Bool.and_eq_true, decide_eq_true_eq, UInt16.le_iff_toNat_le, hc']
  exact this

/-- Reading the digits back. -/
theorem chars_of_digits (n : ℕ) :
    (digits n).map (fun u => Char.ofNat u.toNat) = Nat.toDigits 10 n := by
  rw [digits_eq_map, List.map_map]
  refine (List.map_congr_left fun c hc => ?_).trans (List.map_id _)
  have := isDigit_of_mem_toDigits hc
  have hc' : c.toNat.toUInt16.toNat = c.toNat := Nat.mod_eq_of_lt (by omega)
  simp only [Function.comp_apply, hc', id_eq, Char.ofNat_toNat]

theorem digits_injective {a b : ℕ} (h : digits a = digits b) : a = b := by
  have hd : Nat.toDigits 10 a = Nat.toDigits 10 b := by
    rw [← chars_of_digits a, ← chars_of_digits b, h]
  calc
    a = Nat.ofDigitChars 10 (Nat.toDigits 10 a) 0 := Nat.ofDigitChars_ten_toDigits.symm
    _ = Nat.ofDigitChars 10 (Nat.toDigits 10 b) 0 := by rw [hd]
    _ = b := Nat.ofDigitChars_ten_toDigits

/-- Cutting a run of `z` off the end and writing it again. -/
theorem trim_append {α : Type*} [DecidableEq α] (z : α) (l : List α) :
    (l.reverse.dropWhile (· == z)).reverse ++
      List.replicate (l.length - (l.reverse.dropWhile (· == z)).length) z = l := by
  have hsplit := List.takeWhile_append_dropWhile (p := (· == z)) (l := l.reverse)
  have hlen := congrArg List.length hsplit
  rw [List.length_append, List.length_reverse] at hlen
  have hrep : l.reverse.takeWhile (· == z) =
      List.replicate (l.length - (l.reverse.dropWhile (· == z)).length) z := by
    rw [List.eq_replicate_iff]
    refine ⟨by omega, fun x hx => ?_⟩
    have := List.all_takeWhile (p := (· == z)) (l := l.reverse)
    exact beq_iff_eq.1 (List.all_eq_true.1 this x hx)
  rw [hrep] at hsplit
  have := congrArg List.reverse hsplit
  rwa [List.reverse_append, List.reverse_replicate, List.reverse_reverse] at this

theorem length_digits_le {n : ℕ} (h : n < 10 ^ 21) : (digits n).length ≤ 21 := by
  rw [digits_eq_map, List.length_map]
  exact (Nat.length_toDigits_le_iff (by decide) (by decide)).2 h

theorem text_nat {n : ℕ} (h : n < 10 ^ 21) : text (.finite n 0) = digits n := by
  rcases Nat.eq_zero_or_pos n with rfl | hn
  · decide
  · have hlen := length_digits_le h
    have htrim := trim_append '0'.toNat.toUInt16 (digits n)
    have hle : ((digits n).reverse.dropWhile (· == '0'.toNat.toUInt16)).length ≤
        (digits n).length := by
      have := (List.dropWhile_sublist (· == '0'.toNat.toUInt16) (l := (digits n).reverse)).length_le
      rwa [List.length_reverse] at this
    have h0 : ¬ (n : ℤ) = 0 := by omega
    have hneg : ¬ (n : ℤ) < 0 := by omega
    rw [text, if_neg h0, if_neg hneg, List.nil_append, Int.natAbs_natCast]
    unfold positiveText
    dsimp only
    rw [List.length_reverse, if_pos (by omega), show ((digits n).length : ℤ) + 0 -
      ((digits n).reverse.dropWhile (· == '0'.toNat.toUInt16)).length =
      ((digits n).length - ((digits n).reverse.dropWhile
        (· == '0'.toNat.toUInt16)).length : ℕ) by omega, Int.toNat_natCast]
    exact htrim

theorem dash_notMem_digits (n : ℕ) : (45 : UInt16) ∉ digits n := fun h => by
  have := isDigit_of_mem_digits h
  revert this
  decide

/-- A number's text has at most two minus signs: its own and that of its exponent. -/
theorem count_dash_text_le (x : Number) : x.text.count 45 ≤ 2 := by
  have hdigits : ∀ n, (digits n).count 45 = 0 := fun n =>
    List.count_eq_zero.2 (dash_notMem_digits n)
  have hpositive : ∀ m e, (positiveText m e).count 45 ≤ 1 := fun m e => by
    have hds : ∀ l : Str, l.Sublist (digits m) → l.count 45 = 0 := fun l hl =>
      Nat.eq_zero_of_le_zero ((hl.count_le 45).trans (hdigits m).le)
    have hall : (((digits m).reverse.dropWhile (· == '0'.toNat.toUInt16)).reverse).Sublist
        (digits m) := by
      have := (List.dropWhile_sublist (· == '0'.toNat.toUInt16) (l := (digits m).reverse)).reverse
      rwa [List.reverse_reverse] at this
    have hzeros : ∀ n, (List.replicate n '0'.toNat.toUInt16 : Str).count 45 = 0 := fun n =>
      List.count_eq_zero.2 fun h => absurd (List.eq_of_mem_replicate h) (by decide)
    have hlit : (lit ".").count 45 = 0 ∧ (lit "0.").count 45 = 0 ∧ (lit "e").count 45 = 0 ∧
        (lit "+").count 45 = 0 ∧ (lit "-").count 45 = 1 := by decide
    unfold positiveText
    dsimp only
    split_ifs <;> simp only [List.count_append, hdigits, hzeros, hds _ hall, hlit,
      hds _ ((List.take_sublist _ _).trans hall), hds _ ((List.drop_sublist _ _).trans hall)] <;>
      omega
  cases x with
  | infinite n => cases n <;> decide
  | finite m e =>
    have := hpositive m.natAbs e
    have hlit : (lit "-").count 45 = 1 ∧ (lit "0").count 45 = 0 := by decide
    unfold text
    dsimp only
    split_ifs <;> simp only [List.count_append, hlit, List.nil_append] <;> omega

end Number

/-! ## Plain strings

The text of a plain string, or of one inside nested arrays, determines it. -/

/-- A unit that a JSON string literal holds as it is, whatever is next to it. -/
def plain (u : UInt16) : Bool := 32 ≤ u && u < 127 && u ≠ 34 && u ≠ 92

theorem quoteUnit_plain {u : UInt16} (h : plain u = true) : Json.quoteUnit u = [u] := by
  simp only [plain, Bool.and_eq_true, decide_eq_true_eq, ne_eq] at h
  obtain ⟨⟨⟨hlo, hhi⟩, hquote⟩, hslash⟩ := h
  unfold Json.quoteUnit
  have h32 : ¬u < 32 := UInt16.not_lt.2 hlo
  have hsur : ¬(0xD800 ≤ u) := fun h => absurd (UInt16.lt_of_le_of_lt h hhi) (by decide)
  have hne : ∀ v : UInt16, v < 32 → u ≠ v := fun v hv e => h32 (e ▸ hv)
  simp [hquote, hslash, h32, hsur, hne 8 (by decide), hne 12 (by decide), hne 10 (by decide),
    hne 13 (by decide), hne 9 (by decide)]

theorem quoteUnits_plain : ∀ {s : Str}, (∀ u ∈ s, plain u = true) → Json.quoteUnits s = s
  | [], _ => rfl
  | [u], h => quoteUnit_plain (h u (by simp))
  | u :: v :: rest, h => by
    have hu := h u (by simp)
    have hnot : surrogatePair u v = false := by
      simp only [plain, Bool.and_eq_true, decide_eq_true_eq] at hu
      have hlt : u < 0xD800 := UInt16.lt_trans hu.1.1.2 (by decide)
      simp [surrogatePair, UInt16.not_le.2 hlt]
    rw [Json.quoteUnits, hnot, quoteUnit_plain hu,
      quoteUnits_plain fun w hw => h w (List.mem_cons_of_mem _ hw)]
    rfl

namespace Json

/-- A string inside some arrays of one element. -/
def nest : ℕ → Str → Json
  | 0, s => str s
  | n + 1, s => arr [nest n s]

theorem stringify_nest {s : Str} (hs : ∀ u ∈ s, plain u = true) :
    ∀ n, stringify (nest n s) = List.replicate n 91 ++ (34 :: s ++ [34]) ++ List.replicate n 93
  | 0 => by
    rw [nest, stringify, quote, quoteUnits_plain hs]
    simp [show lit "\"" = [34] by decide]
  | n + 1 => by
    rw [nest, stringify, stringifyItems, stringify_nest hs n, show lit "[" = [91] by decide,
      show lit "]" = [93] by decide, List.replicate_succ, List.replicate_succ']
    simp only [List.append_assoc, List.cons_append, List.nil_append]

theorem stringify_nest_injective {s t : Str} (hs : ∀ u ∈ s, plain u = true)
    (ht : ∀ u ∈ t, plain u = true) :
    ∀ {n m : ℕ}, stringify (nest n s) = stringify (nest m t) → nest n s = nest m t
  | 0, 0, h => by
    rw [stringify_nest hs, stringify_nest ht] at h
    simpa [nest] using h
  | 0, m + 1, h => by
    rw [stringify_nest hs, stringify_nest ht, List.replicate_succ] at h
    simp at h
  | n + 1, 0, h => by
    rw [stringify_nest hs, stringify_nest ht, List.replicate_succ] at h
    simp at h
  | n + 1, m + 1, h => by
    rw [nest, nest, stringify, stringify, stringifyItems, stringifyItems,
      List.append_cancel_right_eq, List.append_cancel_left_eq] at h
    rw [nest, nest, stringify_nest_injective hs ht h]

/-! ### Texts of coerced values -/

@[simp] theorem itemText_nest (n : ℕ) (s : Str) : itemText (nest n s) = .ok s := by
  induction n with
  | zero => rfl
  | succ n ih => simp [nest, itemText, joinText, ih]

@[simp] theorem toText_nest (n : ℕ) (s : Str) : toText (nest n s) = .ok s := by
  cases n with
  | zero => rfl
  | succ n => simp [nest, toText, joinText]

/-- A language that holds no text of a value that is not a string, or an array around one. -/
structure StringLanguage (p : Str → Bool) : Prop where
  empty : p [] = false
  null : p (lit "null") = false
  bool : ∀ b : Bool, p (lit (if b then "true" else "false")) = false
  number : ∀ x : Number, p x.text = false
  object : p (lit "[object Object]") = false
  comma : ∀ s, p s = true → (44 : UInt16) ∉ s

/-- What coerces to a text of such a language is a string, inside arrays or not. -/
theorem nest_of_itemText {p : Str → Bool} (hp : StringLanguage p) {s : Str} (hs : p s = true) :
    ∀ j : Json, itemText j = .ok s → ∃ n, j = nest n s
  | .null, h => by
    cases h
    exact absurd (hs.symm.trans hp.empty) (by decide)
  | .bool b, h => by
    cases h
    exact absurd (hs.symm.trans (hp.bool b)) (by decide)
  | .num x, h => by
    cases h
    exact absurd (hs.symm.trans (hp.number x)) (by decide)
  | .str t, h => by
    cases h
    exact ⟨0, rfl⟩
  | .obj members, h => by
    rw [itemText] at h
    split_ifs at h
    cases h
    exact absurd (hs.symm.trans hp.object) (by decide)
  | .arr [], h => by
    cases h
    exact absurd (hs.symm.trans hp.empty) (by decide)
  | .arr [j], h => by
    obtain ⟨n, rfl⟩ := nest_of_itemText hp hs j h
    exact ⟨n + 1, rfl⟩
  | .arr (j :: k :: rest), h => by
    simp only [itemText, joinText] at h
    split at h
    · cases h
    · split at h
      · cases h
      · cases h
        have hcomma : (44 : UInt16) ∈ lit "," := by decide
        exact absurd (List.mem_append_left _ (List.mem_append_right _ hcomma)) (hp.comma _ hs)

theorem nest_of_toText {p : Str → Bool} (hp : StringLanguage p) {s : Str} (hs : p s = true)
    {j : Json} (h : toText j = .ok s) : ∃ n, j = nest n s := by
  cases j with
  | null =>
    cases h
    exact absurd (hs.symm.trans hp.null) (by decide)
  | bool | num | str | arr | obj => exact nest_of_itemText hp hs _ h

end Json

/-! ## Objects -/

/-- A separator outside two texts shows where each ends. -/
theorem append_cons_injective {α : Type*} {sep : α} :
    ∀ {a b x y : List α}, sep ∉ a → sep ∉ b → a ++ sep :: x = b ++ sep :: y → a = b ∧ x = y
  | [], [], _, _, _, _, h => ⟨rfl, (List.cons.inj h).2⟩
  | [], u :: b, _, _, _, hb, h =>
    absurd (List.mem_cons.2 (.inl (List.cons.inj h).1)) hb
  | u :: a, [], _, _, ha, _, h =>
    absurd (List.mem_cons.2 (.inl (List.cons.inj h).1.symm)) ha
  | u :: a, v :: b, x, y, ha, hb, h => by
    obtain ⟨hu, ht⟩ := List.cons.inj h
    obtain ⟨hab, hxy⟩ := append_cons_injective (fun hm => ha (List.mem_cons_of_mem _ hm))
      (fun hm => hb (List.mem_cons_of_mem _ hm)) ht
    exact ⟨by rw [hu, hab], hxy⟩

namespace Json

theorem length_quoteUnit_pos (u : UInt16) : 0 < (quoteUnit u).length := by
  have hescape : 0 < (unicodeEscape u).length := by
    have hprefix : (lit "\\u").length = 2 := by decide
    simp only [unicodeEscape, List.length_append, hprefix]
    omega
  unfold quoteUnit
  split_ifs
  all_goals first | exact hescape | exact Nat.one_pos | decide

theorem length_le_quoteUnits : ∀ s : Str, s.length ≤ (quoteUnits s).length
  | [] => le_rfl
  | [u] => length_quoteUnit_pos u
  | u :: v :: rest => by
    have hu := length_quoteUnit_pos u
    have hrest := length_le_quoteUnits rest
    have htail := length_le_quoteUnits (v :: rest)
    rw [quoteUnits]
    split_ifs
    · simp only [List.length_cons]
      omega
    · simp only [List.length_cons, List.length_append] at htail ⊢
      omega

/-- The text of an object is at least as long as the text of each member. -/
theorem length_stringify_le_of_mem {m : Str × Json} :
    ∀ {members : List (Str × Json)}, m ∈ members →
      (stringify m.2).length ≤ (stringifyMembers members).length
  | [n], h => by
    rw [List.mem_singleton.1 h]
    simp only [stringifyMembers, List.length_append]
    omega
  | n :: n' :: rest, h => by
    simp only [stringifyMembers, List.length_append]
    rcases List.mem_cons.1 h with rfl | h
    · omega
    · have hrest := length_stringify_le_of_mem h
      omega

theorem length_stringify_le_of_get {j value : Json} {name : Str} (h : j.get name = some value) :
    (stringify value).length ≤ (stringify j).length := by
  cases j with
  | obj members =>
    obtain ⟨l₁, l₂, rfl, -⟩ := List.lookup_eq_some_iff.1 h
    have hmem : (name, value) ∈ l₁ ++ (name, value) :: l₂ := by simp
    refine le_trans (length_stringify_le_of_mem hmem) ?_
    simp only [stringify, List.length_append]
    omega
  | null | bool | num | str | arr => cases h

/-- A string in an object is no longer than the text of the object. -/
theorem length_le_stringify_of_get {j : Json} {name s : Str} (h : j.get name = some (.str s)) :
    s.length ≤ (stringify j).length := by
  refine le_trans ?_ (length_stringify_le_of_get h)
  have hunits := length_le_quoteUnits s
  simp only [stringify, quote, List.length_append]
  omega

theorem stringify_int {n : ℤ} (h0 : 0 ≤ n) (h : n ≤ Number.maxSafe) :
    stringify (int n) = Number.digits n.toNat := by
  have hn : (n.toNat : ℤ) = n := Int.toNat_of_nonneg h0
  have hlt : n.toNat < 10 ^ 21 := by
    have : Number.maxSafe < 10 ^ 21 := by decide
    omega
  rw [int, stringify, ← Number.text_nat hlt, hn]
  exact fun _ e => nomatch e

theorem comma_notMem_digits (n : ℕ) : (44 : UInt16) ∉ Number.digits n := fun h => by
  have := Number.isDigit_of_mem_digits h
  revert this
  decide

/-- The text of an object whose first two members are natural numbers determines them. -/
theorem stringify_numbers {k l : Str} {a b a' b' : ℤ} {rest rest' : List (Str × Json)}
    (ha : 0 ≤ a ∧ a ≤ Number.maxSafe) (hb : 0 ≤ b ∧ b ≤ Number.maxSafe)
    (ha' : 0 ≤ a' ∧ a' ≤ Number.maxSafe) (hb' : 0 ≤ b' ∧ b' ≤ Number.maxSafe)
    (hrest : rest ≠ []) (hrest' : rest' ≠ [])
    (h : stringify (.obj ((k, int a) :: (l, int b) :: rest)) =
      stringify (.obj ((k, int a') :: (l, int b') :: rest'))) : a = a' ∧ b = b' := by
  obtain ⟨m, rest, rfl⟩ := List.exists_cons_of_ne_nil hrest
  obtain ⟨m', rest', rfl⟩ := List.exists_cons_of_ne_nil hrest'
  have hcomma : lit "," = [44] := by decide
  simp only [stringify, stringifyMembers, stringify_int ha.1 ha.2, stringify_int hb.1 hb.2,
    stringify_int ha'.1 ha'.2, stringify_int hb'.1 hb'.2, hcomma, List.append_assoc,
    List.append_cancel_left_eq, List.cons_append, List.nil_append] at h
  obtain ⟨h₁, h⟩ := append_cons_injective (comma_notMem_digits _) (comma_notMem_digits _) h
  simp only [List.append_cancel_left_eq] at h
  obtain ⟨h₂, -⟩ := append_cons_injective (comma_notMem_digits _) (comma_notMem_digits _) h
  have := Number.digits_injective h₁
  have := Number.digits_injective h₂
  omega

end Json

end Js
