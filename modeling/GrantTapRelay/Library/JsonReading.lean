import GrantTapRelay.Library.JsonEquality

/-!
# Reading a JSON text back

The inside of a JSON string literal is read unit by unit (`unquote`), and what is read up to the
closing quote is the string that was written (`unquotes_quoteUnits`). So the text of a string, of
an array and of an object shows where it ends, and two values whose texts begin a common text are
told apart by it, part by part.

* `quote_cut`: a string literal at the start of a text.
* `Cut`: two values that are alike when their texts begin a common text.
* `cut_worded`, `cut_obj`: **the rules for values without numbers and for objects**.
-/

namespace Js

namespace Json

/-! ## Escapes -/

/-- The digit of a hexadecimal unit. -/
def hexDigit (u : UInt16) : ℕ := if isDigit u then u.toNat - 48 else u.toNat - 87

/-- The number that hexadecimal digits denote. -/
def hexValue (s : Str) : ℕ := s.foldl (fun n u => 16 * n + hexDigit u) 0

theorem hexValue_append_singleton (s : Str) (u : UInt16) :
    hexValue (s ++ [u]) = 16 * hexValue s + hexDigit u := by
  rw [hexValue, List.foldl_append]
  rfl

/-- Zeros in front do not count. -/
theorem hexValue_zeros (n : ℕ) (s : Str) :
    hexValue (List.replicate n '0'.toNat.toUInt16 ++ s) = hexValue s := by
  have hzeros : ∀ n, (List.replicate n '0'.toNat.toUInt16).foldl
      (fun n u => 16 * n + hexDigit u) 0 = 0 := by
    intro n
    induction n with
    | zero => rfl
    | succ n ih => rw [List.replicate_succ', List.foldl_append, ih]; rfl
  rw [hexValue, List.foldl_append, hzeros, hexValue]

/-- One unit for each digit, and the digits denote the number. -/
theorem hexValue_toDigits (n : ℕ) :
    ((Nat.toDigits 16 n).flatMap utf16).length = (Nat.toDigits 16 n).length ∧
      hexValue ((Nat.toDigits 16 n).flatMap utf16) = n := by
  have hdigit : ∀ d < 16, ∃ u, utf16 d.digitChar = [u] ∧ hexDigit u = d := by
    intro d hd
    have hall : ∀ d < 16, (utf16 d.digitChar).length = 1 ∧
        (utf16 d.digitChar).all (fun u => hexDigit u = d) := by decide
    obtain ⟨hlength, hvalue⟩ := hall d hd
    obtain ⟨u, hu⟩ := List.length_eq_one_iff.1 hlength
    rw [hu] at hvalue
    exact ⟨u, hu, by simpa using hvalue⟩
  induction n using Nat.strongRecOn with
  | ind n ih =>
    by_cases hn : n < 16
    · obtain ⟨u, hu, hvalue⟩ := hdigit n hn
      rw [Nat.toDigits_of_lt_base hn, List.flatMap_singleton, hu]
      refine ⟨rfl, ?_⟩
      rw [← List.nil_append [u], hexValue_append_singleton, hvalue]
      exact zero_add n
    · obtain ⟨hlength, hvalue⟩ := ih (n / 16) (by omega)
      obtain ⟨u, hu, hu'⟩ := hdigit (n % 16) (Nat.mod_lt n (by decide))
      rw [Nat.toDigits_of_base_le (by decide) (by omega), List.flatMap_append,
        List.flatMap_singleton, hu]
      refine ⟨by simp only [List.length_append, hlength, List.length_singleton], ?_⟩
      rw [hexValue_append_singleton, hvalue, hu']
      omega

/-- `\u` and four digits. -/
theorem unicodeEscape_eq (u : UInt16) : ∃ ds : Str, unicodeEscape u = 92 :: 117 :: ds ∧
    ds.length = 4 ∧ (hexValue ds).toUInt16 = u := by
  obtain ⟨hlength, hvalue⟩ := hexValue_toDigits u.toNat
  have hshort : (Nat.toDigits 16 u.toNat).length ≤ 4 :=
    (Nat.length_toDigits_le_iff (by decide) (by decide)).2 (lt_of_lt_of_le u.toNat_lt (by decide))
  have hlit : lit "\\u" = [92, 117] := by decide
  refine ⟨List.replicate (4 - ((Nat.toDigits 16 u.toNat).flatMap utf16).length) '0'.toNat.toUInt16
    ++ (Nat.toDigits 16 u.toNat).flatMap utf16, by
      rw [unicodeEscape, hlit, List.append_assoc]
      rfl, ?_, ?_⟩
  · simp only [List.length_append, List.length_replicate, hlength]
    omega
  · rw [hexValue_zeros, hvalue]
    exact UInt16.ofNat_toNat

/-- The unit that a letter after a backslash stands for. -/
def unescape (u : UInt16) : UInt16 :=
  if u = 98 then 8 else if u = 102 then 12 else if u = 110 then 10 else if u = 114 then 13
  else if u = 116 then 9 else u

/-- Reads the unit that a backslash before the text escapes. -/
def unquoteEscape : Str → Option (UInt16 × Str)
  | [] => none
  | u :: rest =>
    if u = 117 then some ((hexValue (rest.take 4)).toUInt16, rest.drop 4)
    else some (unescape u, rest)

/-- Reads one unit of a string literal, up to its closing quote. -/
def unquote : Str → Option (UInt16 × Str)
  | [] => none
  | u :: rest =>
    if u = 34 then none else if u = 92 then unquoteEscape rest else some (u, rest)

theorem unquote_raw {u : UInt16} (h : u ≠ 34) (h' : u ≠ 92) (rest : Str) :
    unquote (u :: rest) = some (u, rest) := by
  rw [unquote, if_neg h, if_neg h']

theorem unquote_unicodeEscape (u : UInt16) (rest : Str) :
    unquote (unicodeEscape u ++ rest) = some (u, rest) := by
  obtain ⟨ds, hds, hlength, hvalue⟩ := unicodeEscape_eq u
  rw [hds, List.cons_append, List.cons_append, unquote, if_neg (by decide), if_pos rfl,
    unquoteEscape, if_pos rfl, List.take_append_of_le_length hlength.ge,
    List.drop_append_of_le_length hlength.ge, ← hlength, List.take_length, List.drop_length, hvalue]
  rfl

theorem unquote_quoteUnit (u : UInt16) (rest : Str) :
    unquote (quoteUnit u ++ rest) = some (u, rest) := by
  have hlits : lit "\\\"" = [92, 34] ∧ lit "\\\\" = [92, 92] ∧ lit "\\b" = [92, 98] ∧
      lit "\\f" = [92, 102] ∧ lit "\\n" = [92, 110] ∧ lit "\\r" = [92, 114] ∧
      lit "\\t" = [92, 116] := by decide
  obtain ⟨hquote, hslash, hb, hf, hn, hr, ht⟩ := hlits
  unfold quoteUnit
  split_ifs with h34 h92 h8 h12 h10 h13 h9 hcontrol
  · rw [hquote, beq_iff_eq.1 h34]
    rfl
  · rw [hslash, beq_iff_eq.1 h92]
    rfl
  · rw [hb, beq_iff_eq.1 h8]
    rfl
  · rw [hf, beq_iff_eq.1 h12]
    rfl
  · rw [hn, beq_iff_eq.1 h10]
    rfl
  · rw [hr, beq_iff_eq.1 h13]
    rfl
  · rw [ht, beq_iff_eq.1 h9]
    rfl
  · exact unquote_unicodeEscape u rest
  · exact unquote_raw (mt beq_iff_eq.2 h34) (mt beq_iff_eq.2 h92) rest

/-! ## Literals -/

/-- The text reads as a string up to a closing quote, with the rest of the text after it. -/
inductive Unquotes : Str → Str → Str → Prop
  | done (rest : Str) : Unquotes (34 :: rest) [] rest
  | unit {text text' s rest : Str} {u : UInt16} : unquote text = some (u, text') →
    Unquotes text' s rest → Unquotes text (u :: s) rest

theorem Unquotes.unique {text s t rest rest' : Str} (h : Unquotes text s rest)
    (h' : Unquotes text t rest') : s = t ∧ rest = rest' := by
  induction h generalizing t with
  | done rest =>
    cases h' with
    | done => exact ⟨rfl, rfl⟩
    | unit hu => cases hu
  | unit hu _ ih =>
    cases h' with
    | done => cases hu
    | unit hv hrest =>
      rw [hu] at hv
      cases hv
      obtain ⟨rfl, rfl⟩ := ih hrest
      exact ⟨rfl, rfl⟩

/-- What was written is read back. -/
theorem unquotes_quoteUnits (rest : Str) : ∀ s : Str, Unquotes (quoteUnits s ++ 34 :: rest) s rest
  | [] => .done rest
  | [u] => .unit (unquote_quoteUnit u _) (.done rest)
  | u :: v :: s => by
    rw [quoteUnits]
    split_ifs with hpair
    · simp only [surrogatePair, Bool.and_eq_true, decide_eq_true_eq] at hpair
      have hraw {w c : UInt16} (hw : 0xD800 ≤ w) (hc : c < 0xD800) : w ≠ c := fun e =>
        absurd (UInt16.lt_of_lt_of_le hc (e ▸ hw)) (UInt16.lt_irrefl _)
      have hv : 0xD800 ≤ v := UInt16.le_trans (by decide) hpair.1.2
      exact .unit (unquote_raw (hraw hpair.1.1.1 (by decide)) (hraw hpair.1.1.1 (by decide)) _)
        (.unit (unquote_raw (hraw hv (by decide)) (hraw hv (by decide)) _)
          (unquotes_quoteUnits rest s))
    · rw [List.append_assoc]
      exact .unit (unquote_quoteUnit u _) (unquotes_quoteUnits rest (v :: s))

/-- **A string literal shows where it ends**, and what it denotes. -/
theorem quote_cut {s t rest rest' : Str} (h : quote s ++ rest = quote t ++ rest') :
    s = t ∧ rest = rest' := by
  have hlit : lit "\"" = [34] := by decide
  simp only [quote, hlit, List.append_assoc, List.cons_append, List.nil_append,
    List.cons.injEq, true_and] at h
  have hs := unquotes_quoteUnits rest s
  rw [h] at hs
  exact hs.unique (unquotes_quoteUnits rest' t)

/-! ## Values -/

/-- What follows a value in an array or an object. -/
def Delimited (text : Str) : Prop := ∃ u rest, text = u :: rest ∧ (u = 44 ∨ u = 93 ∨ u = 125)

/-- Where one text begins with both values, they are alike and end together. -/
def Cut (j k : Json) : Prop :=
  ∀ rest rest', Delimited rest → Delimited rest' → stringify j ++ rest = stringify k ++ rest' →
    Alike j k ∧ rest = rest'

/-- A value written without numbers and objects, in arrays of one item. -/
inductive Worded : Json → Prop
  | null : Worded null
  | bool (b : Bool) : Worded (bool b)
  | str (s : Str) : Worded (str s)
  | wrap {j : Json} : Worded j → Worded (arr [j])

theorem worded_nest (s : Str) : ∀ n, Worded (nest n s)
  | 0 => .str s
  | n + 1 => .wrap (worded_nest s n)

theorem Alike.eq_of_worded {j : Json} (hj : j.Worded) : ∀ {k : Json}, Alike j k → j = k := by
  induction hj with
  | null | bool | str =>
    intro k h
    cases h
    rfl
  | wrap _ ih =>
    intro k h
    cases h with
    | item hj hrest =>
      cases hrest
      rw [ih hj]

/-- The first unit of the text tells the kinds of worded values apart. -/
theorem cut_worded {j : Json} (hj : j.Worded) : ∀ {k : Json}, k.Worded → Cut j k := by
  have hnull : lit "null" = [110, 117, 108, 108] := by decide
  have htrue : lit "true" = [116, 114, 117, 101] := by decide
  have hfalse : lit "false" = [102, 97, 108, 115, 101] := by decide
  have hquote : lit "\"" = [34] := by decide
  have hopen : lit "[" = [91] := by decide
  have hclose : lit "]" = [93] := by decide
  induction hj with
  | null =>
    intro k hk rest rest' _ _ h
    cases hk with
    | null => exact ⟨.null, List.append_cancel_left h⟩
    | bool b => cases b <;> simp [stringify, hnull, htrue, hfalse] at h
    | str s => simp [stringify, quote, hnull, hquote] at h
    | wrap => simp [stringify, hnull, hopen] at h
  | bool b =>
    intro k hk rest rest' _ _ h
    cases hk with
    | null => cases b <;> simp [stringify, hnull, htrue, hfalse] at h
    | bool c =>
      cases b <;> cases c
      · exact ⟨.bool _, List.append_cancel_left h⟩
      · simp [stringify, htrue, hfalse] at h
      · simp [stringify, htrue, hfalse] at h
      · exact ⟨.bool _, List.append_cancel_left h⟩
    | str s => cases b <;> simp [stringify, quote, htrue, hfalse, hquote] at h
    | wrap => cases b <;> simp [stringify, htrue, hfalse, hopen] at h
  | str s =>
    intro k hk rest rest' _ _ h
    cases hk with
    | null => simp [stringify, quote, hnull, hquote] at h
    | bool b => cases b <;> simp [stringify, quote, htrue, hfalse, hquote] at h
    | str t =>
      obtain ⟨rfl, hrest⟩ := quote_cut h
      exact ⟨.str s, hrest⟩
    | wrap => simp [stringify, quote, hquote, hopen] at h
  | @wrap j hj ih =>
    intro k hk rest rest' _ _ h
    cases hk with
    | null => simp [stringify, hnull, hopen] at h
    | bool b => cases b <;> simp [stringify, htrue, hfalse, hopen] at h
    | str s => simp [stringify, quote, hquote, hopen] at h
    | @wrap k hk =>
      simp only [stringify, stringifyItems, hopen, hclose, List.append_assoc, List.cons_append,
        List.nil_append, List.cons.injEq, true_and] at h
      obtain ⟨hjk, hrest⟩ := ih hk _ _ ⟨93, rest, rfl, by simp⟩ ⟨93, rest', rfl, by simp⟩ h
      exact ⟨.item hjk .nil, (List.cons.inj hrest).2⟩

theorem stringify_num_of_same {x y : Number} (h : x.same y = true) :
    stringify (num x) = stringify (num y) := by
  have hfinite : ∀ m e, stringify (num (.finite m e)) = (Number.finite m e).text := fun m e => by
    rw [stringify]
    exact fun _ e => by cases e
  cases x with
  | infinite n =>
    cases y with
    | infinite n' => rw [stringify, stringify]
    | finite m e => cases h
  | finite m e =>
    cases y with
    | infinite n => cases h
    | finite m' e' => rw [hfinite, hfinite, Number.text_of_same h]

theorem cut_of_same {x y : Number} (h : x.same y = true) : Cut (num x) (num y) := by
  intro rest rest' _ _ htext
  rw [stringify_num_of_same h] at htext
  exact ⟨.num h, List.append_cancel_left htext⟩

/-- Units of a class show where they end. -/
theorem append_class_injective {α : Type*} {p : α → Prop} {c c' : α} (hc : ¬p c) (hc' : ¬p c') :
    ∀ {a b x y : List α}, (∀ u ∈ a, p u) → (∀ u ∈ b, p u) → a ++ c :: x = b ++ c' :: y →
      a = b ∧ c :: x = c' :: y
  | [], [], _, _, _, _, h => ⟨rfl, h⟩
  | [], u :: b, _, _, _, hb, h => by
    obtain ⟨rfl, -⟩ := List.cons.inj h
    exact absurd (hb c List.mem_cons_self) hc
  | u :: a, [], _, _, ha, _, h => by
    obtain ⟨rfl, -⟩ := List.cons.inj h
    exact absurd (ha u List.mem_cons_self) hc'
  | u :: a, v :: b, _, _, ha, hb, h => by
    obtain ⟨rfl, htail⟩ := List.cons.inj h
    obtain ⟨rfl, hrest⟩ := append_class_injective hc hc'
      (fun w hw => ha w (List.mem_cons_of_mem _ hw))
      (fun w hw => hb w (List.mem_cons_of_mem _ hw)) htail
    exact ⟨rfl, hrest⟩

/-- The text of a natural number ends at the first unit that is no digit. -/
theorem cut_int {a b : ℤ} (ha : 0 ≤ a ∧ a ≤ Number.maxSafe) (hb : 0 ≤ b ∧ b ≤ Number.maxSafe) :
    Cut (int a) (int b) := by
  have hdelimiter : ∀ u : UInt16, u = 44 ∨ u = 93 ∨ u = 125 → ¬isDigit u = true := by
    rintro u (rfl | rfl | rfl) <;> decide
  rintro rest rest' ⟨c, x, rfl, hc⟩ ⟨c', y, rfl, hc'⟩ h
  rw [stringify_int ha.1 ha.2, stringify_int hb.1 hb.2] at h
  obtain ⟨hdigits, hrest⟩ := append_class_injective (p := fun u => isDigit u = true)
    (hdelimiter c hc) (hdelimiter c' hc') (fun u hu => Number.isDigit_of_mem_digits hu)
    (fun u hu => Number.isDigit_of_mem_digits hu) h
  have hn := Number.digits_injective hdigits
  obtain rfl : a = b := by omega
  exact ⟨.num (Number.same_refl _), hrest⟩

/-! ## Objects -/

/-- Members of one name with values that are alike. -/
def AlikeMembers (m n : Str × Json) : Prop := m.1 = n.1 ∧ Alike m.2 n.2

/-- The text of the members after the first one. -/
def otherMembers : List (Str × Json) → Str
  | [] => []
  | m :: ms => 44 :: stringifyMembers (m :: ms)

theorem stringifyMembers_cons (m : Str × Json) (ms : List (Str × Json)) :
    stringifyMembers (m :: ms) = quote m.1 ++ 58 :: (stringify m.2 ++ otherMembers ms) := by
  have hcolon : lit ":" = [58] := by decide
  have hcomma : lit "," = [44] := by decide
  obtain ⟨name, j⟩ := m
  cases ms with
  | nil => simp [stringifyMembers, otherMembers, hcolon]
  | cons n ms =>
    simp [stringifyMembers, otherMembers, hcolon, hcomma]

theorem delimited_otherMembers (ms : List (Str × Json)) (rest : Str) :
    Delimited (otherMembers ms ++ 125 :: rest) := by
  cases ms with
  | nil => exact ⟨125, rest, rfl, by simp⟩
  | cons m ms => exact ⟨44, _, rfl, by simp⟩

/-- **The rule for members**: the texts of two objects are told apart member by member. -/
theorem cut_members : ∀ {ms ns : List (Str × Json)},
    (∀ m ∈ ms, ∀ n ∈ ns, m.1 = n.1 → Cut m.2 n.2) → ∀ {rest rest' : Str},
      stringifyMembers ms ++ 125 :: rest = stringifyMembers ns ++ 125 :: rest' →
      List.Forall₂ AlikeMembers ms ns ∧ rest = rest'
  | [], [], _, _, _, h => ⟨.nil, (List.cons.inj h).2⟩
  | [], n :: ns, _, _, _, h => by
    have hquote : lit "\"" = [34] := by decide
    rw [stringifyMembers_cons, quote, hquote] at h
    cases h
  | m :: ms, [], _, _, _, h => by
    have hquote : lit "\"" = [34] := by decide
    rw [stringifyMembers_cons, quote, hquote] at h
    cases h
  | m :: ms, n :: ns, hcut, rest, rest', h => by
    rw [stringifyMembers_cons, stringifyMembers_cons, List.append_assoc, List.append_assoc] at h
    obtain ⟨hname, hvalue⟩ := quote_cut h
    rw [List.cons_append, List.cons_append, List.append_assoc, List.append_assoc] at hvalue
    obtain ⟨hm, hother⟩ := hcut m List.mem_cons_self n List.mem_cons_self hname _ _
      (delimited_otherMembers ms rest) (delimited_otherMembers ns rest') (List.cons.inj hvalue).2
    have htail : stringifyMembers ms ++ 125 :: rest = stringifyMembers ns ++ 125 :: rest' := by
      cases ms with
      | nil =>
        cases ns with
        | nil => exact hother
        | cons => cases hother
      | cons =>
        cases ns with
        | nil => cases hother
        | cons => exact (List.cons.inj hother).2
    obtain ⟨hrest, hend⟩ := cut_members
      (fun m' hm' n' hn' =>
        hcut m' (List.mem_cons_of_mem _ hm') n' (List.mem_cons_of_mem _ hn')) htail
    exact ⟨.cons ⟨hname, hm⟩ hrest, hend⟩

theorem alike_of_members {ms ns : List (Str × Json)} (h : List.Forall₂ AlikeMembers ms ns) :
    Alike (obj ms) (obj ns) := by
  induction h with
  | nil => exact .empty
  | @cons m n ms ns hmn _ ih =>
    obtain ⟨name, j⟩ := m
    obtain ⟨name', k⟩ := n
    obtain ⟨rfl, hjk⟩ : name = name' ∧ Alike j k := hmn
    exact @Alike.member name j k ms [] ns hjk ih

theorem stringify_obj_append (ms : List (Str × Json)) (rest : Str) :
    stringify (obj ms) ++ rest = 123 :: (stringifyMembers ms ++ 125 :: rest) := by
  have hopen : lit "\x7b" = [123] := by decide
  have hclose : lit "\x7d" = [125] := by decide
  rw [stringify, hopen, hclose]
  simp

/-- **The rule for objects.** -/
theorem cut_obj {ms ns : List (Str × Json)} (h : ∀ m ∈ ms, ∀ n ∈ ns, m.1 = n.1 → Cut m.2 n.2) :
    Cut (obj ms) (obj ns) := by
  intro rest rest' _ _ htext
  rw [stringify_obj_append, stringify_obj_append] at htext
  obtain ⟨hmembers, hrest⟩ := cut_members h (List.cons.inj htext).2
  exact ⟨alike_of_members hmembers, hrest⟩

/-- Members with the same names in the same order, and values that are related. -/
theorem members_of_lookup {R : Json → Json → Prop} : ∀ {ms ns : List (Str × Json)},
    ms.map Prod.fst = ns.map Prod.fst → (ms.map Prod.fst).Nodup →
    (∀ name, Option.Rel R (ms.lookup name) (ns.lookup name)) →
    List.Forall₂ (fun m n => m.1 = n.1 ∧ R m.2 n.2) ms ns
  | [], [], _, _, _ => .nil
  | [], n :: ns, hnames, _, _ => by cases hnames
  | m :: ms, [], hnames, _, _ => by cases hnames
  | (name, j) :: ms, (name', k) :: ns, hnames, hnodup, h => by
    obtain ⟨rfl, htail⟩ : name = name' ∧ ms.map Prod.fst = ns.map Prod.fst := List.cons.inj hnames
    rw [List.map_cons, List.nodup_cons] at hnodup
    have hfirst := h name
    rw [List.lookup_cons, List.lookup_cons, beq_self_eq_true] at hfirst
    refine .cons ⟨rfl, ?_⟩ (members_of_lookup htail hnodup.2 fun x => ?_)
    · cases hfirst with
      | some hjk => exact hjk
    · have hx := h x
      rw [List.lookup_cons, List.lookup_cons] at hx
      by_cases hne : x = name
      · rw [hne, lookup_eq_none hnodup.1, lookup_eq_none (htail ▸ hnodup.1)]
        exact .none
      · rwa [beq_false_of_ne hne] at hx

/-- The text of the members depends on their names and the texts of their values. -/
theorem stringifyMembers_congr {ms ns : List (Str × Json)}
    (h : List.Forall₂ (fun m n => m.1 = n.1 ∧ stringify m.2 = stringify n.2) ms ns) :
    stringifyMembers ms = stringifyMembers ns := by
  induction h with
  | nil => rfl
  | @cons m n ms ns hmn hrest ih =>
    rw [stringifyMembers_cons, stringifyMembers_cons, hmn.1, hmn.2]
    cases hrest with
    | nil => rfl
    | cons => rw [otherMembers, otherMembers, ih]

theorem lookup_of_members {R : Json → Json → Prop} {ms ns : List (Str × Json)}
    (h : List.Forall₂ (fun m n => m.1 = n.1 ∧ R m.2 n.2) ms ns) (name : Str) :
    Option.Rel R (ms.lookup name) (ns.lookup name) := by
  induction h with
  | nil => exact .none
  | @cons m n ms ns hmn _ ih =>
    rw [List.lookup_cons, List.lookup_cons, hmn.1]
    cases name == n.1
    · exact ih
    · exact .some hmn.2

/-- The text of a value determines it, where it can be told apart. -/
theorem Cut.alike {j k : Json} (h : Cut j k) (htext : stringify j = stringify k) : Alike j k :=
  (h [125] [125] ⟨125, [], rfl, by simp⟩ ⟨125, [], rfl, by simp⟩ (by rw [htext])).1

end Json

end Js
