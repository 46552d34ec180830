import GrantTapRelay.Library.JsonText

/-!
# Equality of parsed values

`JSON.parse` returns objects whose members have an order, and numbers that are written in several
ways. `Alike` relates two values that are equal but for that order. Every operation of a program
that reads a value through its members gives the same result on values that are alike: the
`Alike.…` lemmas say so of coercions, truthiness, integers and member access.

* `Number.text_of_same`: equal numbers have one text.
* `Json.Alike`: equality up to the order of members, at every depth.
* `Json.alike_of_get`: objects are alike when their members are, name by name.
-/

namespace Js

/-! ## Equal numbers -/

namespace Number

theorem same_refl (x : Number) : x.same x = true := by
  cases x with
  | infinite n => cases n <;> rfl
  | finite m e => exact (same_finite_iff le_rfl le_rfl).2 rfl

/-- Zeros at the end of a number are zeros at the end of its text. -/
theorem digits_mul_pow {m : ℕ} (hm : 0 < m) (k : ℕ) :
    digits (m * 10 ^ k) = digits m ++ List.replicate k '0'.toNat.toUInt16 := by
  induction k with
  | zero => simp
  | succ k ih =>
    have hstep := Nat.toDigits_append_toDigits (b := 10) (n := m * 10 ^ k) (d := 0) (by decide)
      (by positivity) (by decide)
    have hzero : (Nat.toDigits 10 0).flatMap utf16 = ['0'.toNat.toUInt16] := by decide
    have hpow : m * 10 ^ (k + 1) = 10 * (m * 10 ^ k) + 0 := by
      rw [pow_succ, ← mul_assoc, mul_comm, add_zero]
    rw [hpow, digits, ← hstep, List.flatMap_append, hzero, ← digits, ih, List.replicate_succ',
      List.append_assoc]

theorem positiveText_shift {m : ℕ} (hm : 0 < m) (k : ℕ) (e : ℤ) :
    positiveText (m * 10 ^ k) e = positiveText m (e + k) := by
  have hdrop : ∀ l : Str, (List.replicate k '0'.toNat.toUInt16 ++ l).dropWhile
      (· == '0'.toNat.toUInt16) = l.dropWhile (· == '0'.toNat.toUInt16) := by
    intro l
    rw [List.dropWhile_append_of_pos fun u hu => by simp [List.eq_of_mem_replicate hu]]
  have hpoint : ((digits m).length + k : ℤ) + e = (digits m).length + (e + k) := by
    rw [add_assoc, add_comm (k : ℤ)]
  unfold positiveText
  simp only [digits_mul_pow hm k, List.reverse_append, List.reverse_replicate, hdrop,
    List.length_append, List.length_replicate, Nat.cast_add, hpoint]

/-- The text does not depend on how the number is written. -/
theorem text_shift (m e : ℤ) (k : ℕ) :
    text (.finite (m * 10 ^ k) e) = text (.finite m (e + k)) := by
  have hpow : (0 : ℤ) < 10 ^ k := by positivity
  by_cases hm : m = 0
  · subst hm
    simp [text]
  · have hne : m * 10 ^ k ≠ 0 := mul_ne_zero hm hpow.ne'
    have hsign : m * 10 ^ k < 0 ↔ m < 0 := by
      constructor
      · intro h
        by_contra hpos
        exact absurd h (not_lt.2 (mul_nonneg (not_lt.1 hpos) hpow.le))
      · exact fun h => mul_neg_of_neg_of_pos h hpow
    have habs : (m * 10 ^ k).natAbs = m.natAbs * 10 ^ k := by
      rw [Int.natAbs_mul, Int.natAbs_pow]
      rfl
    rw [text, text, if_neg hm, if_neg hne, habs,
      positiveText_shift (Int.natAbs_pos.2 hm) k e]
    simp only [hsign]

/-- **Equal numbers have one text.** -/
theorem text_of_same {x y : Number} (h : x.same y = true) : x.text = y.text := by
  cases x with
  | infinite n =>
    cases y with
    | infinite n' => rw [eq_of_beq h]
    | finite m e => cases h
  | finite m e =>
    cases y with
    | infinite n => cases h
    | finite m' e' =>
      rw [same_finite_iff (min_le_left e e') (min_le_right e e')] at h
      have hshift : ∀ {m a : ℤ}, min e e' ≤ a → text (.finite m a) =
          text (.finite (m * 10 ^ (a - min e e').toNat) (min e e')) := by
        intro m a ha
        rw [text_shift]
        congr 2
        omega
      rw [hshift (min_le_left e e'), hshift (min_le_right e e'), h]

/-- A number is an integer when it is equal to it. -/
theorem toInt?_eq_some_iff {x : Number} {n : ℤ} :
    x.toInt? = some n ↔ x.same (.finite n 0) = true := by
  cases x with
  | infinite b => simp [toInt?, same]
  | finite m e =>
    by_cases he : 0 ≤ e
    · rw [toInt?, if_pos he, same_finite_iff he le_rfl, Option.some_inj, sub_zero, sub_self,
        Int.toNat_zero, pow_zero, mul_one]
    · have hpow : (0 : ℤ) < 10 ^ (-e).toNat := by positivity
      rw [toInt?, if_neg he, same_finite_iff le_rfl (by omega), sub_self, zero_sub, Int.toNat_zero,
        pow_zero, mul_one]
      constructor
      · intro h
        split_ifs at h with hm
        cases h
        exact (Int.ediv_mul_cancel (Int.dvd_of_emod_eq_zero hm)).symm
      · intro h
        rw [h, if_pos (Int.mul_emod_left _ _), Int.mul_ediv_cancel _ hpow.ne']

theorem toInt?_of_same {x y : Number} (h : x.same y = true) : x.toInt? = y.toInt? := by
  have hiff : ∀ n, x.toInt? = some n ↔ y.toInt? = some n := fun n => by
    rw [toInt?_eq_some_iff, toInt?_eq_some_iff]
    exact ⟨same_trans (same_comm x y ▸ h), same_trans h⟩
  cases hx : x.toInt? with
  | some n => exact ((hiff n).1 hx).symm
  | none =>
    cases hy : y.toInt? with
    | none => rfl
    | some n => exact absurd ((hiff n).2 hy) (by rw [hx]; exact fun h => by cases h)

theorem safe?_of_same {x y : Number} (h : x.same y = true) : x.safe? = y.safe? := by
  rw [safe?, safe?, toInt?_of_same h]

end Number

/-! ## Equality up to the order of members -/

namespace Json

/-- The two values are equal but for the order of the members of their objects. -/
inductive Alike : Json → Json → Prop
  | null : Alike null null
  | bool (b : Bool) : Alike (bool b) (bool b)
  | num {x y : Number} : x.same y = true → Alike (num x) (num y)
  | str (s : Str) : Alike (str s) (str s)
  | nil : Alike (arr []) (arr [])
  | item {j k : Json} {js ks : List Json} : Alike j k → Alike (arr js) (arr ks) →
    Alike (arr (j :: js)) (arr (k :: ks))
  | empty : Alike (obj []) (obj [])
  | member {name : Str} {j k : Json} {ms ns ns' : List (Str × Json)} : Alike j k →
    Alike (obj ms) (obj (ns ++ ns')) → Alike (obj ((name, j) :: ms)) (obj (ns ++ (name, k) :: ns'))

/-- No object in the value has two members of one name, as in every result of `JSON.parse`. -/
inductive Parsed : Json → Prop
  | null : Parsed null
  | bool (b : Bool) : Parsed (bool b)
  | num (x : Number) : Parsed (num x)
  | str (s : Str) : Parsed (str s)
  | arr {items : List Json} : (∀ j ∈ items, Parsed j) → Parsed (arr items)
  | obj {members : List (Str × Json)} : (members.map Prod.fst).Nodup →
    (∀ m ∈ members, Parsed m.2) → Parsed (obj members)

mutual
theorem Alike.refl : ∀ j : Json, Alike j j
  | .null => .null
  | .bool b => .bool b
  | .num x => .num x.same_refl
  | .str s => .str s
  | .arr items => Alike.refl_items items
  | .obj members => Alike.refl_members members
theorem Alike.refl_items : ∀ items : List Json, Alike (arr items) (arr items)
  | [] => .nil
  | j :: items => .item (Alike.refl j) (Alike.refl_items items)
theorem Alike.refl_members : ∀ members : List (Str × Json), Alike (obj members) (obj members)
  | [] => .empty
  | m :: members => @Alike.member m.1 m.2 m.2 members [] members (Alike.refl m.2)
      (Alike.refl_members members)
end

/-- What is alike to an array is an array of as many items. -/
theorem Alike.length {j k : Json} (h : Alike j k) {items : List Json} (hj : j = arr items) :
    ∃ items', k = arr items' ∧ items'.length = items.length := by
  induction h generalizing items with
  | nil =>
    cases hj
    exact ⟨[], rfl, rfl⟩
  | item _ _ _ ih =>
    cases hj
    obtain ⟨_, hks, hlength⟩ := ih rfl
    cases hks
    exact ⟨_, rfl, by rw [List.length_cons, List.length_cons, hlength]⟩
  | _ => cases hj

/-- What is alike to an object is an object with the same names. -/
theorem Alike.names {j k : Json} (h : Alike j k) {members : List (Str × Json)}
    (hj : j = obj members) :
    ∃ members', k = obj members' ∧ (members.map Prod.fst).Perm (members'.map Prod.fst) := by
  induction h generalizing members with
  | empty =>
    cases hj
    exact ⟨[], rfl, .refl _⟩
  | member _ _ _ ih =>
    cases hj
    obtain ⟨_, hns, hperm⟩ := ih rfl
    cases hns
    refine ⟨_, rfl, ?_⟩
    simp only [List.map_append, List.map_cons] at hperm ⊢
    exact (hperm.cons _).trans List.perm_middle.symm
  | _ => cases hj

theorem Alike.names_perm {ms ns : List (Str × Json)} (h : Alike (obj ms) (obj ns)) :
    (ms.map Prod.fst).Perm (ns.map Prod.fst) := by
  obtain ⟨_, hns, hperm⟩ := h.names rfl
  cases hns
  exact hperm

theorem Alike.isObject {j k : Json} (h : Alike j k) : j.isObject = k.isObject := by
  cases h <;> rfl

theorem Alike.keys_all {j k : Json} (h : Alike j k) (p : Str → Bool) :
    j.keys.all p = k.keys.all p := by
  cases j with
  | obj members =>
    obtain ⟨members', rfl, hperm⟩ := h.names rfl
    exact hperm.all_eq
  | arr items =>
    obtain ⟨items', rfl, hlength⟩ := h.length rfl
    rw [keys, keys, hlength]
  | null | bool | num | str =>
    cases h
    rfl

theorem Alike.str? {j k : Json} (h : Alike j k) : j.str? = k.str? := by
  cases h <;> rfl

theorem Alike.int? {j k : Json} (h : Alike j k) : j.int? = k.int? := by
  cases h with
  | num hsame => exact Number.safe?_of_same hsame
  | _ => rfl

theorem int?_eq_some {j : Json} {n : ℤ} (h : j.int? = some n) :
    ∃ x, j = num x ∧ x.toInt? = some n := by
  cases j with
  | num x =>
    refine ⟨x, rfl, ?_⟩
    change x.safe? = some n at h
    unfold Number.safe? at h
    split at h
    · rename_i m hm
      split_ifs at h
      cases h
      exact hm
    · cases h
  | null | bool | str | arr | obj => cases h

theorem Alike.truthy {j k : Json} (h : Alike j k) : j.truthy = k.truthy := by
  cases h with
  | num hsame =>
    rename_i x y
    have hzero : x.same (.finite 0 0) = y.same (.finite 0 0) := by
      rw [Bool.eq_iff_iff]
      exact ⟨Number.same_trans (x.same_comm y ▸ hsame), Number.same_trans hsame⟩
    rw [Json.truthy, Json.truthy, hzero]
  | _ => rfl

theorem isSome_lookup {name : Str} {members : List (Str × Json)} :
    (members.lookup name).isSome = true ↔ name ∈ members.map Prod.fst := by
  induction members with
  | nil => simp
  | cons m members ih =>
    rw [List.lookup_cons, List.map_cons, List.mem_cons]
    by_cases hname : name = m.1
    · simp [hname]
    · rw [beq_false_of_ne hname, or_iff_right hname]
      exact ih

theorem joinText_cons_cons (j k : Json) (rest : List Json) :
    joinText (j :: k :: rest) = (itemText j).bind fun s =>
      (joinText (k :: rest)).bind fun t => .ok (s ++ lit "," ++ t) := by
  rw [joinText.eq_3 j (k :: rest) fun h => by cases h]
  cases itemText j with
  | error t => rfl
  | ok s => cases joinText (k :: rest) <;> rfl

/-- **Values that are alike are coerced to one text**, or neither is. -/
theorem Alike.texts {j k : Json} (h : Alike j k) :
    j.toText = k.toText ∧ itemText j = itemText k := by
  induction h with
  | null | bool | str | nil | empty => exact ⟨rfl, rfl⟩
  | num hsame => exact ⟨by rw [toText, toText, Number.text_of_same hsame],
      by rw [itemText, itemText, Number.text_of_same hsame]⟩
  | item _ hrest ihj ihrest =>
    have hjoin : ∀ {j k : Json} {js ks : List Json}, itemText j = itemText k →
        js.length = ks.length → joinText js = joinText ks →
        joinText (j :: js) = joinText (k :: ks) := by
      intro j k js ks hitem hlength htail
      cases js with
      | nil =>
        cases ks with
        | nil => exact hitem
        | cons => cases hlength
      | cons j' js =>
        cases ks with
        | nil => cases hlength
        | cons k' ks => rw [joinText_cons_cons, joinText_cons_cons, hitem, htail]
    obtain ⟨_, hks, hlength⟩ := hrest.length rfl
    cases hks
    have htail := ihrest.1
    rw [toText, toText] at htail
    rw [toText, toText, itemText, itemText]
    exact ⟨hjoin ihj.2 hlength.symm htail, hjoin ihj.2 hlength.symm htail⟩
  | @member name _ _ _ _ _ hj hrest =>
    have hperm := (@Alike.member name _ _ _ _ _ hj hrest).names_perm
    have hsome := Bool.eq_iff_iff.2 ((@isSome_lookup (lit "toString") _).trans
      (hperm.mem_iff.trans isSome_lookup.symm))
    rw [toText, toText, itemText, itemText, hsome]
    exact ⟨rfl, rfl⟩

/-- The coercion to a string throws: the value is an object with a member `toString`, which cannot
be called, or an array that holds such a value. -/
inductive Textless : Json → Prop
  | obj {members : List (Str × Json)} : (members.lookup (lit "toString")).isSome = true →
    Textless (obj members)
  | arr {items : List Json} {j : Json} : j ∈ items → Textless j → Textless (arr items)

theorem Textless.of_arr {items : List Json} (h : Textless (Json.arr items)) :
    ∃ j ∈ items, Textless j := by
  cases h with
  | arr hj h => exact ⟨_, hj, h⟩

mutual
theorem itemText_error : ∀ j : Json, (∃ t, itemText j = .error t) ↔ Textless j
  | .null | .bool _ | .num _ | .str _ => iff_of_false (fun ⟨_, h⟩ => by cases h) fun h => by cases h
  | .arr items => by
    rw [itemText, joinText_error items]
    exact ⟨fun ⟨_, hj, h⟩ => .arr hj h, Textless.of_arr⟩
  | .obj members => by
    rw [itemText]
    split_ifs with hmember
    · exact iff_of_true ⟨_, rfl⟩ (.obj hmember)
    · refine iff_of_false (fun ⟨_, h⟩ => by cases h) fun h => ?_
      cases h with
      | obj h => exact hmember h
theorem joinText_error : ∀ items : List Json,
    (∃ t, joinText items = .error t) ↔ ∃ j ∈ items, Textless j
  | [] => iff_of_false (fun ⟨_, h⟩ => by cases h) fun ⟨_, h, _⟩ => by cases h
  | [j] => by
    rw [joinText, itemText_error j]
    exact ⟨fun h => ⟨j, List.mem_singleton_self j, h⟩,
      fun ⟨k, hk, h⟩ => List.mem_singleton.1 hk ▸ h⟩
  | j :: k :: rest => by
    rw [joinText_cons_cons, List.exists_mem_cons_iff, ← itemText_error j,
      ← joinText_error (k :: rest)]
    cases itemText j with
    | error t => exact iff_of_true ⟨t, rfl⟩ (.inl ⟨t, rfl⟩)
    | ok s =>
      rw [or_iff_right fun ⟨_, h⟩ => by cases h]
      cases joinText (k :: rest) with
      | error t => exact iff_of_true ⟨t, rfl⟩ ⟨t, rfl⟩
      | ok t => exact iff_of_false (fun ⟨_, h⟩ => by cases h) fun ⟨_, h⟩ => by cases h
end

/-- **What has no text.** -/
theorem toText_error (j : Json) : (∃ t, toText j = .error t) ↔ Textless j := by
  rw [← itemText_error]
  cases j with
  | null => exact iff_of_false (fun ⟨_, h⟩ => by cases h) fun ⟨_, h⟩ => by cases h
  | bool | num | str | arr | obj => rw [toText, itemText]

/-! ### Members -/

theorem lookup_eq_none {name : Str} {members : List (Str × Json)}
    (h : name ∉ members.map Prod.fst) : members.lookup name = none := by
  cases hm : members.lookup name with
  | none => rfl
  | some j => exact absurd (isSome_lookup.1 (by rw [hm]; rfl)) h

theorem lookup_of_mem {m : Str × Json} : ∀ {members : List (Str × Json)},
    (members.map Prod.fst).Nodup → m ∈ members → members.lookup m.1 = some m.2
  | [], _, h => absurd h List.not_mem_nil
  | n :: members, hnodup, h => by
    rw [List.map_cons, List.nodup_cons] at hnodup
    rw [List.lookup_cons]
    rcases List.mem_cons.1 h with rfl | h
    · rw [beq_self_eq_true]
    · have hne : m.1 ≠ n.1 := fun e => hnodup.1 (e ▸ List.mem_map_of_mem h)
      rw [beq_false_of_ne hne]
      exact lookup_of_mem hnodup.2 h

/-- A member that is moved is still found, and hides no other one. -/
theorem lookup_middle {name x : Str} {j : Json} {ns ns' : List (Str × Json)}
    (h : name ∉ ns.map Prod.fst) : (ns ++ (name, j) :: ns').lookup x =
      if x = name then some j else (ns ++ ns').lookup x := by
  rw [List.lookup_append, List.lookup_append, List.lookup_cons]
  by_cases hx : x = name
  · subst hx
    rw [lookup_eq_none h, if_pos rfl, beq_self_eq_true]
    rfl
  · rw [beq_false_of_ne hx, if_neg hx]

theorem Parsed.get {j k : Json} (h : j.Parsed) {name : Str} (hget : j.get name = some k) :
    k.Parsed := by
  cases h with
  | obj hnodup hparsed =>
    obtain ⟨l₁, l₂, rfl, -⟩ := List.lookup_eq_some_iff.1 hget
    exact hparsed (name, k) (by simp)
  | _ => cases hget

/-- **Values that are alike have members that are alike.** -/
theorem Alike.get {j k : Json} (h : Alike j k) (hj : j.Parsed) (name : Str) :
    Option.Rel Alike (j.get name) (k.get name) := by
  induction h with
  | empty => exact .none
  | @member x j k ms ns ns' hjk hrest _ ih =>
    obtain ⟨hnodup, hparsed⟩ : (((x, j) :: ms).map Prod.fst).Nodup ∧
        ∀ m ∈ (x, j) :: ms, m.2.Parsed := by
      cases hj with
      | obj hnodup hparsed => exact ⟨hnodup, hparsed⟩
    rw [List.map_cons, List.nodup_cons] at hnodup
    have htail := ih (.obj hnodup.2 fun m hm => hparsed m (List.mem_cons_of_mem _ hm))
    have hfree : x ∉ ns.map Prod.fst := fun hx => hnodup.1 (hrest.names_perm.mem_iff.2 (by
      rw [List.map_append]
      exact List.mem_append_left _ hx))
    change Option.Rel Alike (((x, j) :: ms).lookup name) ((ns ++ (x, k) :: ns').lookup name)
    rw [lookup_middle hfree, List.lookup_cons]
    by_cases hname : name = x
    · rw [hname, if_pos rfl, beq_self_eq_true]
      exact .some hjk
    · rw [beq_false_of_ne hname, if_neg hname]
      exact htail
  | _ => exact .none

/-- **Objects whose members are alike, name by name, are alike.** -/
theorem alike_of_get : ∀ {ms ns : List (Str × Json)}, (ms.map Prod.fst).Nodup →
    (ns.map Prod.fst).Nodup → (∀ name, Option.Rel Alike (ms.lookup name) (ns.lookup name)) →
    Alike (obj ms) (obj ns)
  | [], ns, _, _, h => by
    cases ns with
    | nil => exact .empty
    | cons n ns =>
      have hn := h n.1
      rw [List.lookup_nil, List.lookup_cons, beq_self_eq_true] at hn
      cases hn
  | (name, j) :: ms, ns, hms, hns, h => by
    have hname := h name
    rw [List.lookup_cons, beq_self_eq_true] at hname
    obtain ⟨k, hk, hjk⟩ : ∃ k, ns.lookup name = some k ∧ Alike j k := by
      cases hlookup : ns.lookup name with
      | none =>
        rw [hlookup] at hname
        cases hname
      | some k =>
        rw [hlookup] at hname
        cases hname with
        | some hjk => exact ⟨k, rfl, hjk⟩
    obtain ⟨ns₁, ns₂, rfl, -⟩ := List.lookup_eq_some_iff.1 hk
    rw [List.map_cons, List.nodup_cons] at hms
    rw [List.map_append, List.map_cons, List.nodup_middle, List.nodup_cons,
      ← List.map_append] at hns
    have hfree : name ∉ ns₁.map Prod.fst := fun hx => hns.1 (by
      rw [List.map_append]
      exact List.mem_append_left _ hx)
    refine .member hjk (alike_of_get hms.2 hns.2 fun x => ?_)
    have hx := h x
    rw [lookup_middle hfree, List.lookup_cons] at hx
    by_cases hne : x = name
    · rw [hne, lookup_eq_none hms.1, lookup_eq_none hns.1]
      exact .none
    · rwa [beq_false_of_ne hne, if_neg hne] at hx

end Json

/-! ### Possibly undefined values -/

namespace Value

open Json (Alike)

theorem rel_mono {R S : Json → Json → Prop} {v w : Value} (h : Option.Rel R v w)
    (hRS : ∀ j k, v = some j → R j k → S j k) : Option.Rel S v w := by
  cases h with
  | none => exact .none
  | some h => exact .some (hRS _ _ rfl h)

theorem rel_none {R : Json → Json → Prop} {w : Value} (h : Option.Rel R none w) : w = none := by
  cases h
  rfl

theorem rel_some {R : Json → Json → Prop} {j : Json} {w : Value} (h : Option.Rel R (some j) w) :
    ∃ k, w = some k ∧ R j k := by
  cases h with
  | some h => exact ⟨_, rfl, h⟩

variable {v v' w w' : Value}

theorem alike_isSome (h : Option.Rel Alike v v') : v.isSome = v'.isSome := by
  cases h <;> rfl

theorem alike_isNone (h : Option.Rel Alike v v') : v.isNone = v'.isNone := by
  cases h <;> rfl

theorem alike_nullish (h : Option.Rel Alike v v') : v.nullish = v'.nullish := by
  cases h with
  | none => rfl
  | some h => cases h <;> rfl

theorem alike_str? (h : Option.Rel Alike v v') : v.str? = v'.str? := by
  cases h with
  | none => rfl
  | some h => exact h.str?

theorem alike_int? (h : Option.Rel Alike v v') : v.int? = v'.int? := by
  cases h with
  | none => rfl
  | some h => exact h.int?

theorem alike_truthy (h : Option.Rel Alike v v') : v.truthy = v'.truthy := by
  cases h with
  | none => rfl
  | some h => exact h.truthy

theorem alike_is (h : Option.Rel Alike v v') (s : Str) : v.is s = v'.is s := by
  rw [is, is, alike_str? h]

theorem alike_test (h : Option.Rel Alike v v') (p : Str → Bool) : test p v = test p v' := by
  cases h with
  | none => rfl
  | some h => rw [test, test, h.texts.1]

theorem alike_orEmpty (h : Option.Rel Alike v v') : Option.Rel Alike v.orEmpty v'.orEmpty := by
  rw [orEmpty, orEmpty, ← alike_nullish h]
  split_ifs
  · exact .some (.str [])
  · exact h

/-- Numbers that are one integer are alike. -/
theorem alike_of_int? {n : ℤ} (h : v.int? = some n) (h' : v'.int? = some n) :
    Option.Rel Alike v v' := by
  obtain ⟨j, rfl, hj⟩ := Option.bind_eq_some_iff.1 h
  obtain ⟨k, rfl, hk⟩ := Option.bind_eq_some_iff.1 h'
  obtain ⟨x, rfl, hx⟩ := Json.int?_eq_some hj
  obtain ⟨y, rfl, hy⟩ := Json.int?_eq_some hk
  rw [Number.toInt?_eq_some_iff] at hx hy
  exact .some (.num (Number.same_trans hx (Number.same_comm y _ ▸ hy)))

theorem alike_same (h : Option.Rel Alike v v') (hw : Option.Rel Alike w w') :
    v.same w = v'.same w' := by
  cases h with
  | none =>
    cases hw with
    | none => rfl
    | some hw => cases hw <;> rfl
  | some h =>
    cases hw with
    | none => cases h <;> rfl
    | some hw =>
      cases h with
      | num hx =>
        cases hw with
        | num hy =>
          rename_i x x' y y'
          change x.same y = x'.same y'
          rw [Bool.eq_iff_iff]
          constructor
          · exact fun hxy => Number.same_trans (x.same_comm x' ▸ hx) (Number.same_trans hxy hy)
          · exact fun hxy => Number.same_trans hx (Number.same_trans hxy (y.same_comm y' ▸ hy))
        | _ => rfl
      | _ => cases hw <;> rfl

end Value

end Js
