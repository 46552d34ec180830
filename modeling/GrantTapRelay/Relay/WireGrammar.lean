import GrantTapRelay.Library.JsonText
import GrantTapRelay.Relay.Validation

/-!
# The wire grammar

`WireGrammar` says which envelopes may be on the wire, member by member. `envelopeProblem` tests
three members with regular expressions that coerce them to strings, so it accepts the grammar
(`accepts_iff`), except that these members may be arrays around a digest.

* `WireGrammar`: the grammar, over the reading of a digest.
* `accepts_iff`: what `envelopeProblem` accepts, with the reading of `test`.
* `wire_grammar_iff`: **when it decides the grammar**, namely on every envelope without such an
  array, and on those that are no envelopes without their arrays either.
-/

namespace GrantTap

open Js

/-! ## The grammar -/

/-- A string of 64 hexadecimal digits. -/
def DigestText (value : Value) : Prop := ∃ s, value = some (.str s) ∧ isDigest s = true

/-- What `test` takes for one. -/
def DigestLike (value : Value) : Prop := testDigest value = .ok true

/-- A string of a bounded length. -/
def IdentifierText (value : Value) : Prop :=
  ∃ s, value = some (.str s) ∧ 1 ≤ s.length ∧ s.length ≤ 180

/-- The four members of a retained-state header are absent or `null`. -/
def Stateless (e : Json) : Prop :=
  (e.get (lit "stateKey")).nullish = true ∧ (e.get (lit "stateRevision")).nullish = true ∧
    (e.get (lit "statePriority")).nullish = true ∧ (e.get (lit "stateGroup")).nullish = true

/-- A complete header of a retained state, from a machine to a phone. -/
structure StateHeader (digest : Value → Prop) (e : Json) (now : ℤ) : Prop where
  source : e.get (lit "from") = some (.str (lit "machine"))
  target : e.get (lit "to") = some (.str (lit "phone"))
  recipient : digest (e.get (lit "recipientKeyId"))
  key : digest (e.get (lit "stateKey"))
  group : (e.get (lit "stateGroup")).nullish = true ∨ digest (e.get (lit "stateGroup"))
  revision : ∃ n, (e.get (lit "stateRevision")).int? = some n ∧ 0 ≤ n ∧ n ≤ now + 300000
  priority : ∃ n, (e.get (lit "statePriority")).int? = some n ∧ 0 ≤ n ∧ n ≤ 3
  expiresAt : ∃ n, (e.get (lit "expiresAt")).int? = some n ∧ n ≤ now + STATE_TTL_MS

/-- How long an envelope of this kind may live. -/
def lifetime (e : Json) : ℤ :=
  if (e.get (lit "stateKey")).truthy then STATE_TTL_MS
  else if (e.get (lit "from")).is (lit "phone") && (e.get (lit "to")).is (lit "machine") &&
    extendedDelivery (e.get (lit "deliveryId")) then MAX_SUBMISSION_TTL_MS
  else MAX_ENVELOPE_TTL_MS

/-- The envelopes of the wire, for a reading of digests and a limit of their lives. -/
structure WireGrammar (digest : Value → Prop) (limit : ℤ) (e : Json) (room : Value) (now : ℤ) :
    Prop where
  object : e.isObject = true
  fields : ∀ key ∈ e.keys, key ∈ ENVELOPE_FIELDS
  version : (e.get (lit "v")).same (some (.int 1)) = true
  room : (e.get (lit "room")).same room = true
  source : e.get (lit "from") = some (.str (lit "machine")) ∨
    e.get (lit "from") = some (.str (lit "phone"))
  target : e.get (lit "to") = some (.str (lit "machine")) ∨
    e.get (lit "to") = some (.str (lit "phone")) ∨ e.get (lit "to") = some (.str (lit "all"))
  senderId : IdentifierText (e.get (lit "senderId"))
  deliveryId : (e.get (lit "deliveryId")).nullish = true ∨
    IdentifierText (e.get (lit "deliveryId"))
  wake : (e.get (lit "wake")).nullish = true ∨ ∃ b, e.get (lit "wake") = some (.bool b)
  recipientKeyId : (e.get (lit "recipientKeyId")).nullish = true ∨
    digest (e.get (lit "recipientKeyId"))
  state : Stateless e ∨ StateHeader digest e now
  expiresAt : (e.get (lit "expiresAt")).nullish = true ∨
    ∃ n, (e.get (lit "expiresAt")).int? = some n ∧ n ≤ now + limit
  nonce : ∃ s, e.get (lit "nonce") = some (.str s) ∧ s.length = 32 ∧ s.all isBase64 = true
  box : ∃ s, e.get (lit "box") = some (.str s) ∧ 24 ≤ s.length ∧ isPaddedBase64 s = true

/-- The expiry of the envelope has passed. -/
def Expired (e : Json) (now : ℤ) : Prop := ∃ n, (e.get (lit "expiresAt")).int? = some n ∧ n ≤ now

/-! ## What is accepted -/

/-- `envelopeProblem` finds nothing wrong with an envelope, except that it may have expired. -/
def Accepts (e : Json) (room : Value) (now : ℤ) : Prop :=
  envelopeProblem (some e) room now none = .ok none ∨
    envelopeProblem (some e) room now none = .ok (some .expired)

theorem identifier_iff (v : Value) : validIdentifier v 180 = true ↔ IdentifierText v := by
  unfold validIdentifier IdentifierText
  rw [Option.any_eq_true]
  simp only [Value.str?_eq_some, Bool.and_eq_true, decide_eq_true_eq]

theorem int?_any_iff {v : Value} {p : ℤ → Bool} :
    v.int?.any p = true ↔ ∃ n, v.int? = some n ∧ p n = true := Option.any_eq_true ..

theorem str?_any_iff {v : Value} {p : Str → Bool} :
    v.str?.any p = true ↔ ∃ s, v = some (.str s) ∧ p s = true := by
  rw [Option.any_eq_true]
  simp only [Value.str?_eq_some]

theorem testDigest_empty : testDigest (some (.str [])) = .ok false := rfl

/-- `test(v ?? '')` accepts what `test(v)` does. -/
theorem testDigest_orEmpty (v : Value) : testDigest v.orEmpty = .ok true ↔ DigestLike v := by
  unfold DigestLike
  rcases v with _ | (_ | _ | _ | _ | _ | _)
  · exact iff_of_false (by simp [Value.orEmpty, Value.nullish, testDigest_empty]) (by decide)
  · exact iff_of_false (by simp [Value.orEmpty, Value.nullish, testDigest_empty]) (by decide)
  all_goals rfl

theorem not_digestLike_of_nullish {v : Value} (h : v.nullish = true) : ¬DigestLike v := by
  rcases v with _ | (_ | _ | _ | _ | _ | _)
  · unfold DigestLike
    decide
  · unfold DigestLike
    decide
  all_goals cases h

/-- An optional digest, as it is tested. -/
theorem optional_digest {v : Value} :
    (∃ a, testDigest v.orEmpty = .ok a ∧ (v.nullish || a) = true) ↔
      v.nullish = true ∨ DigestLike v := by
  rw [← testDigest_orEmpty]
  constructor
  · rintro ⟨a, ha, h⟩
    rcases Bool.or_eq_true_iff.1 h with h | rfl
    · exact .inl h
    · exact .inr ha
  · rintro (h | h)
    · have hempty : testDigest v.orEmpty = .ok false := by
        rw [Value.orEmpty, if_pos h]
        exact testDigest_empty
      exact ⟨false, hempty, by rw [h]; rfl⟩
    · exact ⟨true, h, Bool.or_true _⟩

theorem optional_group {v : Value} :
    (∃ a, testDigest v = .ok a ∧ (v.nullish || a) = true) ↔ v.nullish = true ∨ DigestLike v := by
  constructor
  · rintro ⟨a, ha, h⟩
    rcases Bool.or_eq_true_iff.1 h with h | rfl
    · exact .inl h
    · exact .inr ha
  · rintro (h | h)
    · rcases v with _ | (_ | _ | _ | _ | _ | _)
      · exact ⟨false, by decide, rfl⟩
      · exact ⟨false, by decide, rfl⟩
      all_goals cases h
    · exact ⟨true, h, Bool.or_true _⟩

/-- What `validRetainedState` accepts. -/
theorem validRetainedState_iff (e : Json) (now : ℤ) :
    validRetainedState e now = .ok true ↔ Stateless e ∨ StateHeader DigestLike e now := by
  unfold validRetainedState
  dsimp only
  split_ifs with hnone
  · simp only [Bool.and_eq_true] at hnone
    exact iff_of_true rfl (.inl ⟨hnone.1.1.1, hnone.1.1.2, hnone.1.2, hnone.2⟩)
  · have hstate : ¬Stateless e := by
      rintro ⟨hkey, hrevision, hpriority, hgroup⟩
      exact hnone (by rw [hkey, hrevision, hpriority, hgroup]; rfl)
    rw [or_iff_right hstate]
    have hv : false ≠ true := Bool.false_ne_true
    simp only [Early.require_run_iff hv, Early.attempt_run_iff, Bool.and_eq_true, Value.is_iff]
    constructor
    · rintro ⟨⟨hfrom, hto⟩, recipient, hrecipient, rfl, key, hkey, rfl, group, hgroup, hg, h⟩
      simp only [Early.run_pure, Except.ok.injEq, Bool.and_eq_true, int?_any_iff,
        decide_eq_true_eq] at h
      obtain ⟨⟨hrevision, hpriority⟩, hexpires⟩ := h
      exact
        { source := hfrom, target := hto, recipient := (testDigest_orEmpty _).1 hrecipient,
          key := (testDigest_orEmpty _).1 hkey, group := optional_group.1 ⟨group, hgroup, hg⟩,
          revision := hrevision, priority := hpriority, expiresAt := hexpires }
    · intro h
      obtain ⟨group, hgroup, hg⟩ := optional_group.2 h.group
      refine ⟨⟨h.source, h.target⟩, true, (testDigest_orEmpty _).2 h.recipient, rfl, true,
        (testDigest_orEmpty _).2 h.key, rfl, group, hgroup, hg, ?_⟩
      simp only [Early.run_pure, Except.ok.injEq, Bool.and_eq_true, int?_any_iff,
        decide_eq_true_eq]
      exact ⟨⟨h.revision, h.priority⟩, h.expiresAt⟩

/-- The verdict on an envelope of the grammar. -/
def verdict (e : Json) (now : ℤ) : Option EnvelopeProblem :=
  if (e.get (lit "expiresAt")).int?.any (· ≤ now) then some .expired else none

/-- **What `envelopeProblem` accepts**, with its verdict. -/
theorem envelopeProblem_iff (e : Json) (room : Value) (now : ℤ) (ttl : Option ℤ)
    {r : Option EnvelopeProblem} (hr : r ≠ some .invalid) :
    envelopeProblem (some e) room now ttl = .ok r ↔
      WireGrammar DigestLike (ttl.getD (lifetime e)) e room now ∧ r = verdict e now := by
  unfold envelopeProblem envelopeChecks
  dsimp only
  simp only [Early.require_run_iff hr.symm, Early.attempt_run_iff]
  constructor
  · rintro ⟨hhead, hfields, hsource, htarget, hsender, hdelivery, recipient, hrecipient, hrec, hwake,
      state, hstate, rfl, hexpires, hnonce, hbox, h⟩
    simp only [Bool.and_eq_true] at hhead
    simp only [Bool.or_eq_true, Value.is_iff] at hsource htarget
    refine ⟨?_, (Except.ok.inj h).symm⟩
    exact
      { object := hhead.1.1, version := hhead.1.2, room := hhead.2
        fields := fun key hkey => by simpa using List.all_eq_true.1 hfields key hkey
        source := hsource, target := or_assoc.1 htarget
        senderId := (identifier_iff _).1 hsender
        deliveryId := by rwa [Bool.or_eq_true, identifier_iff] at hdelivery
        wake := by
          rcases Bool.or_eq_true_iff.1 hwake with h | h
          · exact .inl h
          · right
            generalize e.get (lit "wake") = v at h ⊢
            rcases v with _ | (_ | b | _ | _ | _ | _)
            case some.bool => exact ⟨b, rfl⟩
            all_goals cases h
        recipientKeyId := optional_digest.1 ⟨recipient, hrecipient, hrec⟩
        state := (validRetainedState_iff e now).1 hstate
        expiresAt := by
          simp only [Bool.or_eq_true, int?_any_iff, decide_eq_true_eq] at hexpires
          exact hexpires
        nonce := by
          obtain ⟨s, hs, hclass⟩ := str?_any_iff.1 hnonce
          simp only [ofClass, Bool.and_eq_true, decide_eq_true_eq] at hclass
          exact ⟨s, hs, le_antisymm hclass.1.2 hclass.1.1, hclass.2⟩
        box := by
          obtain ⟨s, hs, hclass⟩ := str?_any_iff.1 hbox
          simp only [Bool.and_eq_true, decide_eq_true_eq] at hclass
          exact ⟨s, hs, hclass⟩ }
  · rintro ⟨h, rfl⟩
    obtain ⟨recipient, hrecipient, hrec⟩ := optional_digest.2 h.recipientKeyId
    obtain ⟨nonce, hnonce, hlength, hall⟩ := h.nonce
    obtain ⟨box, hbox, hlong, hpadded⟩ := h.box
    refine ⟨by simp [h.object, h.version, h.room], ?_, by simpa [Value.is_iff] using h.source,
      by simpa [Value.is_iff, or_assoc] using h.target, (identifier_iff _).2 h.senderId, ?_,
      recipient, hrecipient, hrec, ?_, true, (validRetainedState_iff e now).2 h.state, rfl, ?_, ?_,
      ?_, rfl⟩
    · exact List.all_eq_true.2 fun key hkey => by simpa using h.fields key hkey
    · rw [Bool.or_eq_true, identifier_iff]
      exact h.deliveryId
    · rcases h.wake with hnone | ⟨b, hb⟩
      · simp [hnone]
      · simp [hb]
    · simp only [Bool.or_eq_true, int?_any_iff, decide_eq_true_eq]
      exact h.expiresAt
    · exact str?_any_iff.2 ⟨nonce, hnonce, by simp [ofClass, hlength, hall]⟩
    · exact str?_any_iff.2 ⟨box, hbox, by simp [hlong, hpadded]⟩

/-- A valid envelope is one of the grammar. -/
theorem grammar_of_validEnvelope {e : Json} {room : Value} {now : ℤ} {ttl : Option ℤ}
    (h : validEnvelope (some e) room now ttl = .ok true) :
    WireGrammar DigestLike (ttl.getD (lifetime e)) e room now := by
  obtain ⟨problem, hproblem, hnone⟩ := except_map_ok.1 h
  cases beq_iff_eq.1 hnone
  exact ((envelopeProblem_iff e room now ttl (by simp)).1 hproblem).1

theorem verdict_cases (e : Json) (now : ℤ) :
    verdict e now = some .expired ∧ Expired e now ∨ verdict e now = none ∧ ¬Expired e now := by
  unfold verdict Expired
  split_ifs with h
  · rw [int?_any_iff] at h
    simp only [decide_eq_true_eq] at h
    exact .inl ⟨rfl, h⟩
  · rw [int?_any_iff] at h
    simp only [decide_eq_true_eq] at h
    exact .inr ⟨rfl, h⟩

theorem accepts_iff (e : Json) (room : Value) (now : ℤ) :
    Accepts e room now ↔ WireGrammar DigestLike (lifetime e) e room now := by
  unfold Accepts
  rw [envelopeProblem_iff e room now none (by simp), envelopeProblem_iff e room now none (by simp)]
  rcases verdict_cases e now with ⟨hv, -⟩ | ⟨hv, -⟩ <;> simp [hv]

theorem expired_iff (e : Json) (room : Value) (now : ℤ) :
    envelopeProblem (some e) room now none = .ok (some .expired) ↔
      WireGrammar DigestLike (lifetime e) e room now ∧ Expired e now := by
  rw [envelopeProblem_iff e room now none (by simp)]
  rcases verdict_cases e now with ⟨hv, hexpired⟩ | ⟨hv, hexpired⟩ <;> simp [hv, hexpired]

/-! ## Digests inside arrays -/

theorem not_mem_of_isDigest {s : Str} (h : isDigest s = true) {u : UInt16}
    (hu : isLowerHex u = false) : u ∉ s := by
  simp only [isDigest, ofClass, Bool.and_eq_true] at h
  intro hmem
  exact absurd (List.all_eq_true.1 h.2 u hmem) (by simp [hu])

theorem length_of_isDigest {s : Str} (h : isDigest s = true) : s.length = 64 := by
  have hlength := length_of_ofClass h
  omega

/-- The text of a number is short, or has a point or a sign. -/
theorem positiveText_cases (m : ℕ) (e : ℤ) : (Number.positiveText m e).length ≤ 21 ∨
    ∃ u ∈ Number.positiveText m e, isLowerHex u = false := by
  have hpoint : (46 : UInt16) ∈ lit "." ∧ (46 : UInt16) ∈ lit "0." := by decide
  have hsign (b : Bool) : ∃ u ∈ lit (if b then "+" else "-"), isLowerHex u = false := by
    cases b
    · exact ⟨45, by decide⟩
    · exact ⟨43, by decide⟩
  unfold Number.positiveText
  dsimp only
  split_ifs with hshort hmiddle hsmall hone hpositive hpositive
  · left
    simp only [List.length_append, List.length_replicate]
    omega
  · exact .inr ⟨46, by simp [hpoint.1], by decide⟩
  · exact .inr ⟨46, by simp [hpoint.2], by decide⟩
  · obtain ⟨u, hu, hclass⟩ := hsign true
    exact .inr ⟨u, by simp_all, hclass⟩
  · obtain ⟨u, hu, hclass⟩ := hsign false
    exact .inr ⟨u, by simp_all, hclass⟩
  · exact .inr ⟨46, by simp [hpoint.1], by decide⟩
  · exact .inr ⟨46, by simp [hpoint.1], by decide⟩

/-- No number has the text of a digest. -/
theorem not_isDigest_text (x : Number) : isDigest x.text = false := by
  by_contra h
  rw [Bool.not_eq_false] at h
  have hlength := length_of_isDigest h
  cases x with
  | infinite negative => cases negative <;> revert h <;> decide
  | finite m e =>
    rw [Number.text] at h hlength
    split_ifs at h hlength
    · revert h
      decide
    · have hminus : (45 : UInt16) ∈ lit "-" := by decide
      exact not_mem_of_isDigest h (by decide) (List.mem_append_left _ hminus)
    · rw [List.nil_append] at h hlength
      rcases positiveText_cases m.natAbs e with hshort | ⟨u, hu, hclass⟩
      · omega
      · exact not_mem_of_isDigest h hclass hu

/-- No other value has the text of a digest. -/
theorem stringLanguage_isDigest : Json.StringLanguage isDigest where
  empty := rfl
  null := by decide
  bool := by decide
  number := not_isDigest_text
  object := by decide
  comma _ hs := not_mem_of_isDigest hs (by decide)

/-- What `test` takes for a digest is one, inside arrays or not. -/
theorem digestLike_iff {v : Value} :
    DigestLike v ↔ ∃ n s, isDigest s = true ∧ v = some (Json.nest n s) := by
  constructor
  · intro h
    cases v with
    | none => exact absurd h (by unfold DigestLike; decide)
    | some j =>
      obtain ⟨s, hs, hdigest⟩ := except_map_ok.1 h
      obtain ⟨n, rfl⟩ := Json.nest_of_toText stringLanguage_isDigest hdigest hs
      exact ⟨n, s, hdigest, rfl⟩
  · rintro ⟨n, s, hs, rfl⟩
    exact except_map_ok.2 ⟨s, Json.toText_nest n s, hs⟩

theorem DigestText.digestLike {v : Value} (h : DigestText v) : DigestLike v := by
  obtain ⟨s, rfl, hs⟩ := h
  exact digestLike_iff.2 ⟨0, s, hs, rfl⟩

/-- A digest inside at least one array. -/
def Wrapped (v : Value) : Prop := ∃ n s, isDigest s = true ∧ v = some (Json.nest (n + 1) s)

theorem digestText_of_not_wrapped {v : Value} (h : DigestLike v) (hv : ¬Wrapped v) :
    DigestText v := by
  obtain ⟨n, s, hs, rfl⟩ := digestLike_iff.1 h
  cases n with
  | zero => exact ⟨s, rfl, hs⟩
  | succ n => exact absurd ⟨n, s, hs, rfl⟩ hv

theorem Wrapped.not_digestText {v : Value} (h : Wrapped v) : ¬DigestText v := by
  rintro ⟨t, ht, -⟩
  obtain ⟨n, s, -, rfl⟩ := h
  cases Option.some_inj.1 ht

theorem Wrapped.not_nullish {v : Value} (h : Wrapped v) : v.nullish = false := by
  obtain ⟨n, s, -, rfl⟩ := h
  rfl

/-! ### Taking the arrays away -/

/-- The members that are tested as digests. -/
def DIGEST_FIELDS : List Str := ["recipientKeyId", "stateKey", "stateGroup"].map lit

/-- The string inside the arrays of a value. -/
def innerText : Json → Option Str
  | .str s => some s
  | .arr [j] => innerText j
  | _ => none

/-- A digest without the arrays around it; any other value as it is. -/
def bareDigest (j : Json) : Json :=
  match innerText j with
  | some s => if isDigest s then .str s else j
  | none => j

/-- An envelope with bare digests. -/
def bareEnvelope : Json → Json
  | .obj members => .obj (members.map fun m =>
      (m.1, if DIGEST_FIELDS.contains m.1 then bareDigest m.2 else m.2))
  | j => j

theorem innerText_nest (n : ℕ) (s : Str) : innerText (Json.nest n s) = some s := by
  induction n with
  | zero => rfl
  | succ n ih => simpa [Json.nest, innerText] using ih

theorem nest_of_innerText {s : Str} : ∀ {j : Json}, innerText j = some s → ∃ n, j = Json.nest n s
  | .str t, h => by
    cases h
    exact ⟨0, rfl⟩
  | .arr [j], h => by
    obtain ⟨n, rfl⟩ := nest_of_innerText (j := j) (by simpa [innerText] using h)
    exact ⟨n + 1, rfl⟩
  | .arr [], h => by simp [innerText] at h
  | .arr (j :: k :: rest), h => by simp [innerText] at h
  | .null, h => by simp [innerText] at h
  | .bool b, h => by simp [innerText] at h
  | .num x, h => by simp [innerText] at h
  | .obj members, h => by simp [innerText] at h

/-- A value is bare, unless it is a digest inside arrays. -/
theorem bareDigest_cases (j : Json) :
    bareDigest j = j ∨ ∃ n s, isDigest s = true ∧ j = Json.nest n s ∧ bareDigest j = .str s := by
  unfold bareDigest
  split
  · rename_i s hs
    split_ifs with hdigest
    · obtain ⟨n, rfl⟩ := nest_of_innerText hs
      exact .inr ⟨n, s, hdigest, rfl, rfl⟩
    · exact .inl rfl
  · exact .inl rfl

theorem bareDigest_nest {s : Str} (hs : isDigest s = true) (n : ℕ) :
    bareDigest (Json.nest n s) = .str s := by
  unfold bareDigest
  rw [innerText_nest]
  exact if_pos hs

theorem get_bareEnvelope (e : Json) (name : Str) : (bareEnvelope e).get name =
    if DIGEST_FIELDS.contains name then (e.get name).map bareDigest else e.get name := by
  cases e with
  | obj members =>
    change List.lookup name (members.map _) =
      if DIGEST_FIELDS.contains name then (members.lookup name).map bareDigest
      else members.lookup name
    induction members with
    | nil => simp
    | cons m members ih =>
      rw [List.map_cons, List.lookup_cons, List.lookup_cons, ih]
      by_cases hname : name = m.1
      · subst hname
        split_ifs <;> simp
      · rw [beq_false_of_ne hname]
  | null | bool | num | str | arr => simp [bareEnvelope, Json.get]

theorem keys_bareEnvelope (e : Json) : (bareEnvelope e).keys = e.keys := by
  cases e with
  | obj members => simp [bareEnvelope, Json.keys, Function.comp_def]
  | null | bool | num | str | arr => rfl

theorem isObject_bareEnvelope (e : Json) : (bareEnvelope e).isObject = e.isObject := by
  cases e <;> rfl

theorem digestText_bare {v : Value} : DigestText (v.map bareDigest) ↔ DigestLike v := by
  constructor
  · rintro ⟨s, hv, hs⟩
    obtain ⟨j, rfl, hj⟩ := Option.map_eq_some_iff.1 hv
    rcases bareDigest_cases j with hsame | ⟨n, t, ht, rfl, hbare⟩
    · exact digestLike_iff.2 ⟨0, s, hs, by rw [← hsame, hj]; rfl⟩
    · exact digestLike_iff.2 ⟨n, t, ht, rfl⟩
  · intro h
    obtain ⟨n, s, hs, rfl⟩ := digestLike_iff.1 h
    exact ⟨s, by rw [Option.map_some, bareDigest_nest hs], hs⟩

theorem nullish_bare (v : Value) : Value.nullish (v.map bareDigest) = v.nullish := by
  cases v with
  | none => rfl
  | some j =>
    rcases bareDigest_cases j with hsame | ⟨n, s, -, rfl, hbare⟩
    · rw [Option.map_some, hsame]
    · rw [Option.map_some, hbare]
      cases n <;> rfl

theorem truthy_bare (v : Value) : Value.truthy (v.map bareDigest) = v.truthy := by
  cases v with
  | none => rfl
  | some j =>
    rcases bareDigest_cases j with hsame | ⟨n, s, hs, rfl, hbare⟩
    · rw [Option.map_some, hsame]
    · have hne : s ≠ [] := by
        rintro rfl
        cases hs
      rw [Option.map_some, hbare]
      cases n <;> simp [Value.truthy, Json.truthy, Json.nest, hne]

/-- Two envelopes that agree on everything the grammar asks of them. -/
structure SameMembers (digest digest' : Value → Prop) (e e' : Json) : Prop where
  object : e'.isObject = e.isObject
  keys : e'.keys = e.keys
  get : ∀ name, DIGEST_FIELDS.contains name = false → e'.get name = e.get name
  nullish : ∀ name, (e'.get name).nullish = (e.get name).nullish
  truthy : ∀ name, (e'.get name).truthy = (e.get name).truthy
  digest : ∀ name, DIGEST_FIELDS.contains name = true →
    (digest' (e'.get name) ↔ digest (e.get name))

section SameMembers

variable {digest digest' : Value → Prop} {e e' : Json} {room : Value} {now : ℤ}

theorem SameMembers.symm (h : SameMembers digest digest' e e') :
    SameMembers digest' digest e' e :=
  ⟨h.object.symm, h.keys.symm, fun name hname => (h.get name hname).symm,
    fun name => (h.nullish name).symm, fun name => (h.truthy name).symm,
    fun name hname => (h.digest name hname).symm⟩

theorem SameMembers.header (h : SameMembers digest digest' e e') (he : StateHeader digest e now) :
    StateHeader digest' e' now where
  source := by rw [h.get _ (by decide)]; exact he.source
  target := by rw [h.get _ (by decide)]; exact he.target
  recipient := (h.digest _ (by decide)).2 he.recipient
  key := (h.digest _ (by decide)).2 he.key
  group := by
    rw [h.nullish]
    exact he.group.imp_right (h.digest _ (by decide)).2
  revision := by rw [h.get _ (by decide)]; exact he.revision
  priority := by rw [h.get _ (by decide)]; exact he.priority
  expiresAt := by rw [h.get _ (by decide)]; exact he.expiresAt

theorem SameMembers.lifetime (h : SameMembers digest digest' e e') : lifetime e' = lifetime e := by
  unfold GrantTap.lifetime
  rw [h.truthy, h.get _ (by decide), h.get _ (by decide), h.get _ (by decide)]

theorem SameMembers.grammar (h : SameMembers digest digest' e e')
    {limit : ℤ} (he : WireGrammar digest limit e room now) :
    WireGrammar digest' limit e' room now where
  object := by rw [h.object]; exact he.object
  fields := by rw [h.keys]; exact he.fields
  version := by rw [h.get _ (by decide)]; exact he.version
  room := by rw [h.get _ (by decide)]; exact he.room
  source := by rw [h.get _ (by decide)]; exact he.source
  target := by rw [h.get _ (by decide)]; exact he.target
  senderId := by rw [h.get _ (by decide)]; exact he.senderId
  deliveryId := by rw [h.get _ (by decide)]; exact he.deliveryId
  wake := by rw [h.get _ (by decide)]; exact he.wake
  recipientKeyId := by
    rw [h.nullish]
    exact he.recipientKeyId.imp_right (h.digest _ (by decide)).2
  state := by
    refine he.state.imp (fun hnone => ?_) h.header
    unfold Stateless
    rw [h.nullish, h.nullish, h.nullish, h.nullish]
    exact hnone
  expiresAt := by rw [h.get _ (by decide)]; exact he.expiresAt
  nonce := by rw [h.get _ (by decide)]; exact he.nonce
  box := by rw [h.get _ (by decide)]; exact he.box

end SameMembers

theorem sameMembers_bare (e : Json) : SameMembers DigestLike DigestText e (bareEnvelope e) where
  object := isObject_bareEnvelope e
  keys := keys_bareEnvelope e
  get name hname := by
    rw [get_bareEnvelope, if_neg (by rw [hname]; decide)]
  nullish name := by
    rw [get_bareEnvelope]
    split_ifs
    · exact nullish_bare _
    · rfl
  truthy name := by
    rw [get_bareEnvelope]
    split_ifs
    · exact truthy_bare _
    · rfl
  digest name hname := by
    rw [get_bareEnvelope, if_pos hname]
    exact digestText_bare

/-- An envelope is accepted when it is in the grammar without the arrays around its digests. -/
theorem accepts_iff_bare (e : Json) (room : Value) (now : ℤ) :
    Accepts e room now ↔
      WireGrammar DigestText (lifetime (bareEnvelope e)) (bareEnvelope e) room now := by
  rw [accepts_iff, (sameMembers_bare e).lifetime]
  exact ⟨(sameMembers_bare e).grammar, (sameMembers_bare e).symm.grammar⟩

/-- Without such arrays the two readings agree. -/
theorem sameMembers_self {e : Json}
    (h : ∀ name ∈ DIGEST_FIELDS, ¬Wrapped (e.get name)) : SameMembers DigestLike DigestText e e where
  object := rfl
  keys := rfl
  get _ _ := rfl
  nullish _ := rfl
  truthy _ := rfl
  digest name hname := by
    have hmem : name ∈ DIGEST_FIELDS := by simpa using hname
    exact ⟨DigestText.digestLike, fun hlike => digestText_of_not_wrapped hlike (h name hmem)⟩

/-- No envelope of the grammar has a digest inside arrays. -/
theorem WireGrammar.not_wrapped {limit : ℤ} {e : Json} {room : Value} {now : ℤ}
    (h : WireGrammar DigestText limit e room now) : ∀ name ∈ DIGEST_FIELDS, ¬Wrapped (e.get name) := by
  have hone (name : Str) (hname : (e.get name).nullish = true ∨ DigestText (e.get name)) :
      ¬Wrapped (e.get name) := by
    intro hwrapped
    rcases hname with hnone | htext
    · exact absurd (hnone.symm.trans hwrapped.not_nullish) (by decide)
    · exact hwrapped.not_digestText htext
  intro name hname
  simp only [DIGEST_FIELDS, List.map_cons, List.map_nil, List.mem_cons, List.not_mem_nil,
    or_false] at hname
  rcases hname with rfl | rfl | rfl
  · exact hone _ h.recipientKeyId
  · exact hone _ (h.state.imp (fun hnone => hnone.1) fun hheader => hheader.key)
  · exact hone _ (h.state.elim (fun hnone => .inl hnone.2.2.2) fun hheader => hheader.group)

/-! ## When the grammar is decided -/

/-- `envelopeProblem` accepts the envelope exactly when it is in the grammar, and finds it expired
exactly when its expiry has passed besides. -/
def DecidesGrammar (e : Json) (room : Value) (now : ℤ) : Prop :=
  (Accepts e room now ↔ WireGrammar DigestText (lifetime e) e room now) ∧
    (envelopeProblem (some e) room now none = .ok (some .expired) ↔
      WireGrammar DigestText (lifetime e) e room now ∧ Expired e now)

/-- **The wire grammar is decided** on an envelope if and only if none of the members that are
tested as digests is a digest inside arrays, or the envelope is not in the grammar without these
arrays either. -/
theorem wire_grammar_iff (e : Json) (room : Value) (now : ℤ) :
    DecidesGrammar e room now ↔ (∀ name ∈ DIGEST_FIELDS, ¬Wrapped (e.get name)) ∨
      ¬WireGrammar DigestText (lifetime (bareEnvelope e)) (bareEnvelope e) room now := by
  constructor
  · rintro ⟨haccepts, -⟩
    by_cases hbare : WireGrammar DigestText (lifetime (bareEnvelope e)) (bareEnvelope e) room now
    · exact .inl (haccepts.1 ((accepts_iff_bare e room now).2 hbare)).not_wrapped
    · exact .inr hbare
  · intro h
    have hiff : WireGrammar DigestLike (lifetime e) e room now ↔
        WireGrammar DigestText (lifetime e) e room now := by
      rcases h with h | h
      · exact ⟨(sameMembers_self h).grammar, (sameMembers_self h).symm.grammar⟩
      · rw [(sameMembers_bare e).lifetime] at h
        have hlike : ¬WireGrammar DigestLike (lifetime e) e room now := fun hlike =>
          h ((sameMembers_bare e).grammar hlike)
        refine iff_of_false hlike fun htext => hlike ?_
        exact (sameMembers_self htext.not_wrapped).symm.grammar htext
    exact ⟨(accepts_iff e room now).trans hiff,
      (expired_iff e room now).trans (and_congr_left fun _ => hiff)⟩

/-! ### An envelope with an array -/

/-- Its recipient is an array of one digest. -/
def arrayEnvelope : Json := .obj
  [(lit "v", .int 1), (lit "room", .text "0123456789abcdef"), (lit "from", .text "phone"),
    (lit "to", .text "machine"), (lit "senderId", .text "phone"),
    (lit "recipientKeyId", .arr [.str (List.replicate 64 97)]),
    (lit "nonce", .str (List.replicate 32 65)), (lit "box", .str (List.replicate 24 65))]

/-- The array is accepted as a digest. -/
theorem array_envelope_accepted :
    ¬DecidesGrammar arrayEnvelope (some (.text "0123456789abcdef")) 1000 := by
  rintro ⟨haccepts, -⟩
  have haccepted : Accepts arrayEnvelope (some (.text "0123456789abcdef")) 1000 :=
    .inl (by decide +kernel)
  have hwrapped : Wrapped (arrayEnvelope.get (lit "recipientKeyId")) :=
    ⟨0, List.replicate 64 97, by decide, rfl⟩
  exact (haccepts.1 haccepted).not_wrapped _ (by decide) hwrapped

end GrantTap
