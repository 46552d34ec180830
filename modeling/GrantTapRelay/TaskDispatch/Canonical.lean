import GrantTapRelay.Library.JsonReading
import GrantTapRelay.TaskDispatch.Receipts

/-!
# The canonical text of a job

`normalizeJob` serializes a submission with its envelope's members in one order, and the digest of
that text is the fingerprint of the job. The text determines the submission up to the order of its
members, and submissions that are alike have one text.

* `normalizeJob_throws_iff`: when `normalizeJob` throws.
* `Submits.alike`: a submission that is alike to an accepted one is accepted, with the same text.
* `Submits.canonical_alike`, `Submits.alike_of_canonical`: **submissions have one text when they are
  alike**, and only then.
-/

namespace GrantTap

open Js Js.Json

/-! ## What throws

An envelope for a machine has no retained state, so only the test of its recipient may throw. -/

/-- A value that cannot be coerced to a string. -/
def NoText (v : Value) : Prop := ∃ j, v = some j ∧ j.Textless

theorem testDigest_throws (v : Value) : (∃ t, testDigest v.orEmpty = .error t) ↔ NoText v := by
  have hmap : ∀ j : Json, (∃ t, testDigest (some j) = .error t) ↔ j.Textless := by
    intro j
    rw [← Json.toText_error]
    change (∃ t, (j.toText.map isDigest) = .error t) ↔ _
    cases j.toText with
    | error t => exact iff_of_true ⟨t, rfl⟩ ⟨t, rfl⟩
    | ok s =>
      refine iff_of_false ?_ ?_
      · rintro ⟨_, ⟨⟩⟩
      · rintro ⟨_, ⟨⟩⟩
  have hempty : ¬∃ t, testDigest (some (.str [])) = .error t := by
    rintro ⟨_, ⟨⟩⟩
  cases v with
  | none =>
    refine iff_of_false hempty ?_
    rintro ⟨_, ⟨⟩, _⟩
  | some j =>
    have hiff : NoText (some j) ↔ j.Textless := by
      constructor
      · rintro ⟨_, ⟨⟩, ht⟩
        exact ht
      · exact fun h => ⟨j, rfl, h⟩
    rw [hiff]
    cases j with
    | null => exact iff_of_false hempty fun h => by cases h
    | bool | num | str | arr | obj => exact hmap _

theorem validRetainedState_machine {e : Json} (hto : e.get (lit "to") = some (.str (lit "machine")))
    (now : ℤ) : ∃ b, validRetainedState e now = .ok b := by
  have hphone : ((e.get (lit "to")).is (lit "phone")) = false := by
    rw [hto]
    decide
  unfold validRetainedState
  dsimp only
  split_ifs
  · exact ⟨true, rfl⟩
  · rw [hphone, Bool.and_false]
    exact ⟨false, rfl⟩

theorem validEnvelope_machine {e : Json} (hto : e.get (lit "to") = some (.str (lit "machine")))
    (hrecipient : testDigest (e.get (lit "recipientKeyId")).orEmpty = .ok true) (room : Value)
    (now : ℤ) (ttl : Option ℤ) : ¬∃ t, validEnvelope (some e) room now ttl = .error t := by
  have hchecks : ¬∃ t, (envelopeChecks e room now ttl).run = .error t := by
    unfold envelopeChecks
    dsimp only
    simp only [Early.require_throws, Early.attempt_throws, hrecipient, not_and]
    intro _ _ _ _ _ _
    obtain ⟨b, hb⟩ := validRetainedState_machine hto now
    rw [hb]
    rintro (⟨_, h⟩ | ⟨_, _, _, _, ⟨_, h⟩ | ⟨_, _, _, _, _, _, _, h⟩⟩)
    · cases h
    · cases h
    · cases h
  rintro ⟨t, h⟩
  refine hchecks ⟨t, ?_⟩
  change ((envelopeChecks e room now ttl).run.map (· == none)) = .error t at h
  cases hrun : (envelopeChecks e room now ttl).run with
  | ok r =>
    rw [hrun] at h
    cases h
  | error t' =>
    rw [hrun] at h
    cases h
    rfl

/-- The submission has known members only. -/
def Known (body : Json) : Prop :=
  (body.isObject && body.keys.all fun key => JOB_FIELDS.contains key) = true

/-- It names no writer, or one with the digest of its key. -/
def Signed (body : Json) : Prop :=
  (body.get (lit "writerId") = none ∧ body.get (lit "writerSourceKeyId") = none) ∨
    isJobId (body.get (lit "writerId")) = true ∧ DigestLike (body.get (lit "writerSourceKeyId"))

/-- Its times are a window that is open at `now`. -/
def Scheduled (body : Json) (now : ℤ) : Prop :=
  ∃ w, jobWindow? (body.get (lit "notBefore")) (body.get (lit "expiresAt")) now = some w

/-- Its envelope is addressed to a machine, under the id of the job. -/
def Addressed (e : Json) (id : Str) : Prop :=
  e.get (lit "deliveryId") = some (.str id) ∧ e.get (lit "to") = some (.str (lit "machine"))

/-- The submission reaches a digest test with a value that has no text. -/
inductive TestsTextless (id : Str) (body : Json) (now : ℤ) : Prop
  | writer : Known body → isJobId (body.get (lit "writerId")) = true →
    NoText (body.get (lit "writerSourceKeyId")) → TestsTextless id body now
  | acceptance : Known body → Signed body → Scheduled body now →
    NoText (body.get (lit "acceptanceHash")) → TestsTextless id body now
  | recipient {e : Json} : Known body → Signed body → Scheduled body now →
    DigestLike (body.get (lit "acceptanceHash")) → body.get (lit "envelope") = some e →
    Addressed e id → NoText (e.get (lit "recipientKeyId")) → TestsTextless id body now

theorem isJobId_isSome {v : Value} (h : isJobId v = true) : v.isSome = true := by
  cases v with
  | none => cases h
  | some j => rfl

/-- The three checks on the writer. -/
theorem signed_iff {body : Json} :
    Signed body ↔
      ((body.get (lit "writerId")).isNone || isJobId (body.get (lit "writerId"))) = true ∧
        (if (body.get (lit "writerId")).isSome then
          testDigest (body.get (lit "writerSourceKeyId")).orEmpty else .ok true) = .ok true ∧
        ((body.get (lit "writerId")).isSome ||
          (body.get (lit "writerSourceKeyId")).isNone) = true := by
  unfold Signed
  cases hwriter : body.get (lit "writerId") with
  | none =>
    have hno : isJobId none = false := rfl
    simp only [hno, Option.isNone_none, Option.isSome_none, Bool.false_eq_true, if_false,
      Bool.true_or, Bool.false_or, Option.isNone_iff_eq_none, true_and, false_and, or_false]
  | some j =>
    simp only [reduceCtorEq, false_and, false_or, Option.isNone_some, Bool.false_or,
      Option.isSome_some, if_true, Bool.true_or, and_true, testDigest_orEmpty]

/-- **When `normalizeJob` throws** on a submission under valid names. -/
theorem normalizeJob_throws_iff {room id : Str} (hids : (validRoom room && validJobId id) = true)
    (body : Json) (now : ℤ) :
    (∃ t, normalizeJob room id (some body) now = .error t) ↔ TestsTextless id body now := by
  unfold normalizeJob
  rw [Early.require_throws, and_iff_right hids]
  constructor
  · intro h
    obtain ⟨_, hbody, h⟩ := Early.demand_throws.1 h
    cases hbody
    obtain ⟨hknown, h⟩ := Early.require_throws.1 h
    obtain ⟨hwriterId, h⟩ := Early.require_throws.1 h
    rcases Early.attempt_throws.1 h with hthrown | ⟨_, hkey, h⟩
    · cases hsome : (body.get (lit "writerId")).isSome with
      | false =>
        rw [hsome] at hthrown
        obtain ⟨_, ht⟩ := hthrown
        cases ht
      | true =>
        rw [hsome, if_pos rfl, testDigest_throws] at hthrown
        have hid : isJobId (body.get (lit "writerId")) = true := by
          rw [← Option.not_isSome, hsome] at hwriterId
          exact hwriterId
        exact .writer hknown hid hthrown
    obtain ⟨hkey', h⟩ := Early.require_throws.1 h
    obtain ⟨hwriter, h⟩ := Early.require_throws.1 h
    rw [hkey'] at hkey
    have hsigned : Signed body := signed_iff.2 ⟨hwriterId, hkey, hwriter⟩
    obtain ⟨w, hw, h⟩ := Early.demand_throws.1 h
    rcases Early.attempt_throws.1 h with hthrown | ⟨_, hacceptance, h⟩
    · exact .acceptance hknown hsigned ⟨w, hw⟩ ((testDigest_throws _).1 hthrown)
    obtain ⟨hacceptance', h⟩ := Early.require_throws.1 h
    rw [hacceptance', testDigest_orEmpty] at hacceptance
    obtain ⟨e, he, h⟩ := Early.demand_throws.1 h
    obtain ⟨hrouted, h⟩ := Early.require_throws.1 h
    simp only [Bool.and_eq_true, Value.is_iff] at hrouted
    rcases Early.attempt_throws.1 h with hthrown | ⟨_, hrecipient, h⟩
    · exact .recipient hknown hsigned ⟨w, hw⟩ hacceptance he ⟨hrouted.1.2, hrouted.2⟩
        ((testDigest_throws _).1 hthrown)
    obtain ⟨hrecipient', h⟩ := Early.require_throws.1 h
    rw [hrecipient'] at hrecipient
    obtain ⟨_, h⟩ := Early.require_throws.1 h
    rcases Early.attempt_throws.1 h with hthrown | ⟨_, _, h⟩
    · exact absurd hthrown (validEnvelope_machine hrouted.2 hrecipient _ _ _)
    obtain ⟨_, h⟩ := Early.require_throws.1 h
    obtain ⟨_, _, h⟩ := Early.require_throws.1 h
    cases h
  · intro h
    refine Early.demand_throws.2 ⟨body, rfl, ?_⟩
    have hnone : ∀ v : Value, isJobId v = true → v.isNone = false := fun v hv => by
      rw [← Option.not_isSome, isJobId_isSome hv]
      rfl
    cases h with
    | writer hknown hid htext =>
      refine Early.require_throws.2 ⟨hknown, Early.require_throws.2 ⟨by rw [hid, Bool.or_true], ?_⟩⟩
      refine Early.attempt_throws.2 (.inl ?_)
      rw [isJobId_isSome hid, if_pos rfl, testDigest_throws]
      exact htext
    | acceptance hknown hsigned hscheduled htext =>
      obtain ⟨hwriterId, hkey, hwriter⟩ := signed_iff.1 hsigned
      obtain ⟨w, hw⟩ := hscheduled
      refine Early.require_throws.2 ⟨hknown, Early.require_throws.2 ⟨hwriterId, ?_⟩⟩
      refine Early.attempt_throws.2 (.inr ⟨true, hkey, Early.require_throws.2 ⟨rfl, ?_⟩⟩)
      refine Early.require_throws.2 ⟨hwriter, Early.demand_throws.2 ⟨w, hw, ?_⟩⟩
      exact Early.attempt_throws.2 (.inl ((testDigest_throws _).2 htext))
    | recipient hknown hsigned hscheduled hacceptance he haddressed htext =>
      obtain ⟨hwriterId, hkey, hwriter⟩ := signed_iff.1 hsigned
      obtain ⟨w, hw⟩ := hscheduled
      rename_i e
      have htruthy : e.truthy = true := by
        cases e with
        | obj => rfl
        | null | bool | num | str | arr => cases haddressed.2
      refine Early.require_throws.2 ⟨hknown, Early.require_throws.2 ⟨hwriterId, ?_⟩⟩
      refine Early.attempt_throws.2 (.inr ⟨true, hkey, Early.require_throws.2 ⟨rfl, ?_⟩⟩)
      refine Early.require_throws.2 ⟨hwriter, Early.demand_throws.2 ⟨w, hw, ?_⟩⟩
      refine Early.attempt_throws.2 (.inr ⟨true, (testDigest_orEmpty _).2 hacceptance, ?_⟩)
      refine Early.require_throws.2 ⟨rfl, Early.demand_throws.2 ⟨e, he, ?_⟩⟩
      refine Early.require_throws.2 ⟨?_, ?_⟩
      on_goal 2 => exact Early.attempt_throws.2 (.inl ((testDigest_throws _).2 htext))
      simp only [Bool.and_eq_true, Value.is_iff]
      exact ⟨⟨htruthy, haddressed.1⟩, haddressed.2⟩

/-! ## Submissions that are alike -/

section Alike

variable {v v' w w' : Value}

theorem testDigest_alike (h : Option.Rel Alike v v') :
    testDigest v.orEmpty = testDigest v'.orEmpty :=
  Value.alike_test (Value.alike_orEmpty h) isDigest

theorem isJobId_alike (h : Option.Rel Alike v v') : isJobId v = isJobId v' := by
  rw [isJobId, isJobId, Value.alike_str? h]

theorem validIdentifier_alike (h : Option.Rel Alike v v') (max : ℕ) :
    validIdentifier v max = validIdentifier v' max := by
  rw [validIdentifier, validIdentifier, Value.alike_str? h]

theorem jobWindow?_alike (h : Option.Rel Alike v v') (hw : Option.Rel Alike w w') (now : ℤ) :
    jobWindow? v w now = jobWindow? v' w' now := by
  have hv := Value.alike_int? h
  have hw := Value.alike_int? hw
  cases hx : jobWindow? v' w' now with
  | some x =>
    exact (jobWindow?_iff.2 (by rw [hv, hw]; exact jobWindow?_iff.1 hx))
  | none =>
    cases hy : jobWindow? v w now with
    | none => rfl
    | some y =>
      have hsome := jobWindow?_iff.1 hy
      rw [hv, hw, ← jobWindow?_iff, hx] at hsome
      cases hsome

variable {e e' : Json}

theorem validRetainedState_alike (h : ∀ name, Option.Rel Alike (e.get name) (e'.get name))
    (now : ℤ) : validRetainedState e now = validRetainedState e' now := by
  unfold validRetainedState
  dsimp only
  simp only [fun name => Value.alike_nullish (h name), fun name => Value.alike_int? (h name),
    fun name => Value.alike_is (h name), fun name => testDigest_alike (h name),
    show ∀ name, testDigest (e.get name) = testDigest (e'.get name) from
      fun name => Value.alike_test (h name) isDigest]

theorem extendedDelivery_alike (h : Option.Rel Alike v v') :
    extendedDelivery v = extendedDelivery v' := by
  rw [extendedDelivery, extendedDelivery, Value.alike_str? h]

/-- **Envelopes that are alike are valid together.** -/
theorem validEnvelope_alike (h : Alike e e') (hparsed : e.Parsed) (room : Value) (now : ℤ)
    (ttl : Option ℤ) :
    validEnvelope (some e) room now ttl = validEnvelope (some e') room now ttl := by
  have hget := h.get hparsed
  have hroom : Option.Rel Alike room room := by
    cases room with
    | none => exact .none
    | some j => exact .some (.refl j)
  have hone : Option.Rel Alike (some (.int 1)) (some (.int 1)) := .some (.refl _)
  unfold validEnvelope envelopeProblem envelopeChecks
  dsimp only
  simp only [h.isObject, h.keys_all, validRetainedState_alike hget,
    fun name => Value.alike_same (hget name) hroom, fun name => Value.alike_same (hget name) hone,
    fun name => Value.alike_nullish (hget name), fun name => Value.alike_int? (hget name),
    fun name => Value.alike_str? (hget name), fun name => Value.alike_is (hget name),
    fun name => Value.alike_truthy (hget name), fun name => testDigest_alike (hget name),
    fun name => validIdentifier_alike (hget name), fun name => extendedDelivery_alike (hget name)]
  -- what is left is the test for a truth value
  have hwake := hget (lit "wake")
  generalize e.get (lit "wake") = x at hwake ⊢
  generalize e'.get (lit "wake") = y at hwake ⊢
  cases hwake with
  | none => rfl
  | some hwake => cases hwake <;> rfl

end Alike

variable {room id : Str} {body body' e e' : Json} {ms : List (Str × Json)} {now : ℤ}
  {w w' : JobWindow}

/-- **What is alike to an accepted submission passes the same checks.** -/
theorem Submits.alike (h : Submits room id body now e w) (halike : Alike body body')
    (hparsed : body.Parsed) : ∃ e', Alike e e' ∧ Submits room id body' now e' w := by
  have hget := halike.get hparsed
  obtain ⟨e', he', hee'⟩ := Value.rel_some (h.envelope ▸ hget (lit "envelope"))
  have hinner := hee'.get (hparsed.get h.envelope)
  refine ⟨e', hee', ?_⟩
  exact
    { identity := h.identity
      fields := by rw [← halike.isObject, ← halike.keys_all]; exact h.fields
      writerId := by
        rw [← Value.alike_isNone (hget _), ← isJobId_alike (hget _)]
        exact h.writerId
      writerSourceKeyId := by
        rw [← Value.alike_isSome (hget _), ← testDigest_alike (hget _)]
        exact h.writerSourceKeyId
      writer := by
        rw [← Value.alike_isSome (hget _), ← Value.alike_isNone (hget _)]
        exact h.writer
      window := by
        rw [← jobWindow?_alike (hget _) (hget _)]
        exact h.window
      acceptanceHash := by
        rw [← testDigest_alike (hget _)]
        exact h.acceptanceHash
      envelope := he'
      routed := by
        rw [← hee'.truthy, ← Value.alike_is (hinner _), ← Value.alike_is (hinner _)]
        exact h.routed
      recipientKeyId := by
        rw [← testDigest_alike (hinner _)]
        exact h.recipientKeyId
      expiresAt := by
        rw [← Value.alike_same (hinner _) (hget _)]
        exact h.expiresAt
      valid := by
        rw [← validEnvelope_alike hee' (hparsed.get h.envelope)]
        exact h.valid }

/-! ## The members of an envelope -/

/-- No two names of envelope members are equal but for their case. -/
theorem localeLe_antisymm {a b : Str} (ha : a ∈ ENVELOPE_FIELDS) (hb : b ∈ ENVELOPE_FIELDS)
    (hab : localeLe a b = true) (hba : localeLe b a = true) : a = b := by
  have hcases : ∀ a ∈ ENVELOPE_FIELDS, ∀ b ∈ ENVELOPE_FIELDS,
      a.map lowerUnit = b.map lowerUnit → a = b := by decide +kernel
  exact hcases a ha b hb (unitsLe_antisymm hab hba)

theorem names_orderMembers (members : List (Str × Json)) :
    ((members.insertionSort fun a b => localeLe a.1 b.1).map Prod.fst).Perm
      (members.map Prod.fst) :=
  (List.perm_insertionSort _ _).map _

/-- The names come in one order. -/
theorem sorted_names (members : List (Str × Json)) :
    ((members.insertionSort fun a b => localeLe a.1 b.1).map Prod.fst).Pairwise
      fun a b => localeLe a b = true := by
  have htotal : Std.Total fun a b : Str × Json => localeLe a.1 b.1 = true :=
    ⟨fun a b => unitsLe_total _ _⟩
  have htrans : IsTrans (Str × Json) fun a b => localeLe a.1 b.1 = true :=
    ⟨fun a b c => unitsLe_trans⟩
  rw [List.pairwise_map]
  exact List.pairwise_insertionSort _ members

theorem same_names {ms ns : List (Str × Json)} (h : (ms.map Prod.fst).Perm (ns.map Prod.fst))
    (hfields : ∀ name ∈ ms.map Prod.fst, name ∈ ENVELOPE_FIELDS) :
    (ms.insertionSort fun a b => localeLe a.1 b.1).map Prod.fst =
      (ns.insertionSort fun a b => localeLe a.1 b.1).map Prod.fst := by
  refine List.Perm.eq_of_pairwise (fun a b ha hb => localeLe_antisymm ?_ ?_) (sorted_names ms)
    (sorted_names ns) (((names_orderMembers ms).trans h).trans (names_orderMembers ns).symm)
  · exact hfields a ((names_orderMembers ms).mem_iff.1 ha)
  · exact hfields b (h.mem_iff.2 ((names_orderMembers ns).mem_iff.1 hb))

/-- What an accepted envelope has at a name: two numbers, and words otherwise. -/
inductive Member (e : ℤ) (name : Str) : Json → Prop
  | version {x : Number} : name = lit "v" → x.same (.finite 1 0) = true → Member e name (.num x)
  | expiresAt {x : Number} : name = lit "expiresAt" → x.toInt? = some e → Member e name (.num x)
  | word {j : Json} : name ≠ lit "v" → name ≠ lit "expiresAt" → j.Worded → Member e name j

theorem worded_of_nullish {j : Json} (h : Value.nullish (some j) = true) : j.Worded := by
  cases j with
  | null => exact .null
  | bool | num | str | arr | obj => cases h

theorem worded_of_digestLike {j : Json} (h : DigestLike (some j)) : j.Worded := by
  obtain ⟨n, s, -, hj⟩ := digestLike_iff.1 h
  cases hj
  exact worded_nest s n

theorem Submits.grammar (h : Submits room id body now e w) :
    WireGrammar DigestLike JOB_TTL_MS e (some (.str room)) now := grammar_of_validEnvelope h.valid

theorem Submits.to_machine (h : Submits room id body now e w) :
    e.get (lit "to") = some (.str (lit "machine")) := by
  have hrouted := h.routed
  simp only [Bool.and_eq_true, Value.is_iff] at hrouted
  exact hrouted.2

theorem Submits.stateless (h : Submits room id body now e w) : Stateless e := by
  rcases h.grammar.state with hstate | hstate
  · exact hstate
  · have htarget := hstate.target
    rw [h.to_machine, Option.some_inj] at htarget
    exact absurd (Json.str.inj htarget) (by decide)

/-- **The members of an accepted envelope.** -/
theorem Submits.member (h : Submits room id body now e w) {name : Str} {j : Json}
    (hj : e.get name = some j) (hname : name ∈ ENVELOPE_FIELDS) : Member w.expiresAt name j := by
  have hgrammar := h.grammar
  -- a name that finds a string
  have found {s : Str} (hs : e.get name = some (.str s)) : j.Worded := by
    rw [hj, Option.some_inj] at hs
    rw [hs]
    exact .str s
  have nullish (hnull : (e.get name).nullish = true) : j.Worded := worded_of_nullish (hj ▸ hnull)
  by_cases hv : name = lit "v"
  · have hversion := hgrammar.version
    rw [← hv, hj] at hversion
    cases j with
    | num x => exact .version hv hversion
    | null | bool | str | arr | obj => cases hversion
  by_cases hexpires : name = lit "expiresAt"
  · have hsame := h.expiresAt
    obtain ⟨-, he, -⟩ := jobWindow?_iff.1 h.window
    rw [← hexpires, hj, hexpires] at hsame
    obtain ⟨k, hk, hint⟩ := Option.bind_eq_some_iff.1 he
    obtain ⟨y, rfl, hy⟩ := Json.int?_eq_some hint
    rw [hk] at hsame
    cases j with
    | num x => exact .expiresAt hexpires (by rw [Number.toInt?_of_same hsame, hy])
    | null | bool | str | arr | obj => cases hsame
  refine .word hv hexpires ?_
  obtain ⟨hkey, hrevision, hpriority, hgroup⟩ := h.stateless
  have hfields : ENVELOPE_FIELDS = [lit "v", lit "room", lit "from", lit "to", lit "senderId",
    lit "deliveryId", lit "wake", lit "expiresAt", lit "nonce", lit "box", lit "recipientKeyId",
    lit "stateKey", lit "stateRevision", lit "statePriority", lit "stateGroup"] := rfl
  rw [hfields] at hname
  simp only [List.mem_cons, List.not_mem_nil, or_false] at hname
  rcases hname with rfl | rfl | rfl | rfl | rfl | rfl | rfl | rfl | rfl | rfl | rfl | rfl | rfl |
    rfl | rfl
  · exact absurd rfl hv
  · exact found (Value.same_str.1 hgrammar.room)
  · exact hgrammar.source.elim found found
  · exact found h.to_machine
  · obtain ⟨s, hs, -⟩ := hgrammar.senderId
    exact found hs
  · rcases hgrammar.deliveryId with hnull | ⟨s, hs, -⟩
    · exact nullish hnull
    · exact found hs
  · rcases hgrammar.wake with hnull | ⟨b, hb⟩
    · exact nullish hnull
    · rw [hj, Option.some_inj] at hb
      rw [hb]
      exact .bool b
  · exact absurd rfl hexpires
  · obtain ⟨s, hs, -⟩ := hgrammar.nonce
    exact found hs
  · obtain ⟨s, hs, -⟩ := hgrammar.box
    exact found hs
  · have hdigest := (testDigest_orEmpty _).1 h.recipientKeyId
    rw [hj] at hdigest
    exact worded_of_digestLike hdigest
  · exact nullish hkey
  · exact nullish hrevision
  · exact nullish hpriority
  · exact nullish hgroup

/-! ## One text -/

theorem Submits.envelope_obj (h : Submits room id body now e w) : ∃ ms, e = .obj ms := by
  have hto := h.to_machine
  cases e with
  | obj ms => exact ⟨ms, rfl⟩
  | null | bool | num | str | arr => cases hto

theorem Submits.names (h : Submits room id body now (.obj ms) w) :
    ∀ name ∈ ms.map Prod.fst, name ∈ ENVELOPE_FIELDS := h.grammar.fields

theorem Member.stringify_alike {n : ℤ} {name : Str} {j k : Json} (h : Member n name j)
    (hjk : Alike j k) : stringify j = stringify k := by
  cases h with
  | version | expiresAt =>
    cases hjk with
    | num hsame => exact stringify_num_of_same hsame
  | word _ _ hword => rw [hjk.eq_of_worded hword]

/-- **The order of the members of an envelope is not in its text.** -/
theorem Submits.stringify_orderMembers (h : Submits room id body now e w) (hparsed : e.Parsed)
    (halike : Alike e e') : stringify (orderMembers e) = stringify (orderMembers e') := by
  obtain ⟨ms, rfl⟩ := h.envelope_obj
  obtain ⟨ns, rfl, hperm⟩ := halike.names rfl
  have hnodup : (ms.map Prod.fst).Nodup := by
    cases hparsed with
    | obj hnodup => exact hnodup
  have hvalues (name : Str) : Option.Rel (fun j k => stringify j = stringify k)
      ((orderMembers (.obj ms)).get name) ((orderMembers (.obj ns)).get name) := by
    rw [get_orderMembers, get_orderMembers]
    refine Value.rel_mono (halike.get hparsed name) fun j k hj hjk => ?_
    have hmem : name ∈ ms.map Prod.fst := isSome_lookup.1 (by
      change ((Json.obj ms).get name).isSome = true
      rw [hj]
      rfl)
    exact (h.member hj (h.names name hmem)).stringify_alike hjk
  have hmembers := stringifyMembers_congr (members_of_lookup (same_names hperm h.names)
    ((names_orderMembers ms).nodup_iff.2 hnodup) hvalues)
  rw [orderMembers, orderMembers, stringify, stringify, hmembers]

theorem canonical_congr (job : NormalizedJob) {j k : Json} (h : stringify j = stringify k) :
    NormalizedJob.canonical { job with envelope := j } =
      NormalizedJob.canonical { job with envelope := k } := by
  have hmembers : List.Forall₂ (fun m n : Str × Json => m.1 = n.1 ∧ stringify m.2 = stringify n.2)
      (NormalizedJob.tail { job with envelope := j })
      (NormalizedJob.tail { job with envelope := k }) :=
    .cons ⟨rfl, rfl⟩ (.cons ⟨rfl, h⟩ (List.forall₂_same.2 fun _ _ => ⟨rfl, rfl⟩))
  have hall := stringifyMembers_congr (.cons ⟨rfl, rfl⟩ (.cons ⟨rfl, rfl⟩ hmembers) :
    List.Forall₂ (fun m n : Str × Json => m.1 = n.1 ∧ stringify m.2 = stringify n.2)
      ((lit "notBefore", .int job.notBefore) :: (lit "expiresAt", .int job.expiresAt) :: _)
      ((lit "notBefore", .int job.notBefore) :: (lit "expiresAt", .int job.expiresAt) :: _))
  rw [NormalizedJob.canonical, NormalizedJob.canonical, NormalizedJob.toJson, NormalizedJob.toJson,
    stringify, stringify, hall]

theorem getD_alike {v v' : Value} (h : Option.Rel Alike v v') (hdigest : DigestLike v) :
    v'.getD .null = v.getD .null ∧ v' = v := by
  cases h with
  | none => exact ⟨rfl, rfl⟩
  | some h => exact ⟨(h.eq_of_worded (worded_of_digestLike hdigest)).symm,
      by rw [h.eq_of_worded (worded_of_digestLike hdigest)]⟩

/-- **Submissions that are alike have one text.** -/
theorem Submits.canonical_alike (h : Submits room id body now e w) (halike : Alike body body')
    (hparsed : body.Parsed) (he : Alike e e') :
    (submitted body' e' w).canonical = (submitted body e w).canonical := by
  have hget := halike.get hparsed
  have hacceptance := (getD_alike (hget (lit "acceptanceHash"))
    ((testDigest_orEmpty _).1 h.acceptanceHash)).1
  have hkey : body'.get (lit "writerSourceKeyId") = body.get (lit "writerSourceKeyId") := by
    rcases signed_iff.2 ⟨h.writerId, h.writerSourceKeyId, h.writer⟩ with ⟨-, hnone⟩ | ⟨-, hdigest⟩
    · have hrel := hget (lit "writerSourceKeyId")
      rw [hnone] at hrel ⊢
      exact Value.rel_none hrel
    · exact (getD_alike (hget _) hdigest).2
  have hwriter := Value.alike_str? (hget (lit "writerId"))
  have hsubmitted : submitted body' e' w =
      { submitted body e w with envelope := orderMembers e' } := by
    rw [submitted, submitted, hacceptance, hkey, hwriter]
  rw [hsubmitted, ← canonical_congr _ (h.stringify_orderMembers (hparsed.get h.envelope) he)]
  rfl

/-! ## One submission -/

/-- What the object that is serialized has at a name. -/
inductive Part (e : Json) (name : Str) : Json → Prop
  | time {n : ℤ} : name ∈ [lit "notBefore", lit "expiresAt"] → 0 ≤ n ∧ n ≤ Number.maxSafe →
    Part e name (.int n)
  | word {j : Json} : name ∈ [lit "acceptanceHash", lit "writerId", lit "writerSourceKeyId"] →
    j.Worded → Part e name j
  | envelope : name = lit "envelope" → Part e name (orderMembers e)

theorem Submits.signed (h : Submits room id body now e w) : Signed body :=
  signed_iff.2 ⟨h.writerId, h.writerSourceKeyId, h.writer⟩

/-- The writer members of an accepted submission, as they are serialized. -/
theorem Submits.writer_cases (h : Submits room id body now e w) :
    (body.get (lit "writerId") = none ∧ body.get (lit "writerSourceKeyId") = none) ∨
      ∃ s k, body.get (lit "writerId") = some (.str s) ∧
        body.get (lit "writerSourceKeyId") = some k ∧ k.Worded := by
  rcases h.signed with hnone | ⟨hid, hdigest⟩
  · exact .inl hnone
  · right
    obtain ⟨s, hs, -⟩ := Option.any_eq_true _ _ |>.1 hid
    cases hk : body.get (lit "writerSourceKeyId") with
    | none => exact absurd hdigest (by rw [hk]; unfold DigestLike; decide)
    | some k => exact ⟨s, k, Value.str?_eq_some.1 hs, rfl, worded_of_digestLike (hk ▸ hdigest)⟩

theorem Submits.acceptance (h : Submits room id body now e w) :
    ∃ j, body.get (lit "acceptanceHash") = some j ∧ j.Worded := by
  have hdigest := (testDigest_orEmpty _).1 h.acceptanceHash
  cases hj : body.get (lit "acceptanceHash") with
  | none => exact absurd hdigest (by rw [hj]; unfold DigestLike; decide)
  | some j => exact ⟨j, rfl, worded_of_digestLike (hj ▸ hdigest)⟩

/-- The members that are serialized after the two times. -/
theorem Submits.tail_eq (h : Submits room id body now e w) :
    ∃ j, body.get (lit "acceptanceHash") = some j ∧ j.Worded ∧
      ((body.get (lit "writerId") = none ∧ body.get (lit "writerSourceKeyId") = none ∧
          (submitted body e w).tail =
            [(lit "acceptanceHash", j), (lit "envelope", orderMembers e)]) ∨
        ∃ s k, body.get (lit "writerId") = some (.str s) ∧
          body.get (lit "writerSourceKeyId") = some k ∧ k.Worded ∧
          (submitted body e w).tail = [(lit "acceptanceHash", j), (lit "envelope", orderMembers e),
            (lit "writerId", .str s), (lit "writerSourceKeyId", k)]) := by
  obtain ⟨j, hj, hword⟩ := h.acceptance
  refine ⟨j, hj, hword, ?_⟩
  rcases h.writer_cases with ⟨hwriter, hkey⟩ | ⟨s, k, hwriter, hkey, hkword⟩
  · refine .inl ⟨hwriter, hkey, ?_⟩
    simp only [NormalizedJob.tail, submitted, hwriter, hj]
    rfl
  · refine .inr ⟨s, k, hwriter, hkey, hkword, ?_⟩
    simp only [NormalizedJob.tail, submitted, hwriter, hkey, hj]
    rfl

/-- The members of the object that is serialized. -/
def parts (body e : Json) (w : JobWindow) : List (Str × Json) :=
  (lit "notBefore", .int w.notBefore) :: (lit "expiresAt", .int w.expiresAt) ::
    (submitted body e w).tail

theorem Submits.part (h : Submits room id body now e w) {m : Str × Json} (hm : m ∈ parts body e w) :
    Part e m.1 m.2 := by
  have hbounds := w.bounds
  obtain ⟨j, -, hword, htail⟩ := h.tail_eq
  rcases List.mem_cons.1 hm with rfl | hm
  · exact .time (by simp) hbounds.1
  rcases List.mem_cons.1 hm with rfl | hm
  · exact .time (by simp) hbounds.2
  rcases htail with ⟨-, -, htail⟩ | ⟨s, k, -, -, hk, htail⟩
  · rw [htail] at hm
    simp only [List.mem_cons, List.not_mem_nil, or_false] at hm
    rcases hm with rfl | rfl
    · exact .word (by simp) hword
    · exact .envelope rfl
  · rw [htail] at hm
    simp only [List.mem_cons, List.not_mem_nil, or_false] at hm
    rcases hm with rfl | rfl | rfl | rfl
    · exact .word (by simp) hword
    · exact .envelope rfl
    · exact .word (by simp) (.str s)
    · exact .word (by simp) hk

/-- The members of two accepted envelopes with one expiry are told apart by their texts. -/
theorem cut_members_of {n : ℤ} {name : Str} {j k : Json} (hj : Member n name j)
    (hk : Member n name k) : Cut j k := by
  have hne : lit "v" ≠ lit "expiresAt" := by decide
  cases hj with
  | version hname hx =>
    cases hk with
    | version _ hy => exact cut_of_same (Number.same_trans hx (Number.same_comm _ _ ▸ hy))
    | expiresAt hname' => exact absurd (hname.symm.trans hname') hne
    | word hname' => exact absurd hname hname'
  | expiresAt hname hx =>
    cases hk with
    | version hname' => exact absurd (hname'.symm.trans hname) hne
    | expiresAt _ hy =>
      exact cut_of_same (Number.same_trans (Number.toInt?_eq_some_iff.1 hx)
        (Number.same_comm _ _ ▸ Number.toInt?_eq_some_iff.1 hy))
    | word _ hname' => exact absurd hname hname'
  | word hv hexpires hword =>
    cases hk with
    | version hname => exact absurd hname hv
    | expiresAt hname => exact absurd hname hexpires
    | word _ _ hword' => exact cut_worded hword hword'

theorem Submits.cut_envelopes (h : Submits room id body now e w)
    (h' : Submits room id body' now e' w') (he : e.Parsed) (he' : e'.Parsed)
    (hexpires : w.expiresAt = w'.expiresAt) : Cut (orderMembers e) (orderMembers e') := by
  obtain ⟨ms, rfl⟩ := h.envelope_obj
  obtain ⟨ns, rfl⟩ := h'.envelope_obj
  have member {body : Json} {w : JobWindow} {ms : List (Str × Json)} {m : Str × Json}
      (h : Submits room id body now (.obj ms) w) (he : (Json.obj ms).Parsed)
      (hm : m ∈ ms.insertionSort fun a b => localeLe a.1 b.1) : Member w.expiresAt m.1 m.2 := by
    have hmem := (List.perm_insertionSort _ _).mem_iff.1 hm
    cases he with
    | obj hnodup =>
      exact h.member (lookup_of_mem hnodup hmem) (h.names _ (List.mem_map_of_mem hmem))
  refine cut_obj fun m hm n hn hname => cut_members_of (member h he hm) ?_
  rw [hname, hexpires]
  exact member h' he' hn

theorem Part.cut {e e' : Json} {name : Str} {j k : Json} (hj : Part e name j) (hk : Part e' name k)
    (hcut : Cut (orderMembers e) (orderMembers e')) : Cut j k := by
  have htimes : ∀ a ∈ [lit "notBefore", lit "expiresAt"],
      a ∉ [lit "acceptanceHash", lit "writerId", lit "writerSourceKeyId"] ∧ a ≠ lit "envelope" := by
    decide
  have hwords : lit "envelope" ∉
      [lit "acceptanceHash", lit "writerId", lit "writerSourceKeyId"] := by decide
  cases hj with
  | time hname ha =>
    cases hk with
    | time _ hb => exact cut_int ha hb
    | word hname' => exact absurd hname' (htimes _ hname).1
    | envelope hname' => exact absurd hname' (htimes _ hname).2
  | word hname hword =>
    cases hk with
    | time hname' => exact absurd hname (htimes _ hname').1
    | word _ hword' => exact cut_worded hword hword'
    | envelope hname' => exact absurd (hname' ▸ hname) hwords
  | envelope hname =>
    cases hk with
    | time hname' => exact absurd hname (htimes _ hname').2
    | word hname' => exact absurd (hname ▸ hname') hwords
    | envelope => exact hcut

theorem parsed_orderMembers (hparsed : e.Parsed) : (orderMembers e).Parsed := by
  cases hparsed with
  | obj hnodup hvalues =>
    exact .obj ((names_orderMembers _).nodup_iff.2 hnodup) fun m hm =>
      hvalues m ((List.perm_insertionSort _ _).mem_iff.1 hm)
  | null => exact .null
  | bool b => exact .bool b
  | num x => exact .num x
  | str s => exact .str s
  | arr h => exact .arr h

/-- Objects are alike when their members are. -/
theorem alike_of_members_get {ms ns : List (Str × Json)} (hm : (Json.obj ms).Parsed)
    (hn : (Json.obj ns).Parsed)
    (h : ∀ name, Option.Rel Alike ((Json.obj ms).get name) ((Json.obj ns).get name)) :
    Alike (.obj ms) (.obj ns) := by
  cases hm with
  | obj hms =>
    cases hn with
    | obj hns => exact alike_of_get hms hns h

theorem Submits.body_obj (h : Submits room id body now e w) : ∃ ms, body = .obj ms := by
  have henvelope := h.envelope
  cases body with
  | obj ms => exact ⟨ms, rfl⟩
  | null | bool | num | str | arr => cases henvelope

theorem Submits.get_eq_none (h : Submits room id body now e w) {name : Str}
    (hname : name ∉ JOB_FIELDS) : body.get name = none := by
  obtain ⟨ms, rfl⟩ := h.body_obj
  refine lookup_eq_none fun hmem => hname ?_
  have hfields := (Bool.and_eq_true _ _).mp h.fields |>.2
  simpa using List.all_eq_true.1 hfields name hmem

/-- The members after the two times, read off their texts. -/
theorem Submits.tails_alike (h : Submits room id body now e w)
    (h' : Submits room id body' now e' w')
    (hrest : List.Forall₂ AlikeMembers (submitted body e w).tail (submitted body' e' w').tail) :
    Option.Rel Alike (body.get (lit "acceptanceHash")) (body'.get (lit "acceptanceHash")) ∧
      Alike (orderMembers e) (orderMembers e') ∧
      Option.Rel Alike (body.get (lit "writerId")) (body'.get (lit "writerId")) ∧
      Option.Rel Alike (body.get (lit "writerSourceKeyId"))
        (body'.get (lit "writerSourceKeyId")) := by
  obtain ⟨j, hj, -, htail⟩ := h.tail_eq
  obtain ⟨j', hj', -, htail'⟩ := h'.tail_eq
  rw [hj, hj']
  rcases htail with ⟨hw, hk, htail⟩ | ⟨s, k, hw, hk, -, htail⟩
  · rcases htail' with ⟨hw', hk', htail'⟩ | ⟨s', k', hw', hk', -, htail'⟩
    · rw [htail, htail'] at hrest
      simp only [List.forall₂_cons] at hrest
      rw [hw, hw', hk, hk']
      exact ⟨.some hrest.1.2, hrest.2.1.2, .none, .none⟩
    · rw [htail, htail'] at hrest
      exact absurd (show 2 = 4 from hrest.length_eq) (by decide)
  · rcases htail' with ⟨hw', hk', htail'⟩ | ⟨s', k', hw', hk', -, htail'⟩
    · rw [htail, htail'] at hrest
      exact absurd (show 4 = 2 from hrest.length_eq) (by decide)
    · rw [htail, htail'] at hrest
      simp only [List.forall₂_cons] at hrest
      rw [hw, hw', hk, hk']
      exact ⟨.some hrest.1.2, hrest.2.1.2, .some hrest.2.2.1.2, .some hrest.2.2.2.1.2⟩

/-- **Accepted submissions of one text are alike.** -/
theorem Submits.alike_of_canonical (h : Submits room id body now e w)
    (h' : Submits room id body' now e' w') (hparsed : body.Parsed) (hparsed' : body'.Parsed)
    (htext : (submitted body e w).canonical = (submitted body' e' w').canonical) :
    Alike body body' := by
  have he := hparsed.get h.envelope
  have he' := hparsed'.get h'.envelope
  have hexpires : w.expiresAt = w'.expiresAt := NormalizedJob.canonical_expiresAt htext
  -- the two texts are told apart part by part
  have hparts : List.Forall₂ AlikeMembers (parts body e w) (parts body' e' w') := by
    have hcut := h.cut_envelopes h' he he' hexpires
    have hobj : stringify (.obj (parts body e w)) ++ [] =
        stringify (.obj (parts body' e' w')) ++ [] := congrArg (· ++ []) htext
    rw [stringify_obj_append, stringify_obj_append] at hobj
    refine (cut_members (fun m hm n hn hname => (h.part hm).cut ?_ hcut) (List.cons.inj hobj).2).1
    rw [hname]
    exact h'.part hn
  obtain ⟨hfirst, hrest⟩ := List.forall₂_cons.1 hparts
  obtain ⟨-, hrest⟩ := List.forall₂_cons.1 hrest
  have hnotBefore : w.notBefore = w'.notBefore := by
    have halike : Alike (.int w.notBefore) (.int w'.notBefore) := hfirst.2
    cases halike with
    | num hsame => simpa using (Number.same_finite_iff le_rfl le_rfl).1 hsame
  obtain ⟨hacceptance, henvelope, hwriter, hkey⟩ := h.tails_alike h' hrest
  have hinner : Alike e e' := by
    have hget := henvelope.get (parsed_orderMembers he)
    obtain ⟨ms, rfl⟩ := h.envelope_obj
    obtain ⟨ns, rfl⟩ := h'.envelope_obj
    refine alike_of_members_get he he' fun name => ?_
    rw [← get_orderMembers (.obj ms), ← get_orderMembers (.obj ns)]
    exact hget name
  obtain ⟨ht, ht', -⟩ := jobWindow?_iff.1 h.window
  obtain ⟨hs, hs', -⟩ := jobWindow?_iff.1 h'.window
  have hget (name : Str) : Option.Rel Alike (body.get name) (body'.get name) := by
    by_cases hname : name ∈ JOB_FIELDS
    · have hfields : JOB_FIELDS = [lit "notBefore", lit "expiresAt", lit "acceptanceHash",
        lit "envelope", lit "writerId", lit "writerSourceKeyId"] := rfl
      rw [hfields] at hname
      simp only [List.mem_cons, List.not_mem_nil, or_false] at hname
      rcases hname with rfl | rfl | rfl | rfl | rfl | rfl
      · exact Value.alike_of_int? ht (hnotBefore ▸ hs)
      · exact Value.alike_of_int? ht' (hexpires ▸ hs')
      · exact hacceptance
      · rw [h.envelope, h'.envelope]
        exact .some hinner
      · exact hwriter
      · exact hkey
    · rw [h.get_eq_none hname, h'.get_eq_none hname]
      exact .none
  obtain ⟨ms, rfl⟩ := h.body_obj
  obtain ⟨ns, rfl⟩ := h'.body_obj
  exact alike_of_members_get hparsed hparsed' hget

end GrantTap
