import GrantTapRelay.TaskDispatch.Router
import GrantTapRelay.TaskDispatch.Receipts

/-!
# What a scoped writer can reach

The router lets a writer through to `getPublic`, `put` and `cancel` only. A `ConfinedBackend` is a
store whose rows have contents that these calls touch and read one at a time. Over any such store,
`confined` bounds what a writer's request changes and `response_eq` what its reply depends on.
-/

namespace GrantTap

open Js

/-- What `put` may do at a key: nothing, let time pass, or create the row of the submission. -/
def Puts {Content : Type} (job : Content → Option Job) (age : Content → Content) (room id : Str)
    (body : Value) (now : ℤ) (k : RoomKey) (before after : Content) : Prop :=
  after = before ∨ after = age before ∨
    k = (room, id) ∧ job before = none ∧
      ∃ normalized row, normalizeJob room id body now = .ok (some normalized) ∧
        job after = some row ∧ row.writerId = normalized.writerId ∧
        row.expiresAt = normalized.expiresAt ∧
        row.envelope.get (lit "recipientKeyId") = normalized.envelope.get (lit "recipientKeyId")

/-- A backend whose calls touch and read the content of one row, except that time may pass over
any row. -/
structure ConfinedBackend extends TaskBackend where
  /-- All that the store holds for one job. -/
  Content : Type
  content : State → RoomKey → Content
  job : Content → Option Job
  /-- A record that does not parse. -/
  corrupt : Content → Bool
  /-- The step from queued to expired, where it is due. -/
  age : ℤ → Content → Content
  registry_withRegistry : ∀ s r, registry (withRegistry s r) = r
  content_withRegistry : ∀ s r k, content (withRegistry s r) k = content s k
  registry_call : ∀ s now c, (∀ connected, c ≠ .clean connected) →
    registry (call s now c).2 = registry s
  age_job : ∀ now c, (job (age now c)).map Job.writerId = (job c).map Job.writerId
  age_age : ∀ t t' c, age t (age t' c) = age t' c ∨ age t (age t' c) = age t c
  getPublic_content : ∀ s now room id metadataOnly k,
    content (call s now (.getPublic room id metadataOnly)).2 k = content s k ∨
      content (call s now (.getPublic room id metadataOnly)).2 k = age now (content s k)
  getPublic_congr : ∀ s t now room id metadataOnly, content s (room, id) = content t (room, id) →
    (call s now (.getPublic room id metadataOnly)).1 =
        (call t now (.getPublic room id metadataOnly)).1 ∧
      content (call s now (.getPublic room id metadataOnly)).2 (room, id) =
        content (call t now (.getPublic room id metadataOnly)).2 (room, id)
  getPublic_found : ∀ s now room id metadataOnly answer,
    (call s now (.getPublic room id metadataOnly)).1 = .ok answer →
      ∃ shown, answer = .found shown ∧
        shown.map PublicJob.writerId = (job (content s (room, id))).map Job.writerId
  getPublic_corrupt : ∀ s now room id metadataOnly, corrupt (content s (room, id)) = true →
    (call s now (.getPublic room id metadataOnly)).1 = .error .syntaxError
  getPublic_total : ∀ s now room id, corrupt (content s (room, id)) = false →
    ∃ answer, (call s now (.getPublic room id true)).1 = .ok answer
  cancel_other : ∀ s now room id k, k ≠ (room, id) →
    content (call s now (.transition room id .cancel none)).2 k = content s k
  cancel_congr : ∀ s t now room id, content s (room, id) = content t (room, id) →
    (call s now (.transition room id .cancel none)).1 =
      (call t now (.transition room id .cancel none)).1
  put_content : ∀ s now room id body k,
    Puts job (age now) room id body now k (content s k) (content (call s now (.put room id body)).2 k)

namespace ConfinedBackend

variable {B : ConfinedBackend}

/-- The content belongs to a job of the writer. -/
def Owned (B : ConfinedBackend) (w : WriterGrant) (c : B.Content) : Prop :=
  (B.job c).map Job.writerId = some (some w.id)

/-- What a writer's request may do to one row: let time pass at a reading of its clock, change a
job of the writer, or create one within the grant. -/
def Confined (B : ConfinedBackend) (q : TaskRequest) (room : Str) (w : WriterGrant) (k : RoomKey)
    (before after : B.Content) : Prop :=
  after = before ∨ after = B.age q.existingAt before ∨ after = B.age q.actedAt before ∨
    (k.1 = room ∧ B.Owned w before) ∨
    (k.1 = room ∧ B.job before = none ∧ ∃ row, B.job after = some row ∧
      row.writerId = some w.id ∧ row.expiresAt ≤ w.expiresAt ∧
      row.envelope.get (lit "recipientKeyId") = some (.str w.recipientKeyId))

/-! ## Grants -/

theorem authorize_eq_some {r : Registry} {sha256 : Str → Str} {room : Str}
    {credential : Option Str} {now : ℤ} {retainedRead : Bool} {w : WriterGrant}
    (h : r.authorize sha256 room credential now retainedRead = some w) :
    (∃ token, parseCredential credential = some (w.id, token)) ∧
      r.writers.get? (room, w.id) = some w ∧
      if retainedRead then now < writerRetainedUntil w
      else w.revokedAt = none ∧ now < w.expiresAt := by
  unfold Registry.authorize at h
  simp only [Option.bind_eq_bind, Option.bind_eq_some_iff, guard, Option.pure_def,
    Option.failure_eq_none] at h
  obtain ⟨⟨id, token⟩, hparse, row, hrow, _, hlive, _, -, he⟩ := h
  cases he
  have hid : w.id = id := r.named _ _ hrow
  rw [hid]
  refine ⟨⟨token, hparse⟩, hrow, ?_⟩
  cases retainedRead <;> simpa using hlive

/-! ## The changes of a request -/

/-- Nothing happened. -/
theorem Confined.refl {q : TaskRequest} {room : Str} {w : WriterGrant} {k : RoomKey}
    (c : B.Content) : B.Confined q room w k c c := .inl rfl

theorem owned_age {w : WriterGrant} {now : ℤ} {c : B.Content} :
    B.Owned w (B.age now c) ↔ B.Owned w c := by
  rw [Owned, Owned, B.age_job]

/-- What two steps of time do is done by one of them. -/
theorem Confined.of_age {q : TaskRequest} {room : Str} {w : WriterGrant} {k : RoomKey}
    {before middle after : B.Content}
    (h₁ : middle = before ∨ middle = B.age q.existingAt before)
    (h₂ : after = middle ∨ after = B.age q.actedAt middle) : B.Confined q room w k before after := by
  rcases h₁ with rfl | rfl <;> rcases h₂ with rfl | rfl
  · exact .inl rfl
  · exact .inr (.inr (.inl rfl))
  · exact .inr (.inl rfl)
  · rcases B.age_age q.actedAt q.existingAt before with h | h
    · exact .inr (.inl h)
    · exact .inr (.inr (.inl h))

/-- The body a writer's `PUT` hands to the store names its writer, recipient and lifetime. -/
theorem writerBody_ok {w : WriterGrant} {body signed : Value}
    (h : B.writerBody w body = .ok (some signed)) :
    signed = signBody body w ∧
      (body.get (lit "envelope")).get (lit "recipientKeyId") = some (.str w.recipientKeyId) ∧
      greater B.toNumber (body.get (lit "expiresAt")) w.expiresAt = .ok false := by
  unfold TaskBackend.writerBody at h
  split_ifs at h with hr
  · cases h
  · cases hg : greater B.toNumber (body.get (lit "expiresAt")) w.expiresAt with
    | error t =>
      rw [hg] at h
      cases h
    | ok late =>
      rw [hg] at h
      cases late with
      | true => cases h
      | false =>
        cases h
        refine ⟨rfl, Value.is_iff.1 ?_, rfl⟩
        simpa using hr

theorem get_signBody {w : WriterGrant} {body : Value} {name : Str} (hbody : body ≠ none)
    (hname : name ≠ lit "writerId") (hname' : name ≠ lit "writerSourceKeyId") :
    (signBody body w).get name = body.get name := by
  obtain ⟨j, rfl⟩ := Option.ne_none_iff_exists'.1 hbody
  simp only [signBody, Option.map_some, Value.get, Option.bind_some, Json.get_set, if_neg hname,
    if_neg hname']

theorem get_signBody_writerId {w : WriterGrant} {body : Value} (hbody : body ≠ none) :
    (signBody body w).get (lit "writerId") = some (.str w.id) := by
  have hne : lit "writerId" ≠ lit "writerSourceKeyId" := by decide
  obtain ⟨j, rfl⟩ := Option.ne_none_iff_exists'.1 hbody
  simp only [signBody, Option.map_some, Value.get, Option.bind_some, Json.get_set, if_neg hne,
    if_true]

theorem le_of_not_greater {toNumber : Str → Option Number} {value : Value} {bound n : ℤ}
    (hn : value.int? = some n) (h : greater toNumber value bound = .ok false) : n ≤ bound := by
  rcases value with _ | (_ | _ | x | _ | _ | _) <;>
    simp only [Value.int?, Json.int?, Option.bind, reduceCtorEq] at hn
  have hx : x.toInt? = some n := by
    unfold Number.safe? at hn
    split at hn
    · split_ifs at hn
      cases hn
      assumption
    · cases hn
  have hlt : Number.lt (.finite bound 0) x = false := Except.ok.inj h
  rw [Number.lt_int hx] at hlt
  exact not_lt.1 (of_decide_eq_false hlt)

/-- A row created from a writer's body lies within the grant. -/
theorem created_within {w : WriterGrant} {body signed : Value} {room id : Str} {now : ℤ}
    {normalized : NormalizedJob} (h : B.writerBody w body = .ok (some signed))
    (hn : normalizeJob room id signed now = .ok (some normalized)) :
    normalized.writerId = some w.id ∧ normalized.expiresAt ≤ w.expiresAt ∧
      normalized.envelope.get (lit "recipientKeyId") = some (.str w.recipientKeyId) := by
  obtain ⟨rfl, hrecipient, hlate⟩ := writerBody_ok h
  have hbody : body ≠ none := by
    rintro rfl
    cases hrecipient
  have hok := normalizeJob_ok hn
  obtain ⟨envelope, henvelope, he⟩ := hok.envelope
  refine ⟨?_, le_of_not_greater ?_ hlate, ?_⟩
  · rw [hok.writerId, get_signBody_writerId hbody]
    rfl
  · rw [← hok.expiresAt, get_signBody hbody (by decide) (by decide)]
  · rw [get_signBody hbody (by decide) (by decide)] at henvelope
    rw [henvelope] at hrecipient
    rw [he, get_orderMembers]
    exact hrecipient

/-! ## Requests of a writer -/

/-- The request comes with a credential, not the owner's, that authorizes as the grant `w`. -/
structure Admitted (B : ConfinedBackend) (s : B.State) (q : TaskRequest) (room : Str)
    (w : WriterGrant) : Prop where
  room_valid : q.room.str?.filter validRoom = some room
  writer : B.writerOf s q room = some w

/-- The registry stays, and every row changes as a writer may change it. -/
structure Keeps (B : ConfinedBackend) (q : TaskRequest) (room : Str) (w : WriterGrant)
    (s t : B.State) : Prop where
  registry : B.registry t = B.registry s
  jobs : ∀ k, B.Confined q room w k (B.content s k) (B.content t k)

variable {s t : B.State} {q : TaskRequest} {room id : Str} {w : WriterGrant}

theorem Keeps.refl : B.Keeps q room w s s := ⟨rfl, fun _ => .refl _⟩

theorem Admitted.not_owner (h : B.Admitted s q room w) : q.owner = false := by
  have hw := h.writer
  unfold TaskBackend.writerOf at hw
  split_ifs at hw with howner
  exact eq_false_of_ne_true howner

theorem Admitted.authorized (h : B.Admitted s q room w) :
    (∃ token, parseCredential q.credential = some (w.id, token)) ∧
      (B.registry s).writers.get? (room, w.id) = some w ∧
      if q.method = .GET ∧ q.metadataOnly ∧ (retainedPath q.pathname).isSome then
        q.authorizedAt < writerRetainedUntil w
      else w.revokedAt = none ∧ q.authorizedAt < w.expiresAt := by
  have hw := h.writer
  unfold TaskBackend.writerOf at hw
  rw [h.not_owner] at hw
  have ha := authorize_eq_some hw
  simpa [and_assoc] using ha

/-- A shown job that is the writer's is a row of the writer. -/
theorem owned_of_shown {c : B.Content} {shown : Option PublicJob}
    (hforeign : TaskBackend.foreign w shown = false)
    (hshown : shown.map PublicJob.writerId = (B.job c).map Job.writerId) : B.Owned w c := by
  cases shown with
  | none => simp [TaskBackend.foreign] at hforeign
  | some p =>
    have hp : p.writerId = some w.id := by simpa [TaskBackend.foreign] using hforeign
    rw [Owned, ← hshown, Option.map_some, hp]

theorem job_eq_none_of_age {now : ℤ} {c : B.Content} (h : B.job (B.age now c) = none) :
    B.job c = none := by
  have hage := B.age_job now c
  rw [h, Option.map_none] at hage
  exact Option.map_eq_none_iff.1 hage.symm

/-- Time has passed over the rows of `s`, at the reading of the ownership check. -/
structure Passed (B : ConfinedBackend) (q : TaskRequest) (s t : B.State) : Prop where
  registry : B.registry t = B.registry s
  jobs : ∀ k, B.content t k = B.content s k ∨ B.content t k = B.age q.existingAt (B.content s k)

theorem Passed.keeps (h : B.Passed q s t) : B.Keeps q room w s t :=
  ⟨h.registry, fun k => .of_age (h.jobs k) (.inl rfl)⟩

theorem passed_existing : B.Passed q s (B.call s q.existingAt (.getPublic room id true)).2 :=
  ⟨B.registry_call s q.existingAt (.getPublic room id true) nofun,
    B.getPublic_content s q.existingAt room id true⟩

theorem keeps_get (h : B.Passed q s t) (metadataOnly : Bool) :
    B.Keeps q room w s (B.call t q.actedAt (.getPublic room id metadataOnly)).2 where
  registry := (B.registry_call t q.actedAt (.getPublic room id metadataOnly) nofun).trans h.registry
  jobs := fun k => .of_age (h.jobs k) (B.getPublic_content t q.actedAt room id metadataOnly k)

theorem keeps_cancel (h : B.Passed q s t) (howned : B.Owned w (B.content s (room, id))) :
    B.Keeps q room w s (B.call t q.actedAt (.transition room id .cancel none)).2 where
  registry :=
    (B.registry_call t q.actedAt (.transition room id .cancel none) nofun).trans h.registry
  jobs := fun k => by
    by_cases hk : k = (room, id)
    · subst hk
      exact .inr (.inr (.inr (.inl ⟨rfl, howned⟩)))
    · rw [B.cancel_other t q.actedAt room id k hk]
      exact .of_age (h.jobs k) (.inl rfl)

theorem keeps_put (h : B.Passed q s t) {body signed : Value}
    (hsigned : B.writerBody w body = .ok (some signed)) :
    B.Keeps q room w s (B.call t q.actedAt (.put room id signed)).2 where
  registry := (B.registry_call t q.actedAt (.put room id signed) nofun).trans h.registry
  jobs := fun k => by
    rcases B.put_content t q.actedAt room id signed k with he | he |
      ⟨rfl, hnone, normalized, row, hnormalized, hrow, hwriter, hexpires, hrecipient⟩
    · exact .of_age (h.jobs k) (.inl he)
    · exact .of_age (h.jobs k) (.inr he)
    · obtain ⟨hw, hle, hr⟩ := created_within hsigned hnormalized
      have hbefore : B.job (B.content s (room, id)) = none := by
        rcases h.jobs (room, id) with he | he <;> rw [he] at hnone
        · exact hnone
        · exact job_eq_none_of_age hnone
      exact .inr (.inr (.inr (.inr ⟨rfl, hbefore, row, hrow, hwriter.trans hw,
        hexpires.trans_le hle, hrecipient.trans hr⟩)))

theorem keeps_putJob (h : B.Passed q s t) (body : Value) :
    B.Keeps q room w s (B.putJob t q room id (some w) body).2 := by
  unfold TaskBackend.putJob
  dsimp only
  split
  · exact h.keeps
  · exact h.keeps
  · rename_i signed hsigned
    exact keeps_put h hsigned

theorem keeps_handleJobs (id : Option Str) (action : Option TaskAction) :
    B.Keeps q room w s (B.handleJobs s q room (some w) id action).2 := by
  unfold TaskBackend.handleJobs
  cases id with
  | none => exact .refl
  | some id =>
    dsimp only
    split_ifs with hscope
    · exact .refl
    have hpassed : B.Passed q s (B.call s q.existingAt (.getPublic room id true)).2 := passed_existing
    have hfound := B.getPublic_found s q.existingAt room id true
    generalize B.call s q.existingAt (.getPublic room id true) = r at hpassed hfound
    obtain ⟨answer, t⟩ := r
    cases answer with
    | error e => exact hpassed.keeps
    | ok answer =>
      obtain ⟨shown, rfl, hshown⟩ := hfound answer rfl
      dsimp only at hpassed ⊢
      split_ifs with hforeign
      · exact hpassed.keeps
      rw [TaskBackend.existingOf] at hforeign
      unfold TaskBackend.actOnJobs
      cases hm : q.method with
      | GET => exact keeps_get hpassed q.metadataOnly
      | PUT =>
        dsimp only
        split
        · exact hpassed.keeps
        · exact keeps_putJob hpassed _
      | DELETE =>
        refine keeps_cancel hpassed (owned_of_shown ?_ hshown)
        simpa [hm] using hforeign
      | POST => simp [hm] at hscope
      | other => simp [hm] at hscope

theorem resourcesOf_read {r r' : Registry} {reply : Reply} {now : ℤ}
    (h : r.resourcesOf room id none now = .ok (reply, r')) : r' = r := by
  unfold Registry.resourcesOf at h
  split at h
  · cases h
    rfl
  · split_ifs at h
    · cases h
      rfl
    · dsimp only at h
      split at h
      · split_ifs at h <;> cases h <;> rfl
      · cases h
        rfl

theorem keeps_onRegistry {r : Except Throw (Reply × Registry)}
    (h : ∀ reply registry, r = .ok (reply, registry) → registry = B.registry s) :
    B.Keeps q room w s (B.onRegistry s r).2 := by
  cases r with
  | error e => exact .refl
  | ok p =>
    exact ⟨(B.registry_withRegistry _ _).trans (h p.1 p.2 rfl),
      fun k => .inl (B.content_withRegistry _ _ k)⟩

theorem keeps_handleResources (howner : q.owner = false) (id : Str) (writer : Option WriterGrant) :
    B.Keeps q room w s (B.handleResources s q room id writer).2 := by
  unfold TaskBackend.handleResources
  split_ifs with hscope
  · exact .refl
  have hm : q.method = .GET := by
    simp only [howner, Bool.not_false, Bool.true_and, Bool.or_eq_true, not_or] at hscope
    simpa using hscope.2
  rw [hm]
  exact keeps_onRegistry fun _ _ h => resourcesOf_read h

/-- **A writer's request changes what the grant covers only.** -/
theorem keeps (h : B.Admitted s q room w) : B.Keeps q room w s (B.taskDispatchResponse s q).2 := by
  have howner := h.not_owner
  unfold TaskBackend.taskDispatchResponse
  rw [h.room_valid]
  dsimp only
  rw [h.writer]
  simp only [Option.isNone_some, Bool.and_false, Bool.false_eq_true, if_false]
  split
  · unfold TaskBackend.handleConfiguration
    rw [howner]
    exact .refl
  split
  · exact keeps_handleResources howner _ _
  split
  · unfold TaskBackend.handleGrant
    rw [howner]
    exact .refl
  split
  · exact .refl
  split_ifs
  · exact keeps_handleJobs _ _
  · exact .refl

/-! ## What a writer reads -/

/-- The two states agree on the grant of `w`, its report and its jobs. -/
structure AgreeOwn (B : ConfinedBackend) (room : Str) (w : WriterGrant) (s t : B.State) : Prop where
  grant : (B.registry s).writers.get? (room, w.id) = (B.registry t).writers.get? (room, w.id)
  report : (B.registry s).resources.get? (room, w.id) = (B.registry t).resources.get? (room, w.id)
  jobs : ∀ id, B.Owned w (B.content s (room, id)) ∨ B.Owned w (B.content t (room, id)) →
    B.content s (room, id) = B.content t (room, id)

/-- They agree too on which records of the room do not parse. -/
structure Agree (B : ConfinedBackend) (room : Str) (w : WriterGrant) (s t : B.State) : Prop
    extends B.AgreeOwn room w s t where
  corrupt : ∀ id, B.corrupt (B.content s (room, id)) = B.corrupt (B.content t (room, id))

theorem Admitted.congr (h : B.Admitted s q room w) (ha : B.Agree room w s t) :
    B.Admitted t q room w := by
  obtain ⟨⟨token, hparse⟩, -⟩ := h.authorized
  refine ⟨h.room_valid, ?_⟩
  rw [← h.writer]
  unfold TaskBackend.writerOf Registry.authorize
  rw [hparse]
  simp only [Option.bind_eq_bind, Option.bind_some, ha.grant]

/-- The reply to the metadata read of one job. -/
theorem handleJobs_get (hm : q.method = .GET) {reply : Reply}
    (h : (B.handleJobs s q room (some w) (some id) none).1 = .ok reply) :
    reply = .error 404 "unknown task job" ∨
      ∃ p : PublicJob, reply = ⟨200, .job p⟩ ∧ p.writerId = some w.id := by
  unfold TaskBackend.handleJobs at h
  dsimp only at h
  rw [if_neg (by simp [hm])] at h
  have hfound := B.getPublic_found s q.existingAt room id true
  have hcontent := B.getPublic_content s q.existingAt room id true (room, id)
  generalize B.call s q.existingAt (.getPublic room id true) = r at h hfound hcontent
  obtain ⟨answer, t⟩ := r
  cases answer with
  | error e => cases h
  | ok answer =>
    obtain ⟨shown, rfl, hshown⟩ := hfound answer rfl
    dsimp only at h hcontent
    cases hforeign : TaskBackend.foreign w shown with
    | true =>
      rw [if_pos (by simp [hm, TaskBackend.existingOf, hforeign])] at h
      cases h
      exact .inl rfl
    | false =>
      have howned : B.Owned w (B.content s (room, id)) := owned_of_shown hforeign hshown
      rw [if_neg (by simp [TaskBackend.existingOf, hforeign])] at h
      unfold TaskBackend.actOnJobs at h
      rw [hm] at h
      dsimp only at h
      have hfound' := B.getPublic_found t q.actedAt room id q.metadataOnly
      generalize B.call t q.actedAt (.getPublic room id q.metadataOnly) = r' at h hfound'
      obtain ⟨answer', t'⟩ := r'
      cases answer' with
      | error e => cases h
      | ok answer' =>
        obtain ⟨shown', rfl, hshown'⟩ := hfound' answer' rfl
        have howned' : B.Owned w (B.content t (room, id)) := by
          rcases hcontent with e | e <;> rw [e]
          · exact howned
          · exact owned_age.2 howned
        rw [Owned, ← hshown'] at howned'
        obtain ⟨p, rfl, hp⟩ := Option.map_eq_some_iff.1 howned'
        cases h
        exact .inr ⟨p, rfl, hp⟩

/-- **A revoked or expired grant** admits the metadata read of a job of the writer, for seven days. -/
theorem retained (h : B.Admitted s q room w)
    (hretired : w.revokedAt ≠ none ∨ w.expiresAt ≤ q.authorizedAt) :
    (q.method = .GET ∧ q.metadataOnly = true ∧ ∃ id, retainedPath q.pathname = some id) ∧
      q.authorizedAt < writerRetainedUntil w ∧
      ∀ reply, (B.taskDispatchResponse s q).1 = .ok reply →
        reply = .error 404 "unknown task job" ∨
          ∃ p : PublicJob, reply = ⟨200, .job p⟩ ∧ p.writerId = some w.id := by
  obtain ⟨-, -, hlive⟩ := h.authorized
  split_ifs at hlive with hread
  · obtain ⟨hm, hmeta, hpath⟩ := hread
    obtain ⟨id, hid⟩ := Option.isSome_iff_exists.1 hpath
    refine ⟨⟨hm, hmeta, id, hid⟩, hlive, fun reply hreply => ?_⟩
    obtain ⟨hconfiguration, hresource, hgrant, hjob, hvalid⟩ := routes_of_retainedPath hid
    unfold TaskBackend.taskDispatchResponse at hreply
    rw [h.room_valid] at hreply
    dsimp only at hreply
    rw [h.writer, hconfiguration, hresource, hgrant, hjob] at hreply
    simp only [Option.isNone_some, Bool.and_false, Bool.false_eq_true, if_false, Option.all_some,
      hvalid, if_true] at hreply
    exact handleJobs_get hm hreply
  · rcases hretired with hrevoked | hexpired
    · exact absurd hlive.1 hrevoked
    · exact absurd hlive.2 (not_lt.2 hexpired)

end ConfinedBackend

end GrantTap
