import GrantTapRelay.Library.Histories
import GrantTapRelay.TaskDispatch.OneReceiver

/-!
# Offers of due jobs

`src/taskDispatch/socket-offers.js`. A socket keeps the time of its last offer of each job, and a
round asks the store for the first due job among those that were not offered in the last 15 s.

An `OfferWorld` is a store with the rounds of one socket, between which any calls may come. The map
of the socket is exactly the offers of the last 15 s (`excluded_iff`), so a round offers the job
that the store puts first once older offers are forgotten (`next_round`). Hence a job hides another
one precisely when such an offer is forgotten while the other one still waits.

* `no_job_hidden_iff`: over every run, when no job hides another one;
* `lapsed_offer_hides`: two rounds that lie 15 s apart, the pace of the alarm of a Worker.
-/

namespace GrantTap

open Js Runs

/-! ## One round -/

/-- What a machine's socket that takes task jobs registered. -/
structure TaskSocket where
  room : Str
  recipientKeyId : Option Str

/-- The map `offered` of a socket. -/
abbrev Offered := Table Str ℤ

/-- The offer of a job at `time` excludes it from another one. -/
def excludes (now time : ℤ) : Bool := now - time < 15000

/-- The map without the offers that lapsed. -/
def dropLapsed (offered : Offered) (now : ℤ) : Offered :=
  offered.filter fun _ time => excludes now time

/-- The ids of the map. -/
def Offered.ids (offered : Offered) : List Str := offered.rows.map Prod.fst

/-- The loop over the due jobs, with those that were sent. -/
def offerLoop (send : PublicJob → Bool) (now : ℤ) :
    Offered → List PublicJob → Offered × List PublicJob
  | offered, [] => (offered, [])
  | offered, job :: jobs =>
    if (offered.get? job.id).any (excludes now) then offerLoop send now offered jobs
    else if send job then
      let r := offerLoop send now (offered.put job.id now) jobs
      (r.1, job :: r.2)
    else offerLoop send now offered jobs

/-- What a round leaves: the store, the map and the jobs that were sent. -/
structure OfferOutcome (S : JobStore) where
  state : S.State
  offered : Offered
  sent : List PublicJob

/-- `offerTaskJobs`; the lapsed offers are dropped before `due` may throw. -/
def offerTaskJobs (S : JobStore) (peer : TaskSocket) (send : PublicJob → Bool) (state : S.State)
    (offered : Offered) (now : ℤ) : OfferOutcome S :=
  match peer.recipientKeyId with
  | none => ⟨state, offered, []⟩
  | some [] => ⟨state, offered, []⟩
  | some (unit :: units) =>
    let offered := dropLapsed offered now
    let r := S.call state now (.due peer.room (unit :: units) offered.ids)
    match r.1 with
    | .ok (.jobs jobs) =>
      let sent := offerLoop send now offered jobs
      ⟨r.2, sent.1, sent.2⟩
    | _ => ⟨r.2, offered, []⟩

/-! ## Runs -/

/-- A round: the store it found, its time and the ids it offered. -/
structure OfferRound (S : JobStore) where
  state : S.State
  now : ℤ
  sent : List Str

/-- A store, and the rounds of one socket in order. -/
structure OfferWorld (S : JobStore) where
  state : S.State
  clock : ℤ
  offered : Offered
  rounds : List (OfferRound S)

namespace OfferWorld

variable {S : JobStore}

def start (clock : ℤ) : OfferWorld S := ⟨S.empty, clock, .empty, []⟩

/-- A call to the store, or a round whose sends succeed. -/
def next (w : OfferWorld S) (peer : TaskSocket) (now : ℤ) : Option TaskCall → OfferWorld S
  | some c => { w with state := (S.call w.state now c).2, clock := now }
  | none =>
    let r := offerTaskJobs S peer (fun _ => true) w.state w.offered now
    { state := r.state, clock := now, offered := r.offered
      rounds := w.rounds ++ [⟨w.state, now, r.sent.map (·.id)⟩] }

/-- Calls and rounds come at non-decreasing times. -/
def Step (peer : TaskSocket) (w : OfferWorld S) (l : ℤ × Option TaskCall) (w' : OfferWorld S) :
    Prop := w.clock ≤ l.1 ∧ w' = w.next peer l.1 l.2

end OfferWorld

/-! ## Hidden jobs -/

variable {S : JobStore} {peer : TaskSocket}

/-- The job is queued for the recipient of the socket, and due. -/
def OfferRound.due (peer : TaskSocket) (r : OfferRound S) (id : Str) : Bool :=
  (S.job r.state (peer.room, id)).any fun row =>
    row.state = .queued && row.notBefore ≤ r.now && r.now < row.expiresAt &&
      peer.recipientKeyId.any fun key => (row.envelope.get (lit "recipientKeyId")).is key

/-- **No job hides another one**: between two offers of a job, every job that was due at all the
rounds has been offered. -/
def NoJobHidden (peer : TaskSocket) (rounds : List (OfferRound S)) : Prop :=
  ∀ older q mid r later a b, rounds = older ++ q :: (mid ++ r :: later) → a ∈ q.sent →
    a ∈ r.sent → (∀ x ∈ q :: (mid ++ [r]), x.due peer b = true) →
      ∃ x ∈ older ++ q :: (mid ++ [r]), b ∈ x.sent

/-- The ids that the rounds offered in the last 15 s. -/
def recentOffers (rounds : List (OfferRound S)) (now : ℤ) : List Str :=
  (rounds.filter fun x => excludes now x.now).flatMap (·.sent)

/-- The job is the first due one that was not offered in the last 15 s. -/
def Leads (peer : TaskSocket) (before : List (OfferRound S)) (r : OfferRound S) (a : Str) : Prop :=
  ∃ key job, peer.recipientKeyId = some key ∧ key ≠ [] ∧ job.id = a ∧
    (S.call r.state r.now (.due peer.room key (recentOffers before r.now))).1 = .ok (.jobs [job])

/-- The first due job was offered 15 s ago or earlier, and another one that was due ever since has
not been offered. -/
def LapsedLeads (peer : TaskSocket) (before : List (OfferRound S)) (r : OfferRound S) : Prop :=
  ∃ older q mid a b, before = older ++ q :: mid ∧ a ∈ q.sent ∧ 15000 ≤ r.now - q.now ∧
    Leads peer before r a ∧ (∀ x ∈ q :: (mid ++ [r]), x.due peer b = true) ∧
      ∀ x ∈ before, b ∉ x.sent

/-! ## The two stores -/

theorem contains_congr {excluded excluded' : List Str} (h : ∀ id, id ∈ excluded ↔ id ∈ excluded')
    (id : Str) : excluded.contains id = excluded'.contains id := by
  rw [Bool.eq_iff_iff, List.contains_iff_mem, List.contains_iff_mem]
  exact h id

/-- What the answers of `due` have in common: at most one job, which is not excluded, and nothing
but the excluded ids counts of their list. -/
structure OffersOne (S : JobStore) : Prop where
  answer : ∀ state now room key excluded a,
    (S.call state now (.due room key excluded)).1 = .ok a →
      a = .jobs [] ∨ ∃ job, a = .jobs [job] ∧ job.id ∉ excluded
  congr : ∀ state now room key excluded excluded', (∀ id, id ∈ excluded ↔ id ∈ excluded') →
    S.call state now (.due room key excluded) = S.call state now (.due room key excluded')

theorem NodeTasks.due_answer {s t : NodeTasks} {room key : Str} {now : ℤ} {excluded : List Str}
    {jobs : List PublicJob} (h : s.due room key now excluded = .ok (jobs, t)) :
    jobs = [] ∨ ∃ job, jobs = [job] ∧ job.id ∉ excluded := by
  obtain ⟨hjobs, -⟩ := Prod.mk.inj (Except.ok.inj h)
  have hlength : jobs.length ≤ 1 := by
    rw [← hjobs, List.length_map]
    exact List.length_take_le _ _
  have hid : ∀ job ∈ jobs, job.id ∉ excluded := by
    intro job hjob
    rw [← hjobs] at hjob
    obtain ⟨due, htaken, rfl⟩ := List.mem_map.1 hjob
    obtain ⟨row, -, hrow⟩ := List.mem_filterMap.1
      ((List.mem_insertionSort _).1 (List.mem_of_mem_take htaken))
    cases row with
    | corrupt record => cases hrow
    | saved row =>
      dsimp only at hrow
      split_ifs at hrow with hdue
      cases hrow
      simp only [isDue, Bool.and_eq_true, Bool.not_eq_true', Bool.eq_false_iff, ne_eq,
        List.contains_iff_mem] at hdue
      exact hdue.2
  clear h hjobs
  rcases jobs with - | ⟨job, - | ⟨other, jobs⟩⟩
  · exact .inl rfl
  · exact .inr ⟨job, rfl, hid job List.mem_cons_self⟩
  · simp at hlength

theorem NodeTasks.offersOne (sha256 : Str → Str) : OffersOne (NodeTasks.store sha256) where
  answer state now room key excluded a h := by
    obtain ⟨r, hr⟩ : ∃ r, NodeTasks.due state room key now excluded = .ok r := ⟨_, rfl⟩
    have hjobs : TaskAnswer.jobs r.1 = a := by
      cases hr
      cases h
      rfl
    rw [← hjobs]
    exact (due_answer hr).imp (congrArg TaskAnswer.jobs)
      fun ⟨job, hjob, hid⟩ => ⟨job, congrArg TaskAnswer.jobs hjob, hid⟩
  congr state now room key excluded excluded' h := by
    have hdue : isDue key now excluded = isDue key now excluded' := funext fun row => by
      unfold isDue
      rw [contains_congr h]
    have hcall (s : NodeTasks) : s.due room key now excluded = s.due room key now excluded' := by
      unfold NodeTasks.due
      rw [hdue]
    exact congrArg (fun r => NodeTasks.transact state (NodeTasks.answer TaskAnswer.jobs r))
      (hcall state)

theorem WorkerTasks.hydrateTaskJob_id {sha256 : Str → Str} {s : WorkerTasks} {input row : Job}
    (h : s.hydrateTaskJob sha256 input = .ok row) : row.id = input.id := by
  unfold hydrateTaskJob at h
  split at h
  · cases h
    rfl
  · split_ifs at h
    · cases h
    · obtain ⟨chunks, -, h⟩ := except_bind_ok.1 h
      dsimp only at h
      split_ifs at h
      · cases h
      · cases h
        rfl

theorem WorkerTasks.offersOne (sha256 : Str → Str) : OffersOne (WorkerTasks.store sha256) where
  answer state now room key excluded a h := by
    change ((state.1.due sha256 room key now excluded).1.map TaskAnswer.jobs) = .ok a at h
    obtain ⟨jobs, hjobs, rfl⟩ := except_map_ok.1 h
    unfold WorkerTasks.due at hjobs
    split at hjobs
    · cases hjobs
    · dsimp only at hjobs
      split at hjobs
      · cases hjobs
        exact .inl rfl
      · rename_i next hnext
        obtain ⟨row, hrow, rfl⟩ := except_map_ok.1 hjobs
        refine .inr ⟨publicJob row, rfl, ?_⟩
        have hmem := List.mem_of_mem_head? hnext
        rw [List.mem_insertionSort, List.mem_filter] at hmem
        have hdue := hmem.2
        simp only [isDue, Bool.and_eq_true, Bool.not_eq_true', List.contains_iff_mem,
          Bool.eq_false_iff, ne_eq] at hdue
        have hid : (publicJob row).id = next.id := hydrateTaskJob_id hrow
        exact hid ▸ hdue.2
  congr state now room key excluded excluded' h := by
    have hdue : isDue key now excluded = isDue key now excluded' := funext fun row => by
      unfold isDue
      rw [contains_congr h]
    have hcall : state.1.due sha256 room key now excluded =
        state.1.due sha256 room key now excluded' := by
      unfold WorkerTasks.due
      rw [hdue]
    refine Prod.ext ?_ (Subtype.ext ?_)
    · exact congrArg (fun r : WorkerTasks.Partly (List PublicJob) => r.1.map TaskAnswer.jobs) hcall
    · exact congrArg (fun r : WorkerTasks.Partly (List PublicJob) => r.2) hcall

theorem Runtime.offersOne (sha256 : Str → Str) : ∀ runtime : Runtime,
    OffersOne (runtime.store sha256)
  | node => NodeTasks.offersOne sha256
  | worker => WorkerTasks.offersOne sha256

/-! ## The recipient of an offer -/

/-- The jobs that are due for a recipient are encrypted to it. -/
def DueAddressed (S : JobStore) : Prop :=
  ∀ state now room key excluded jobs,
    (S.call state now (.due room key excluded)).1 = .ok (.jobs jobs) →
      ∀ job ∈ jobs, job.envelope.get (lit "recipientKeyId") = some (.str key)

theorem NodeTasks.dueAddressed (sha256 : Str → Str) : DueAddressed (NodeTasks.store sha256) := by
  intro state now room key excluded jobs h job hjob
  cases h
  obtain ⟨row, hrow, rfl⟩ := List.mem_map.1 hjob
  obtain ⟨saved, -, hsaved⟩ :=
    List.mem_filterMap.1 ((List.mem_insertionSort _).1 (List.mem_of_mem_take hrow))
  cases saved with
  | corrupt record => cases hsaved
  | saved saved =>
    dsimp only at hsaved
    split_ifs at hsaved with hdue
    cases hsaved
    simp only [isDue, Bool.and_eq_true, Value.is_iff] at hdue
    exact hdue.1.1.1.2

theorem WorkerTasks.hydrateTaskJob_recipient {sha256 : Str → Str} {s : WorkerTasks}
    {input row : Job} (h : s.hydrateTaskJob sha256 input = .ok row) :
    row.envelope.get (lit "recipientKeyId") = input.envelope.get (lit "recipientKeyId") := by
  unfold hydrateTaskJob at h
  split at h
  · cases h
    rfl
  · split_ifs at h
    · cases h
    · obtain ⟨chunks, -, h⟩ := except_bind_ok.1 h
      dsimp only at h
      split_ifs at h
      · cases h
      · cases h
        exact (Json.get_set ..).trans (if_neg (by decide))

theorem WorkerTasks.dueAddressed (sha256 : Str → Str) : DueAddressed (WorkerTasks.store sha256) := by
  intro state now room key excluded jobs h job hjob
  change ((state.1.due sha256 room key now excluded).1.map TaskAnswer.jobs) = .ok (.jobs jobs) at h
  obtain ⟨jobs', hjobs, he⟩ := except_map_ok.1 h
  cases he
  unfold WorkerTasks.due at hjobs
  split at hjobs
  · cases hjobs
  · dsimp only at hjobs
    split at hjobs
    · cases hjobs
      cases hjob
    · rename_i next hnext
      obtain ⟨row, hrow, rfl⟩ := except_map_ok.1 hjobs
      have hmem := List.mem_of_mem_head? hnext
      rw [List.mem_insertionSort, List.mem_filter] at hmem
      have hdue := hmem.2
      simp only [isDue, Bool.and_eq_true, Value.is_iff] at hdue
      rw [List.mem_singleton.1 hjob]
      exact (hydrateTaskJob_recipient hrow).trans hdue.1.2

theorem Runtime.dueAddressed (sha256 : Str → Str) : ∀ runtime : Runtime,
    DueAddressed (runtime.store sha256)
  | node => NodeTasks.dueAddressed sha256
  | worker => WorkerTasks.dueAddressed sha256

theorem mem_offerLoop {send : PublicJob → Bool} {now : ℤ} {job : PublicJob} :
    ∀ {offered : Offered} {jobs : List PublicJob},
      job ∈ (offerLoop send now offered jobs).2 → job ∈ jobs
  | _, [], h => h
  | offered, first :: jobs, h => by
    unfold offerLoop at h
    split_ifs at h
    · exact List.mem_cons_of_mem _ (mem_offerLoop h)
    · rcases List.mem_cons.1 h with rfl | h
      · exact List.mem_cons_self
      · exact List.mem_cons_of_mem _ (mem_offerLoop h)
    · exact List.mem_cons_of_mem _ (mem_offerLoop h)

/-- **A job is offered to its recipient only.** -/
theorem offerTaskJobs_addressed (addressed : DueAddressed S) {send : PublicJob → Bool}
    {state : S.State} {offered : Offered} {now : ℤ} {job : PublicJob}
    (h : job ∈ (offerTaskJobs S peer send state offered now).sent) :
    ∃ key, peer.recipientKeyId = some key ∧
      job.envelope.get (lit "recipientKeyId") = some (.str key) := by
  unfold offerTaskJobs at h
  split at h
  · cases h
  · cases h
  · rename_i unit units hkey
    dsimp only at h
    split at h
    · rename_i jobs hjobs
      exact ⟨_, hkey, addressed _ _ _ _ _ _ hjobs job (mem_offerLoop h)⟩
    · cases h

/-! ## The map of a socket -/

theorem mem_ids_dropLapsed {offered : Offered} {now : ℤ} {id : Str} :
    id ∈ (dropLapsed offered now).ids ↔
      ∃ time, offered.get? id = some time ∧ excludes now time = true := by
  rw [← not_iff_not, Offered.ids, ← Table.get?_eq_none, dropLapsed, Table.get?_filter]
  cases offered.get? id with
  | none => simp
  | some time => simp [Option.filter_some]

theorem mem_recentOffers {rounds : List (OfferRound S)} {now : ℤ} {id : Str} :
    id ∈ recentOffers rounds now ↔ ∃ x ∈ rounds, id ∈ x.sent ∧ excludes now x.now = true := by
  simp only [recentOffers, List.mem_flatMap, List.mem_filter]
  exact ⟨fun ⟨x, ⟨hx, hnow⟩, hid⟩ => ⟨x, hx, hid, hnow⟩,
    fun ⟨x, hx, hid, hnow⟩ => ⟨x, ⟨hx, hnow⟩, hid⟩⟩

/-- An offer that excludes its job later excludes it now. -/
theorem excludes_of_le {now later time : ℤ} (h : now ≤ later) (he : excludes later time = true) :
    excludes now time = true := by
  have := of_decide_eq_true he
  exact decide_eq_true (by omega)

/-- What a round does with the first job that is due and not excluded. -/
theorem offerTaskJobs_cases (one : OffersOne S) (peer : TaskSocket) (state : S.State)
    (offered : Offered) (now : ℤ) :
    ((offerTaskJobs S peer (fun _ => true) state offered now).sent = [] ∧
        ((offerTaskJobs S peer (fun _ => true) state offered now).offered = offered ∨
          (offerTaskJobs S peer (fun _ => true) state offered now).offered =
            dropLapsed offered now) ∧
        ∀ key job, peer.recipientKeyId = some key → key ≠ [] →
          (S.call state now (.due peer.room key (dropLapsed offered now).ids)).1 ≠
            .ok (.jobs [job])) ∨
      ∃ key job, peer.recipientKeyId = some key ∧ key ≠ [] ∧
        (S.call state now (.due peer.room key (dropLapsed offered now).ids)).1 =
          .ok (.jobs [job]) ∧
        job.id ∉ (dropLapsed offered now).ids ∧
        (offerTaskJobs S peer (fun _ => true) state offered now).sent = [job] ∧
        (offerTaskJobs S peer (fun _ => true) state offered now).offered =
          (dropLapsed offered now).put job.id now := by
  unfold offerTaskJobs
  split
  · rename_i hkey
    exact .inl ⟨rfl, .inl rfl, fun key job hk => absurd (hkey.symm.trans hk) (by simp)⟩
  · rename_i hkey
    refine .inl ⟨rfl, .inl rfl, fun key job hk hne => absurd ?_ hne⟩
    exact (Option.some.inj (hkey.symm.trans hk)).symm
  · rename_i unit units hkey
    have hsame : ∀ key, peer.recipientKeyId = some key → key = unit :: units := fun key hk =>
      Option.some.inj (hk.symm.trans hkey)
    dsimp only
    split
    · rename_i jobs hjobs
      rcases one.answer _ _ _ _ _ _ hjobs with hnone | ⟨job, hone, hout⟩
      · cases hnone
        refine .inl ⟨rfl, .inr rfl, fun key job hk _ => ?_⟩
        rw [hsame key hk, hjobs]
        simp
      · cases hone
        have hget : (dropLapsed offered now).get? job.id = none := Table.get?_eq_none.2 hout
        refine .inr ⟨_, job, hkey, List.cons_ne_nil _ _, hjobs, hout, ?_⟩
        simp [offerLoop, hget]
    · rename_i hjobs
      exact .inl ⟨rfl, .inr rfl, fun key job hk _ he => hjobs [job] (hsame key hk ▸ he)⟩

/-! ## Every round of a run -/

namespace OfferWorld

/-- The map of the socket is the offers of the last 15 s. -/
def Tracks (w : OfferWorld S) : Prop :=
  ∀ now, w.clock ≤ now → ∀ id, id ∈ (dropLapsed w.offered now).ids ↔ id ∈ recentOffers w.rounds now

/-- Every round offers the job that the store puts first once older offers are forgotten. -/
def Leading (peer : TaskSocket) (rounds : List (OfferRound S)) : Prop :=
  ∀ before r later, rounds = before ++ r :: later →
    (∀ a, a ∈ r.sent ↔ Leads peer before r a) ∧ ∀ a ∈ r.sent, a ∉ recentOffers before r.now

theorem Tracks.call {w : OfferWorld S} (h : w.Tracks) {now : ℤ} (hnow : w.clock ≤ now)
    (c : TaskCall) : (w.next peer now (some c)).Tracks :=
  fun later hlater => h later (hnow.trans hlater)

theorem Tracks.round (one : OffersOne S) {w : OfferWorld S} (h : w.Tracks) {now : ℤ}
    (hnow : w.clock ≤ now) : (w.next peer now none).Tracks := by
  intro later hlater id
  have hlater : now ≤ later := hlater
  have hold := h later (hnow.trans hlater) id
  rw [mem_ids_dropLapsed, mem_recentOffers] at hold ⊢
  have hdropped : (∃ time, (dropLapsed w.offered now).get? id = some time ∧
      excludes later time = true) ↔
        ∃ time, w.offered.get? id = some time ∧ excludes later time = true := by
    simp only [dropLapsed, Table.get?_filter, Option.filter_eq_some_iff]
    exact ⟨fun ⟨time, ⟨ht, _⟩, he⟩ => ⟨time, ht, he⟩,
      fun ⟨time, ht, he⟩ => ⟨time, ⟨ht, excludes_of_le hlater he⟩, he⟩⟩
  simp only [next, List.mem_append, List.mem_singleton, or_and_right, exists_or, exists_eq_left]
  rw [← hold]
  rcases offerTaskJobs_cases one peer w.state w.offered now with
    ⟨hsent, hoffered, -⟩ | ⟨key, job, -, -, -, hout, hsent, hoffered⟩
  · rw [hsent]
    rcases hoffered with he | he
    · simp [he]
    · rw [he, hdropped]
      simp
  · rw [hsent, hoffered]
    by_cases hid : id = job.id
    · subst hid
      have hnone : ¬∃ time, w.offered.get? job.id = some time ∧ excludes later time = true := by
        rintro ⟨time, ht, he⟩
        exact hout (mem_ids_dropLapsed.2 ⟨time, ht, excludes_of_le hlater he⟩)
      simp only [Table.get?_put, if_true, Option.some.injEq, exists_eq_left', hnone, false_or,
        List.map_cons, List.map_nil, List.mem_singleton, true_and]
    · simp only [Table.get?_put, hid, if_false, hdropped, List.map_cons, List.map_nil,
        List.mem_singleton, false_and, or_false]

theorem Leading.round (one : OffersOne S) {w : OfferWorld S} (htracks : w.Tracks)
    (h : Leading peer w.rounds) {now : ℤ} (hnow : w.clock ≤ now) :
    Leading peer (w.next peer now none).rounds := by
  intro before r later he
  rcases Histories.split_snoc he with ⟨-, rfl, rfl⟩ | ⟨rest, -, he⟩
  · have hsame := htracks now hnow
    have hcall (key : Str) := one.congr w.state now peer.room key _ _ hsame
    rcases offerTaskJobs_cases one peer w.state w.offered now with
      ⟨hsent, -, hnone⟩ | ⟨key, job, hkey, hne, hjob, hout, hsent, -⟩
    · rw [hsent]
      refine ⟨fun a => iff_of_false List.not_mem_nil ?_, fun a ha => absurd ha List.not_mem_nil⟩
      rintro ⟨key, job, hkey, hne, -, hjob⟩
      exact hnone key job hkey hne ((congrArg Prod.fst (hcall key)).trans hjob)
    · simp only [hsent, List.map_cons, List.map_nil]
      refine ⟨fun a => ?_, fun a ha => ?_⟩
      · rw [List.mem_singleton]
        constructor
        · rintro rfl
          exact ⟨key, job, hkey, hne, rfl, (congrArg Prod.fst (hcall key)).symm.trans hjob⟩
        · rintro ⟨key', job', hkey', -, rfl, hjob'⟩
          rw [hkey] at hkey'
          cases hkey'
          have hboth := hjob.symm.trans ((congrArg Prod.fst (hcall key)).trans hjob')
          cases hboth
          rfl
      · rw [List.mem_singleton.1 ha]
        exact fun hmem => hout ((hsame _).2 hmem)
  · exact h before r rest he

theorem run_leading (one : OffersOne S) {clock : ℤ} {labels : List (ℤ × Option TaskCall)}
    {w : OfferWorld S} (hrun : Run (Step peer) (start clock) labels w) : Leading peer w.rounds := by
  have hstart : (start clock : OfferWorld S).Tracks ∧
      Leading peer (start clock : OfferWorld S).rounds :=
    ⟨fun _ _ _ => Iff.rfl, fun before r later he => by
      have hnil := congrArg List.length he
      simp [start] at hnil⟩
  refine (hrun.invariant (I := fun w => w.Tracks ∧ Leading peer w.rounds) ?_ hstart).2
  rintro w ⟨now, c⟩ w' ⟨htracks, hleading⟩ ⟨hnow, rfl⟩
  cases c with
  | some c => exact ⟨htracks.call hnow c, hleading⟩
  | none => exact ⟨htracks.round one hnow, hleading.round one htracks hnow⟩

end OfferWorld

/-! ## When no job hides another one -/

theorem Leads.unique {before : List (OfferRound S)} {r : OfferRound S} {a b : Str}
    (ha : Leads peer before r a) (hb : Leads peer before r b) : a = b := by
  obtain ⟨key, job, hkey, -, rfl, hjob⟩ := ha
  obtain ⟨key', job', hkey', -, rfl, hjob'⟩ := hb
  rw [hkey] at hkey'
  cases hkey'
  have hboth := hjob.symm.trans hjob'
  cases hboth
  rfl

/-- **When no job hides another one.** Over every run of rounds of a socket, at non-decreasing times
and with any calls in between, on either runtime's store: no job is offered twice while another one
stays due and is never offered, exactly if at no round the first due job has a lapsed offer while
another one waits since. -/
theorem no_job_hidden_iff (sha256 : Str → Str) (runtime : Runtime) (peer : TaskSocket) {clock : ℤ}
    {labels : List (ℤ × Option TaskCall)} {w : OfferWorld (runtime.store sha256)}
    (hrun : Run (OfferWorld.Step peer) (OfferWorld.start clock) labels w) :
    NoJobHidden peer w.rounds ↔
      ∀ before r later, w.rounds = before ++ r :: later → ¬LapsedLeads peer before r := by
  have hleading := OfferWorld.run_leading (runtime.offersOne sha256) hrun
  constructor
  · rintro h before r later he ⟨older, q, mid, a, b, rfl, haq, -, hleads, hdue, hnever⟩
    have har := ((hleading _ r later he).1 a).2 hleads
    rw [List.append_assoc, List.cons_append] at he
    obtain ⟨x, hx, hbx⟩ := h older q mid r later a b he haq har hdue
    rw [← List.cons_append, ← List.append_assoc, List.mem_append, List.mem_singleton] at hx
    rcases hx with hx | rfl
    · exact hnever x hx hbx
    · have hab := Leads.unique hleads (((hleading _ x later (by rw [he]; simp)).1 b).1 hbx)
      exact hnever q (by simp) (hab ▸ haq)
  · intro h older q mid r later a b he haq har hdue
    have hsplit : w.rounds = (older ++ q :: mid) ++ r :: later := by
      rw [he, List.append_assoc, List.cons_append]
    obtain ⟨hsent, hout⟩ := hleading _ r later hsplit
    have hlapsed : 15000 ≤ r.now - q.now := by
      by_contra hlt
      refine hout a har (mem_recentOffers.2 ⟨q, by simp, haq, decide_eq_true ?_⟩)
      omega
    by_contra hnone
    refine h _ r later hsplit
      ⟨older, q, mid, a, b, rfl, haq, hlapsed, (hsent a).1 har, hdue, fun x hx hbx => hnone ?_⟩
    refine ⟨x, ?_, hbx⟩
    rw [← List.cons_append, ← List.append_assoc]
    exact List.mem_append_left _ hx

/-! ## Two jobs -/

section Sample

/-- A job that is due from `notBefore` and expires at 90000. -/
def dueBody (id : String) (notBefore : ℤ) : Value := some <| .obj
  [(lit "notBefore", .int notBefore), (lit "expiresAt", .int 90000),
    (lit "acceptanceHash", .str (sampleDigest 'b')),
    (lit "envelope", .obj
      [(lit "v", .int 1), (lit "room", .str sampleRoom), (lit "from", .text "phone"),
        (lit "to", .text "machine"), (lit "senderId", .text "phone"),
        (lit "deliveryId", .text id), (lit "recipientKeyId", .str (sampleDigest 'a')),
        (lit "expiresAt", .int 90000), (lit "nonce", .str (List.replicate 32 65)),
        (lit "box", .str (List.replicate 24 65))])]

def dueSocket : TaskSocket := ⟨sampleRoom, some (sampleDigest 'a')⟩

/-- Two jobs are put, then two rounds come, the second one at `second`. -/
def dueLabels (second : ℤ) : List (ℤ × Option TaskCall) :=
  [(1000, some (.put sampleRoom (lit "job-00000001") (dueBody "job-00000001" 0))),
    (1000, some (.put sampleRoom (lit "job-00000002") (dueBody "job-00000002" 500))),
    (2000, none), (second, none)]

def dueWorld (runtime : Runtime) (second : ℤ) :
    OfferWorld (runtime.store fun _ => sampleDigest 'b') :=
  (dueLabels second).foldl (fun w l => w.next dueSocket l.1 l.2) (.start 0)

theorem dueWorld_run (runtime : Runtime) {second : ℤ} (h : 2000 ≤ second) :
    Run (OfferWorld.Step dueSocket) (.start 0) (dueLabels second) (dueWorld runtime second) :=
  .cons ⟨show (0 : ℤ) ≤ 1000 by omega, rfl⟩ <| .cons ⟨show (1000 : ℤ) ≤ 1000 by omega, rfl⟩ <|
    .cons ⟨show (1000 : ℤ) ≤ 2000 by omega, rfl⟩ <| .cons ⟨h, rfl⟩ <| .nil _

/-- A round within 15 s offers the other job. -/
theorem no_job_hidden_sample :
    ((dueWorld .node 3000).rounds.map (·.sent) = [[lit "job-00000001"], [lit "job-00000002"]] ∧
      (dueWorld .worker 3000).rounds.map (·.sent) = [[lit "job-00000001"], [lit "job-00000002"]]) ∧
      ∀ runtime, NoJobHidden dueSocket (dueWorld runtime 3000).rounds ↔
        ∀ before r later, (dueWorld runtime 3000).rounds = before ++ r :: later →
          ¬LapsedLeads dueSocket before r :=
  ⟨by decide +kernel,
    fun runtime => no_job_hidden_iff _ runtime dueSocket (dueWorld_run runtime (by omega))⟩

/-- What the two rounds 15 s apart offered and found due. -/
theorem dueWorld_lapsed (runtime : Runtime) :
    ∃ q r, (dueWorld runtime 17000).rounds = [q, r] ∧ q.sent = [lit "job-00000001"] ∧
      r.sent = [lit "job-00000001"] ∧ q.due dueSocket (lit "job-00000002") = true ∧
      r.due dueSocket (lit "job-00000002") = true := by
  cases runtime with
  | node => exact ⟨_, _, rfl, by decide +kernel⟩
  | worker => exact ⟨_, _, rfl, by decide +kernel⟩

theorem dueWorld_hides (runtime : Runtime) :
    ¬NoJobHidden dueSocket (dueWorld runtime 17000).rounds := by
  intro h
  obtain ⟨q, r, hrounds, hq, hr, hdueq, hduer⟩ := dueWorld_lapsed runtime
  have hhidden := h [] q [] r [] (lit "job-00000001") (lit "job-00000002") hrounds
    (by rw [hq]; exact List.mem_cons_self)
    (by rw [hr]; exact List.mem_cons_self)
    (by simp only [List.nil_append, List.mem_cons, List.not_mem_nil, or_false, forall_eq_or_imp,
          forall_eq]; exact ⟨hdueq, hduer⟩)
  obtain ⟨x, hx, hid⟩ := hhidden
  simp only [List.nil_append, List.mem_cons, List.not_mem_nil, or_false] at hx
  have hne : lit "job-00000002" ∉ [lit "job-00000001"] := by decide
  rcases hx with rfl | rfl
  · exact hne (hq ▸ hid)
  · exact hne (hr ▸ hid)

/-- **A lapsed offer hides a job**: when the rounds come every 15 s, the pace of the alarm of a
Worker, the first job is offered again, and the second one is not. -/
theorem lapsed_offer_hides :
    (¬∀ (labels : List (ℤ × Option TaskCall)) (w : OfferWorld _),
      Run (OfferWorld.Step dueSocket) (.start 0) labels w → NoJobHidden (S := Runtime.store
        (fun _ => sampleDigest 'b') .node) dueSocket w.rounds) ∧
      ¬∀ (labels : List (ℤ × Option TaskCall)) (w : OfferWorld _),
        Run (OfferWorld.Step dueSocket) (.start 0) labels w → NoJobHidden (S := Runtime.store
          (fun _ => sampleDigest 'b') .worker) dueSocket w.rounds :=
  ⟨fun h => dueWorld_hides .node (h _ _ (dueWorld_run .node (by omega))),
    fun h => dueWorld_hides .worker (h _ _ (dueWorld_run .worker (by omega)))⟩

end Sample

end GrantTap
