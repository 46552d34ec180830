import GrantTapRelay.Library.Runs
import GrantTapRelay.TaskDispatch.RoomRegistry

/-!
# Grants, reports and configurations on both runtimes

The Node relay keeps the grants, the resource reports and the configurations of all rooms in three
tables; on the Worker every room has its object. Expired configurations are deleted at different
times, but nobody is shown them.

* `Registry.Alike.ask`: **one request** on registries that show the same.
* `Registries.Agreeing.next`: one request to both runtimes, or a clean-up of one of them.
* `grants_and_configurations_agree`: **what both runtimes answer**, in any run.
-/

namespace GrantTap

open Js Expiring Loads

namespace Registry

variable {sha256 : Str → Str} {s s' t : Registry} {room room' id : Str} {now now' : ℤ}

/-! ### What a request answers -/

/-- Reading a configuration. -/
theorem getConfiguration_eq (s : Registry) (room id : Str) (now : ℤ) :
    (s.getConfiguration room id now).1 = (if isDigest id then
        (live Configuration.expiresAt now (s.configurationsOf room) id).map visible else none) ∧
      ((s.getConfiguration room id now).2 = s ∨
        (s.getConfiguration room id now).2 = s.eraseConfiguration room id ∧
          live Configuration.expiresAt now (s.configurationsOf room) id = none) := by
  unfold getConfiguration live configurationsOf
  split_ifs with hid
  · cases hrow : s.configurations.get? (room, id) with
    | none => exact ⟨rfl, .inl rfl⟩
    | some row =>
      dsimp only
      by_cases hexpired : row.expiresAt ≤ now
      · rw [if_pos hexpired, Option.filter_some, if_neg (by simpa using hexpired)]
        exact ⟨rfl, .inr ⟨rfl, rfl⟩⟩
      · rw [if_neg hexpired, Option.filter_some, if_pos (by simpa using hexpired)]
        exact ⟨rfl, .inl rfl⟩
  · exact ⟨rfl, .inl rfl⟩

theorem Alike.getConfiguration (ha : Alike now room s t) (id : Str) :
    (s.getConfiguration room id now).1 = (t.getConfiguration room id now).1 ∧
      Alike now room (s.getConfiguration room id now).2 (t.getConfiguration room id now).2 := by
  obtain ⟨hs, hs'⟩ := getConfiguration_eq s room id now
  obtain ⟨ht, ht'⟩ := getConfiguration_eq t room id now
  have herase {s : Registry}
      (h : live Configuration.expiresAt now (s.configurationsOf room) id = none) :
      Alike now room (s.eraseConfiguration room id) s := by
    refine ⟨rfl, rfl, ?_⟩
    rw [configurationsOf_eraseConfiguration]
    exact Expiring.Alike.erase h
  have hkept {s s' : Registry} (h : s' = s ∨ s' = s.eraseConfiguration room id ∧
      live Configuration.expiresAt now (s.configurationsOf room) id = none) :
      Alike now room s' s := by
    rcases h with rfl | ⟨rfl, hnone⟩
    · exact ⟨rfl, rfl, .refl _ _⟩
    · exact herase hnone
  have hs' := hkept hs'
  have ht' := hkept ht'
  refine ⟨by rw [hs, ht, ha.configurations.live_eq], ?_, ?_, ?_⟩
  · rw [hs'.grants, ht'.grants, ha.grants]
  · rw [hs'.reports, ht'.reports, ha.reports]
  · exact (hs'.configurations.trans ha.configurations).trans ht'.configurations.symm

/-- **One request** on registries that are alike. -/
theorem Alike.ask (ha : Alike now room s t) (hs : Within now room s) (ht : Within now room t)
    (op : RecordRequest) :
    (s.ask sha256 commitWriterGrant room now op).1 =
        (t.ask sha256 commitWriterGrant room now op).1 ∧
      Alike now room (s.ask sha256 commitWriterGrant room now op).2
        (t.ask sha256 commitWriterGrant room now op).2 := by
  have hgrant (id : Str) : s.writers.get? (room, id) = t.writers.get? (room, id) :=
    congrFun ha.grants id
  have hreport (id : Str) : s.resources.get? (room, id) = t.resources.get? (room, id) :=
    congrFun ha.reports id
  cases op with
  | putWriter id body =>
    unfold Registry.ask putWriter
    dsimp only
    cases writerRow id body now with
    | none => exact ⟨rfl, ha⟩
    | some row =>
      dsimp only
      cases hprevious : s.grantsOf room row.id with
      | some previous =>
        rw [commitWriterGrant_some hprevious,
          commitWriterGrant_some ((congrFun ha.grants row.id).symm.trans hprevious)]
        exact ⟨rfl, ha⟩
      | none =>
        rw [commitWriterGrant_none hs.grants hprevious, commitWriterGrant_none ht.grants
          ((congrFun ha.grants row.id).symm.trans hprevious), retainedCount_congr ha.grants]
        split_ifs
        · exact ⟨rfl, ha.dropped⟩
        · exact ⟨rfl, ha.dropped.putGrant row⟩
  | revoke id =>
    unfold Registry.ask revoke
    dsimp only
    rw [hgrant id]
    cases t.writers.get? (room, id) with
    | none => exact ⟨rfl, ha.deleteResources id⟩
    | some row =>
      dsimp only
      split_ifs
      · exact ⟨rfl, (ha.putGrant _).deleteResources id⟩
      · exact ⟨rfl, ha.deleteResources id⟩
  | authorize credential retainedRead =>
    refine ⟨?_, ha⟩
    unfold Registry.ask authorize
    simp only [hgrant]
  | resources id body =>
    unfold Registry.ask resourcesOf
    dsimp only
    rw [hgrant id]
    cases t.writers.get? (room, id) with
    | none => exact ⟨rfl, ha⟩
    | some grant =>
      dsimp only
      split_ifs
      · exact ⟨rfl, ha⟩
      · cases body with
        | none =>
          dsimp only
          rw [hreport id]
          cases t.resources.get? (room, id) with
          | none => exact ⟨rfl, ha⟩
          | some report =>
            dsimp only
            split_ifs
            · exact ⟨rfl, ha⟩
            · exact ⟨rfl, ha⟩
        | some body =>
          dsimp only
          cases validReport grant room body now with
          | error t => exact ⟨rfl, ha⟩
          | ok envelope =>
            cases envelope with
            | none => exact ⟨rfl, ha⟩
            | some envelope =>
              refine ⟨rfl, ha.grants, funext fun id' => ?_, ha.configurations⟩
              simp only [reportsOf, Table.get?_put, hreport]
  | putConfiguration id body =>
    unfold Registry.ask putConfiguration
    dsimp only
    cases configurationRow room id body now with
    | error verdict => cases verdict <;> exact ⟨rfl, ha⟩
    | ok row =>
      dsimp only
      rw [commitConfiguration_eq hs, commitConfiguration_eq ht, activeConfigurations_congr ha]
      split_ifs
      · exact ⟨rfl, (ha.dropExpired hs ht).storeConfiguration row⟩
      · exact ⟨rfl, ha.dropExpired hs ht⟩
  | getConfiguration id =>
    have hget := ha.getConfiguration id
    unfold Registry.ask
    refine ⟨?_, hget.2⟩
    dsimp only
    rw [hget.1]

/-! ### Clean-ups -/

/-- At most expired configurations are gone. -/
def Faded (now : ℤ) (s s' : Registry) : Prop :=
  s'.writers = s.writers ∧ s'.resources = s.resources ∧ ∀ k,
    s'.configurations.get? k = s.configurations.get? k ∨
      s'.configurations.get? k = none ∧
        ∃ row, s.configurations.get? k = some row ∧ row.expiresAt ≤ now

theorem faded_maintainNode (s : Registry) (now : ℤ) : Faded now s (s.maintainNode now) := by
  refine ⟨rfl, rfl, fun k => ?_⟩
  unfold maintainNode
  dsimp only
  rw [Table.get?_filter]
  cases s.configurations.get? k with
  | none => exact .inl rfl
  | some row =>
    by_cases hrow : now < row.expiresAt
    · exact .inl (by simp [Option.filter_some, hrow])
    · exact .inr ⟨by simp [Option.filter_some, hrow], row, rfl, Int.not_lt.1 hrow⟩

theorem faded_maintainWorker (s : Registry) (now : ℤ) : Faded now s (s.maintainWorker now).2 := by
  unfold maintainWorker
  refine List.foldlRecOn (motive := fun acc : Option ℤ × Registry => Faded now s acc.2) _ _
    ⟨rfl, rfl, fun k => .inl rfl⟩ fun acc hacc r hr => ?_
  obtain ⟨hwriters, hresources, hconfigurations⟩ := hacc
  have hrow : s.configurations.get? r.1 = some r.2 :=
    Table.mem_rows.1 ((List.mem_insertionSort _).1 (List.mem_of_mem_take hr))
  split_ifs with hexpired
  · refine ⟨hwriters, hresources, fun k => ?_⟩
    dsimp only
    rw [Table.get?_erase]
    split_ifs with hk
    · exact .inr ⟨rfl, r.2, hk ▸ hrow, hexpired⟩
    · exact hconfigurations k
  · exact ⟨hwriters, hresources, hconfigurations⟩

theorem Alike.faded (h : Faded now s s') (room : Str) : Alike now room s' s := by
  obtain ⟨hwriters, hresources, hconfigurations⟩ := h
  refine ⟨by unfold grantsOf; rw [hwriters], by unfold reportsOf; rw [hresources],
    .of_live fun id => ?_⟩
  unfold live configurationsOf
  rcases hconfigurations (room, id) with hsame | ⟨hgone, row, hrow, hexpired⟩
  · rw [hsame]
  · rw [hgone, hrow, Option.filter_some, if_neg (by simpa using hexpired), Option.filter_none]

theorem Within.faded (hs : Within now room s) (h : Faded now s s') : Within now room s' := by
  have halike := Alike.faded h room
  have hold (id : Str) : s'.configurationsOf room id = s.configurationsOf room id ∨
      s'.configurationsOf room id = none :=
    (h.2.2 (room, id)).imp_right fun hgone => hgone.1
  refine ⟨halike.grants ▸ hs.grants, hs.configurations.mono fun id => ?_,
    hs.bytes.mono fun id => ?_, fun id row hrow => ?_⟩
  · rcases hold id with hsame | hgone
    · rw [hsame]
    · rw [hgone]
      exact Nat.zero_le _
  · rw [halike.configurations.live_eq]
  · rcases hold id with hsame | hgone
    · exact hs.named id row (hsame ▸ hrow)
    · rw [hgone] at hrow
      cases hrow

end Registry

/-! ## Both runtimes -/

/-- The tables of the Node database, and those in the objects of the rooms. -/
structure Registries where
  node : Registry
  objects : Str → Registry

/-- A request that both runtimes get, or a clean-up of one of them. -/
inductive RegistryEvent
  | ask (room : Str) (op : RecordRequest)
  | cleanNode
  | cleanObject (room : Str)

namespace Registries

variable {sha256 : Str → Str} {p : Registries} {now now' : ℤ}

def empty : Registries := ⟨.empty, fun _ => .empty⟩

def next (sha256 : Str → Str) (p : Registries) (e : ℤ × RegistryEvent) : Registries :=
  match e.2 with
  | .ask room op =>
    { node := (p.node.ask sha256 Registry.commitWriterNode room e.1 op).2
      objects := Function.update p.objects room
        ((p.objects room).ask sha256 Registry.commitWriterGrant room e.1 op).2 }
  | .cleanNode => { p with node := p.node.maintainNode e.1 }
  | .cleanObject room =>
    { p with objects := Function.update p.objects room ((p.objects room).maintainWorker e.1).2 }

/-- Both runtimes after some events. -/
def after (sha256 : Str → Str) (events : List (ℤ × RegistryEvent)) : Registries :=
  events.foldl (next sha256) empty

/-- Both show the same of every room, and keep its limits. -/
structure Agreeing (now : ℤ) (p : Registries) : Prop where
  alike : ∀ room, Registry.Alike now room p.node (p.objects room)
  node : ∀ room, Registry.Within now room p.node
  objects : ∀ room, Registry.Within now room (p.objects room)

theorem Agreeing.later (h : Agreeing now p) (hle : now ≤ now') : Agreeing now' p where
  alike room := (h.alike room).later hle
  node room := (h.node room).later hle
  objects room := (h.objects room).later hle

theorem agreeing_empty (now : ℤ) : Agreeing now empty := by
  have hwithin (room : Str) : Registry.Within now room .empty :=
    ⟨bounded_empty fun _ => rfl, bounded_empty fun _ => rfl, bounded_empty fun _ => rfl,
      fun _ _ h => by cases h⟩
  exact ⟨fun room => ⟨rfl, rfl, .refl _ _⟩, hwithin, hwithin⟩

/-- On Node a request counts as it does on the Worker. -/
theorem ask_node {s : Registry} {room : Str} (h : Registry.Within now room s) (op : RecordRequest) :
    s.ask sha256 Registry.commitWriterNode room now op =
      s.ask sha256 Registry.commitWriterGrant room now op := by
  cases op with
  | putWriter id body =>
    unfold Registry.ask Registry.putWriter
    dsimp only
    cases writerRow id body now with
    | none => rfl
    | some row =>
      dsimp only
      rw [Registry.commitWriterNode_eq h.grants]
  | _ => rfl

/-- **One event** keeps the runtimes agreeing. -/
theorem Agreeing.next (event : RegistryEvent) (h : Agreeing now p) :
    Agreeing now (p.next sha256 (now, event)) := by
  cases event with
  | ask room op =>
    unfold Registries.next
    dsimp only
    rw [ask_node (h.node room)]
    have hmoves := Registry.ask_moves sha256 (h.node room) op
    have hmoves' := Registry.ask_moves sha256 (h.objects room) op
    refine ⟨fun room' => ?_, fun room' => ?_, fun room' => ?_⟩
    · dsimp only
      by_cases hroom : room' = room
      · subst hroom
        rw [Function.update_self]
        exact ((h.alike room').ask (h.node room') (h.objects room') op).2
      · rw [Function.update_of_ne hroom]
        exact (h.alike room').same (Registry.moves_elsewhere (h.node room) hmoves hroom)
          (.refl room' _)
    · dsimp only
      by_cases hroom : room' = room
      · subst hroom
        exact (h.node room').moves hmoves
      · exact (h.node room').same (Registry.moves_elsewhere (h.node room) hmoves hroom)
    · dsimp only
      by_cases hroom : room' = room
      · subst hroom
        rw [Function.update_self]
        exact (h.objects room').moves hmoves'
      · rw [Function.update_of_ne hroom]
        exact h.objects room'
  | cleanNode =>
    have hfaded := Registry.faded_maintainNode p.node now
    refine ⟨fun room => ?_, fun room => (h.node room).faded hfaded, h.objects⟩
    have hcleaned := Registry.Alike.faded hfaded room
    exact ⟨hcleaned.grants.trans (h.alike room).grants,
      hcleaned.reports.trans (h.alike room).reports,
      hcleaned.configurations.trans (h.alike room).configurations⟩
  | cleanObject room =>
    have hfaded := Registry.faded_maintainWorker (p.objects room) now
    unfold Registries.next
    dsimp only
    refine ⟨fun room' => ?_, h.node, fun room' => ?_⟩
    · dsimp only
      by_cases hroom : room' = room
      · subst hroom
        rw [Function.update_self]
        have hcleaned := Registry.Alike.faded hfaded room'
        exact ⟨(h.alike room').grants.trans hcleaned.grants.symm,
          (h.alike room').reports.trans hcleaned.reports.symm,
          (h.alike room').configurations.trans hcleaned.configurations.symm⟩
      · rw [Function.update_of_ne hroom]
        exact h.alike room'
    · dsimp only
      by_cases hroom : room' = room
      · subst hroom
        rw [Function.update_self]
        exact (h.objects room').faded hfaded
      · rw [Function.update_of_ne hroom]
        exact h.objects room'

/-- **Both runtimes agree** from one state on. -/
theorem Agreeing.run (h : Agreeing now p) {events : List (ℤ × RegistryEvent)}
    (hsorted : (events.map Prod.fst).Pairwise (· ≤ ·)) (hstart : ∀ e ∈ events, now ≤ e.1)
    (hle : now ≤ now') (hlast : ∀ e ∈ events, e.1 ≤ now') :
    Agreeing now' (events.foldl (Registries.next sha256) p) := by
  refine (Runs.foldl_run (Registries.next sha256) p events).timed_invariant
    (I := Agreeing) (fun _ _ _ hle h => h.later hle) ?_ hsorted h hstart hle hlast
  rintro p ⟨time, event⟩ _ h rfl
  exact h.next event

theorem agreeing_after (sha256 : Str → Str) {events : List (ℤ × RegistryEvent)}
    (hsorted : (events.map Prod.fst).Pairwise (· ≤ ·)) (hlast : ∀ e ∈ events, e.1 ≤ now) :
    Agreeing now (after sha256 events) := by
  obtain ⟨time, htime, hstart⟩ : ∃ time : ℤ, time ≤ now ∧ ∀ e ∈ events, time ≤ e.1 := by
    cases events with
    | nil => exact ⟨now, le_rfl, fun e he => absurd he List.not_mem_nil⟩
    | cons e events =>
      refine ⟨e.1, hlast e List.mem_cons_self, fun e' he' => ?_⟩
      rw [List.map_cons, List.pairwise_cons] at hsorted
      rcases List.mem_cons.1 he' with rfl | he'
      · exact le_rfl
      · exact hsorted.1 _ (List.mem_map_of_mem he')
  exact (agreeing_empty time).run hsorted hstart htime hlast

end Registries

/-- **What both runtimes answer** to the requests of a run, whatever is cleaned up in between, is
the same, and neither has more than 128 grants, 128 unexpired configurations or 8,000,000 bytes of
them in a room. -/
theorem grants_and_configurations_agree (sha256 : Str → Str) (events : List (ℤ × RegistryEvent))
    (hsorted : (events.map Prod.fst).Pairwise (· ≤ ·)) (now : ℤ) (hlast : ∀ e ∈ events, e.1 ≤ now)
    (room : Str) (op : RecordRequest) :
    let p := Registries.after sha256 events
    (p.node.ask sha256 Registry.commitWriterNode room now op).1 =
        ((p.objects room).ask sha256 Registry.commitWriterGrant room now op).1 ∧
      ∀ s ∈ [p.node, p.objects room], (roomRows s.writers room).length ≤ 128 ∧
        (s.activeConfigurations room now).length ≤ 128 ∧
        ((s.activeConfigurations room now).map (·.bytes)).sum ≤ 8000000 := by
  have hp : Registries.Agreeing now (Registries.after sha256 events) :=
    Registries.agreeing_after sha256 hsorted hlast
  refine ⟨?_, fun s hs => ?_⟩
  · rw [Registries.ask_node (hp.node room)]
    exact ((hp.alike room).ask (hp.node room) (hp.objects room) op).1
  · have hwithin : Registry.Within now room s := by
      rcases List.mem_pair.1 hs with rfl | rfl
      · exact hp.node room
      · exact hp.objects room
    refine ⟨length_rows_le hwithin.grants, ?_, Registry.sum_activeConfigurations_le hwithin.bytes⟩
    have hlive : Bounded (fun _ => 1)
        (live Configuration.expiresAt now (s.configurationsOf room)) 128 :=
      hwithin.configurations.mono (Registry.weight_live_le _ _)
    have hcount := Registry.sum_activeConfigurations_le hlive
    simpa using hcount

section Sample

/-- The body of a grant; its token is its own hash. -/
def sampleGrantBody : Value := some (.obj
  [(lit "sourceKeyId", .str (sampleDigest 'a')), (lit "recipientKeyId", .str (sampleDigest 'b')),
    (lit "scopeHash", .str (sampleDigest 'c')), (lit "tokenHash", .str (sampleDigest 'd')),
    (lit "expiresAt", .int 9000)])

/-- A grant on both runtimes, and a clean-up of one of them. -/
def sampleGranting : List (ℤ × RegistryEvent) :=
  [(1000, .ask sampleRoom (.putWriter (lit "writer-01") sampleGrantBody)), (2000, .cleanNode)]

/-- The holder of the grant is known to both runtimes. -/
theorem grants_and_configurations_agree_sample :
    ((Registries.after (fun text => text) sampleGranting).node.authorize (fun text => text)
      sampleRoom (some (lit "writer:writer-01:" ++ sampleDigest 'd')) 3000 false).isSome = true ∧
    ((Registries.after (fun text => text) sampleGranting).node.ask (fun text => text)
        Registry.commitWriterNode sampleRoom 3000
        (.authorize (some (lit "writer:writer-01:" ++ sampleDigest 'd')) false)).1 =
      (((Registries.after (fun text => text) sampleGranting).objects sampleRoom).ask
        (fun text => text) Registry.commitWriterGrant sampleRoom 3000
        (.authorize (some (lit "writer:writer-01:" ++ sampleDigest 'd')) false)).1 :=
  ⟨by decide +kernel, (grants_and_configurations_agree (fun text => text) sampleGranting (by decide)
    3000 (by decide) sampleRoom (.authorize _ false)).1⟩

end Sample

end GrantTap
