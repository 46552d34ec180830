import GrantTapRelay.Node.Changes
import GrantTapRelay.Room.Changes
import GrantTapRelay.Library.Runs

/-!
# The rows of the mailboxes

The handler of a message stores its own row only: a row of a mailbox was there before the message or
is the row of its frame (`Added`). So every row of a run has an expiry, and in a Worker a delivery id
(`NodeRelay.Dated`, `RoomRelay.Regular`).
-/

namespace GrantTap

open Js Runs Relation

/-! ## Node -/

namespace NodeRelay

variable {cfg : NodeConfig} {i : NodeInput} {w₀ w w' : NodeRelay}

/-- The row of the frame of this message. -/
def Added (cfg : NodeConfig) (i : NodeInput) (row : QueueRow) : Prop :=
  ∃ id raw envelope deliveryId, i.label = .message id raw ∧ cfg.parse raw = some envelope ∧
    deliveryId? envelope = some deliveryId ∧ row = .frame (RelayStore.newFrame raw (some deliveryId)
      (envelope.get (lit "expiresAt")).int? i.now)

theorem Act.added (h : Act cfg i w₀ w w') {room : Str} {role : Role} {row : QueueRow}
    (hrow : row ∈ w'.disk.store.rows room role) :
    row ∈ w.disk.store.rows room role ∨ Added cfg i row := by
  have hmail := h.mail
  generalize w'.disk.store = store at hrow hmail
  cases hmail with
  | same hrows => exact .inl (hrows room role ▸ hrow)
  | read room' role' =>
    rw [RelayStore.rows_queue] at hrow
    split_ifs at hrow with heq
    · rw [heq.1, heq.2]
      exact .inl (List.mem_of_mem_filter hrow)
    · exact .inl hrow
  | @enqueue id s role' dest raw deliveryId envelope hpassed haccepted hto hid =>
    rcases RelayStore.enqueue_cases w.disk.store s.room dest raw (some deliveryId)
        (envelope.get (lit "expiresAt")).int? i.now with
      ⟨hsame, -⟩ | ⟨hread, -⟩ | ⟨rows, hretain, -, hrows⟩
    · exact .inl (hsame ▸ hrow)
    · rw [hread, RelayStore.rows_queue] at hrow
      split_ifs at hrow with heq
      · rw [heq.1, heq.2]
        exact .inl (List.mem_of_mem_filter hrow)
      · exact .inl hrow
    · rw [hrows] at hrow
      split_ifs at hrow with heq
      · obtain ⟨front, rfl, -⟩ := retainSubmission_stored hretain
        rcases List.mem_append.1 hrow with hrow | hrow
        · rw [heq.1, heq.2]
          exact .inl (List.mem_of_mem_filter ((retainSubmission_front hretain).subset hrow))
        · exact .inr ⟨id, raw, envelope, deliveryId, hpassed.label, hpassed.parsed, hid,
            List.mem_singleton.1 hrow⟩
      · exact .inl hrow
  | acknowledge =>
    rw [RelayStore.rows_acknowledge] at hrow
    split_ifs at hrow with heq
    · rw [heq.1, heq.2]
      exact .inl (List.mem_of_mem_filter (List.mem_of_mem_filter hrow))
    · exact .inl hrow

/-- A row was there before the step, or is the row of the message. -/
theorem Acts.added (h : Acts cfg i w₀ w w') {room : Str} {role : Role} {row : QueueRow}
    (hrow : row ∈ w'.disk.store.rows room role) :
    row ∈ w.disk.store.rows room role ∨ Added cfg i row := by
  induction h with
  | refl => exact .inl hrow
  | tail _ hact ih => exact (hact.added hrow).elim ih .inr

/-- Every row has an expiry. -/
def Dated (w : NodeRelay) : Prop :=
  ∀ room role, ∀ row ∈ w.disk.store.rows room role, ∃ t, row.expiresAt = some t

end NodeRelay

/-! ## Worker -/

namespace RoomRelay

variable {cfg : RoomConfig} {i : RoomInput} {w₀ w w' : RoomRelay}

/-- The row of the frame of this message. -/
def Added (cfg : RoomConfig) (i : RoomInput) (row : QueueRow) : Prop :=
  ∃ id raw envelope deliveryId, i.label = .message id raw ∧ cfg.parse raw = some envelope ∧
    deliveryId? envelope = some deliveryId ∧ (envelope.get (lit "expiresAt")).int?.any
      (· ≤ i.choice.clock .queue) = false ∧
    row = .frame (RoomQueues.newFrame raw (some deliveryId) (envelope.get (lit "expiresAt")).int?
      (i.choice.clock .queue))

theorem RoomAct.added (h : RoomAct cfg i w₀ w w') {role : Role} {row : QueueRow}
    (hrow : row ∈ w'.disk.mail.rows role) : row ∈ w.disk.mail.rows role ∨ Added cfg i row := by
  have hmail := h.mail
  generalize w'.disk.mail = mail at hrow hmail
  generalize w'.trace = trace at hmail
  cases hmail with
  | same => exact .inl hrow
  | flush => exact .inl ((RoomQueues.flushTo_sublist _ _ _ _ _ role).subset hrow)
  | @queue _ id s role' dest raw deliveryId envelope hpassed haccepted hto hid =>
    rcases w.disk.mail.queue_cases dest raw (some deliveryId) (envelope.get (lit "expiresAt")).int?
        (i.choice.clock .queue) with ⟨hsame, -⟩ | ⟨rows, hretain, hqueue⟩
    · exact .inl (hsame ▸ hrow)
    · have hexpired := (RoomQueues.queue_stored (congrArg Prod.snd hqueue)).1
      rw [hqueue, RoomQueues.rows_set] at hrow
      split_ifs at hrow with heq
      · obtain ⟨front, rfl, -⟩ := retainSubmission_stored hretain
        rcases List.mem_append.1 hrow with hrow | hrow
        · rw [heq]
          exact .inl (List.mem_of_mem_filter ((retainSubmission_front hretain).subset hrow))
        · exact .inr ⟨id, raw, envelope, deliveryId, hpassed.label, hpassed.parsed, hid, hexpired,
            List.mem_singleton.1 hrow⟩
      · exact .inl hrow
  | acknowledge =>
    rw [RoomQueues.rows_acknowledge] at hrow
    split_ifs at hrow with heq
    · rw [heq]
      exact .inl (List.mem_of_mem_filter hrow)
    · exact .inl hrow

theorem RoomActs.added (h : RoomActs cfg i w₀ w w') {role : Role} {row : QueueRow}
    (hrow : row ∈ w'.disk.mail.rows role) : row ∈ w.disk.mail.rows role ∨ Added cfg i row := by
  induction h with
  | refl => exact .inl hrow
  | tail _ hact ih => exact (hact.added hrow).elim ih .inr

/-- Every row has a delivery id and an expiry. -/
def Regular (w : RoomRelay) : Prop :=
  ∀ role, ∀ row ∈ w.disk.mail.rows role,
    RoomQueues.reliable row = true ∧ ∃ t, row.expiresAt = some t

theorem RoomActs.regular (h : RoomActs cfg i w₀ w w') (hw : w.Regular) : w'.Regular := by
  intro role row hrow
  rcases h.added hrow with hold | ⟨id, raw, envelope, deliveryId, -, -, hid, -, rfl⟩
  · exact hw role row hold
  · obtain ⟨-, hne⟩ := Option.filter_eq_some_iff.1 hid
    exact ⟨hne, _, rfl⟩

end RoomRelay

end GrantTap
