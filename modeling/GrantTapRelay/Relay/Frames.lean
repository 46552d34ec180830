import GrantTapRelay.Relay.ConnectionPolicy
import GrantTapRelay.Relay.Presence
import GrantTapRelay.TaskDispatch.Policy

/-!
# Frames on a socket

What the relays of both runtimes pass to the `send` of a socket: the frames that they write
themselves (`ControlFrame`), task jobs, and the texts of envelopes, which come from their senders
directly, from a mailbox or from retained state. `Reaches` is what the routing promises of an
envelope and a socket, `Causal` that each event of a trace was justified when it came.
-/

namespace GrantTap

open Js

/-! ## Control frames -/

def INGRESS_WINDOW : ℕ := 64

def RECEIPT_EVERY : ℕ := 16

/-- A device as a presence frame shows it. -/
structure PresenceDevice where
  row : PresenceRow
  online : Bool

/-- The frames that the relay writes. -/
inductive ControlFrame
  | capabilities (ingressFlow : Bool)
  | ingress (received : ℕ)
  | admissionAccepted (expiresAt : ℤ)
  | dropped (deliveryId : Str) (reason : DropReason)
  | stored (deliveryId : Str)
  | presence (room : Str) (generatedAt : ℤ) (devices : List PresenceDevice)

/-- An object whose first member is its type. -/
def controlObject (type : String) (members : List (Str × Json)) : Json :=
  .obj ((lit "type", .text type) :: members)

def PresenceDevice.toJson (d : PresenceDevice) : Json :=
  .obj [(lit "id", .str d.row.id), (lit "role", .str d.row.role.text),
    (lit "lastSeenAt", .int d.row.lastSeenAt), (lit "online", .bool d.online)]

def ControlFrame.toJson : ControlFrame → Json
  | capabilities ingressFlow => controlObject "relay.capabilities"
    ([(lit "recipientRouting", .bool true), (lit "taskDispatch", .bool true),
      (lit "retainedState", .bool true), (lit "retainedStateGroups", .bool true)] ++
      if ingressFlow then [(lit "ingressWindow", .int INGRESS_WINDOW)] else [])
  | ingress received => controlObject "relay.ingress" [(lit "received", .int received)]
  | admissionAccepted expiresAt =>
    controlObject "relay.admission.accepted" [(lit "expiresAt", .int expiresAt)]
  | dropped deliveryId reason => controlObject "relay.dropped"
    [(lit "deliveryId", .str deliveryId), (lit "reason", .str reason.text)]
  | stored deliveryId => controlObject "relay.stored" [(lit "deliveryId", .str deliveryId)]
  | presence room generatedAt devices => controlObject "relay.presence"
    [(lit "room", .str room), (lit "generatedAt", .int generatedAt),
      (lit "devices", .arr (devices.map PresenceDevice.toJson))]

/-- `presenceMessage`; `states` are the roles and key digests of the sockets of the room. -/
def presenceMessage (room : Str) (rows : List PresenceRow)
    (states : List (Option Role × Option Str)) (now : ℤ) : ControlFrame :=
  .presence room now (rows.map fun row =>
    let online := states.contains (some row.role, some row.id)
    ⟨{ row with lastSeenAt := if online then now else row.lastSeenAt }, online⟩)

/-! ## All frames -/

/-- A frame that is passed to `send`. -/
inductive SocketFrame
  | control (frame : ControlFrame)
  | task (job : PublicJob)
  | live (raw : Str)
  | mailbox (raw : Str)
  | retained (raw : Str)

def JobState.text : JobState → Str
  | .queued => lit "queued"
  | .accepted => lit "accepted"
  | .completed => lit "completed"
  | .failed => lit "failed"
  | .cancelled => lit "cancelled"
  | .expired => lit "expired"

def PublicJob.toJson (job : PublicJob) : Json :=
  .obj ([(lit "id", .str job.id), (lit "state", .str job.state.text),
    (lit "notBefore", .int job.notBefore), (lit "expiresAt", .int job.expiresAt),
    (lit "createdAt", .int job.createdAt), (lit "updatedAt", .int job.updatedAt),
    (lit "envelope", job.envelope)] ++
    (job.resultCode.map fun code => (lit "resultCode", .str code)).toList ++
    (job.writerId.map fun writer => (lit "writerId", .str writer)).toList ++
    (job.resultEnvelope.map fun envelope => (lit "resultEnvelope", envelope)).toList)

def SocketFrame.text : SocketFrame → Str
  | control frame => frame.toJson.stringify
  | task job => (controlObject "relay.task-job" [(lit "job", job.toJson)]).stringify
  | live raw => raw
  | mailbox raw => raw
  | retained raw => raw

/-! ## Members of an envelope -/

/-- The role that a member names. -/
def roleOf? (value : Value) : Option Role :=
  if value.is (lit "machine") then some .machine
  else if value.is (lit "phone") then some .phone else none

theorem roleOf?_phone {value : Value} (h : value.is (lit "phone") = true) :
    roleOf? value = some .phone := by
  rw [Value.is_iff] at h
  rw [h]
  decide

theorem roleOf?_machine {value : Value} (h : value.is (lit "machine") = true) :
    roleOf? value = some .machine := by
  rw [roleOf?, if_pos h]

/-- `envelope.to === "all" || role === envelope.to` -/
def addresses (envelope : Json) (role : Option Role) : Bool :=
  (envelope.get (lit "to")).is (lit "all") ||
    role.any fun role => (envelope.get (lit "to")).is role.text

theorem addresses_of_roleOf? {envelope : Json} {role : Role}
    (hto : roleOf? (envelope.get (lit "to")) = some role) :
    addresses envelope (some role) = true := by
  unfold roleOf? at hto
  unfold addresses
  split_ifs at hto with hmachine hphone
  · cases hto
    simp [hmachine, Role.text]
  · cases hto
    simp [hphone, Role.text]

/-- The delivery id of an acknowledgement. -/
def relayAck? (frame : Json) : Option Str :=
  if (frame.get (lit "type")).is (lit "relay.ack") ∧
      validIdentifier (frame.get (lit "deliveryId")) 180 then (frame.get (lit "deliveryId")).str?
  else none

/-- A present delivery id of a valid envelope. -/
def deliveryId? (envelope : Json) : Option Str :=
  (envelope.get (lit "deliveryId")).str?.filter (· ≠ [])

/-! ## What routing promises -/

/-- An envelope is addressed to a socket, and to its recipient when both name one. -/
def Reaches (envelope : Json) (role : Option Role) (recipientKeyId : Option Str) : Prop :=
  addresses envelope role = true ∧ ∀ key, recipientKeyId = some key → key ≠ [] →
    (envelope.get (lit "recipientKeyId")).truthy = true →
      envelope.get (lit "recipientKeyId") = some (.str key)

theorem reaches_of_matches {envelope : Json} {role : Option Role} {recipientKeyId : Option Str}
    (hto : addresses envelope role = true)
    (h : matchesRecipient envelope recipientKeyId = true) :
    Reaches envelope role recipientKeyId := by
  refine ⟨hto, ?_⟩
  rintro key rfl hne ht
  exact matchesRecipient_keyed hne h ht

/-- Every event of a trace satisfies `P` of the events before it. -/
def Causal {α : Type*} (P : List α → α → Prop) (trace : List α) : Prop :=
  ∀ before x after, trace = before ++ x :: after → P before x

namespace Causal

variable {α : Type*} {P : List α → α → Prop} {trace new : List α}

theorem nil : Causal P [] := fun before x after h => by
  simp at h

/-- More events, each justified by the events before all of them. -/
theorem append (hmono : ∀ before more x, P before x → P (before ++ more) x)
    (h : Causal P trace) (hnew : ∀ x ∈ new, P trace x) : Causal P (trace ++ new) := by
  intro before x after he
  rcases List.append_eq_append_iff.1 he with ⟨more, rfl, hnew'⟩ | ⟨rest, rfl, hrest⟩
  · refine hmono _ _ _ (hnew x ?_)
    rw [hnew']
    exact List.mem_append_right _ List.mem_cons_self
  · cases rest with
    | nil =>
      rw [List.nil_append] at hrest
      have hx := hnew x (hrest ▸ List.mem_cons_self)
      rwa [List.append_nil] at hx
    | cons y rest =>
      obtain ⟨rfl, rfl⟩ := List.cons_eq_cons.1 (List.cons_append .. ▸ hrest)
      exact h before x rest rfl

end Causal

end GrantTap
