import GrantTapRelay.TaskDispatch.Records

/-!
# Calls to a job store

The operations that `NodeTaskDispatchStore` and `WorkerTaskDispatchStore` share, and their answers.
-/

namespace GrantTap

open Js

/-- `action` of `transition`. -/
inductive TaskAction
  | claim
  | finish
  | cancel
  deriving DecidableEq

/-- A call to a job store. `clean` is `purge` on Node and `maintain` on the Worker. -/
inductive TaskCall
  | put (room id : Str) (body : Value)
  | transition (room id : Str) (action : TaskAction) (body : Value)
  | list (room : Str)
  | listActive (room : Str)
  | getPublic (room id : Str) (metadataOnly : Bool)
  | due (room recipientKeyId : Str) (excluded : List Str)
  | clean (connectedRecipients : Option (List (Option Str)))

inductive TaskAnswer
  | reply (reply : Reply)
  | jobs (jobs : List PublicJob)
  | found (job : Option PublicJob)
  | deadline (next : Option ℤ)

/-- The transition of one row; a token that cannot be hashed throws. -/
def transitionJob (row : Job) (action : TaskAction) (body : Value) (now : ℤ) (proofHash : Str) :
    Except Throw JobResult :=
  match action with
  | .claim => claimJob row body now proofHash
  | .finish => finishJob row body now proofHash
  | .cancel => .ok (cancelJob row now)

end GrantTap
