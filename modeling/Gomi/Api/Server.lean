import Gomi.Machine.Reinstall

/-!
# The API server

What the handlers of `internal/infra/api` and `internal/infra/pxehttp` share: the
configuration of the server, responses, and the names of resources.

A service of the source that may be `nil` is a flag of `Gomi.Server`; the machine
service and the database are always there.
-/

namespace Gomi

open Go

/-- The configuration of the server. -/
structure Server where
  /-- Whether there is a bare-metal store. -/
  bareMetal : Bool := true
  osImages : Bool := true
  cloudInits : Bool := true
  hypervisors : Bool := true
  powerExecutor : Bool := true
  /-- Whether there is a store of hardware inventories. -/
  hwinfo : Bool := true
  provisionTimeout : Time := 30 * 60 * 10 ^ 9
  /-- The base URL of the boot server, without a slash at its end. -/
  bootHTTPBaseURL : String := ""
  deriving DecidableEq

/-- The bodies of responses, as far as they are modelled. -/
inductive Body where
  | empty
  | error (text : String)
  | host (h : Host)
  | machine (m : Machine)
  | status (text : String)
  | text (text : String)
  /-- The answer to an inventory: the attempt and the way it is deployed. -/
  | deployment (attemptID mode : String)
  deriving DecidableEq

/-- A response. -/
structure Response where
  status : ℕ
  body : Body := .empty
  deriving DecidableEq

/-- `c.JSON(status, jsonError(text))`. -/
def Response.failed (status : ℕ) (text : String) : Response := { status, body := .error text }

/-- The machine record of a response. -/
def Response.machine? (r : Response) : Option Machine :=
  match r.body with
  | .machine m => some m
  | _ => none

theorem Response.machine?_eq_some {r : Response} {m : Machine} :
    r.machine? = some m ↔ r.body = .machine m := by
  unfold Response.machine?
  cases r.body <;> simp

/-- `bareMetalError`. -/
def bareMetalError (e : Err) : Response :=
  match e with
  | .hostNotFound => .failed 404 e.text
  | .conflict => .failed 409 e.text
  | .capacity => .failed 409 e.text
  | _ => .failed 500 "bare-metal storage operation failed"

/-- `resourceID`. -/
def resourceID (collection name : String) : String :=
  let name := trimSpace name
  if hasPrefix name (collection ++ "/") then Go.trimPrefix name (collection ++ "/") else name

/-- `resourceIDs`. -/
def resourceIDs (collection : String) (names : List String) : List String :=
  (names.map (resourceID collection)).filter (· ≠ "")

end Gomi
