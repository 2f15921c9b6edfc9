import Aa.Library.Calendar
import Aa.Library.Machine
import Aa.Sync.Types

/-!
# Pairing tokens

A pairing service issues tokens that admit a remote node until they expire, and accepts each
token value once. The value of a token is the MAC, under the secret of the service and in
hexadecimal digits, of the node id followed by the expiry; the MAC is a parameter.
-/

namespace Aa.Sync.Identity

open Aa.Library Calendar

/-- A single-use, time-bounded pairing token. The expiry is an instant. -/
@[ext]
structure Token where
  value : String := ""
  node : NodeId := ""
  expiresAt : ℤ
deriving DecidableEq

/-- The token values a service has accepted. -/
structure PairingService where
  used : List String := []

/-- What the MAC of a token is taken of. -/
def pairingText (node : NodeId) (expiresAt : ℤ) : String := node ++ rfc3339Nano expiresAt

namespace PairingService

variable (mac : String → String)

/-- A token that admits the remote node until `ttl` elapses. -/
def issue (now : ℤ) (remote : NodeId) (ttl : ℤ) : Token :=
  let expires := now + ttl
  { value := mac (pairingText remote expires), node := remote, expiresAt := expires }

/-- Validates a token for the claiming remote node. -/
def accept (service : PairingService) (now : ℤ) (token : Token) (claimer : NodeId) :
    Except Error Unit × PairingService :=
  if token.value = "" ∨ token.node = "" ∨ claimer = "" then (.error (.sentinel .invalid), service)
  else if token.node ≠ claimer then (.error (.sentinel .unauthorized), service)
  else if ¬ now < token.expiresAt then (.error (.sentinel .stale), service)
  else if mac (pairingText token.node token.expiresAt) ≠ token.value then
    (.error (.sentinel .unauthorized), service)
  else if token.value ∈ service.used then (.error (.sentinel .stale), service)
  else (.ok (), { service with used := token.value :: service.used })

end PairingService

/-- A call on the service, and what it returns. -/
inductive Call where
  | issue (remote : NodeId) (ttl : ℤ)
  | accept (token : Token) (claimer : NodeId)

inductive Returned where
  | issued (token : Token)
  | accepted (result : Except Error Unit)

/-- The service as a machine: an input is what the clock reads, and the call. -/
def machine (mac : String → String) : Machine PairingService (ℤ × Call) Returned where
  step service input :=
    match input.2 with
    | .issue remote ttl => (service, .issued (PairingService.issue mac input.1 remote ttl))
    | .accept token claimer =>
        let (result, service) := service.accept mac input.1 token claimer
        (service, .accepted result)

end Aa.Sync.Identity
