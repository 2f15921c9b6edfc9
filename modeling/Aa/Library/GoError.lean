import Mathlib.Data.List.Basic

/-!
# Go errors

An error is what `errors.Is` finds in it and its text. A package declares its sentinel
errors and their texts.
-/

namespace Aa.Library

/-- The texts of the sentinel errors of a package. -/
class GoSentinel (Sentinel : Type) where
  text : Sentinel → String

/-- An error: the sentinels `errors.Is` finds in it, and its text. -/
structure GoError (Sentinel : Type) where
  wraps : List Sentinel
  message : String
deriving DecidableEq

namespace GoError

variable {Sentinel : Type}

/-- A sentinel error itself. -/
def sentinel [GoSentinel Sentinel] (sentinel : Sentinel) : GoError Sentinel :=
  { wraps := [sentinel], message := GoSentinel.text sentinel }

/-- `fmt.Errorf("%w: ...", sentinel, ...)`. -/
def wrap [GoSentinel Sentinel] (sentinel : Sentinel) (detail : String) : GoError Sentinel :=
  { wraps := [sentinel], message := GoSentinel.text sentinel ++ ": " ++ detail }

/-- `fmt.Errorf("context: %w", err)`. -/
def within (error : GoError Sentinel) (context : String) : GoError Sentinel :=
  { error with message := context ++ ": " ++ error.message }

/-- `errors.New` of a text that is no sentinel. -/
def plain (message : String) : GoError Sentinel := { wraps := [], message := message }

/-- `errors.Is`. -/
def is [DecidableEq Sentinel] (error : GoError Sentinel) (sentinel : Sentinel) : Bool :=
  sentinel ∈ error.wraps

end GoError

end Aa.Library
