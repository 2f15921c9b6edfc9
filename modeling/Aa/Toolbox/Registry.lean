import Aa.Toolbox.Basic

/-!
# The registry of tool manifests and providers
-/

namespace Aa.Toolbox

open Aa.Library

/-- Executes one tool kind. What a provider returns is an input of the step that
invokes it. -/
structure Provider where
  kind : String

/-- Holds validated manifests and the provider for each kind. -/
structure Registry where
  manifests : GoMap String Manifest := ∅
  providers : GoMap String Provider := ∅

namespace Registry

def registerProvider (registry : Registry) (provider : Provider) : Except Error Registry :=
  if provider.kind = "" then .error (.wrap .invalid "provider kind is required")
  else if (registry.providers.lookup provider.kind).isSome then
    .error (.wrap .conflict
      ("provider for kind " ++ Go.quote provider.kind ++ " already registered"))
  else .ok { registry with providers := registry.providers.insert provider.kind provider }

def register (registry : Registry) (manifest : Manifest) : Except Error Registry :=
  match manifest.validate with
  | .error message => .error (.wrap .invalid message)
  | .ok () =>
      if (registry.manifests.lookup manifest.id).isSome then
        .error (.wrap .conflict ("tool " ++ Go.quote manifest.id ++ " already registered"))
      else .ok { registry with manifests := registry.manifests.insert manifest.id manifest }

def get (registry : Registry) (id : String) : Option Manifest := registry.manifests.lookup id

/-- Manifests of a kind (empty means all), sorted by id. -/
def list (registry : Registry) (kind : String) : List Manifest :=
  ((registry.manifests.entries.map (·.2)).filter
    fun manifest => kind = "" ∨ manifest.toolKind = kind).insertionSort
      fun left right => left.id ≤ right.id

def providerForManifest (registry : Registry) (manifest : Manifest) : Option Provider :=
  registry.providers.lookup manifest.toolKind

end Registry

end Aa.Toolbox
