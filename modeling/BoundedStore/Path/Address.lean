import BoundedStore.Error
import BoundedStore.Path.Key

/-!
# Store addresses

A store is known by `scheme://authority`. `Address.parse` takes a longer text as well and keeps those two parts: the
scheme before the first `://`, the authority from there to the next `/`.
-/

namespace BoundedStore

/-- The address of a store. -/
structure Address where
  scheme : String
  authority : String
  deriving DecidableEq

namespace Address

/-- The address of a store that was given none. -/
def default : Address := ⟨"ramfs", "local"⟩

def text (a : Address) : String := a.scheme ++ "://" ++ a.authority

/-- The address at the start of `uri`. -/
def parse (uri : String) : Except StoreError Address :=
  match cutScheme uri.toList with
  | none => .error (.invalidArgument (.missingScheme uri))
  | some (scheme, rest) =>
    if scheme = [] then .error (.invalidArgument (.emptyScheme uri))
    else .ok ⟨String.ofList scheme, String.ofList (rest.takeWhile (· ≠ '/'))⟩

end Address
end BoundedStore
