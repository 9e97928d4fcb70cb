import Admission.Text.Blank

namespace Admission

inductive KeyError
  | missing
  | rejected (reason : String)
  | failed (reason : String)
  deriving DecidableEq, Repr

def KeyError.message : KeyError → String
  | missing => "no key could be derived from the request context"
  | rejected reason => "resolved key rejected by key policy: " ++ reason
  | failed reason => "key resolution failed: " ++ reason

def KeyError.kind : KeyError → String
  | missing => "Missing"
  | rejected _ => "Rejected"
  | failed _ => "Failed"

/-- Finds the key of a request. -/
abbrev KeyResolver (C : Type) := C → Except KeyError String

/-- The key of all requests that have none of their own. -/
def anonymousKey : String := "anonymous"

/-- Rules for keys; the length is in bytes of UTF-8. -/
structure KeyPolicy where
  maxLength : Nat := 256
  denied : List String := ["*", "?", "[", "]"]
  deriving DecidableEq, Repr

namespace KeyPolicy

/-- Looks at the length, then at control characters, then at the denied fragments in order. -/
def check (policy : KeyPolicy) (key : String) : Except KeyError Unit :=
  if policy.maxLength < key.utf8ByteSize then
    .error (.rejected s!"key is {key.utf8ByteSize} bytes, limit is {policy.maxLength}")
  else if key.toList.any Text.control then
    .error (.rejected "key contains control characters")
  else match policy.denied.find? (fun fragment => Text.occurs fragment.toList key.toList) with
    | some fragment => .error (.rejected ("key contains `" ++ fragment ++ "`"))
    | none => .ok ()

/-- A resolver whose keys have to pass the policy. -/
def screen {C : Type} (policy : KeyPolicy) (resolver : KeyResolver C) : KeyResolver C :=
  fun context =>
    match resolver context with
    | .error error => .error error
    | .ok key => (policy.check key).map fun _ => key

end KeyPolicy
end Admission
