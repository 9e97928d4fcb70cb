import Admission.Limiter.Basic
import Admission.Report.Audit
import Admission.Shared

/-! The registry of named limiters. A handle stays valid for ever: it follows the changes of
its limiter as long as the name is registered, and keeps the last one after a removal. Each
change gives the audit event that reports it. -/
namespace Admission

inductive RegistryError
  | notFound (name : String)
  | nameMismatch (expected found : String)
  | limiter (error : LimiterError)
  deriving DecidableEq

def RegistryError.message : RegistryError → String
  | notFound name => "limiter `" ++ name ++ "` is not registered"
  | nameMismatch expected found =>
    "update renamed limiter `" ++ expected ++ "` to `" ++ found ++ "`"
  | limiter error => error.message

def RegistryError.kind : RegistryError → String
  | notFound _ => "NotFound"
  | nameMismatch .. => "NameMismatch"
  | limiter error => "Config." ++ error.kind

/-- The place of a limiter in a registry. -/
abbrev Handle := Nat

structure Registry where
  /-- Every limiter that was ever registered, at its handle. -/
  cells : Array Limiter := #[]
  /-- The handles of the names that are registered. -/
  handles : List (String × Handle) := []

namespace Registry

def read? (registry : Registry) (handle : Handle) : Option Limiter :=
  registry.cells[handle]?

def handle? (registry : Registry) (name : String) : Option Handle :=
  registry.handles.lookup name

/-- The limiter of a name. -/
def get? (registry : Registry) (name : String) : Option Limiter :=
  (registry.handle? name).bind registry.read?

/-- The registered names in order. -/
def names (registry : Registry) : List String :=
  (registry.handles.map (·.1)).mergeSort fun a b => decide (a ≤ b)

def size (registry : Registry) : Nat :=
  registry.handles.length

/-- Puts a limiter behind a handle. -/
def write (registry : Registry) (handle : Handle) (limiter : Limiter) : Registry :=
  { registry with cells := registry.cells.setIfInBounds handle limiter }

/-- Registers a limiter under its name. If the name is taken its limiter is replaced, and
the handles of the name see the new one. -/
def register (registry : Registry) (limiter : Limiter) : Registry × Handle × AuditEvent :=
  match registry.handle? limiter.name with
  | some handle =>
    (registry.write handle limiter, handle, .configChanged limiter.name .updated)
  | none =>
    let handle := registry.cells.size
    ({ cells := registry.cells.push limiter
       handles := (limiter.name, handle) :: registry.handles },
      handle, .configChanged limiter.name .registered)

/-- The change of a limiter, which must not rename it. -/
def renameChecked (name : String) (change : Limiter → Except LimiterError Limiter)
    (current : Limiter) : Except RegistryError Limiter :=
  match change current with
  | .error error => .error (.limiter error)
  | .ok next => if next.name = name then .ok next else .error (.nameMismatch name next.name)

/-- Changes the limiter of a name. A change that fails leaves the registry as it is. -/
def update (registry : Registry) (name : String) (change : Limiter → Except LimiterError Limiter) :
    Except RegistryError (Limiter × Registry × AuditEvent) :=
  match registry.handle? name with
  | none => .error (.notFound name)
  | some handle =>
    match registry.read? handle with
    | none => .error (.notFound name)
    | some current =>
      (Shared.update (fun _ => renameChecked name change) current []).result.map fun next =>
        (next, registry.write handle next, .configChanged name .updated)

/-- Removes a name. The limiter stays behind the handles that were given out. -/
def remove (registry : Registry) (name : String) : Option (Limiter × Registry × AuditEvent) :=
  (registry.get? name).map fun limiter =>
    (limiter, { registry with handles := registry.handles.filter (·.1 ≠ name) },
      .configChanged name .removed)

end Registry
end Admission
