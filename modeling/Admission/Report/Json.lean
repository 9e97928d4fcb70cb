import Admission.Json.Basic
import Admission.Report.Audit

namespace Admission.AuditEvent

/-- The name in files. -/
def tag : AuditEvent → String
  | enforcement .. => "enforcement"
  | failure .. => "failure"
  | keyResolutionFailed .. => "key_resolution_failed"
  | configChanged .. => "config_changed"

/-- What an event says beside its tag and its limiter. -/
def details : AuditEvent → List (String × Json)
  | enforcement _ key reason =>
    [("key", .string (some key)), ("reason", .string (some reason))]
  | failure _ key error failStrategy allowed =>
    [("key", .string (some key)), ("error", .string (some error)),
      ("fail_strategy", .string (some failStrategy.tag)), ("allowed", .bool allowed)]
  | keyResolutionFailed _ error => [("error", .string (some error))]
  | configChanged _ change => [("change", .string (some change.text))]

/-- The fields of an event in order, the tag first. -/
def jsonFields (event : AuditEvent) : List (String × Json) :=
  ("event", .string (some event.tag)) :: ("limiter", .string (some event.limiter)) ::
    event.details

end Admission.AuditEvent
