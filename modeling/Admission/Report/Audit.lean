import Admission.Limiter.Options

namespace Admission

/-- What happened to a registered limiter. -/
inductive ConfigChange
  | registered
  | updated
  | removed
  deriving DecidableEq, Repr

inductive AuditEvent
  /-- A limiter denied a request. -/
  | enforcement (limiter key reason : String)
  /-- No store answered and the fail strategy decided. -/
  | failure (limiter key error : String) (failStrategy : FailStrategy) (allowed : Bool)
  /-- A request had no key and was charged to the shared one. -/
  | keyResolutionFailed (limiter error : String)
  | configChanged (limiter : String) (change : ConfigChange)
  deriving DecidableEq, Repr

def ConfigChange.text : ConfigChange → String
  | registered => "registered"
  | updated => "updated"
  | removed => "removed"

namespace AuditEvent

def limiter : AuditEvent → String
  | enforcement limiter .. | failure limiter .. | keyResolutionFailed limiter _
  | configChanged limiter _ => limiter

def text : AuditEvent → String
  | enforcement limiter key reason =>
    s!"Enforcement(limiter={limiter}, key={key}, reason={reason})"
  | failure limiter key error failStrategy allowed =>
    s!"Failure(limiter={limiter}, key={key}, strategy={failStrategy.text}, " ++
      s!"allowed={allowed}, error={error})"
  | keyResolutionFailed limiter error =>
    s!"KeyResolutionFailed(limiter={limiter}, error={error})"
  | configChanged limiter change =>
    s!"ConfigChanged(limiter={limiter}, change={change.text})"

end AuditEvent
end Admission
