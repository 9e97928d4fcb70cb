import Admission.Breaker.Settings
import Admission.Breaker.Word
import Admission.Time.Timestamp

/-! The circuit breaker. A closed circuit counts the outcomes of calls in a window and opens
when too many fail; an open one refuses calls until a deadline; a half-open one lets a few
probes pass, and only a probe's outcome closes or opens it. Every operation is one step from
breaker to breaker at a clock reading and reports the transition it makes, if any. -/
namespace Admission

/-- Why a call was not started. -/
inductive Refusal
  | opened (failures : Nat) (retryIn : Duration)
  | probeLimit (inFlight limit : Nat)
  deriving DecidableEq

/-- Why a guarded call gave no result: it was refused, or it ran and failed. -/
inductive CallError (ε : Type)
  | refused (refusal : Refusal)
  | inner (error : ε)
  deriving DecidableEq

/-- How a call in flight was let in. A probe holds one of the probe slots. -/
inductive Permit
  | plain
  | probe
  deriving DecidableEq, Repr

/-- The last clock reading stands for no time in `openedAt` and `halfOpenAt`. -/
structure Breaker where
  name : String
  settings : BreakerSettings
  word : BreakerWord
  windowStart : Timestamp
  openedAt : Timestamp
  halfOpenAt : Timestamp
  probes : Nat
  draws : Random.Stream

structure Breaker.Snapshot where
  circuit : Circuit
  failures : Nat
  successes : Nat
  failureRate : Binary64
  probesInFlight : Nat
  openedAt? : Option Timestamp
  halfOpenAt? : Option Timestamp
  deriving DecidableEq

def Refusal.message : Refusal → String
  | opened failures retryIn =>
    s!"circuit breaker open ({failures} failures, retry in {retryIn.text})"
  | probeLimit inFlight limit =>
    s!"circuit breaker half-open probe limit reached ({inFlight} in flight, max {limit})"

def CallError.message {ε : Type} (innerMessage : ε → String) : CallError ε → String
  | refused refusal => refusal.message
  | inner error => innerMessage error

/-- A short name of the error, which stays when its message changes. -/
def CallError.kind {ε : Type} : CallError ε → String
  | refused (.opened ..) => "Open"
  | refused (.probeLimit ..) => "ProbeLimit"
  | inner _ => "Inner"

/-- The error of the call itself, if it ran. -/
def CallError.inner? {ε : Type} : CallError ε → Option ε
  | refused _ => none
  | inner error => some error

def CallError.isOpen {ε : Type} : CallError ε → Bool
  | refused (.opened ..) => true
  | _ => false

def CallError.isProbeLimit {ε : Type} : CallError ε → Bool
  | refused (.probeLimit ..) => true
  | _ => false

/-- Whether the call never ran. -/
def CallError.isRefused {ε : Type} : CallError ε → Bool
  | refused _ => true
  | inner _ => false

namespace Breaker

/-- A closed breaker whose window starts now. -/
def create (name : String) (settings : BreakerSettings) (draws : Random.Stream)
    (now : Timestamp) : Breaker :=
  { name, settings, word := .pack ⟨.closed, 0, 0⟩, windowStart := now
    openedAt := Timestamp.last, halfOpenAt := Timestamp.last, probes := 0, draws }

def tally (breaker : Breaker) : Tally :=
  breaker.word.unpack

def circuit (breaker : Breaker) : Circuit :=
  breaker.tally.circuit

def rate (breaker : Breaker) : Binary64 :=
  failureRate breaker.tally.failures breaker.tally.successes

def shownTime (t : Timestamp) : Option Timestamp :=
  if t = Timestamp.last then none else some t

/-- The times are shown only while the circuit is open. -/
def snapshot (breaker : Breaker) : Snapshot :=
  let opened := breaker.circuit = .opened
  { circuit := breaker.circuit
    failures := breaker.tally.failures
    successes := breaker.tally.successes
    failureRate := breaker.rate
    probesInFlight := breaker.probes
    openedAt? := if opened then shownTime breaker.openedAt else none
    halfOpenAt? := if opened then shownTime breaker.halfOpenAt else none }

def drawRecovery (breaker : Breaker) : Duration × Breaker :=
  let (recovery, draws) :=
    breaker.settings.jitter.sample breaker.settings.recovery breaker.draws
  (recovery, { breaker with draws })

/-- Opens the circuit with given counts until a deadline drawn for this opening. -/
def openWith (breaker : Breaker) (failures successes : Nat) (now : Timestamp) : Breaker :=
  let (recovery, breaker) := breaker.drawRecovery
  { breaker with
    openedAt := now
    halfOpenAt := now.after recovery
    word := .pack ⟨.opened, failures, successes⟩ }

/-- Closes the circuit and starts a window. -/
def closeAt (breaker : Breaker) (now : Timestamp) : Breaker :=
  { breaker with windowStart := now, word := .pack ⟨.closed, 0, 0⟩ }

/-- Opens the circuit by hand and keeps the counts; an open one gets a new deadline. -/
def trip (breaker : Breaker) (now : Timestamp) : Breaker × Option Transition :=
  let left := breaker.circuit
  (breaker.openWith breaker.tally.failures breaker.tally.successes now,
    if left = .opened then none else some ⟨left, .opened⟩)

/-- Closes the circuit by hand. Probes in flight keep their slots. -/
def reset (breaker : Breaker) (now : Timestamp) : Breaker × Option Transition :=
  let left := breaker.circuit
  ({ breaker.closeAt now with openedAt := Timestamp.last, halfOpenAt := Timestamp.last },
    if left = .closed then none else some ⟨left, .closed⟩)

/-- Takes a probe slot if one is free. -/
def takeSlot (breaker : Breaker) : Except Refusal Breaker :=
  if breaker.probes < breaker.settings.maxProbes then
    .ok { breaker with probes := breaker.probes + 1 }
  else .error (.probeLimit breaker.probes breaker.settings.maxProbes)

/-- What one look at the circuit does for a call that wants to start. -/
inductive Look
  | started (permit : Permit) (breaker : Breaker)
  | refused (refusal : Refusal)
  /-- The deadline has passed and the circuit is half-open now: report that, then look again. -/
  | moved (breaker : Breaker)

def look (breaker : Breaker) (now : Timestamp) : Look :=
  match breaker.circuit with
  | .closed => .started .plain breaker
  | .opened =>
    if now < breaker.halfOpenAt then
      .refused (.opened breaker.tally.failures (.ofMillis (breaker.halfOpenAt - now)))
    else .moved { breaker with word := .pack ⟨.halfOpen, 0, 0⟩ }
  | .halfOpen =>
    match breaker.takeSlot with
    | .ok breaker => .started .probe breaker
    | .error refusal => .refused refusal

/-- How a call was let in or refused. -/
structure Entry where
  result : Except Refusal Permit
  reported : Option Transition
  breaker : Breaker

/-- Looks, and looks again after a move. -/
def enter (breaker : Breaker) (now : Timestamp) : Entry :=
  match breaker.look now with
  | .started permit breaker => ⟨.ok permit, none, breaker⟩
  | .refused refusal => ⟨.error refusal, none, breaker⟩
  | .moved breaker =>
    match breaker.takeSlot with
    | .ok breaker => ⟨.ok .probe, some ⟨.opened, .halfOpen⟩, breaker⟩
    | .error refusal => ⟨.error refusal, some ⟨.opened, .halfOpen⟩, breaker⟩

/-- Forgets the counts of a window that is over. -/
def roll (breaker : Breaker) (now : Timestamp) : Breaker :=
  if now.since breaker.windowStart < breaker.settings.window.toMillis.toNat then breaker
  else breaker.closeAt now

/-- Counts an outcome of a closed circuit. A failure opens it if the window has counted
enough calls and the share of failures reaches the threshold. -/
def count (breaker : Breaker) (success : Bool) (now : Timestamp) : Breaker × Option Transition :=
  let breaker := breaker.roll now
  let tally := breaker.tally
  if success then
    ({ breaker with word := .pack ⟨.closed, tally.failures, countUp tally.successes⟩ }, none)
  else
    let failures := countUp tally.failures
    let breaker := { breaker with word := .pack ⟨.closed, failures, tally.successes⟩ }
    if breaker.settings.minimumCalls ≤ failures + tally.successes ∧
        breaker.settings.threshold ≤ failureRate failures tally.successes then
      (breaker.openWith failures tally.successes now, some ⟨.closed, .opened⟩)
    else (breaker, none)

/-- Records the outcome of a call. A half-open circuit heeds only probes and an open one
nothing, so outcomes of calls let in before a transition do not count. -/
def record (breaker : Breaker) (permit : Permit) (success : Bool) (now : Timestamp) :
    Breaker × Option Transition :=
  match breaker.circuit, permit with
  | .closed, _ => breaker.count success now
  | .halfOpen, .probe =>
    if success then (breaker.closeAt now, some ⟨.halfOpen, .closed⟩)
    else (breaker.openWith 1 0 now, some ⟨.halfOpen, .opened⟩)
  | .halfOpen, .plain => (breaker, none)
  | .opened, _ => (breaker, none)

/-- Gives back what a call held. -/
def release (breaker : Breaker) : Permit → Breaker
  | .plain => breaker
  | .probe => { breaker with probes := breaker.probes - 1 }

@[simp] theorem circuit_pack (breaker : Breaker) (circuit : Circuit) (failures successes : Nat) :
    ({ breaker with word := .pack ⟨circuit, failures, successes⟩ } : Breaker).circuit = circuit :=
  BreakerWord.circuit_unpack_pack _

/-- After a move the next look takes a slot or finds none free. -/
theorem look_moved {breaker moved : Breaker} {now : Timestamp} (look : breaker.look now = .moved moved)
    (later : Timestamp) :
    moved.look later = match moved.takeSlot with
      | .ok breaker => .started .probe breaker
      | .error refusal => .refused refusal := by
  have halfOpen : moved.circuit = .halfOpen := by
    unfold Breaker.look at look
    split at look
    · cases look
    · split at look <;> cases look
      exact circuit_pack ..
    · split at look <;> cases look
  unfold Breaker.look
  rw [halfOpen]

end Breaker
end Admission
