import Admission.Report.Audit

namespace Admission

/-- Holds the newest events up to a capacity and counts those it had to give up. -/
structure AuditLog where
  capacity : Nat
  /-- The oldest events, the oldest first. -/
  older : List AuditEvent := []
  /-- The events after them, the newest first. -/
  newer : List AuditEvent := []
  held : Nat := 0
  evicted : Nat := 0
  capacity_pos : 0 < capacity
  held_eq : held = older.length + newer.length := by rfl

namespace AuditLog

/-- The capacity of a log that none is asked of. -/
def defaultCapacity : Nat := 10000

/-- An empty log with room for at least one event. -/
def ofCapacity (capacity : Nat) : AuditLog :=
  { capacity := max 1 capacity, capacity_pos := by omega }

/-- The events held, the oldest first. -/
def toList (log : AuditLog) : List AuditEvent :=
  log.older ++ log.newer.reverse

/-- Adds an event and gives up the oldest one if there is no room. -/
def add (log : AuditLog) (event : AuditEvent) : AuditLog :=
  if room : log.held < log.capacity then
    { log with
      newer := event :: log.newer
      held := log.held + 1
      held_eq := by have := log.held_eq; simp only [List.length_cons]; omega }
  else
    match split : log.older with
    | _ :: older =>
      { log with
        older, newer := event :: log.newer, evicted := log.evicted + 1
        held_eq := by have := log.held_eq; simp_all only [List.length_cons]; omega }
    | [] =>
      { log with
        older := log.newer.reverse.tail, newer := [event], evicted := log.evicted + 1
        held_eq := by
          have size := log.held_eq
          have := log.capacity_pos
          rw [split, List.length_nil] at size
          simp only [List.length_tail, List.length_reverse, List.length_singleton]
          omega }

/-- Forgets the events, but not how many were given up. -/
def clear (log : AuditLog) : AuditLog :=
  { log with older := [], newer := [], held := 0, held_eq := rfl }

@[simp] theorem length_toList (log : AuditLog) : log.toList.length = log.held := by
  simp [toList, log.held_eq]

@[simp] theorem toList_ofCapacity (capacity : Nat) : (ofCapacity capacity).toList = [] := rfl

@[simp] theorem toList_clear (log : AuditLog) : log.clear.toList = [] := rfl

/-- With room the event joins the others, and without it the oldest one leaves. -/
theorem toList_add (log : AuditLog) (event : AuditEvent) :
    (log.add event).toList =
      (if log.held < log.capacity then log.toList else log.toList.tail) ++ [event] := by
  unfold add
  split
  · simp [toList]
  · split <;> rename_i older <;> simp [toList, older]

end AuditLog

/-- Events that wait to be delivered; one that finds the queue full is dropped. -/
structure AuditQueue where
  capacity : Nat
  waiting : Array AuditEvent := #[]
  dropped : Nat := 0

namespace AuditQueue

/-- An empty queue with room for at least one event. -/
def ofCapacity (capacity : Nat) : AuditQueue :=
  { capacity := max 1 capacity }

def offer (queue : AuditQueue) (event : AuditEvent) : AuditQueue :=
  if queue.waiting.size < queue.capacity then
    { queue with waiting := queue.waiting.push event }
  else { queue with dropped := queue.dropped + 1 }

/-- Delivers every waiting event to a log. -/
def drain (queue : AuditQueue) (log : AuditLog) : AuditQueue × AuditLog :=
  ({ queue with waiting := #[] }, queue.waiting.foldl AuditLog.add log)

end AuditQueue
end Admission
