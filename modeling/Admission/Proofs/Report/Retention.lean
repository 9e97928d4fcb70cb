import Mathlib.Data.List.DropRight
import Admission.Report.AuditLog

/-! What an audit log keeps. Main statement: after any events and clears it holds the newest events since
the latest clear, as many as there is room for, and each of the others was given up or cleared away. -/
namespace Admission.AuditLog

inductive Action
  | add (event : AuditEvent)
  | clear
  deriving DecidableEq

def Action.event? : Action → Option AuditEvent
  | add event => some event
  | clear => none

def act (log : AuditLog) : Action → AuditLog
  | .add event => log.add event
  | .clear => log.clear

def run (log : AuditLog) (actions : List Action) : AuditLog :=
  actions.foldl act log

/-- The events that some actions add, the oldest first. -/
def added (actions : List Action) : List AuditEvent :=
  actions.filterMap Action.event?

/-- The events added since the latest clear. -/
def recent (actions : List Action) : List AuditEvent :=
  added (actions.rtakeWhile (· ≠ .clear))

/-- How many events the clears among some actions take away from a log. -/
def cleared (log : AuditLog) : List Action → Nat
  | [] => 0
  | .add event :: rest => (log.add event).cleared rest
  | .clear :: rest => log.toList.length + log.clear.cleared rest

section

variable {log : AuditLog}

@[simp] theorem capacity_add (log : AuditLog) (event : AuditEvent) :
    (log.add event).capacity = log.capacity := by
  unfold add
  split
  · rfl
  · split <;> rfl

theorem evicted_add (log : AuditLog) (event : AuditEvent) :
    (log.add event).evicted = if log.held < log.capacity then log.evicted else log.evicted + 1 := by
  unfold add
  split
  · rfl
  · split <;> rfl

theorem held_add (log : AuditLog) (event : AuditEvent) :
    (log.add event).held = if log.held < log.capacity then log.held + 1 else log.held := by
  have positive := log.capacity_pos
  rw [← length_toList, toList_add, List.length_append, List.length_singleton]
  split
  · rw [length_toList]
  · rw [List.length_tail, length_toList]
    omega

private theorem run_concat (log : AuditLog) (actions : List Action) (action : Action) :
    log.run (actions ++ [action]) = (log.run actions).act action :=
  List.foldl_concat ..

private theorem recent_concat_add (actions : List Action) (event : AuditEvent) :
    recent (actions ++ [.add event]) = recent actions ++ [event] := by
  rw [recent, List.rtakeWhile_concat_pos _ _ _ (by simp), added, List.filterMap_append]
  rfl

private theorem recent_concat_clear (actions : List Action) : recent (actions ++ [.clear]) = [] := by
  rw [recent, List.rtakeWhile_concat_neg _ _ _ (by simp)]
  rfl

private theorem cleared_concat_add (log : AuditLog) (actions : List Action) (event : AuditEvent) :
    log.cleared (actions ++ [.add event]) = log.cleared actions := by
  induction actions generalizing log with
  | nil => rfl
  | cons action rest ih =>
    cases action with
    | add other => exact ih _
    | clear => exact congrArg (log.toList.length + ·) (ih _)

private theorem cleared_concat_clear (log : AuditLog) (actions : List Action) :
    log.cleared (actions ++ [.clear]) = log.cleared actions + (log.run actions).toList.length := by
  induction actions generalizing log with
  | nil => exact Nat.add_comm ..
  | cons action rest ih =>
    cases action with
    | add other => exact ih _
    | clear => exact (congrArg (log.toList.length + ·) (ih _)).trans (Nat.add_assoc ..).symm

private theorem added_concat_add (actions : List Action) (event : AuditEvent) :
    added (actions ++ [.add event]) = added actions ++ [event] :=
  List.filterMap_append

private theorem added_concat_clear (actions : List Action) : added (actions ++ [.clear]) = added actions := by
  rw [added, List.filterMap_append]
  exact List.append_nil _

/-- A log holds the newest of some events, as many as there is room for. -/
structure Newest (log : AuditLog) (events : List AuditEvent) : Prop where
  suffix : log.toList <:+ events
  held : log.held = min log.capacity events.length

/-- What a log that started empty is after some actions. -/
structure Kept (capacity : Nat) (actions : List Action) : Prop where
  room : ((ofCapacity capacity).run actions).capacity = max 1 capacity
  newest : Newest ((ofCapacity capacity).run actions) (recent actions)
  /-- Every event that was added was given up, was cleared away or is held. -/
  account : ((ofCapacity capacity).run actions).evicted + (ofCapacity capacity).cleared actions +
    ((ofCapacity capacity).run actions).held = (added actions).length

private theorem newest_empty (empty : log.toList = []) : Newest log [] := by
  refine ⟨empty ▸ List.suffix_rfl, ?_⟩
  rw [← length_toList, empty]
  exact (Nat.min_zero _).symm

/-- The oldest event leaves only if the new one finds no room. -/
theorem Newest.add {events : List AuditEvent} (newest : Newest log events) (event : AuditEvent) :
    Newest (log.add event) (events ++ [event]) := by
  obtain ⟨suffix, held⟩ := newest
  constructor
  · have stays : (if log.held < log.capacity then log.toList else log.toList.tail) <:+ events := by
      split
      · exact suffix
      · exact log.toList.tail_suffix.trans suffix
    rw [toList_add]
    exact List.suffix_append_self_iff.mpr stays
  · rw [held_add, capacity_add, List.length_append, List.length_singleton]
    split <;> omega

private theorem kept_nil (capacity : Nat) : Kept capacity [] :=
  ⟨rfl, newest_empty rfl, rfl⟩

theorem Kept.concat {capacity : Nat} {actions : List Action} (kept : Kept capacity actions)
    (action : Action) : Kept capacity (actions ++ [action]) := by
  obtain ⟨room, newest, account⟩ := kept
  cases action with
  | add event =>
    constructor
    · rw [run_concat]
      exact (capacity_add ..).trans room
    · rw [run_concat, recent_concat_add]
      exact newest.add event
    · rw [run_concat, cleared_concat_add, added_concat_add, List.length_append, List.length_singleton, act,
        held_add, evicted_add]
      split <;> omega
  | clear =>
    constructor
    · rw [run_concat]
      exact room
    · rw [run_concat, recent_concat_clear]
      exact newest_empty rfl
    · rw [run_concat, cleared_concat_clear, added_concat_clear, ← account, length_toList]
      exact (Nat.add_assoc ..).symm

theorem kept_run (capacity : Nat) (actions : List Action) : Kept capacity actions := by
  induction actions using List.reverseRecOn with
  | nil => exact kept_nil capacity
  | append_singleton actions action ih => exact ih.concat action

/-- After any events and clears a log shows, in order, the newest events since the latest clear, as many
as there is room for, and never more. It has counted as given up what was added and is neither held nor
cleared away. -/
theorem run_keeps_newest (capacity : Nat) (actions : List Action) :
    let start := ofCapacity capacity
    let log := start.run actions
    log.capacity = max 1 capacity ∧
      log.toList = (recent actions).rtake (min log.capacity (recent actions).length) ∧
      log.toList.length ≤ log.capacity ∧
      log.evicted + start.cleared actions + log.toList.length = (added actions).length := by
  intro start log
  obtain ⟨room, ⟨suffix, held⟩, account⟩ := kept_run capacity actions
  rw [← log.length_toList] at held account
  refine ⟨room, ?_, held ▸ Nat.min_le_left .., account⟩
  rw [← held]
  exact List.suffix_iff_eq_drop.mp suffix

end
end Admission.AuditLog
