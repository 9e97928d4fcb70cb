import Mathlib.Computability.Language
import Admission.Proofs.Registry.Step

/-! Runs of a registry. Main statement: the names, the limiters, the reports and the handles of a registry
agree with each other after any run. -/
namespace Admission.Registry

open Computability

/-- The registry after a run. -/
def run (registry : Registry) (actions : List Action) : Registry :=
  actions.foldl (fun registry action => (registry.act action).registry) registry

/-- What is reported in a run. -/
def told (registry : Registry) : List Action → List AuditEvent
  | [] => []
  | action :: rest => (registry.act action).event?.toList ++ told (registry.act action).registry rest

def changesOf (name : String) (events : List AuditEvent) : List ConfigChange :=
  events.filterMap fun
    | .configChanged limiter change => if limiter = name then some change else none
    | _ => none

/-- The reports of a name that is registered, since it is. -/
def living : Language ConfigChange :=
  {[.registered]} * {[.updated]}∗

/-- The reports of a name that is not registered. -/
def gone : Language ConfigChange :=
  (living * {[.removed]})∗

section

variable {reports : List ConfigChange}

private theorem mem_one (change : ConfigChange) : [change] ∈ ({[change]} : Language ConfigChange) :=
  Set.mem_singleton [change]

private theorem append_mem_kstar {language : Language ConfigChange} {first last : List ConfigChange}
    (old : first ∈ language∗) (new : last ∈ language) : first ++ last ∈ language∗ :=
  Set.mem_of_mem_of_subset (Language.append_mem_mul old new) (kstar_mul_le_kstar (a := language))

private theorem registered_mem (past : reports ∈ gone) : reports ++ [.registered] ∈ gone * living := by
  have life : [.registered] ++ [] ∈ living :=
    Language.append_mem_mul (mem_one .registered) (Language.nil_mem_kstar _)
  exact Language.append_mem_mul past life

private theorem updated_mem (standing : reports ∈ gone * living) : reports ++ [.updated] ∈ gone * living := by
  obtain ⟨past, isPast, life, isLife, rfl⟩ := Language.mem_mul.mp standing
  obtain ⟨first, isFirst, updates, areUpdates, rfl⟩ := Language.mem_mul.mp isLife
  rw [List.append_assoc, List.append_assoc]
  exact Language.append_mem_mul isPast
    (Language.append_mem_mul isFirst (append_mem_kstar areUpdates (mem_one .updated)))

private theorem removed_mem (standing : reports ∈ gone * living) : reports ++ [.removed] ∈ gone := by
  obtain ⟨past, isPast, life, isLife, rfl⟩ := Language.mem_mul.mp standing
  rw [List.append_assoc]
  exact append_mem_kstar isPast (Language.append_mem_mul isLife (mem_one .removed))

end

section

variable {registry before after : Registry} {events : List AuditEvent} {event? : Option AuditEvent}
  {name other : String} {handle : Handle}

private theorem changesOf_append (name : String) (events later : List AuditEvent) :
    changesOf name (events ++ later) = changesOf name events ++ changesOf name later :=
  List.filterMap_append

private theorem changesOf_self (name : String) (change : ConfigChange) :
    changesOf name [.configChanged name change] = [change] := by
  simp [changesOf]

private theorem changesOf_of_ne (apart : other ≠ name) (change : ConfigChange) :
    changesOf name [.configChanged other change] = [] := by
  simp [changesOf, apart]

/-- A name is registered, or not, as its reports say. -/
structure Reported (registry : Registry) (events : List AuditEvent) (name : String) : Prop where
  absent : registry.handle? name = none → changesOf name events ∈ gone
  present : ∀ handle, registry.handle? name = some handle → changesOf name events ∈ gone * living
  last : (registry.handle? name).isSome ↔
    ∃ change, (changesOf name events).getLast? = some change ∧ change ≠ .removed

private theorem reported_empty (name : String) : Reported {} [] name where
  absent _ := Language.nil_mem_kstar _
  present _ found := by cases found
  last := by simp [handle?, changesOf]

theorem Changes.handle?_eq (changes : Changes before event? after)
    (silent : ∀ change, event? ≠ some (.configChanged name change)) :
    after.handle? name = before.handle? name := by
  cases changes with
  | nothing | wrote => rfl
  | @pushed limiter fresh => exact handle?_push_of_ne (by rintro rfl; exact silent .registered rfl) before
  | @dropped dropped handle found => exact handle?_drop_of_ne (by rintro rfl; exact silent .removed rfl) before

private theorem changesOf_silent (silent : ∀ change, event? ≠ some (.configChanged name change)) :
    changesOf name event?.toList = [] := by
  cases event? with
  | none => rfl
  | some event =>
    cases event with
    | configChanged limiter change =>
      exact changesOf_of_ne (by rintro rfl; exact silent change rfl) change
    | enforcement | failure | keyResolutionFailed => rfl

private theorem changesOf_report (name : String) (events : List AuditEvent) (change : ConfigChange) :
    changesOf name (events ++ [.configChanged name change]) = changesOf name events ++ [change] := by
  rw [changesOf_append, changesOf_self]

/-- A name that is registered after a report of anything but a removal stands as it says. -/
theorem reported_standing {change : ConfigChange} (found : after.handle? name = some handle)
    (standing : changesOf name events ++ [change] ∈ gone * living) (other : change ≠ .removed) :
    Reported after (events ++ [.configChanged name change]) name := by
  constructor
  case absent =>
    intro absent
    rw [found] at absent
    cases absent
  case present =>
    intro _ _
    rw [changesOf_report]
    exact standing
  case last =>
    rw [found, changesOf_report, List.getLast?_concat]
    exact iff_of_true rfl ⟨change, rfl, other⟩

theorem Changes.reported (changes : Changes before event? after) (reported : Reported before events name) :
    Reported after (events ++ event?.toList) name := by
  by_cases told : ∃ change, event? = some (.configChanged name change)
  · obtain ⟨change, rfl⟩ := told
    cases changes with
    | wrote found named => exact reported_standing found (updated_mem (reported.present _ found)) (by decide)
    | @pushed limiter fresh =>
      exact reported_standing (handle?_push_self before limiter) (registered_mem (reported.absent fresh)) (by decide)
    | dropped found =>
      have absent := handle?_drop_self before name
      constructor
      case absent =>
        intro _
        show changesOf name (events ++ [_]) ∈ gone
        rw [changesOf_report]
        exact removed_mem (reported.present _ found)
      case present =>
        intro handle kept
        rw [absent] at kept
        cases kept
      case last =>
        show _ ↔ ∃ change, (changesOf name (events ++ [_])).getLast? = some change ∧ _
        rw [absent, changesOf_report, List.getLast?_concat]
        refine iff_of_false (by simp) ?_
        rintro ⟨change, same, other⟩
        cases same
        exact other rfl
  · -- The reports of other names, and actions without one, leave this name as it stands.
    have silent : ∀ change, event? ≠ some (.configChanged name change) := fun change same => told ⟨change, same⟩
    have same := changes.handle?_eq silent
    have unchanged : changesOf name (events ++ event?.toList) = changesOf name events := by
      rw [changesOf_append, changesOf_silent silent, List.append_nil]
    constructor
    case absent =>
      rw [same, unchanged]
      exact reported.absent
    case present =>
      rw [same, unchanged]
      exact reported.present
    case last =>
      rw [same, unchanged]
      exact reported.last

theorem reported_run (actions : List Action) (reported : Reported registry events name) :
    Reported (registry.run actions) (events ++ registry.told actions) name := by
  induction actions generalizing registry events with
  | nil =>
    rw [told, List.append_nil]
    exact reported
  | cons action rest ih =>
    have step := ih ((acts registry action).changes.reported reported)
    rw [List.append_assoc] at step
    exact step

theorem wellFormed_run (actions : List Action) (wellFormed : registry.WellFormed) :
    (registry.run actions).WellFormed := by
  induction actions generalizing registry with
  | nil => exact wellFormed
  | cons action rest ih => exact ih ((acts registry action).changes.wellFormed wellFormed)

private theorem mem_names : name ∈ registry.names ↔ (registry.handle? name).isSome := by
  rw [names, List.mem_mergeSort, handle?, List.lookup_isSome_iff, List.mem_map]
  refine exists_congr fun entry => and_congr_right fun _ => ?_
  rw [beq_iff_eq, eq_comm]

theorem WellFormed.names_sorted (wellFormed : registry.WellFormed) : registry.names.Pairwise (· < ·) := by
  have sorted : registry.names.Pairwise fun a b => decide (a ≤ b) := by
    apply List.pairwise_mergeSort
    · intro a b c first second
      exact decide_eq_true (String.le_trans (of_decide_eq_true first) (of_decide_eq_true second))
    · intro a b
      simpa using String.le_total a b
  have nodup : registry.names.Nodup := List.nodup_mergeSort.mpr wellFormed.nodup
  refine (sorted.and nodup).imp fun {a b} ⟨first, apart⟩ => ?_
  by_contra notLess
  exact apart (String.le_antisymm (of_decide_eq_true first) (String.not_lt.mp notLess))

/-- A handle that no name has any more, and that no name will get. -/
structure Retired (registry : Registry) (handle : Handle) : Prop where
  old : handle < registry.cells.size
  unowned : ∀ name, registry.handle? name ≠ some handle

theorem Changes.retired (changes : Changes before event? after) (retired : Retired before handle) :
    Retired after handle ∧ after.read? handle = before.read? handle := by
  cases changes with
  | nothing => exact ⟨retired, rfl⟩
  | @wrote name written limiter found named =>
    have apart : handle ≠ written := by
      rintro rfl
      exact retired.unowned name found
    refine ⟨⟨?_, retired.unowned⟩, read?_write_of_ne apart before limiter⟩
    exact Nat.lt_of_lt_of_eq retired.old Array.size_setIfInBounds.symm
  | @pushed limiter fresh =>
    -- The handle that is given out is new, so it is not the retired one.
    refine ⟨⟨?_, fun name found => ?_⟩, read?_push retired.old limiter⟩
    · exact Nat.lt_of_lt_of_eq (Nat.lt_succ_of_lt retired.old) (Array.size_push limiter).symm
    · rcases handle?_of_push found with ⟨-, rfl⟩ | old
      · exact Nat.lt_irrefl _ retired.old
      · exact retired.unowned name old
  | dropped found =>
    exact ⟨⟨retired.old, fun name kept => retired.unowned name (handle?_of_drop kept).2⟩, rfl⟩

theorem retired_run (actions : List Action) (retired : Retired registry handle) :
    (registry.run actions).read? handle = registry.read? handle := by
  induction actions generalizing registry with
  | nil => rfl
  | cons action rest ih =>
    obtain ⟨still, same⟩ := (acts registry action).changes.retired retired
    exact (ih still).trans same

/-- A handle that is a name's, or was. -/
def Owned (registry : Registry) (name : String) (handle : Handle) : Prop :=
  registry.handle? name = some handle ∨ Retired registry handle

theorem Changes.owned (changes : Changes before event? after) (wellFormed : before.WellFormed)
    (owned : Owned before name handle) : Owned after name handle := by
  rcases owned with own | retired
  · cases changes with
    | nothing | wrote => exact .inl own
    | @pushed limiter fresh =>
      left
      rw [handle?_push_of_ne (by rintro rfl; rw [own] at fresh; cases fresh)]
      exact own
    | @dropped dropped held found =>
      by_cases same : name = dropped
      · subst same
        right
        obtain ⟨limiter, read, -⟩ := wellFormed.named name handle own
        refine ⟨lt_size_of_read? read, fun other kept => ?_⟩
        -- No other name shares the handle, so with this name it has lost its last one.
        obtain ⟨again, found⟩ := handle?_of_drop kept
        exact again (wellFormed.name_eq found own)
      · left
        rw [handle?_drop_of_ne same]
        exact own
  · exact .inr (changes.retired retired).1

theorem owned_run (actions : List Action) (wellFormed : registry.WellFormed)
    (owned : Owned registry name handle) :
    Owned (registry.run actions) name handle := by
  induction actions generalizing registry with
  | nil => exact owned
  | cons action rest ih =>
    have changes := (acts registry action).changes
    exact ih (changes.wellFormed wellFormed) (changes.owned wellFormed owned)

theorem Changes.held (changes : Changes before event? after)
    (old : event? ≠ some (.configChanged name .registered))
    (held : ∀ kept, before.handle? name = some kept → kept = handle) :
    ∀ kept, after.handle? name = some kept → kept = handle := by
  cases changes with
  | nothing | wrote => exact held
  | @pushed limiter fresh =>
    have apart : name ≠ limiter.name := by
      rintro rfl
      exact old rfl
    rw [handle?_push_of_ne apart]
    exact held
  | @dropped dropped gone found =>
    intro kept still
    exact held kept (handle?_of_drop still).2

theorem held_run (actions : List Action) (old : .configChanged name .registered ∉ registry.told actions)
    (held : ∀ kept, registry.handle? name = some kept → kept = handle) :
    ∀ kept, (registry.run actions).handle? name = some kept → kept = handle := by
  induction actions generalizing registry with
  | nil => exact held
  | cons action rest ih =>
    obtain ⟨first, later⟩ := not_or.mp (mt List.mem_append.mpr old)
    refine ih later ((acts registry action).changes.held (fun same => first ?_) held)
    rw [same]
    exact List.mem_singleton_self _

theorem WellFormed.read?_owned (wellFormed : registry.WellFormed) (owned : Owned registry name handle) :
    ∃ limiter, registry.read? handle = some limiter := by
  rcases owned with own | retired
  · obtain ⟨limiter, read, -⟩ := wellFormed.named name handle own
    exact ⟨limiter, read⟩
  · have bounded := retired.old
    exact ⟨registry.cells[handle], Array.getElem?_eq_getElem bounded⟩

theorem Acts.dropped {outcome : Outcome} (acts : Acts before (.remove name) outcome)
    (removed : outcome.event? = some (.configChanged name .removed)) : outcome.registry = before.drop name := by
  cases acts with
  | removed found read => rfl
  | missing absent => cases removed

/-- What a handle reads that was handed out for a name. -/
structure Faithful (registry : Registry) (name : String) (handle : Handle) : Prop where
  /-- Until the name is registered anew, the handle reads the limiter of the name. -/
  follows : ∀ later, .configChanged name .registered ∉ registry.told later →
    ∀ limiter, (registry.run later).get? name = some limiter → (registry.run later).read? handle = some limiter
  /-- The limiter that the handle reads when the name is removed is what it reads ever after. -/
  stays : ∀ middle later, let last := registry.run middle
    (last.act (.remove name)).event? = some (.configChanged name .removed) →
      ∃ limiter, last.read? handle = some limiter ∧
        ((last.act (.remove name)).registry.run later).read? handle = some limiter

theorem WellFormed.faithful (wellFormed : registry.WellFormed) (own : registry.handle? name = some handle) :
    Faithful registry name handle := by
  constructor
  case follows =>
    intro later old limiter got
    obtain ⟨kept, found, read⟩ := Option.bind_eq_some_iff.mp got
    have same := held_run later old (fun kept found => by rw [own] at found; cases found; rfl) kept found
    rw [← same]
    exact read
  case stays =>
    intro middle later last removed
    have lastFormed : last.WellFormed := wellFormed_run middle wellFormed
    have owned : Owned last name handle := owned_run middle wellFormed (.inl own)
    obtain ⟨limiter, read⟩ := lastFormed.read?_owned owned
    refine ⟨limiter, read, ?_⟩
    have dropped := (acts last (.remove name)).dropped removed
    -- The name is gone after its removal, so the handle is retired.
    rcases (acts last (.remove name)).changes.owned lastFormed owned with kept | retired
    · rw [dropped, handle?_drop_self] at kept
      cases kept
    · rw [retired_run later retired, dropped, read?_drop]
      exact read

theorem Acts.handed_own {action : Action} {outcome : Outcome} (acts : Acts before action outcome)
    (handed : outcome.answer = .handle (some handle)) :
    outcome.registry.handle? action.name = some handle := by
  cases acts with
  | registered fresh =>
    cases handed
    exact handle?_push_self ..
  | replaced found =>
    cases handed
    exact found
  | handed name => exact Answer.handle.inj handed
  | updated | unknown | refused | renamed | removed | missing | got => cases handed

/-- After any run every limiter bears its name, an action changes one name and is reported once or changes
nothing and is not reported, the names are sorted and are those whose last report is no removal, and the
handles that are handed out read what they should. -/
theorem run_coherent (actions : List Action) :
    let registry := run {} actions
    let events := told {} actions
    (∀ name limiter, registry.get? name = some limiter → limiter.name = name) ∧
      (∀ action, Effect registry action (registry.act action)) ∧
      (∀ name, changesOf name events ∈ gone * (1 + living)) ∧
      registry.names.Pairwise (· < ·) ∧
      (∀ name, name ∈ registry.names ↔
        ∃ change, (changesOf name events).getLast? = some change ∧ change ≠ .removed) ∧
      ∀ action handle, (registry.act action).answer = .handle (some handle) →
        Faithful (registry.act action).registry action.name handle := by
  intro registry events
  have wellFormed : registry.WellFormed := wellFormed_run actions wellFormed_empty
  have reported : ∀ name, Reported registry events name := by
    intro name
    exact reported_run actions (reported_empty name)
  refine ⟨?_, fun action => (acts registry action).effect wellFormed, ?_, wellFormed.names_sorted, ?_, ?_⟩
  · intro name limiter got
    obtain ⟨handle, found, read⟩ := Option.bind_eq_some_iff.mp got
    obtain ⟨own, reread, named⟩ := wellFormed.named name handle found
    rw [read] at reread
    cases reread
    exact named
  · intro name
    rw [mul_add, mul_one]
    cases found : registry.handle? name with
    | none => exact .inl ((reported name).absent found)
    | some handle => exact .inr ((reported name).present handle found)
  · intro name
    exact mem_names.trans (reported name).last
  · intro action handle handed
    have step := acts registry action
    exact (step.changes.wellFormed wellFormed).faithful (step.handed_own handed)

/-- A name that is removed and registered again has a new handle. -/
example :
    let limiter : Limiter :=
      { name := "api", algorithm := .tokenBucket, requests := 2, window := .ofSeconds 1,
        failStrategy := .failOpen, capacity := 2, refillRate := 2, throttle? := none }
    let wider : Limiter := { limiter with requests := 9 }
    let actions := [.register limiter, .update "api" fun _ => .error .zeroWindow,
      .update "api" fun _ => .ok wider, .remove "api", .register limiter]
    let registry := run {} actions
    changesOf "api" (told {} actions) = [.registered, .updated, .removed, .registered] ∧
      registry.read? 0 = some wider ∧ registry.get? "api" = some limiter := by
  decide +kernel

end
end Admission.Registry
