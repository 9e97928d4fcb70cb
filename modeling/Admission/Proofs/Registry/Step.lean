import Admission.Registry

namespace Admission.Registry

inductive Action
  | register (limiter : Limiter)
  | update (name : String) (change : Limiter → Except LimiterError Limiter)
  | remove (name : String)
  | get (name : String)
  | handle (name : String)

def Action.name : Action → String
  | register limiter => limiter.name
  | update name _ | remove name | get name | handle name => name

inductive Answer
  | handle (handle? : Option Handle)
  | limiter (limiter? : Option Limiter)
  | updated (result : Except RegistryError Limiter)

/-- The answer to an action, the registry afterwards, and what is reported. -/
structure Outcome where
  answer : Answer
  registry : Registry
  event? : Option AuditEvent

def act (registry : Registry) : Action → Outcome
  | .register limiter =>
    let (after, handle, event) := registry.register limiter
    ⟨.handle (some handle), after, some event⟩
  | .update name change =>
    match registry.update name change with
    | .ok (next, after, event) => ⟨.updated (.ok next), after, some event⟩
    | .error error => ⟨.updated (.error error), registry, none⟩
  | .remove name =>
    match registry.remove name with
    | some (limiter, after, event) => ⟨.limiter (some limiter), after, some event⟩
    | none => ⟨.limiter none, registry, none⟩
  | .get name => ⟨.limiter (registry.get? name), registry, none⟩
  | .handle name => ⟨.handle (registry.handle? name), registry, none⟩

/-- A name that is not registered gets a handle of its own. -/
def push (registry : Registry) (limiter : Limiter) : Registry where
  cells := registry.cells.push limiter
  handles := (limiter.name, registry.cells.size) :: registry.handles

/-- A name is given up, and what is behind its handle stays. -/
def drop (registry : Registry) (name : String) : Registry :=
  { registry with handles := registry.handles.filter (·.1 ≠ name) }

/-- What an action does to a registry, and what is reported of it. -/
inductive Changes (before : Registry) : Option AuditEvent → Registry → Prop
  | nothing : Changes before none before
  | wrote {name : String} {handle : Handle} {limiter : Limiter} (found : before.handle? name = some handle)
      (named : limiter.name = name) :
    Changes before (some (.configChanged name .updated)) (before.write handle limiter)
  | pushed {limiter : Limiter} (fresh : before.handle? limiter.name = none) :
    Changes before (some (.configChanged limiter.name .registered)) (before.push limiter)
  | dropped {name : String} {handle : Handle} (found : before.handle? name = some handle) :
    Changes before (some (.configChanged name .removed)) (before.drop name)

/-- The names are registered once each, and behind the handle of a name is a limiter of that name. -/
structure WellFormed (registry : Registry) : Prop where
  nodup : (registry.handles.map (·.1)).Nodup
  named : ∀ name handle, registry.handle? name = some handle →
    ∃ limiter, registry.read? handle = some limiter ∧ limiter.name = name

section

variable {registry : Registry} {name other : String} {handle held : Handle} {limiter : Limiter}

private theorem get?_of_handle? (found : registry.handle? name = some handle) :
    registry.get? name = registry.read? handle := by
  rw [get?, found, Option.bind_some]

private theorem get?_of_none (absent : registry.handle? name = none) : registry.get? name = none := by
  rw [get?, absent, Option.bind_none]

theorem lt_size_of_read? (read : registry.read? handle = some limiter) : handle < registry.cells.size :=
  (Array.getElem?_eq_some_iff.mp read).1

@[simp] theorem handle?_write (registry : Registry) (handle : Handle) (limiter : Limiter) (name : String) :
    (registry.write handle limiter).handle? name = registry.handle? name := rfl

theorem read?_write_self (read : registry.read? handle = some limiter) (next : Limiter) :
    (registry.write handle next).read? handle = some next := by
  have bounded := lt_size_of_read? read
  simp [read?, write, bounded]

theorem read?_write_of_ne (apart : held ≠ handle) (registry : Registry) (limiter : Limiter) :
    (registry.write handle limiter).read? held = registry.read? held :=
  Array.getElem?_setIfInBounds_ne apart.symm

theorem handle?_push_self (registry : Registry) (limiter : Limiter) :
    (registry.push limiter).handle? limiter.name = some registry.cells.size := by
  simp [handle?, push]

theorem handle?_push_of_ne (apart : other ≠ limiter.name) (registry : Registry) :
    (registry.push limiter).handle? other = registry.handle? other := by
  have differs : (other == limiter.name) = false := beq_false_of_ne apart
  simp only [handle?, push, List.lookup_cons, differs]

theorem read?_push_self (registry : Registry) (limiter : Limiter) :
    (registry.push limiter).read? registry.cells.size = some limiter := by
  simp [read?, push]

theorem read?_push (bounded : handle < registry.cells.size) (next : Limiter) :
    (registry.push next).read? handle = registry.read? handle := by
  simp only [read?, push, Array.getElem?_push, if_neg (Nat.ne_of_lt bounded)]

@[simp] theorem read?_drop (registry : Registry) (name : String) (handle : Handle) :
    (registry.drop name).read? handle = registry.read? handle := rfl

theorem handle?_drop_self (registry : Registry) (name : String) : (registry.drop name).handle? name = none := by
  rw [handle?, List.lookup_eq_none_iff]
  intro entry member
  have kept := of_decide_eq_true (List.mem_filter.mp member).2
  exact bne_iff_ne.mpr (Ne.symm kept)

theorem handle?_drop_of_ne (apart : other ≠ name) (registry : Registry) :
    (registry.drop name).handle? other = registry.handle? other := by
  unfold handle? drop
  induction registry.handles with
  | nil => rfl
  | cons entry rest ih =>
    obtain ⟨first, handle⟩ := entry
    by_cases dropped : first = name
    · have skipped : (other == first) = false := by simp [dropped, apart]
      simp only [List.filter_cons, dropped, ne_eq, not_true, decide_false, Bool.false_eq_true, if_false]
      rw [List.lookup_cons, ← dropped, skipped]
      simpa [dropped] using ih
    · simp only [List.filter_cons, ne_eq, dropped, not_false_eq_true, decide_true, if_true, List.lookup_cons, ih]

theorem handle?_of_push (found : (registry.push limiter).handle? name = some handle) :
    name = limiter.name ∧ handle = registry.cells.size ∨ registry.handle? name = some handle := by
  by_cases same : name = limiter.name
  · subst same
    rw [handle?_push_self] at found
    cases found
    exact .inl ⟨rfl, rfl⟩
  · rw [handle?_push_of_ne same] at found
    exact .inr found

theorem handle?_of_drop (found : (registry.drop other).handle? name = some handle) :
    name ≠ other ∧ registry.handle? name = some handle := by
  by_cases same : name = other
  · subst same
    rw [handle?_drop_self] at found
    cases found
  · rw [handle?_drop_of_ne same] at found
    exact ⟨same, found⟩

theorem get?_write_self (found : registry.handle? name = some handle)
    (read : registry.read? handle = some limiter) (next : Limiter) :
    (registry.write handle next).get? name = some next := by
  have kept := (handle?_write registry handle next name).trans found
  rw [get?_of_handle? kept, read?_write_self read]

theorem get?_push_self (registry : Registry) (limiter : Limiter) :
    (registry.push limiter).get? limiter.name = some limiter := by
  rw [get?_of_handle? (handle?_push_self registry limiter), read?_push_self]

theorem get?_drop_self (registry : Registry) (name : String) : (registry.drop name).get? name = none :=
  get?_of_none (handle?_drop_self registry name)

end

section

variable {registry before after : Registry} {event? : Option AuditEvent} {name other : String}
  {handle held : Handle} {limiter : Limiter}

namespace WellFormed

/-- No two names share a handle. -/
theorem name_eq (wellFormed : registry.WellFormed) (found : registry.handle? name = some handle)
    (again : registry.handle? other = some handle) : name = other := by
  obtain ⟨limiter, read, named⟩ := wellFormed.named name handle found
  obtain ⟨same, reread, renamed⟩ := wellFormed.named other handle again
  rw [read] at reread
  cases reread
  exact named.symm.trans renamed

end WellFormed

theorem wellFormed_empty : WellFormed {} :=
  ⟨List.nodup_nil, fun _ _ found => by cases found⟩

/-- A registry stays well-formed. -/
theorem Changes.wellFormed (changes : Changes before event? after) (wellFormed : before.WellFormed) :
    after.WellFormed := by
  cases changes with
  | nothing => exact wellFormed
  | @wrote name handle limiter found named =>
    refine ⟨wellFormed.nodup, fun other held kept => ?_⟩
    obtain ⟨current, read, own⟩ := wellFormed.named other held kept
    by_cases same : held = handle
    · subst same
      exact ⟨limiter, read?_write_self read limiter, named.trans (wellFormed.name_eq found kept)⟩
    · rw [read?_write_of_ne same]
      exact ⟨current, read, own⟩
  | @pushed limiter fresh =>
    constructor
    case nodup =>
      have absent := List.lookup_eq_none_iff.mp fresh
      refine List.nodup_cons.mpr ⟨fun member => ?_, wellFormed.nodup⟩
      obtain ⟨entry, listed, same⟩ := List.mem_map.mp member
      simpa [same] using absent entry listed
    case named =>
      intro other held kept
      rcases handle?_of_push kept with ⟨rfl, rfl⟩ | found
      · exact ⟨limiter, read?_push_self before limiter, rfl⟩
      · obtain ⟨current, read, own⟩ := wellFormed.named other held found
        exact ⟨current, (read?_push (lt_size_of_read? read) limiter).trans read, own⟩
  | @dropped name handle found =>
    constructor
    case nodup => exact wellFormed.nodup.sublist (List.filter_sublist.map _)
    case named =>
      intro other held kept
      exact wellFormed.named other held (handle?_of_drop kept).2

/-- Nothing changes but for one name: no other name, and nothing behind a handle that is not the name's. -/
structure OnlyChanges (name : String) (before after : Registry) : Prop where
  names : ∀ other, other ≠ name → after.get? other = before.get? other
  handles : ∀ held limiter, before.read? held = some limiter → before.handle? name ≠ some held →
    after.read? held = some limiter

private theorem get?_congr (same : after.handle? name = before.handle? name)
    (read : ∀ held, before.handle? name = some held → after.read? held = before.read? held) :
    after.get? name = before.get? name := by
  unfold get?
  rw [same]
  cases found : before.handle? name with
  | none => rfl
  | some held => exact read held found

theorem Changes.only {change : ConfigChange}
    (changes : Changes before (some (.configChanged name change)) after)
    (wellFormed : before.WellFormed) : OnlyChanges name before after := by
  cases changes with
  | @wrote _ handle limiter found named =>
    constructor
    case names =>
      intro other apart
      refine get?_congr rfl fun held kept => read?_write_of_ne (fun same => ?_) before limiter
      subst same
      exact apart (wellFormed.name_eq kept found)
    case handles =>
      intro held current read free
      rw [read?_write_of_ne (by rintro rfl; exact free found)]
      exact read
  | @pushed limiter fresh =>
    constructor
    case names =>
      intro other apart
      refine get?_congr (handle?_push_of_ne apart before) fun held kept => ?_
      obtain ⟨current, read, -⟩ := wellFormed.named other held kept
      exact read?_push (lt_size_of_read? read) limiter
    case handles =>
      intro held current read _
      exact (read?_push (lt_size_of_read? read) limiter).trans read
  | dropped found =>
    constructor
    case names => exact fun other apart => get?_congr (handle?_drop_of_ne apart before) fun _ _ => rfl
    case handles => exact fun held current read _ => read

/-- All that an action can do. -/
inductive Acts (before : Registry) : Action → Outcome → Prop
  | registered {limiter : Limiter} (fresh : before.handle? limiter.name = none) :
    Acts before (.register limiter) ⟨.handle (some before.cells.size), before.push limiter,
      some (.configChanged limiter.name .registered)⟩
  | replaced {limiter : Limiter} {handle : Handle} (found : before.handle? limiter.name = some handle) :
    Acts before (.register limiter) ⟨.handle (some handle), before.write handle limiter,
      some (.configChanged limiter.name .updated)⟩
  | updated {name : String} {change : Limiter → Except LimiterError Limiter} {handle : Handle}
      {current next : Limiter} (found : before.handle? name = some handle)
      (read : before.read? handle = some current) (changed : change current = .ok next) (kept : next.name = name) :
    Acts before (.update name change)
      ⟨.updated (.ok next), before.write handle next, some (.configChanged name .updated)⟩
  | unknown {name : String} {change : Limiter → Except LimiterError Limiter} (absent : before.get? name = none) :
    Acts before (.update name change) ⟨.updated (.error (.notFound name)), before, none⟩
  | refused {name : String} {change : Limiter → Except LimiterError Limiter} {current : Limiter}
      {error : LimiterError} (found : before.get? name = some current) (failed : change current = .error error) :
    Acts before (.update name change) ⟨.updated (.error (.limiter error)), before, none⟩
  | renamed {name : String} {change : Limiter → Except LimiterError Limiter} {current next : Limiter}
      (found : before.get? name = some current) (changed : change current = .ok next) (renamed : next.name ≠ name) :
    Acts before (.update name change) ⟨.updated (.error (.nameMismatch name next.name)), before, none⟩
  | removed {name : String} {handle : Handle} {limiter : Limiter} (found : before.handle? name = some handle)
      (read : before.read? handle = some limiter) :
    Acts before (.remove name)
      ⟨.limiter (some limiter), before.drop name, some (.configChanged name .removed)⟩
  | missing {name : String} (absent : before.get? name = none) :
    Acts before (.remove name) ⟨.limiter none, before, none⟩
  | got (name : String) : Acts before (.get name) ⟨.limiter (before.get? name), before, none⟩
  | handed (name : String) : Acts before (.handle name) ⟨.handle (before.handle? name), before, none⟩

private theorem acts_update (before : Registry) (name : String)
    (change : Limiter → Except LimiterError Limiter) :
    Acts before (.update name change) (before.act (.update name change)) := by
  cases found : before.handle? name with
  | none =>
    simp only [act, update, found]
    exact .unknown (get?_of_none found)
  | some handle =>
    have get := get?_of_handle? found
    cases read : before.read? handle with
    | none =>
      simp only [act, update, found, read]
      exact .unknown (get.trans read)
    | some current =>
      cases changed : change current with
      | error error =>
        simp only [act, update, found, read, Shared.update_nil, renameChecked, changed, Except.map]
        exact .refused (get.trans read) changed
      | ok next =>
        by_cases kept : next.name = name
        · simp only [act, update, found, read, Shared.update_nil, renameChecked, changed, if_pos kept, Except.map]
          exact .updated found read changed kept
        · simp only [act, update, found, read, Shared.update_nil, renameChecked, changed, if_neg kept, Except.map]
          exact .renamed (get.trans read) changed kept

theorem acts (before : Registry) (action : Action) : Acts before action (before.act action) := by
  cases action with
  | register limiter =>
    cases found : before.handle? limiter.name with
    | none =>
      simp only [act, register, found]
      exact .registered found
    | some handle =>
      simp only [act, register, found]
      exact .replaced found
  | update name change => exact acts_update before name change
  | remove name =>
    cases got : before.get? name with
    | none =>
      simp only [act, remove, got, Option.map_none]
      exact .missing got
    | some limiter =>
      simp only [act, remove, got, Option.map_some]
      obtain ⟨handle, found, read⟩ := Option.bind_eq_some_iff.mp got
      exact .removed found read
  | get name => exact .got name
  | handle name => exact .handed name

theorem Acts.changes {action : Action} {outcome : Outcome} (acts : Acts before action outcome) :
    Changes before outcome.event? outcome.registry := by
  cases acts with
  | registered fresh => exact .pushed fresh
  | replaced found => exact .wrote found rfl
  | updated found read changed kept => exact .wrote found kept
  | removed found read => exact .dropped found
  | unknown | refused | renamed | missing | got | handed => exact .nothing

/-- What an action answers, what it changes, and what is reported of it. -/
inductive Effect (before : Registry) : Action → Outcome → Prop
  | registered (limiter : Limiter) {handle : Handle} {after : Registry} (absent : before.get? limiter.name = none)
      (only : OnlyChanges limiter.name before after) (new : after.get? limiter.name = some limiter)
      (own : after.handle? limiter.name = some handle) :
    Effect before (.register limiter)
      ⟨.handle (some handle), after, some (.configChanged limiter.name .registered)⟩
  /-- The name keeps its handle. -/
  | replaced (limiter : Limiter) {handle : Handle} {after : Registry} {current : Limiter}
      (found : before.get? limiter.name = some current) (only : OnlyChanges limiter.name before after)
      (new : after.get? limiter.name = some limiter) (was : before.handle? limiter.name = some handle)
      (own : after.handle? limiter.name = some handle) :
    Effect before (.register limiter)
      ⟨.handle (some handle), after, some (.configChanged limiter.name .updated)⟩
  | updated {name : String} {change : Limiter → Except LimiterError Limiter} {current next : Limiter}
      {after : Registry} (found : before.get? name = some current) (changed : change current = .ok next)
      (kept : next.name = name) (only : OnlyChanges name before after) (new : after.get? name = some next) :
    Effect before (.update name change) ⟨.updated (.ok next), after, some (.configChanged name .updated)⟩
  | unknown {name : String} {change : Limiter → Except LimiterError Limiter} (absent : before.get? name = none) :
    Effect before (.update name change) ⟨.updated (.error (.notFound name)), before, none⟩
  | refused {name : String} {change : Limiter → Except LimiterError Limiter} {current : Limiter}
      {error : LimiterError} (found : before.get? name = some current) (failed : change current = .error error) :
    Effect before (.update name change) ⟨.updated (.error (.limiter error)), before, none⟩
  | renamed {name : String} {change : Limiter → Except LimiterError Limiter} {current next : Limiter}
      (found : before.get? name = some current) (changed : change current = .ok next) (renamed : next.name ≠ name) :
    Effect before (.update name change) ⟨.updated (.error (.nameMismatch name next.name)), before, none⟩
  | removed {name : String} {current : Limiter} {after : Registry} (found : before.get? name = some current)
      (only : OnlyChanges name before after) (gone : after.get? name = none) :
    Effect before (.remove name) ⟨.limiter (some current), after, some (.configChanged name .removed)⟩
  | missing {name : String} (absent : before.get? name = none) :
    Effect before (.remove name) ⟨.limiter none, before, none⟩
  | got (name : String) : Effect before (.get name) ⟨.limiter (before.get? name), before, none⟩
  | handed (name : String) : Effect before (.handle name) ⟨.handle (before.handle? name), before, none⟩

/-- An action that fails changes nothing and is not reported, and one that changes something changes one
name only and is reported once. -/
theorem Acts.effect {action : Action} {outcome : Outcome} (acts : Acts before action outcome)
    (wellFormed : before.WellFormed) : Effect before action outcome := by
  have changes := acts.changes
  cases acts with
  | @registered limiter fresh =>
    exact .registered limiter (get?_of_none fresh) (changes.only wellFormed) (get?_push_self before limiter)
      (handle?_push_self before limiter)
  | @replaced limiter handle found =>
    obtain ⟨current, read, -⟩ := wellFormed.named _ _ found
    exact .replaced limiter ((get?_of_handle? found).trans read) (changes.only wellFormed)
      (get?_write_self found read limiter) found found
  | updated found read changed kept =>
    exact .updated ((get?_of_handle? found).trans read) changed kept (changes.only wellFormed)
      (get?_write_self found read _)
  | unknown absent => exact .unknown absent
  | refused found failed => exact .refused found failed
  | renamed found changed renamed => exact .renamed found changed renamed
  | removed found read =>
    exact .removed ((get?_of_handle? found).trans read) (changes.only wellFormed) (get?_drop_self before _)
  | missing absent => exact .missing absent
  | got name => exact .got name
  | handed name => exact .handed name

end
end Admission.Registry
