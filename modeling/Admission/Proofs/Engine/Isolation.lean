import Admission.Proofs.Engine.Instant

/-! Which accounts share a budget. An account is the name of a limiter and a key, and the name of its
meter is the two with a colon in between. Main statement: one account is isolated from another exactly if
their meters have different names, and so unless one splits the other's name at a colon. -/
namespace Admission

/-- What befalls a memory store between requests. -/
inductive MemoryStore.Event
  | tick (now : Timestamp)
  | purge

def MemoryStore.befall : Event → MemoryStore → MemoryStore
  | .tick now, store => { store with clock := now }
  | .purge, store => store.purge

namespace Engine

/-- The name of a limiter and a key that a request has under it. -/
structure Account where
  name : String
  key : String
  deriving DecidableEq

variable {C τ : Type}

/-- The account that a request or a reset is made under. -/
def Action.account? (engine : Engine MemoryStore C) : Action C τ → Option Account
  | .acquire context limiter _ | .reset context limiter =>
    some ⟨limiter.name, (engine.resolve context).toOption.getD anonymousKey⟩
  | .event _ => none

/-- The limiter of an action has passed the checks of a draft. -/
def Action.Built : Action C τ → Prop
  | .acquire _ limiter _ | .reset _ limiter => ∃ draft : Limiter.Draft, draft.build = .ok limiter
  | .event _ => True

def Action.under (engine : Engine MemoryStore C) (account : Account) (action : Action C τ) : Bool :=
  action.account? engine = some account

/-- Deleting all that is done under one account changes no report of what is done under another. -/
def Isolated (deleted kept : Account) : Prop :=
  ∀ (C : Type) (engine : Engine MemoryStore C) (actions : List (Action C MemoryStore.Event)),
    (∀ action ∈ actions, action.Built) →
      (engine.run MemoryStore.befall actions).filter (·.1.under engine kept) =
        (engine.run MemoryStore.befall (actions.filter (!·.under engine deleted))).filter
          (·.1.under engine kept)

/-- The name of the meter, as `storageKey` makes it. -/
def Account.meter (account : Account) : String :=
  account.name ++ ":" ++ account.key

/-- One account's name goes on where the other's ends, by a colon and the start of the other's key. -/
def Account.Splits (account other : Account) : Prop :=
  ∃ middle, other.name = account.name ++ ":" ++ middle ∧ account.key = middle ++ ":" ++ other.key

/-- A text cut at a separator in two ways is cut at the same place, or once before the other. -/
private theorem cut_cases {α : Type} {separator : α} {before after front back : List α}
    (same : before ++ separator :: after = front ++ separator :: back) :
    (before = front ∧ after = back) ∨
      (∃ middle, front = before ++ separator :: middle ∧ after = middle ++ separator :: back) ∨
      ∃ middle, before = front ++ separator :: middle ∧ back = middle ++ separator :: after := by
  rcases List.append_eq_append_iff.mp same with ⟨between, longer, rest⟩ | ⟨between, longer, rest⟩
  · cases between with
    | nil =>
      rw [List.append_nil] at longer
      exact .inl ⟨longer.symm, (List.cons.inj rest).2⟩
    | cons first middle =>
      obtain ⟨rfl, cut⟩ := List.cons.inj rest
      exact .inr (.inl ⟨middle, longer, cut⟩)
  · cases between with
    | nil =>
      rw [List.append_nil] at longer
      exact .inl ⟨longer, (List.cons.inj rest).2.symm⟩
    | cons first middle =>
      obtain ⟨rfl, cut⟩ := List.cons.inj rest
      exact .inr (.inr ⟨middle, longer, cut⟩)

private theorem splits_of_toList {account other : Account} {middle : List Char}
    (name : other.name.toList = account.name.toList ++ ':' :: middle)
    (key : account.key.toList = middle ++ ':' :: other.key.toList) : account.Splits other := by
  refine ⟨String.ofList middle, String.toList_inj.mp ?_, String.toList_inj.mp ?_⟩
  · simp [name]
  · simp [key]

theorem meter_eq_iff {account other : Account} (distinct : account ≠ other) :
    account.meter = other.meter ↔ account.Splits other ∨ other.Splits account := by
  constructor
  · intro same
    have cut : account.name.toList ++ ':' :: account.key.toList =
        other.name.toList ++ ':' :: other.key.toList := by
      simpa [Account.meter] using congrArg String.toList same
    rcases cut_cases cut with ⟨name, key⟩ | ⟨middle, name, key⟩ | ⟨middle, name, key⟩
    · refine absurd ?_ distinct
      cases account
      cases other
      rw [Account.mk.injEq]
      exact ⟨String.toList_inj.mp name, String.toList_inj.mp key⟩
    · exact .inl (splits_of_toList name key)
    · exact .inr (splits_of_toList name key)
  · rintro (⟨middle, name, key⟩ | ⟨middle, name, key⟩)
    · simp only [Account.meter, name, key, String.append_assoc]
    · simp only [Account.meter, name, key, String.append_assoc]

end Engine

namespace MemoryStore

/-- Two stores at one reading that keep the same of all meters but one. -/
structure AgreeExcept (meter : String) (store other : MemoryStore) : Prop where
  clock : store.clock = other.clock
  entries : ∀ key, key ≠ meter → store.entries[key]? = other.entries[key]?

variable {meter key : String} {store other : MemoryStore}

private theorem agreeExcept_refl (meter : String) (store : MemoryStore) : AgreeExcept meter store store :=
  ⟨rfl, fun _ _ => rfl⟩

theorem AgreeExcept.trans {third : MemoryStore} (first : AgreeExcept meter store other)
    (second : AgreeExcept meter other third) : AgreeExcept meter store third :=
  ⟨first.clock.trans second.clock, fun key apart => (first.entries key apart).trans (second.entries key apart)⟩

theorem AgreeExcept.meter? (agree : AgreeExcept meter store other) (apart : key ≠ meter) :
    store.meter? key = other.meter? key := by
  unfold MemoryStore.meter?
  rw [agree.entries key apart, agree.clock]

theorem getElem?_charge (store : MemoryStore) (charged key : String) (limiter : Limiter) (permits : UInt64)
    (now : Timestamp) : (store.charge charged limiter permits now).state.entries[key]? =
      if charged = key then some ⟨(Meter.charge limiter permits now (store.meter? charged)).state,
        store.clock.after limiter.ttl⟩
      else store.entries[key]? := by
  simp [charge, Charge.map, Std.HashMap.getElem?_insert]

theorem AgreeExcept.charge (agree : AgreeExcept meter store other) (charged : String) (limiter : Limiter)
    (permits : UInt64) (now : Timestamp) :
    AgreeExcept meter (store.charge charged limiter permits now).state
      (other.charge charged limiter permits now).state := by
  refine ⟨agree.clock, fun key apart => ?_⟩
  rw [getElem?_charge, getElem?_charge]
  by_cases own : charged = key
  · subst own
    rw [if_pos rfl, if_pos rfl, agree.meter? apart, agree.clock]
  · rw [if_neg own, if_neg own, agree.entries key apart]

theorem AgreeExcept.erase (agree : AgreeExcept meter store other) (erased : String) :
    AgreeExcept meter (store.erase erased) (other.erase erased) := by
  refine ⟨agree.clock, fun key apart => ?_⟩
  simp only [MemoryStore.erase, Std.HashMap.getElem?_erase, agree.entries key apart]

theorem AgreeExcept.befall (agree : AgreeExcept meter store other) (event : Event) :
    AgreeExcept meter (MemoryStore.befall event store) (MemoryStore.befall event other) := by
  cases event with
  | tick now => exact ⟨rfl, agree.entries⟩
  | purge =>
    refine ⟨agree.clock, fun key apart => ?_⟩
    simp only [MemoryStore.befall, MemoryStore.purge, Std.HashMap.getElem?_filter, agree.entries key apart,
      agree.clock]

private theorem agreeExcept_charge (store : MemoryStore) (meter : String) (limiter : Limiter) (permits : UInt64)
    (now : Timestamp) : AgreeExcept meter (store.charge meter limiter permits now).state store := by
  refine ⟨rfl, fun key apart => ?_⟩
  rw [getElem?_charge, if_neg apart.symm]

private theorem agreeExcept_erase (store : MemoryStore) (meter : String) :
    AgreeExcept meter (store.erase meter) store := by
  refine ⟨rfl, fun key apart => ?_⟩
  simp [MemoryStore.erase, Std.HashMap.getElem?_erase, apart.symm]

end MemoryStore

namespace Engine

variable {C : Type} {meter : String} {engine other : Engine MemoryStore C}

/-- What is done with one meter on one side only leaves the others alike. -/
theorem agreeExcept_step {action : Action C MemoryStore.Event} {account : Account}
    (under : action.account? engine = some account) :
    MemoryStore.AgreeExcept account.meter (engine.step MemoryStore.befall action).engine.store engine.store := by
  cases action with
  | acquire context limiter permits =>
    cases under
    rw [(step_acquire MemoryStore.befall engine context limiter permits).2, check_memory]
    exact MemoryStore.agreeExcept_charge ..
  | reset context limiter =>
    cases under
    rw [step_reset]
    exact MemoryStore.agreeExcept_erase ..
  | event event => cases under

theorem check_agree {store twin : MemoryStore} (agree : MemoryStore.AgreeExcept meter store twin) {key : String}
    (apart : key ≠ meter) (limiter : Limiter) (permits : UInt64) :
    (check twin key limiter permits).result = (check store key limiter permits).result := by
  have shown := (agree.charge key limiter permits store.clock).meter? apart
  have allowed : (twin.charge key limiter permits store.clock).allowed =
      (store.charge key limiter permits store.clock).allowed :=
    congrArg (fun kept => (Meter.charge limiter permits store.clock kept).allowed) (agree.meter? apart).symm
  rw [check_memory, check_memory, ← agree.clock]
  simp only [allowed, shown]

/-- An action done on both sides is told alike, unless it is done with the meter they differ in. -/
theorem step_agree (agree : MemoryStore.AgreeExcept meter engine.store other.store)
    (resolver : other.resolver = engine.resolver) (action : Action C MemoryStore.Event) :
    MemoryStore.AgreeExcept meter (engine.step MemoryStore.befall action).engine.store
        (other.step MemoryStore.befall action).engine.store ∧
      ∀ account, action.account? engine = some account → account.meter ≠ meter →
        (other.step MemoryStore.befall action).report = (engine.step MemoryStore.befall action).report := by
  cases action with
  | acquire context limiter permits =>
    constructor
    · rw [(step_acquire MemoryStore.befall engine context limiter permits).2,
        (step_acquire MemoryStore.befall other context limiter permits).2, resolve_congr resolver, check_memory,
        check_memory, ← agree.clock]
      exact agree.charge ..
    · intro account under apart
      cases under
      exact acquire_congr resolver (check_agree agree apart limiter permits)
  | reset context limiter =>
    constructor
    · rw [step_reset, step_reset, resolve_congr resolver]
      exact agree.erase _
    · intro account under apart
      exact reset_congr resolver rfl
  | event event => exact ⟨agree.befall event, nofun⟩

private theorem account?_congr (same : other.resolver = engine.resolver) (action : Action C τ) :
    action.account? other = action.account? engine := by
  cases action with
  | acquire context limiter permits => simp only [Action.account?, resolve_congr same]
  | reset context limiter => simp only [Action.account?, resolve_congr same]
  | event event => rfl

private theorem under_iff {action : Action C τ} {account : Account} :
    action.under engine account = true ↔ action.account? engine = some account :=
  decide_eq_true_iff

/-- One run does all that another does, and more with one meter; the reports about others are the same. -/
theorem run_agree {deleted kept : Account} (apart : kept.meter ≠ deleted.meter) (base : Engine MemoryStore C)
    (actions : List (Action C MemoryStore.Event)) (resolver : engine.resolver = base.resolver)
    (others : other.resolver = base.resolver)
    (agree : MemoryStore.AgreeExcept deleted.meter engine.store other.store) :
    (engine.run MemoryStore.befall actions).filter (·.1.under base kept) =
      (other.run MemoryStore.befall (actions.filter (!·.under base deleted))).filter (·.1.under base kept) := by
  induction actions generalizing engine other with
  | nil => rfl
  | cons action rest ih =>
    have next := (resolver_step MemoryStore.befall engine action).trans resolver
    by_cases gone : action.under base deleted
    · -- The action is left out of the other run, and is not one of those that are compared.
      have account := under_iff.mp gone
      have skipped : action.under base kept = false := by
        refine Bool.eq_false_iff.mpr fun under => apart ?_
        exact congrArg Account.meter (Option.some.inj ((under_iff.mp under).symm.trans account))
      have dropped := agreeExcept_step ((account?_congr resolver action).trans account)
      rw [List.filter_cons_of_neg (by simp [gone]), run, List.filter_cons_of_neg (by simp [skipped])]
      exact ih next others (dropped.trans agree)
    · obtain ⟨still, told⟩ := step_agree agree (others.trans resolver.symm) action
      have tail := ih next ((resolver_step MemoryStore.befall other action).trans others) still
      rw [List.filter_cons_of_pos (by simp [gone]), run, run]
      by_cases under : action.under base kept
      · have account := (account?_congr resolver action).trans (under_iff.mp under)
        rw [List.filter_cons_of_pos (by exact under), List.filter_cons_of_pos (by exact under), tail,
          told _ account apart]
      · rw [List.filter_cons_of_neg (by exact under), List.filter_cons_of_neg (by exact under), tail]

theorem isolated_of_meter_ne {deleted kept : Account} (apart : kept.meter ≠ deleted.meter) :
    Isolated deleted kept :=
  fun _ engine actions _ =>
    run_agree apart engine actions rfl rfl (MemoryStore.agreeExcept_refl deleted.meter engine.store)

end Engine

theorem Meter.Standing.rename {name other : String} {now : Timestamp} {n : Nat} {meter? : Option Meter}
    (standing : Meter.Standing (Limiter.single name) now n meter?) :
    Meter.Standing (Limiter.single other) now n meter? := by
  cases standing with
  | fresh => exact .fresh
  | used used =>
    cases used with
    | bucket algorithm used => exact .used (.bucket algorithm ⟨used.refilled, used.le, used.tokens⟩)
    | window algorithm used => cases algorithm

namespace Engine

/-- A memory store without meters, and keys as they come. -/
private def blankEngine : Engine MemoryStore String :=
  { store := { clock := 0 }, resolver := .ok }

private def single (account : Account) : Action String MemoryStore.Event :=
  .acquire account.key (.single account.name) 1

private theorem resolve_blankEngine {key : String} (filled : ¬ Text.isBlank key) :
    blankEngine.resolve key = .ok key := by
  show (if Text.isBlank key then .error .missing else .ok key : Except KeyError String) = .ok key
  rw [if_neg filled]

private theorem single_under {account other : Account} (filled : ¬ Text.isBlank account.key) :
    (single account).under blankEngine other = true ↔ account = other := by
  rw [under_iff]
  show some (Account.mk account.name ((blankEngine.resolve account.key).toOption.getD anonymousKey)) =
    some other ↔ _
  rw [resolve_blankEngine filled]
  exact Option.some_inj

private theorem acquire_single {account : Account} (named : ¬ Text.isBlank account.name)
    (filled : ¬ Text.isBlank account.key) {engine : Engine MemoryStore String}
    (resolver : engine.resolver = blankEngine.resolver) (clock : engine.store.clock = 0) {n : Nat}
    (holds : engine.store.Holds (.single account.name) account.meter n) :
    let outcome := engine.acquire account.key (.single account.name) 1
    (outcome.decision.allowed = true ↔ n + 1 ≤ 1) ∧ outcome.engine.resolver = blankEngine.resolver ∧
      outcome.engine.store.clock = 0 ∧ outcome.engine.store.Holds (.single account.name) account.meter
        (if outcome.decision.allowed then n + 1 else n) := by
  obtain ⟨draft, built⟩ := Limiter.single_built named
  have small : (1 : UInt64).toNat < 2 ^ 53 := by decide
  have early : (0 : Timestamp) < Timestamp.last := by decide
  have window : Duration.ofMillis 1 ≤ .ofSeconds 1 := by decide
  have outlives : engine.store.clock < engine.store.clock.after (Limiter.single account.name).ttl := by
    rw [clock]
    exact MemoryStore.outlives early window
  have charged : chargedKey (.single account.name) (engine.resolve account.key) = account.meter := by
    rw [resolve_congr resolver, resolve_blankEngine filled]
    rfl
  have one : 1 ≤ (1 : UInt64).toNat := Nat.le_refl 1
  obtain ⟨told, same, finds, next⟩ :=
    acquire_holds (Limiter.exact_of_build built small) outlives charged one holds
  exact ⟨told.allowed, finds.trans resolver, same.trans clock, next⟩

/-- Two accounts of one meter: the one uses up the permit of the other. -/
theorem not_isolated_of_meter_eq {deleted kept : Account}
    (named : ¬ Text.isBlank deleted.name ∧ ¬ Text.isBlank kept.name)
    (filled : ¬ Text.isBlank deleted.key ∧ ¬ Text.isBlank kept.key) (distinct : deleted ≠ kept)
    (same : deleted.meter = kept.meter) : ¬ Isolated deleted kept := by
  intro isolated
  have built : ∀ action ∈ [single deleted, single kept], action.Built := by
    intro action member
    rcases List.mem_pair.mp member with rfl | rfl
    · exact Limiter.single_built named.1
    · exact Limiter.single_built named.2
  have fresh : ∀ meter, blankEngine.store.meter? meter = none := by
    intro meter
    simp [blankEngine, MemoryStore.meter?]
  obtain ⟨granted, resolver, clock, used⟩ := acquire_single named.1 filled.1 rfl rfl
    (MemoryStore.holds_fresh (.single deleted.name) (fresh deleted.meter))
  rw [if_pos (granted.mpr (Nat.le_refl 1)), same] at used
  obtain ⟨second, -⟩ := acquire_single named.2 filled.2 resolver clock used.rename
  obtain ⟨only, -⟩ := acquire_single named.2 filled.2 rfl rfl
    (MemoryStore.holds_fresh (.single kept.name) (fresh kept.meter))
  -- Both runs tell of the kept request, and only the longer one denies it.
  have runs := isolated String blankEngine [single deleted, single kept] built
  have gone : (single deleted).under blankEngine deleted = true := (single_under filled.1).mpr rfl
  have other : ¬ (single deleted).under blankEngine kept = true := fun under =>
    distinct ((single_under filled.1).mp under)
  have stays : ¬ (single kept).under blankEngine deleted = true := fun under =>
    distinct ((single_under filled.2).mp under).symm
  have compared : (single kept).under blankEngine kept = true := (single_under filled.2).mpr rfl
  simp only [List.filter_cons, gone, stays, run, other, compared, List.filter_nil, Bool.not_true,
    Bool.not_false, Bool.false_eq_true, if_true, if_false] at runs
  injection (Prod.mk.inj (List.cons.inj runs).1).2 with decision
  have allowed := only.mpr (Nat.le_refl 1)
  rw [← decision] at allowed
  exact absurd (second.mp allowed) (by decide)

/-- Deleting what is done under one account leaves the reports about another as they are exactly if their
meters have different names. Two meters have one name exactly if one account's name goes on where the
other's ends, by a colon and the start of the other's key. -/
theorem isolated_iff {deleted kept : Account}
    (named : ¬ Text.isBlank deleted.name ∧ ¬ Text.isBlank kept.name)
    (filled : ¬ Text.isBlank deleted.key ∧ ¬ Text.isBlank kept.key) (distinct : deleted ≠ kept) :
    (Isolated deleted kept ↔ deleted.meter ≠ kept.meter) ∧
      (deleted.meter = kept.meter ↔ deleted.Splits kept ∨ kept.Splits deleted) := by
  refine ⟨⟨fun isolated same => ?_, fun apart => isolated_of_meter_ne apart.symm⟩, meter_eq_iff distinct⟩
  exact not_isolated_of_meter_eq named filled distinct same isolated

/-- Colons in names and keys do no harm as long as they do not meet. -/
theorem isolated_of_colons :
    let deleted : Account := ⟨"a", "c:b"⟩
    let kept : Account := ⟨"a:b", "c"⟩
    (¬ Text.isBlank "a" ∧ ¬ Text.isBlank "a:b") ∧ (¬ Text.isBlank "c:b" ∧ ¬ Text.isBlank "c") ∧
      deleted ≠ kept ∧ Isolated deleted kept := by
  intro deleted kept
  have named : ¬ Text.isBlank deleted.name ∧ ¬ Text.isBlank kept.name := by decide +kernel
  have filled : ¬ Text.isBlank deleted.key ∧ ¬ Text.isBlank kept.key := by decide +kernel
  have distinct : deleted ≠ kept := by decide
  have apart : deleted.meter ≠ kept.meter := by decide
  exact ⟨named, filled, distinct, (isolated_iff named filled distinct).1.mpr apart⟩

/-- A colon at the end of a name and one at the start of a key are the same colon. -/
theorem not_isolated_split :
    let deleted : Account := ⟨"a", "b:c"⟩
    let kept : Account := ⟨"a:b", "c"⟩
    (∃ draft : Limiter.Draft, draft.build = .ok (.single deleted.name)) ∧
      (∃ draft : Limiter.Draft, draft.build = .ok (.single kept.name)) ∧
      (¬ Text.isBlank deleted.key ∧ ¬ Text.isBlank kept.key) ∧ deleted ≠ kept ∧
      deleted.meter = kept.meter ∧ ¬ Isolated deleted kept := by
  intro deleted kept
  have named : ¬ Text.isBlank deleted.name ∧ ¬ Text.isBlank kept.name := by decide +kernel
  have filled : ¬ Text.isBlank deleted.key ∧ ¬ Text.isBlank kept.key := by decide +kernel
  have distinct : deleted ≠ kept := by decide
  have same : deleted.meter = kept.meter := by decide
  exact ⟨Limiter.single_built named.1, Limiter.single_built named.2, filled, distinct, same,
    not_isolated_of_meter_eq named filled distinct same⟩

end Engine
end Admission
