import Admission.Proofs.Engine.Isolation
import Admission.Proofs.Store.Call

namespace Admission.MemoryStore

open Store (Call Response)

/-- What happens to a store: it is called, or something befalls it. -/
inductive Action
  | call (call : Call)
  | event (event : Event)

namespace Action

def tick? : Action → Option Timestamp
  | .event (.tick now) => some now
  | _ => none

/-- All but calls about other keys and purges. -/
def concerns (key : String) : Action → Bool
  | .call asked => asked.key?.all (· = key)
  | .event (.tick _) => true
  | .event .purge => false

end Action

/-- The answer to an action, if it is a call, and the store afterwards. -/
def act (store : MemoryStore) : Action → Option (Except StoreError Response) × MemoryStore
  | .call call => (some (call.on store).result, (call.on store).store)
  | .event event => (none, befall event store)

def answers (store : MemoryStore) : List Action → List (Action × Option (Except StoreError Response))
  | [] => []
  | action :: rest => (action, (store.act action).1) :: answers (store.act action).2 rest

/-- The clock of a run never goes back. -/
def Steady (clock : Timestamp) (actions : List Action) : Prop :=
  (clock :: actions.filterMap Action.tick?).Pairwise (· ≤ ·)

instance (clock : Timestamp) (actions : List Action) : Decidable (Steady clock actions) :=
  inferInstanceAs (Decidable (List.Pairwise ..))

/-- At one reading, a store keeps of a key what another one keeps, or nothing if that has expired. -/
structure Forgets (key : String) (store other : MemoryStore) : Prop where
  clock : store.clock = other.clock
  entry : store.entries[key]? = other.entries[key]? ∨
    store.entries[key]? = none ∧ ∀ stored ∈ other.entries[key]?, stored.expiresAt ≤ other.clock

section

variable {key : String} {store next other : MemoryStore}

theorem forgets_refl (key : String) (store : MemoryStore) : Forgets key store store :=
  ⟨rfl, .inl rfl⟩

/-- What has been forgotten would not be seen. -/
theorem Forgets.meter? (forgets : Forgets key store other) : store.meter? key = other.meter? key := by
  obtain ⟨clock, same | ⟨gone, expired⟩⟩ := forgets
  · unfold MemoryStore.meter?
    rw [same, clock]
  · unfold MemoryStore.meter?
    rw [gone]
    cases entry : other.entries[key]? with
    | none => rfl
    | some stored => simp [StoredMeter.live?, expired stored entry]

/-- A store that changes nothing of a key forgets no more of it. -/
theorem Forgets.frame (forgets : Forgets key store other) (clock : next.clock = store.clock)
    (entry : next.entries[key]? = store.entries[key]?) : Forgets key next other := by
  refine ⟨clock.trans forgets.clock, ?_⟩
  rw [entry]
  exact forgets.entry

theorem Forgets.tick (forgets : Forgets key store other) {now : Timestamp} (later : other.clock ≤ now) :
    Forgets key (befall (.tick now) store) (befall (.tick now) other) := by
  refine ⟨rfl, ?_⟩
  rcases forgets.entry with same | ⟨gone, expired⟩
  · exact .inl same
  · exact .inr ⟨gone, fun stored entry => UInt64.le_trans (expired stored entry) later⟩

theorem Forgets.purge (forgets : Forgets key store other) : Forgets key (befall .purge store) other := by
  refine ⟨forgets.clock, ?_⟩
  have filtered : store.purge.entries[key]? =
      store.entries[key]?.filter fun stored => store.clock < stored.expiresAt := by
    simp [MemoryStore.purge, Std.HashMap.getElem?_filter]
  show store.purge.entries[key]? = _ ∨ store.purge.entries[key]? = none ∧ _
  rw [filtered]
  rcases forgets.entry with same | ⟨gone, expired⟩
  · rw [same, forgets.clock]
    cases other.entries[key]? with
    | none => exact .inl rfl
    | some stored =>
      by_cases live : other.clock < stored.expiresAt
      · left
        simp [Option.filter, live]
      · right
        simpa [Option.filter, live] using UInt64.not_lt.mp live
  · rw [gone]
    exact .inr ⟨rfl, expired⟩

theorem Forgets.charge (forgets : Forgets key store other) (limiter : Limiter) (permits : UInt64)
    (now : Timestamp) :
    (store.charge key limiter permits now).allowed = (other.charge key limiter permits now).allowed ∧
      Forgets key (store.charge key limiter permits now).state (other.charge key limiter permits now).state := by
  have seen := forgets.meter?
  refine ⟨?_, forgets.clock, .inl ?_⟩
  · unfold MemoryStore.charge
    rw [seen]
    rfl
  · rw [getElem?_charge, getElem?_charge, seen, forgets.clock, if_pos rfl, if_pos rfl]

theorem Forgets.erase (forgets : Forgets key store other) :
    Forgets key (store.erase key) (other.erase key) := by
  refine ⟨forgets.clock, .inl ?_⟩
  simp [MemoryStore.erase]

theorem Forgets.on (forgets : Forgets key store other) {call : Call} (own : call.key?.all (· = key)) :
    (call.on store).result = (call.on other).result ∧ Forgets key (call.on store).store (call.on other).store := by
  cases call with
  | currentTime => exact ⟨congrArg (Except.ok ∘ Response.time) forgets.clock, forgets⟩
  | acquire charged limiter permits now =>
    obtain rfl : charged = key := by simpa [Call.key?] using own
    obtain ⟨allowed, still⟩ := forgets.charge limiter permits now
    exact ⟨congrArg (Except.ok ∘ Response.verdict) allowed, still⟩
  | reset erased =>
    obtain rfl : erased = key := by simpa [Call.key?] using own
    exact ⟨rfl, forgets.erase⟩
  | state read =>
    obtain rfl : read = key := by simpa [Call.key?] using own
    exact ⟨congrArg (Except.ok ∘ Response.meter) forgets.meter?, forgets⟩

/-- A call about another key changes nothing of this one. -/
theorem Forgets.skip (forgets : Forgets key store other) {call : Call} (foreign : ¬ call.key?.all (· = key)) :
    Forgets key (call.on store).store other := by
  cases call with
  | currentTime => exact forgets
  | acquire charged limiter permits now =>
    have apart : charged ≠ key := by simpa [Call.key?] using foreign
    refine forgets.frame rfl ?_
    exact (getElem?_charge store charged key limiter permits now).trans (if_neg apart)
  | reset erased =>
    have apart : erased ≠ key := by simpa [Call.key?] using foreign
    refine forgets.frame rfl ?_
    show (store.entries.erase erased)[key]? = store.entries[key]?
    rw [Std.HashMap.getElem?_erase, if_neg (by simpa using apart)]
  | state read => exact forgets

private theorem clock_on (call : Call) (store : MemoryStore) : (call.on store).store.clock = store.clock := by
  cases call <;> rfl

/-- What has no part in a key is left out on one side. -/
theorem Forgets.act_left (forgets : Forgets key store other) {action : Action}
    (foreign : ¬ action.concerns key) :
    Forgets key (store.act action).2 other := by
  cases action with
  | call call => exact forgets.skip foreign
  | event event =>
    cases event with
    | tick now => exact absurd rfl foreign
    | purge => exact forgets.purge

theorem Steady.tail {action : Action} {rest : List Action}
    (steady : Steady store.clock (action :: rest)) : Steady (store.act action).2.clock rest := by
  cases action with
  | call call =>
    show Steady (call.on store).store.clock rest
    rw [clock_on]
    exact steady
  | event event =>
    cases event with
    | tick now => exact (List.pairwise_cons.mp steady).2
    | purge => exact steady

theorem Forgets.act (forgets : Forgets key store other) {action : Action} {rest : List Action}
    (steady : Steady store.clock (action :: rest)) (own : action.concerns key) :
    (store.act action).1 = (other.act action).1 ∧ Forgets key (store.act action).2 (other.act action).2 := by
  cases action with
  | call call =>
    obtain ⟨result, still⟩ := forgets.on own
    exact ⟨congrArg some result, still⟩
  | event event =>
    cases event with
    | tick now =>
      have later : store.clock ≤ now := (List.pairwise_cons.mp steady).1 now (List.mem_cons_self ..)
      rw [forgets.clock] at later
      exact ⟨rfl, forgets.tick later⟩
    | purge => cases own

theorem Forgets.answers (forgets : Forgets key store other) (actions : List Action)
    (steady : Steady store.clock actions) :
    (store.answers actions).filter (·.1.concerns key) = other.answers (actions.filter (·.concerns key)) := by
  induction actions generalizing store other with
  | nil => rfl
  | cons action rest ih =>
    by_cases own : action.concerns key
    · obtain ⟨answer, still⟩ := forgets.act steady own
      have tail := ih still steady.tail
      rw [List.filter_cons_of_pos own, MemoryStore.answers, MemoryStore.answers,
        List.filter_cons_of_pos (by exact own), answer, tail]
    · have tail := ih (forgets.act_left own) steady.tail
      rw [List.filter_cons_of_neg own, MemoryStore.answers, List.filter_cons_of_neg (by exact own), tail]

/-- While its clock does not go back, a store answers all calls about a key, whatever their limiters,
permits and times are, as if nothing had been done with other keys and nothing had been purged. -/
theorem answers_of_key_alone (store : MemoryStore) (actions : List Action)
    (steady : Steady store.clock actions) (key : String) :
    (store.answers actions).filter (·.1.concerns key) = store.answers (actions.filter (·.concerns key)) :=
  (forgets_refl key store).answers actions steady

/-- A key that is charged by two limiters, next to another one, with a purge at the very reading at which
its meter expires. -/
theorem answers_of_key_alone_at_expiry :
    let limiter : Limiter := .single "api"
    let strict : Limiter := { limiter with window := .ofMillis 1 }
    let acquire (key : String) (limiter : Limiter) (now : Timestamp) : Action :=
      .call (.acquire key limiter 1 now)
    let actions := [acquire "a" limiter 0, acquire "b" limiter 0, acquire "a" strict 7, .event (.tick 2),
      .event .purge, .call (.state "a"), acquire "a" limiter 2, .call (.reset "b"), acquire "a" limiter 1]
    Steady 0 actions ∧
      (answers { clock := 0 } actions).filter (·.1.concerns "a") =
        answers { clock := 0 } [acquire "a" limiter 0, acquire "a" strict 7, .event (.tick 2),
          .call (.state "a"), acquire "a" limiter 2, acquire "a" limiter 1] := by
  intro limiter strict acquire actions
  have steady : Steady 0 actions := by decide
  exact ⟨steady, answers_of_key_alone { clock := 0 } actions steady "a"⟩

end
end Admission.MemoryStore
