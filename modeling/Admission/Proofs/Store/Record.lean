import Admission.Proofs.Store.Call
import Admission.Store.Faulty
import Admission.Store.Memory

namespace Admission

namespace Store

/-- Whether a call that a store answered in some way is charged to it: an acquire that it answered, or a
reset. -/
def Call.isCharged (call : Call) (result : Except StoreError Response) : Bool :=
  call.isReset || (!call.isRead && result.isOk)

/-- What is on record of a store: a call with the answer to it, or a change from outside. -/
inductive Entry (σ : Type)
  | call (asked : Call) (result : Except StoreError Response)
  | change (effect : σ → σ)

section

variable {σ κ : Type} [Store σ] {view : σ → κ} {record : List (Entry σ)} {origin store : σ}

/-- The store after an entry, if it was charged to it. -/
def Entry.apply : Entry σ → σ → σ
  | call asked result, store => if asked.isCharged result then (asked.on store).store else store
  | change effect, store => effect store

/-- A store alone after all that was charged to it and all that befell it, one after the other. -/
def replay (record : List (Entry σ)) (origin : σ) : σ :=
  record.foldl (fun store entry => entry.apply store) origin

/-- A store alone would answer what is on record. -/
def Answers : List (Entry σ) → σ → Prop
  | [], _ => True
  | .call asked result :: rest, store =>
    (asked.on store).result = result ∧ Answers rest (Entry.apply (.call asked result) store)
  | .change effect :: rest, store => Answers rest (effect store)

/-- What there is to a store is all that its answers depend on, and it changes neither when the store is
only read nor when it fails. -/
structure Kept (view : σ → κ) : Prop where
  idle : ∀ (call : Call) (store : σ), call.isRead = true ∨ (call.on store).result.isOk = false →
    view (call.on store).store = view store
  result : ∀ (call : Call) {store other : σ}, view store = view other →
    (call.on store).result = (call.on other).result
  store : ∀ (call : Call) {store other : σ}, view store = view other →
    view (call.on store).store = view (call.on other).store

/-- A store is as its record says, but for what does not matter to its answers. -/
structure Matches (view : σ → κ) (record : List (Entry σ)) (origin store : σ) : Prop where
  answers : Answers record origin
  left : view store = view (replay record origin)

theorem matches_nil (view : σ → κ) (origin : σ) : Matches view [] origin origin :=
  ⟨trivial, rfl⟩

private theorem replay_append (record rest : List (Entry σ)) (origin : σ) :
    replay (record ++ rest) origin = replay rest (replay record origin) :=
  List.foldl_append

private theorem answers_append (record rest : List (Entry σ)) (origin : σ) :
    Answers (record ++ rest) origin ↔ Answers record origin ∧ Answers rest (replay record origin) := by
  induction record generalizing origin with
  | nil => exact (and_iff_right trivial).symm
  | cons entry record ih =>
    cases entry with
    | call asked result => exact (and_congr_right fun _ => ih _).trans and_assoc.symm
    | change effect => exact ih (effect origin)

/-- A call that is not charged to a store leaves it as it is. -/
theorem Kept.uncharged (kept : Kept view) {call : Call} (free : ¬ call.isCharged (call.on store).result) :
    view (call.on store).store = view store := by
  -- A call that is not charged is a read, or it failed.
  apply kept.idle
  cases read : call.isRead with
  | true => exact .inl rfl
  | false =>
    right
    simp only [Call.isCharged, read, Bool.or_eq_true, not_or, Bool.not_false, Bool.true_and] at free
    exact Bool.eq_false_iff.mpr free.2

theorem Matches.call (matched : Matches view record origin store) (kept : Kept view) (call : Call) :
    Matches view (record ++ [.call call (call.on store).result]) origin (call.on store).store := by
  constructor
  case answers =>
    rw [answers_append]
    exact ⟨matched.answers, (kept.result call matched.left).symm, trivial⟩
  case left =>
    rw [replay_append]
    show _ = view (if call.isCharged (call.on store).result then (call.on (replay record origin)).store
      else replay record origin)
    by_cases charged : call.isCharged (call.on store).result
    · rw [if_pos charged]
      exact kept.store call matched.left
    · rw [if_neg charged, kept.uncharged charged]
      exact matched.left

/-- A change that makes as much of two stores with as much to them is put on record. -/
theorem Matches.change (matched : Matches view record origin store) {effect : σ → σ}
    (respects : ∀ first second, view first = view second → view (effect first) = view (effect second)) :
    Matches view (record ++ [.change effect]) origin (effect store) := by
  constructor
  case answers =>
    rw [answers_append]
    exact ⟨matched.answers, trivial⟩
  case left =>
    rw [replay_append]
    exact respects _ _ matched.left

end
end Store

/-- The answers of a memory store depend on all of it. -/
theorem MemoryStore.kept : Store.Kept (id : MemoryStore → MemoryStore) where
  idle call store idle := by
    cases call with
    | currentTime | state => rfl
    | acquire | reset => rcases idle with read | failed <;> contradiction
  result call _ _ same := congrArg (fun store : MemoryStore => (call.on store).result) same
  store call _ _ same := congrArg (fun store : MemoryStore => (call.on store).store) same

namespace FaultyStore

variable {σ κ : Type}

private theorem attempt_map {α β : Type} (store : FaultyStore σ) (operation : StoreOperation)
    (run : σ → Reply α σ) (read : α → β) :
    (store.attempt operation run).map read = store.attempt operation fun inner => (run inner).map read := by
  unfold attempt
  cases found : store.faults.lookup operation with
  | some fault => simp only [found, Reply.map, Except.map]
  | none => simp only [found, Reply.map, Reply.inside]

/-- What there is to the store inside, and the faults. How often the store was called does not matter. -/
def shown (view : σ → κ) (store : FaultyStore σ) : κ × List (StoreOperation × StoreError) :=
  (view store.inner, store.faults)

theorem shown_setFault {view : σ → κ} {store other : FaultyStore σ} (same : shown view store = shown view other)
    (operation : StoreOperation) (fault? : Option StoreError) :
    shown view (store.setFault operation fault?) = shown view (other.setFault operation fault?) := by
  obtain ⟨inner, faults⟩ := Prod.ext_iff.mp same
  have alike : store.faults = other.faults := faults
  simp only [shown, setFault, alike]
  exact Prod.ext inner rfl

variable [Store σ] {view : σ → κ} {store : FaultyStore σ} {call : Store.Call}

private theorem on_eq (call : Store.Call) (store : FaultyStore σ) :
    call.on store = store.attempt call.operation call.on := by
  cases call with
  | currentTime | acquire | reset | state => exact attempt_map ..

private theorem on_of_fault {fault : StoreError} (found : store.faults.lookup call.operation = some fault) :
    call.on store = { result := .error fault, store := { store with calls := store.calls + 1 } } := by
  rw [on_eq]
  simp only [attempt, found]

private theorem on_of_none (found : store.faults.lookup call.operation = none) :
    call.on store =
      (call.on store.inner).inside fun inner => { store with inner, calls := store.calls + 1 } := by
  rw [on_eq]
  simp only [attempt, found]

theorem kept (inside : Store.Kept view) : Store.Kept (shown view) where
  idle call store idle := by
    cases found : store.faults.lookup call.operation with
    | some fault =>
      rw [on_of_fault found]
      rfl
    | none =>
      rw [on_of_none found] at idle ⊢
      exact Prod.ext (inside.idle call store.inner idle) rfl
  result call store other same := by
    obtain ⟨inner, faults⟩ := Prod.ext_iff.mp same
    have alike : store.faults = other.faults := faults
    cases found : other.faults.lookup call.operation with
    | some fault => rw [on_of_fault found, on_of_fault (alike ▸ found)]
    | none =>
      rw [on_of_none found, on_of_none (alike ▸ found)]
      exact inside.result call inner
  store call store other same := by
    obtain ⟨inner, faults⟩ := Prod.ext_iff.mp same
    have alike : store.faults = other.faults := faults
    cases found : other.faults.lookup call.operation with
    | some fault =>
      rw [on_of_fault found, on_of_fault (alike ▸ found)]
      exact same
    | none =>
      rw [on_of_none found, on_of_none (alike ▸ found)]
      exact Prod.ext (inside.store call inner) alike

end FaultyStore
end Admission
