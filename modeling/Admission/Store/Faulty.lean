import Admission.Store.Basic

namespace Admission

structure FaultyStore (σ : Type) where
  inner : σ
  /-- The operations that fail, with their errors. -/
  faults : List (StoreOperation × StoreError) := []
  healthy : Bool := true
  /-- How often an operation was asked for, whether or not it failed. -/
  calls : Nat := 0

namespace FaultyStore

variable {σ : Type}

/-- Makes an operation fail with an error, or work again. -/
def setFault (store : FaultyStore σ) (operation : StoreOperation) (fault? : Option StoreError) :
    FaultyStore σ :=
  let others := store.faults.filter (·.1 ≠ operation)
  { store with faults := match fault? with
      | some fault => (operation, fault) :: others
      | none => others }

/-- Counts the call, then fails or passes it on. -/
def attempt {α : Type} (store : FaultyStore σ) (operation : StoreOperation)
    (run : σ → Reply α σ) : Reply α (FaultyStore σ) :=
  let store := { store with calls := store.calls + 1 }
  match store.faults.lookup operation with
  | some fault => { result := .error fault, store }
  | none => (run store.inner).inside fun inner => { store with inner }

instance [Store σ] : Store (FaultyStore σ) where
  currentTime store := store.attempt .currentTime Store.currentTime
  acquire store key limiter permits now :=
    store.attempt .acquire (Store.acquire · key limiter permits now)
  reset store key := store.attempt .reset (Store.reset · key)
  state store key := store.attempt .state (Store.state · key)
  isHealthy store := store.healthy
  diagnostics store := Store.diagnostics store.inner

end FaultyStore
end Admission
