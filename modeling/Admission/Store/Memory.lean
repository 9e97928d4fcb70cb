import Admission.Store.Basic
import Std.Data.HashMap

namespace Admission

/-- A meter that is kept until a time. -/
structure StoredMeter where
  meter : Meter
  expiresAt : Timestamp

def StoredMeter.live? (stored : StoredMeter) (now : Timestamp) : Option Meter :=
  if now < stored.expiresAt then some stored.meter else none

structure MemoryStore where
  clock : Timestamp
  entries : Std.HashMap String StoredMeter := {}

namespace MemoryStore

/-- The live meter of a key. -/
def meter? (store : MemoryStore) (key : String) : Option Meter :=
  store.entries[key]?.bind (·.live? store.clock)

/-- Charges a request and keeps the meter for the time to live of the limiter. -/
def charge (store : MemoryStore) (key : String) (limiter : Limiter) (permits : UInt64)
    (now : Timestamp) : Charge MemoryStore :=
  let charged := Meter.charge limiter permits now (store.meter? key)
  charged.map fun meter =>
    { store with
      entries := store.entries.insert key ⟨meter, store.clock.after limiter.ttl⟩ }

def erase (store : MemoryStore) (key : String) : MemoryStore :=
  { store with entries := store.entries.erase key }

/-- How many keys are kept, the expired ones among them. -/
def size (store : MemoryStore) : Nat :=
  store.entries.size

/-- Removes what has expired. -/
def purge (store : MemoryStore) : MemoryStore :=
  { store with entries := store.entries.filter fun _ stored => store.clock < stored.expiresAt }

/-- How many keys a purge removes. -/
def purgeable (store : MemoryStore) : Nat :=
  store.size - store.purge.size

instance : Store MemoryStore where
  currentTime store := { result := .ok store.clock, store }
  acquire store key limiter permits now :=
    let charged := store.charge key limiter permits now
    { result := .ok charged.allowed, store := charged.state }
  reset store key := { result := .ok (), store := store.erase key }
  state store key := { result := .ok (store.meter? key), store }
  isHealthy _ := true
  diagnostics store :=
    [("backend", .text "in_memory"), ("keys", .count store.size), ("healthy", .flag true)]

theorem meter?_charge (store : MemoryStore) (key other : String) (limiter : Limiter)
    (permits : UInt64) (now : Timestamp) :
    (store.charge key limiter permits now).state.meter? other =
      if key = other then
        if store.clock < store.clock.after limiter.ttl then
          some (Meter.charge limiter permits now (store.meter? key)).state
        else none
      else store.meter? other := by
  by_cases same : key = other
  · subst same
    simp only [charge, Charge.map, meter?, StoredMeter.live?, Std.HashMap.getElem?_insert_self,
      Option.bind_some, if_true]
    rfl
  · simp [charge, Charge.map, meter?, Std.HashMap.getElem?_insert, same]

theorem meter?_erase (store : MemoryStore) (key other : String) :
    (store.erase key).meter? other = if key = other then none else store.meter? other := by
  by_cases same : key = other <;> simp [erase, meter?, Std.HashMap.getElem?_erase, same]

/-- A purge shows in no key. -/
theorem meter?_purge (store : MemoryStore) (key : String) :
    store.purge.meter? key = store.meter? key := by
  simp only [purge, meter?, Std.HashMap.getElem?_filter]
  cases store.entries[key]? with
  | none => rfl
  | some stored =>
    by_cases live : store.clock < stored.expiresAt <;> simp [Option.filter, StoredMeter.live?, live]

end MemoryStore
end Admission
