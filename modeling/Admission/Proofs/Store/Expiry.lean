import Mathlib.Data.List.Chain
import Admission.Proofs.Meter.Run
import Admission.Store.Memory

/-! Expiry in a memory store that charges one key at its own clock. Main statement: where a meter
that has expired would be charged like a fresh one, a store answers as if it never expired any. -/
namespace Admission.MemoryStore

/-- The meter of a key, whether or not it has expired. -/
def kept? (store : MemoryStore) (key : String) : Option Meter :=
  store.entries[key]?.map (·.meter)

/-- The meter of a key that a reading finds expired. -/
def expired? (store : MemoryStore) (key : String) (now : Timestamp) : Option Meter :=
  store.entries[key]?.bind fun stored => if now < stored.expiresAt then none else some stored.meter

/-- Charges a request to the meter that is kept, as a store without expiry does. -/
def chargeKept (store : MemoryStore) (key : String) (limiter : Limiter) (permits : UInt64)
    (now : Timestamp) : Charge MemoryStore :=
  let charged := Meter.charge limiter permits now (store.kept? key)
  charged.map fun meter =>
    { store with
      entries := store.entries.insert key ⟨meter, store.clock.after limiter.ttl⟩ }

/-- A store at a reading of its clock. One that was never used is empty. -/
def atReading (now : Timestamp) : Option MemoryStore → MemoryStore
  | some store => { store with clock := now }
  | none => { clock := now }

/-- Charges a request at the store's own clock. -/
def acquire (key : String) (limiter : Limiter) (permits : UInt64) (now : Timestamp)
    (store? : Option MemoryStore) : Charge MemoryStore :=
  (atReading now store?).charge key limiter permits now

/-- Charges a request at the store's own clock to the meter that is kept. -/
def acquireKept (key : String) (limiter : Limiter) (permits : UInt64) (now : Timestamp)
    (store? : Option MemoryStore) : Charge MemoryStore :=
  (atReading now store?).chargeKept key limiter permits now

/-- The meter of the key was written at the time that the store shows, and is kept from then on. -/
def Written (limiter : Limiter) (key : String) (Shows : Timestamp → Meter → Prop) (store : MemoryStore) :
    Prop :=
  ∀ stored, store.entries[key]? = some stored →
    Shows store.clock stored.meter ∧ stored.expiresAt = store.clock.after limiter.ttl

/-- A meter shows when it was written, and once it has expired it is charged like a fresh one. -/
structure Harmless (limiter : Limiter) (Shows : Timestamp → Meter → Prop) : Prop where
  written : ∀ permits now previous?, (∀ meter ∈ previous?, ∃ earlier ≤ now, Shows earlier meter) →
    Shows now (Meter.charge limiter permits now previous?).state
  expired : ∀ permits earlier now meter, Shows earlier meter → earlier ≤ now → now < Timestamp.last →
    earlier.after limiter.ttl ≤ now →
      Meter.charge limiter permits now (some meter) = Meter.charge limiter permits now none

/-- Before the last reading a meter expires only after its whole time to live. -/
theorem lifetime_le_since {limiter : Limiter} {now written : Timestamp} (early : now < Timestamp.last)
    (past : written.after limiter.ttl ≤ now) :
    limiter.ttl.toMillis ≠ Timestamp.last ∧ limiter.ttl.toMillis.toNat ≤ now.since written := by
  rw [UInt64.lt_iff_toNat_lt, Timestamp.toNat_last] at early
  rw [Timestamp.after, UInt64.le_iff_toNat_le, Timestamp.toNat_plus] at past
  constructor
  · intro endless
    rw [endless, Timestamp.toNat_last] at past
    omega
  · rw [Timestamp.since]
    omega

section

variable {limiter : Limiter} {key : String} {Shows : Timestamp → Meter → Prop} {permits : UInt64}
  {now : Timestamp} {store? : Option MemoryStore}

@[simp] theorem clock_atReading : (atReading now store?).clock = now := by
  cases store? <;> rfl

@[simp] theorem clock_acquire : (acquire key limiter permits now store?).state.clock = now := by
  simp [acquire, charge, Charge.map]

theorem allowed_acquire : (acquire key limiter permits now store?).allowed =
    (Meter.charge limiter permits now ((atReading now store?).meter? key)).allowed := rfl

theorem allowed_acquireKept : (acquireKept key limiter permits now store?).allowed =
    (Meter.charge limiter permits now ((atReading now store?).kept? key)).allowed := rfl

theorem entries_acquire : (acquire key limiter permits now store?).state.entries[key]? =
    some ⟨(Meter.charge limiter permits now ((atReading now store?).meter? key)).state,
      now.after limiter.ttl⟩ := by
  simp [acquire, charge, Charge.map]

/-- A reading sees what is kept, or nothing once it has expired. -/
theorem meter?_cases (store : MemoryStore) (key : String) : store.meter? key = store.kept? key ∨
    ∃ meter, store.expired? key store.clock = some meter ∧ store.kept? key = some meter ∧
      store.meter? key = none := by
  unfold expired? meter? kept? StoredMeter.live?
  cases store.entries[key]? with
  | none => exact .inl rfl
  | some stored =>
    by_cases live : store.clock < stored.expiresAt
    · left
      simp [live]
    · right
      exact ⟨stored.meter, by simp [live], rfl, by simp [live]⟩

theorem Written.seen (kept : ∀ store ∈ store?, Written limiter key Shows store ∧ store.clock ≤ now) :
    ∀ meter ∈ (atReading now store?).meter? key, ∃ earlier ≤ now, Shows earlier meter := by
  intro meter seen
  cases store? with
  | none => simp [atReading, MemoryStore.meter?] at seen
  | some store =>
    obtain ⟨written, earlier⟩ := kept store rfl
    obtain ⟨stored, entry, live⟩ := Option.bind_eq_some_iff.mp seen
    refine ⟨store.clock, earlier, ?_⟩
    have same : stored.meter = meter := by
      unfold StoredMeter.live? at live
      split at live
      · exact Option.some.inj live
      · cases live
    exact same ▸ (written stored entry).1

theorem Written.write (harmless : Harmless limiter Shows) (permits : UInt64)
    (kept : ∀ store ∈ store?, Written limiter key Shows store ∧ store.clock ≤ now) :
    Written limiter key Shows (acquire key limiter permits now store?).state := by
  intro stored entry
  rw [entries_acquire] at entry
  cases entry
  rw [clock_acquire]
  exact ⟨harmless.written _ _ _ (Written.seen kept), rfl⟩

theorem Written.expired {store : MemoryStore} (written : Written limiter key Shows store) {meter : Meter}
    (gone : store.expired? key now = some meter) :
    Shows store.clock meter ∧ store.clock.after limiter.ttl ≤ now := by
  obtain ⟨stored, entry, late⟩ := Option.bind_eq_some_iff.mp gone
  obtain ⟨shows, expiresAt⟩ := written stored entry
  rw [expiresAt] at late
  split at late
  · cases late
  · rename_i past
    cases late
    exact ⟨shows, UInt64.not_lt.mp past⟩

/-- A store that was never used has nothing to expire. -/
theorem acquireKept_none (key : String) (limiter : Limiter) (permits : UInt64) (now : Timestamp) :
    acquireKept key limiter permits now none = acquire key limiter permits now none := by
  have nothing : (atReading now none).meter? key = (atReading now none).kept? key := by
    simp [atReading, MemoryStore.meter?, kept?]
  unfold acquire acquireKept charge chargeKept
  rw [nothing]

theorem acquire_eq_acquireKept (harmless : Harmless limiter Shows) (permits : UInt64)
    (kept : ∀ store ∈ store?, Written limiter key Shows store ∧ store.clock ≤ now)
    (early : now < Timestamp.last) :
    acquire key limiter permits now store? = acquireKept key limiter permits now store? := by
  cases store? with
  | none => exact (acquireKept_none key limiter permits now).symm
  | some store =>
    obtain ⟨written, earlier⟩ := kept store rfl
    have same : Meter.charge limiter permits now ((atReading now (some store)).meter? key) =
        Meter.charge limiter permits now ((atReading now (some store)).kept? key) := by
      rcases meter?_cases (atReading now (some store)) key with seen | ⟨meter, gone, held, unseen⟩
      · rw [seen]
      · obtain ⟨shows, past⟩ := written.expired gone
        rw [unseen, held, harmless.expired permits _ _ _ shows earlier early past]
    unfold acquire acquireKept charge chargeKept
    rw [same]

/-- The clock of a run never goes back and stays below the last reading. -/
structure Ticks (requests : List Request) : Prop where
  sorted : requests.Pairwise (·.now ≤ ·.now)
  early : ∀ request ∈ requests, request.now < Timestamp.last

theorem Ticks.tail {request : Request} {rest : List Request} (ticks : Ticks (request :: rest)) : Ticks rest :=
  ⟨(List.pairwise_cons.mp ticks.sorted).2, fun later member => ticks.early later (List.mem_cons_of_mem _ member)⟩

/-- What is written before a run and at its first request is written before the rest of it. -/
theorem Written.next (harmless : Harmless limiter Shows) {request : Request} {rest : List Request}
    (ticks : Ticks (request :: rest))
    (kept : ∀ store ∈ store?, Written limiter key Shows store ∧ store.clock ≤ request.now) :
    ∀ store ∈ some (acquire key limiter request.permits request.now store?).state,
      ∀ later ∈ rest, Written limiter key Shows store ∧ store.clock ≤ later.now := by
  intro store same later member
  cases same
  refine ⟨Written.write harmless request.permits kept, ?_⟩
  rw [clock_acquire]
  exact (List.pairwise_cons.mp ticks.sorted).1 later member

theorem run_acquire_eq (harmless : Harmless limiter Shows) (key : String) (requests : List Request)
    (ticks : Ticks requests) (kept : ∀ store ∈ store?, ∀ request ∈ requests,
      Written limiter key Shows store ∧ store.clock ≤ request.now) :
    run (acquire key limiter) store? requests = run (acquireKept key limiter) store? requests := by
  induction requests generalizing store? with
  | nil => rw [run, run]
  | cons request rest ih =>
    have before := fun store member => kept store member request (List.mem_cons_self ..)
    have first := acquire_eq_acquireKept harmless request.permits before
      (ticks.early request (List.mem_cons_self ..))
    rw [run, run, ih ticks.tail (Written.next harmless ticks before), first]

/-- What holds of every written store at every later reading holds between any two requests. -/
theorem isChain_run_acquire (harmless : Harmless limiter Shows) (key : String)
    (Holds : MemoryStore → Timestamp → Prop)
    (holds : ∀ store now, Written limiter key Shows store → store.clock ≤ now → now < Timestamp.last →
      Holds store now)
    (requests : List Request) (ticks : Ticks requests)
    (kept : ∀ store ∈ store?, ∀ request ∈ requests,
      Written limiter key Shows store ∧ store.clock ≤ request.now) :
    (run (acquire key limiter) store? requests).IsChain fun earlier later =>
      Holds earlier.charge.state later.request.now := by
  induction requests generalizing store? with
  | nil => exact .nil
  | cons request rest ih =>
    have before := fun store member => kept store member request (List.mem_cons_self ..)
    have next := Written.next harmless ticks before
    have chain := ih ticks.tail next
    cases rest with
    | nil => exact .singleton _
    | cons second rest =>
      obtain ⟨written, earlier⟩ := next _ rfl second (List.mem_cons_self ..)
      exact .cons_cons (holds _ _ written earlier (ticks.tail.early second (List.mem_cons_self ..))) chain

end
end Admission.MemoryStore
