import Admission.Proofs.Limiter.Build
import Admission.Proofs.Meter.WindowBound
import Admission.Proofs.Store.Expiry
import Admission.Proofs.Store.Keys

namespace Admission

namespace Window

variable {limiter : Limiter} {written now : Timestamp}

/-- A window at a multiple of its length that holds the time at which it was written. -/
structure Around (limiter : Limiter) (written : Timestamp) (window : Window) : Prop where
  aligned : lengthOf limiter ∣ window.start.toNat
  started : window.start ≤ written
  running : written.toNat < window.start.toNat + lengthOf limiter

private theorem around_charge (limiter : Limiter) (permits : UInt64) (now : Timestamp)
    {previous? : Option Window}
    (before : ∀ window ∈ previous?, ∃ earlier ≤ now, Around limiter earlier window) :
    Around limiter now (charge limiter permits now previous?).state := by
  have started : ∀ window ∈ previous?, window.start ≤ now := by
    intro window kept
    obtain ⟨earlier, le, around⟩ := before window kept
    exact UInt64.le_trans around.started le
  have around := moved_around limiter started
  rw [← charge_start limiter permits] at around
  refine ⟨?_, around.1, around.2⟩
  rw [charge_start]
  cases previous? with
  | none => exact dvd_empty_start
  | some window =>
    obtain ⟨earlier, -, around⟩ := before window rfl
    exact dvd_rotate_start around.aligned

private theorem rotate_eq_empty {window : Window} (around : Around limiter written window)
    (old : 2 * lengthOf limiter ≤ now.since written) :
    window.rotate (lengthOf limiter) now = empty (lengthOf limiter) now := by
  have positive := lengthOf_pos limiter
  have started := UInt64.le_iff_toNat_le.mp around.started
  have long : 2 * lengthOf limiter ≤ now.since window.start := by
    simp only [Timestamp.since] at *
    omega
  have passed : 2 ≤ now.since window.start / lengthOf limiter := (Nat.le_div_iff_mul_le positive).mpr long
  have later : window.start ≤ now := by
    rw [UInt64.le_iff_toNat_le]
    simp only [Timestamp.since] at long
    omega
  obtain ⟨reached, ends⟩ := rotate_around positive later
  obtain ⟨emptied, closes⟩ : (empty (lengthOf limiter) now).start ≤ now ∧
      now.toNat < (empty (lengthOf limiter) now).start.toNat + lengthOf limiter := empty_around positive
  have start : (window.rotate (lengthOf limiter) now).start = (empty (lengthOf limiter) now).start := by
    rw [← UInt64.toNat_inj, start_eq (dvd_rotate_start around.aligned) reached ends,
      start_eq dvd_empty_start emptied closes]
  have cleared : window.rotate (lengthOf limiter) now =
      ⟨(window.rotate (lengthOf limiter) now).start, 0, 0⟩ := by
    rw [rotate, if_neg (by omega), if_neg (by omega)]
  rw [cleared, start]
  rfl

private theorem two_lengths_le_ttl (long : .ofSeconds 1 ≤ limiter.window)
    (ends : limiter.ttl.toMillis ≠ Timestamp.last) :
    2 * lengthOf limiter ≤ limiter.ttl.toMillis.toNat := by
  have second : 1000000000 ≤ limiter.window.nanos := long
  have most := limiter.window.nanos_lt
  rw [← UInt64.toNat_inj.ne, Timestamp.toNat_last, limiter.toNat_ttl] at ends
  rw [lengthOf_eq_toMillis (Nat.le_trans (by decide) second), Duration.toNat_toMillis, limiter.toNat_ttl]
  simp only [durationEnd, UInt64.size] at *
  omega

end Window

namespace MemoryStore

/-- What is done with a key at the store's own clock. -/
inductive Use
  | acquire (request : Request)
  | purge (now : Timestamp)

namespace Use

def now : Use → Timestamp
  | acquire request => request.now
  | purge now => now

def request? : Use → Option Request
  | acquire request => some request
  | purge _ => none

end Use

/-- Charges requests in turn, with purges in between. -/
def runPurging (key : String) (limiter : Limiter) (store? : Option MemoryStore) :
    List Use → List (Charged MemoryStore)
  | [] => []
  | .acquire request :: rest =>
    let charged := acquire key limiter request.permits request.now store?
    ⟨request, charged⟩ :: runPurging key limiter (some charged.state) rest
  | .purge now :: rest => runPurging key limiter (some (atReading now store?).purge) rest

def verdictAndMeter (key : String) (charged : Charged MemoryStore) : Charge (Option Meter) :=
  charged.charge.map (·.kept? key)

/-- A window that holds the time at which it was written. -/
def ShowsWindow (limiter : Limiter) (written : Timestamp) (meter : Meter) : Prop :=
  ∃ window, meter = .window window ∧ Window.Around limiter written window

/-- The meter of the key was written at a time that it shows, and is kept from then on. -/
def WrittenBefore (limiter : Limiter) (key : String) (Shows : Timestamp → Meter → Prop)
    (store : MemoryStore) : Prop :=
  ∀ stored ∈ store.entries[key]?, ∃ written ≤ store.clock,
    Shows written stored.meter ∧ stored.expiresAt = written.after limiter.ttl

/-- At a reading, a store has forgotten of a key no more than what has expired in another one. -/
structure Lags (limiter : Limiter) (key : String) (Shows : Timestamp → Meter → Prop) (clock : Timestamp)
    (store? kept? : Option MemoryStore) : Prop where
  forgets : Forgets key (atReading clock store?) (atReading clock kept?)
  written : WrittenBefore limiter key Shows (atReading clock kept?)

section

variable {limiter : Limiter} {key : String} {Shows : Timestamp → Meter → Prop} {clock now : Timestamp}
  {store? kept? : Option MemoryStore}

theorem harmless_window (long : .ofSeconds 1 ≤ limiter.window) (window : limiter.algorithm = .slidingWindow) :
    Harmless limiter (ShowsWindow limiter) := by
  constructor
  case written =>
    intro permits now previous? shown
    rw [Meter.charge_slidingWindow window]
    refine ⟨_, rfl, Window.around_charge limiter permits now fun kept member => ?_⟩
    obtain ⟨meter, held, same⟩ := Option.bind_eq_some_iff.mp member
    obtain ⟨earlier, le, shownWindow, rfl, around⟩ := shown meter held
    cases same
    exact ⟨earlier, le, around⟩
  case expired =>
    intro permits earlier now meter shown le early past
    obtain ⟨kept, rfl, around⟩ := shown
    obtain ⟨ends, lived⟩ := lifetime_le_since early past
    have old := Nat.le_trans (Window.two_lengths_le_ttl long ends) lived
    have charged : Window.charge limiter permits now (some kept) = Window.charge limiter permits now none := by
      unfold Window.charge
      simp only [Window.rotate_eq_empty around old]
    rw [Meter.charge_slidingWindow window, Meter.charge_slidingWindow window]
    exact congrArg (Charge.map Meter.window) charged

theorem Lags.later (lags : Lags limiter key Shows clock store? kept?) (later : clock ≤ now) :
    Lags limiter key Shows now store? kept? := by
  have moved : ∀ store? : Option MemoryStore,
      befall (.tick now) (atReading clock store?) = atReading now store? := by
    intro store?
    cases store? <;> rfl
  constructor
  case forgets =>
    rw [← moved store?, ← moved kept?]
    exact lags.forgets.tick (clock_atReading ▸ later)
  case written =>
    rw [← moved kept?]
    intro stored entry
    obtain ⟨written, before, shows⟩ := lags.written stored entry
    rw [clock_atReading] at before
    exact ⟨written, UInt64.le_trans before later, shows⟩

theorem Lags.purge (lags : Lags limiter key Shows now store? kept?) :
    Lags limiter key Shows now (some (atReading now store?).purge) kept? := by
  refine ⟨?_, lags.written⟩
  have same : atReading now (some (atReading now store?).purge) = befall .purge (atReading now store?) := by
    cases store? <;> rfl
  rw [same]
  exact lags.forgets.purge

theorem Lags.meter (harmless : Harmless limiter Shows) (lags : Lags limiter key Shows now store? kept?)
    (early : now < Timestamp.last) (permits : UInt64) :
    Meter.charge limiter permits now ((atReading now store?).meter? key) =
      Meter.charge limiter permits now ((atReading now kept?).kept? key) := by
  rw [lags.forgets.meter?]
  rcases meter?_cases (atReading now kept?) key with seen | ⟨meter, gone, held, unseen⟩
  · rw [seen]
  · obtain ⟨stored, entry, late⟩ := Option.bind_eq_some_iff.mp gone
    obtain ⟨written, before, shows, expiresAt⟩ := lags.written stored entry
    rw [clock_atReading] at before late
    rw [expiresAt] at late
    split at late
    · cases late
    · rename_i past
      cases late
      rw [unseen, held]
      exact (harmless.expired permits written now _ shows before early (UInt64.not_lt.mp past)).symm

private theorem entries_acquireKept (key : String) (limiter : Limiter) (permits : UInt64) (now : Timestamp)
    (kept? : Option MemoryStore) : (acquireKept key limiter permits now kept?).state.entries[key]? =
      some ⟨(Meter.charge limiter permits now ((atReading now kept?).kept? key)).state, now.after limiter.ttl⟩ := by
  simp [acquireKept, chargeKept, Charge.map]

/-- A request gets the same verdict from both stores, which keep the same of its key from then on. -/
theorem Lags.acquire (harmless : Harmless limiter Shows) (lags : Lags limiter key Shows now store? kept?)
    (early : now < Timestamp.last) (permits : UInt64) :
    let charged := MemoryStore.acquire key limiter permits now store?
    let lasting := acquireKept key limiter permits now kept?
    charged.map (·.kept? key) = lasting.map (·.kept? key) ∧
      Lags limiter key Shows now (some charged.state) (some lasting.state) := by
  intro charged lasting
  have meter := lags.meter harmless early permits
  have entry : charged.state.entries[key]? = lasting.state.entries[key]? := by
    rw [entries_acquire, entries_acquireKept, meter]
  have allowed : charged.allowed = lasting.allowed := by
    rw [allowed_acquire, allowed_acquireKept, meter]
  refine ⟨?_, ⟨rfl, .inl entry⟩, ?_⟩
  · simp only [Charge.map, MemoryStore.kept?, entry, allowed]
  · intro stored member
    have written : lasting.state.entries[key]? = some stored := member
    rw [entries_acquireKept] at written
    cases written
    refine ⟨now, UInt64.le_refl now, ?_, rfl⟩
    refine harmless.written permits now _ fun meter held => ?_
    obtain ⟨stored, entry, rfl⟩ := Option.map_eq_some_iff.mp held
    obtain ⟨earlier, le, shows, -⟩ := lags.written stored entry
    rw [clock_atReading] at le
    exact ⟨earlier, le, shows⟩

theorem Lags.run (harmless : Harmless limiter Shows) (uses : List Use) (sorted : uses.Pairwise (·.now ≤ ·.now))
    (early : ∀ use ∈ uses, use.now < Timestamp.last) (lags : Lags limiter key Shows clock store? kept?)
    (later : ∀ use ∈ uses, clock ≤ use.now) :
    (runPurging key limiter store? uses).map (verdictAndMeter key) =
      (Admission.run (acquireKept key limiter) kept? (uses.filterMap Use.request?)).map (verdictAndMeter key) := by
  induction uses generalizing clock store? kept? with
  | nil => rfl
  | cons use rest ih =>
    obtain ⟨next, ordered⟩ := List.pairwise_cons.mp sorted
    have now := lags.later (later use (List.mem_cons_self ..))
    have soon := fun use member => early use (List.mem_cons_of_mem _ member)
    cases use with
    | acquire request =>
      obtain ⟨same, still⟩ := now.acquire harmless (early _ (List.mem_cons_self ..)) request.permits
      have tail := ih ordered soon still next
      simp only [runPurging, List.filterMap_cons, Use.request?, Admission.run, List.map_cons]
      exact congrArg₂ List.cons same tail
    | purge reading => exact ih ordered soon now.purge next

end

/-- While the clock does not go back and is below its last reading, a sliding window gets the verdicts, and
leaves the meters, of a store that never expires any, whenever it is purged. -/
theorem window_expiry_is_transparent {draft : Limiter.Draft} {limiter : Limiter}
    (built : draft.build = .ok limiter)
    (window : limiter.algorithm = .slidingWindow) (key : String) (uses : List Use)
    (sorted : uses.Pairwise (·.now ≤ ·.now)) (early : ∀ use ∈ uses, use.now < Timestamp.last) :
    (runPurging key limiter none uses).map (verdictAndMeter key) =
      (Admission.run (acquireKept key limiter) none (uses.filterMap Use.request?)).map (verdictAndMeter key) := by
  obtain ⟨-, long⟩ := Limiter.Draft.build_slidingWindow built window
  have start : Lags limiter key (ShowsWindow limiter) 0 none none := by
    refine ⟨forgets_refl key _, fun stored entry => ?_⟩
    simp [atReading] at entry
  refine start.run (harmless_window long window) uses sorted early fun use member => ?_
  exact UInt64.le_iff_toNat_le.mpr (Nat.zero_le _)

/-- A window of a second and a half a millisecond is used up, expires to the very millisecond, is purged and
used again. -/
theorem window_expiry_is_transparent_at_expiry :
    let limiter : Limiter :=
      { name := "api", algorithm := .slidingWindow, requests := 2, window := ⟨1000500000, by decide⟩
        failStrategy := .failOpen, capacity := 2
        refillRate := Limiter.steadyRate 2 ⟨1000500000, by decide⟩, throttle? := none }
    let uses : List Use := [.acquire ⟨2, 999⟩, .purge 2999, .acquire ⟨1, 2999⟩, .purge 5000, .acquire ⟨2, 5000⟩]
    uses.Pairwise (·.now ≤ ·.now) ∧ (∀ use ∈ uses, use.now < Timestamp.last) ∧
      (runPurging "key" limiter none uses).map (verdictAndMeter "key") =
        (Admission.run (acquireKept "key" limiter) none [⟨2, 999⟩, ⟨1, 2999⟩, ⟨2, 5000⟩]).map
          (verdictAndMeter "key") := by
  intro limiter uses
  have built : Limiter.slidingWindow "api" 2 ⟨1000500000, by decide⟩ = .ok limiter := by decide +kernel
  have sorted : uses.Pairwise (·.now ≤ ·.now) := by decide
  have early : ∀ use ∈ uses, use.now < Timestamp.last := by decide
  exact ⟨sorted, early, window_expiry_is_transparent built rfl "key" uses sorted early⟩

end MemoryStore
end Admission
