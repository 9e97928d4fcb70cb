import Admission.Proofs.Meter.Full
import Admission.Proofs.Store.Expiry

/-! Expiry of token buckets. Main statement: it creates no budget exactly for the limiters whose time
to live lets an empty bucket fill up, or never ends. -/
namespace Admission.MemoryStore

open Bucket

/-- No meter expires before the last reading, or an empty bucket is full when it does. -/
def FillsInTime (limiter : Limiter) : Prop :=
  limiter.ttl.toMillis = Timestamp.last ∨
    refilled (capacityOf limiter) limiter.refillRate 0 limiter.ttl.toMillis.toNat = capacityOf limiter

instance (limiter : Limiter) : Decidable (FillsInTime limiter) :=
  inferInstanceAs (Decidable (_ ∨ _))

/-- A bucket that was last refilled when it was written. -/
def ShowsBucket (written : Timestamp) (meter : Meter) : Prop :=
  ∃ tokens, meter = .bucket ⟨tokens, written⟩

/-- A bucket that a reading finds expired would be full by then. -/
def DiscardsFull (key : String) (limiter : Limiter) (store : MemoryStore) (now : Timestamp) : Prop :=
  ∀ bucket, store.expired? key now = some (.bucket bucket) →
    bucket.available limiter now = capacityOf limiter

/-- Every bucket that a request finds expired would be full by then. -/
def DiscardsFullBuckets (key : String) (limiter : Limiter) : Prop :=
  ∀ requests, Ticks requests →
    (run (acquire key limiter) none requests).IsChain fun earlier later =>
      DiscardsFull key limiter earlier.charge.state later.request.now

/-- Every request that is allowed would be allowed without expiry. -/
def CreatesNoBudget (key : String) (limiter : Limiter) : Prop :=
  ∀ requests, Ticks requests →
    List.Forall₂ (fun expiring keeping => expiring.charge.allowed → keeping.charge.allowed)
      (run (acquire key limiter) none requests) (run (acquireKept key limiter) none requests)

section

variable {limiter : Limiter} {key : String} {now written : Timestamp}

/-- A bucket that has expired is full. -/
private theorem available_expired (fills : Fills limiter) (inTime : FillsInTime limiter)
    (early : now < Timestamp.last) (past : written.after limiter.ttl ≤ now) (tokens : Binary64) :
    (⟨tokens, written⟩ : Bucket).available limiter now = capacityOf limiter := by
  obtain ⟨finite, positive⟩ := fills.capacity
  obtain ⟨ends, lived⟩ := lifetime_le_since early past
  rcases inTime with endless | full
  · exact absurd endless ends
  · exact refilled_eq_capacity_of_le finite positive fills.rate_finite fills.rate_nonneg
      (Timestamp.since_le_size now written) lived full tokens

theorem harmless_bucket (fills : Fills limiter) (bucket : limiter.algorithm = .tokenBucket)
    (inTime : FillsInTime limiter) : Harmless limiter ShowsBucket := by
  constructor
  · intro permits now previous? shown
    have stamp : (Bucket.charge limiter permits now (previous?.bind Meter.bucket?)).state.lastRefill = now := by
      refine lastRefill_charge_of_le limiter permits fun previous kept => ?_
      obtain ⟨meter, held, same⟩ := Option.bind_eq_some_iff.mp kept
      obtain ⟨earlier, le, tokens, rfl⟩ := shown meter held
      cases same
      exact le
    rw [Meter.charge_tokenBucket bucket]
    cases charged : (Bucket.charge limiter permits now (previous?.bind Meter.bucket?)).state with
    | mk tokens last =>
      rw [charged] at stamp
      refine ⟨tokens, ?_⟩
      rw [Charge.map, charged]
      exact congrArg (fun last => Meter.bucket ⟨tokens, last⟩) stamp
  · intro permits earlier now meter shown le early past
    obtain ⟨tokens, rfl⟩ := shown
    rw [Meter.charge_tokenBucket bucket, Meter.charge_tokenBucket bucket]
    exact congrArg (Charge.map Meter.bucket) (charge_eq_charge_none fills permits le
      (available_expired fills inTime early past tokens))

private theorem acquire_capacity (fills : Fills limiter)
    (bucket : limiter.algorithm = .tokenBucket) (key : String)
    (now : Timestamp) : (acquire key limiter limiter.capacity now none).allowed ∧
      (acquire key limiter limiter.capacity now none).state.entries[key]? =
        some ⟨.bucket ⟨0, now⟩, now.after limiter.ttl⟩ := by
  have nothing : (atReading now none).meter? key = none := by simp [atReading, MemoryStore.meter?]
  have drained : Meter.charge limiter limiter.capacity now none = ⟨.bucket ⟨0, now⟩, true⟩ := by
    rw [Meter.charge_tokenBucket bucket, Option.bind_none, charge_capacity fills now]
    rfl
  constructor
  · rw [allowed_acquire, nothing, drained]
  · rw [entries_acquire, nothing, drained]

/-- A bucket that was drained is drained again once it has expired; without expiry it has only what
came in by then. -/
theorem run_drained (fills : Fills limiter) (bucket : limiter.algorithm = .tokenBucket) (key : String)
    {later : Timestamp} (past : now.after limiter.ttl ≤ later) :
    (run (acquire key limiter) none [⟨limiter.capacity, now⟩, ⟨limiter.capacity, later⟩]).map
        (·.charge.allowed) = [true, true] ∧
      (run (acquireKept key limiter) none [⟨limiter.capacity, now⟩, ⟨limiter.capacity, later⟩]).map
        (·.charge.allowed) =
          [true, decide (capacityOf limiter ≤ (⟨0, now⟩ : Bucket).available limiter later)] := by
  obtain ⟨allowed, entry⟩ := acquire_capacity fills bucket key now
  generalize drained : acquire key limiter limiter.capacity now none = first at allowed entry
  have late : ¬ later < now.after limiter.ttl := UInt64.not_lt.mpr past
  have unseen : (atReading later (some first.state)).meter? key = none := by
    simp [atReading, MemoryStore.meter?, entry, StoredMeter.live?, late]
  have held : (atReading later (some first.state)).kept? key = some (.bucket ⟨0, now⟩) := by
    simp [atReading, kept?, entry]
  have again : (acquire key limiter limiter.capacity later (some first.state)).allowed = true := by
    rw [allowed_acquire, unseen, Meter.charge_tokenBucket bucket, Option.bind_none, charge_capacity fills later]
    rfl
  have kept : (acquireKept key limiter limiter.capacity later (some first.state)).allowed =
      decide (capacityOf limiter ≤ (⟨0, now⟩ : Bucket).available limiter later) := by
    rw [allowed_acquireKept, held, Meter.charge_tokenBucket bucket]
    by_cases covered : capacityOf limiter ≤ (⟨0, now⟩ : Bucket).available limiter later
    · simp [Meter.bucket?, charge_covered covered, Charge.map, covered]
    · simp [Meter.bucket?, charge_not_covered covered, Charge.map, covered]
  constructor
  · simp [run, drained, allowed, again]
  · simp [run, acquireKept_none, drained, allowed, kept]

private theorem ticks_lifetime (ends : limiter.ttl.toMillis ≠ Timestamp.last) (permits : UInt64) :
    Ticks [⟨permits, 0⟩, ⟨permits, limiter.ttl.toMillis⟩] ∧
      (0 : Timestamp).after limiter.ttl ≤ limiter.ttl.toMillis := by
  have word := limiter.ttl.toMillis.toNat_lt
  have before : limiter.ttl.toMillis < Timestamp.last := by
    rw [← UInt64.toNat_inj.ne, Timestamp.toNat_last] at ends
    rw [UInt64.lt_iff_toNat_lt, Timestamp.toNat_last]
    simp only [UInt64.size] at *
    omega
  refine ⟨⟨?_, ?_⟩, ?_⟩
  · simp [UInt64.le_iff_toNat_le]
  · intro request member
    rcases List.mem_cons.mp member with rfl | member
    · exact UInt64.lt_of_le_of_lt (UInt64.le_iff_toNat_le.mpr (Nat.zero_le _)) before
    · rw [List.mem_singleton.mp member]
      exact before
  · rw [Timestamp.after, UInt64.le_iff_toNat_le, Timestamp.toNat_plus]
    exact Nat.le_trans (Nat.min_le_left ..) (Nat.le_of_eq (Nat.zero_add _))

/-- The bucket of a first request for the whole capacity has expired a time to live later. -/
theorem fillsInTime_of_discards (fills : Fills limiter) (bucket : limiter.algorithm = .tokenBucket)
    (discards : DiscardsFullBuckets key limiter) : FillsInTime limiter := by
  by_cases endless : limiter.ttl.toMillis = Timestamp.last
  · exact .inl endless
  · right
    obtain ⟨ticks, past⟩ := ticks_lifetime endless limiter.capacity
    obtain ⟨-, entry⟩ := acquire_capacity fills bucket key 0
    have chain := discards _ ticks
    simp only [run, List.isChain_pair] at chain
    refine chain ⟨0, 0⟩ ?_
    rw [expired?, entry, Option.bind_some, if_neg (UInt64.not_lt.mpr past)]

theorem fillsInTime_of_noBudget (fills : Fills limiter) (bucket : limiter.algorithm = .tokenBucket)
    (noBudget : CreatesNoBudget key limiter) : FillsInTime limiter := by
  by_cases endless : limiter.ttl.toMillis = Timestamp.last
  · exact .inl endless
  · right
    obtain ⟨ticks, past⟩ := ticks_lifetime endless limiter.capacity
    obtain ⟨expiring, keeping⟩ := run_drained fills bucket key past
    have verdicts := noBudget _ ticks
    simp only [run, List.map_cons, List.map_nil, List.cons.injEq, List.forall₂_cons] at *
    have covers := verdicts.2.1 expiring.2.1
    rw [keeping.2.1, decide_eq_true_eq] at covers
    exact available_eq_capacity fills covers

theorem discardsFull_of_fillsInTime (fills : Fills limiter) (bucket : limiter.algorithm = .tokenBucket)
    (inTime : FillsInTime limiter) (key : String) : DiscardsFullBuckets key limiter := by
  intro requests ticks
  refine isChain_run_acquire (harmless_bucket fills bucket inTime) key (DiscardsFull key limiter) ?_
    requests ticks (by simp)
  intro store now written earlier early discarded gone
  obtain ⟨⟨tokens, same⟩, past⟩ := written.expired gone
  cases same
  exact available_expired fills inTime early past tokens

theorem noBudget_of_fillsInTime (fills : Fills limiter) (bucket : limiter.algorithm = .tokenBucket)
    (inTime : FillsInTime limiter) (key : String) : CreatesNoBudget key limiter := by
  intro requests ticks
  rw [run_acquire_eq (harmless_bucket fills bucket inTime) key requests ticks (by simp)]
  exact List.forall₂_same.mpr fun _ _ allowed => allowed

/-- Below the last reading, expiry of a token bucket creates no budget exactly if an empty bucket is
full again after the time to live, or the time to live never ends. -/
theorem expiry_creates_no_budget_iff {draft : Limiter.Draft} (built : draft.build = .ok limiter)
    (bucket : limiter.algorithm = .tokenBucket) (key : String) :
    (DiscardsFullBuckets key limiter ↔ FillsInTime limiter) ∧
      (CreatesNoBudget key limiter ↔ FillsInTime limiter) := by
  have fills := fills_of_build built bucket
  constructor
  · exact ⟨fillsInTime_of_discards fills bucket,
      fun inTime => discardsFull_of_fillsInTime fills bucket inTime key⟩
  · exact ⟨fillsInTime_of_noBudget fills bucket,
      fun inTime => noBudget_of_fillsInTime fills bucket inTime key⟩

/-- A limiter that refills in its time to live. -/
theorem expiry_creates_no_budget_iff_two :
    let limiter : Limiter :=
      { name := "api", algorithm := .tokenBucket, requests := 2, window := .ofSeconds 1,
        failStrategy := .failOpen, capacity := 2, refillRate := 2, throttle? := none }
    FillsInTime limiter ∧ DiscardsFullBuckets "key" limiter ∧ CreatesNoBudget "key" limiter := by
  intro limiter
  have fills : FillsInTime limiter := by decide +kernel
  have built : Limiter.tokenBucket "api" 2 (.ofSeconds 1) = .ok limiter := by decide +kernel
  have both := expiry_creates_no_budget_iff built rfl "key"
  exact ⟨fills, both.1.mpr fills, both.2.mpr fills⟩

/-- A bucket that refills in four seconds is full again after two, when it has expired; and at the
last reading every meter has. -/
theorem expiry_creates_budget :
    let slow : Limiter :=
      { name := "api", algorithm := .tokenBucket, requests := 1, window := .ofSeconds 1,
        failStrategy := .failOpen, capacity := 1, refillRate := 1 / 4, throttle? := none }
    let steady : Limiter := { slow with refillRate := 1 }
    let draft : Limiter.Draft :=
      { name := "api", algorithm := .tokenBucket, requests := 1, window := .ofSeconds 1 }
    Limiter.Draft.build { draft with refillRate? := some (1 / 4) } = .ok slow ∧
      (run (acquire "key" slow) none [⟨1, 0⟩, ⟨1, 2000⟩]).map (·.charge.allowed) = [true, true] ∧
      (run (acquireKept "key" slow) none [⟨1, 0⟩, ⟨1, 2000⟩]).map (·.charge.allowed) = [true, false] ∧
      Limiter.Draft.build draft = .ok steady ∧
      (run (acquire "key" steady) none [⟨1, .last⟩, ⟨1, .last⟩]).map (·.charge.allowed) = [true, true] ∧
      (run (acquireKept "key" steady) none [⟨1, .last⟩, ⟨1, .last⟩]).map (·.charge.allowed) =
        [true, false] := by
  intro slow steady draft
  have slowBuilt : Limiter.Draft.build { draft with refillRate? := some (1 / 4) } = .ok slow := by
    decide +kernel
  have steadyBuilt : Limiter.Draft.build draft = .ok steady := by decide +kernel
  have slowPast : (0 : Timestamp).after slow.ttl ≤ 2000 := by decide
  have steadyPast : Timestamp.last.after steady.ttl ≤ Timestamp.last := by decide
  have slowRun := run_drained (fills_of_build slowBuilt rfl) rfl "key" slowPast
  have steadyRun := run_drained (fills_of_build steadyBuilt rfl) rfl "key" steadyPast
  have slowLate : ¬ capacityOf slow ≤ (⟨0, 0⟩ : Bucket).available slow 2000 := by decide +kernel
  have steadyLate : ¬ capacityOf steady ≤ (⟨0, .last⟩ : Bucket).available steady .last := by
    decide +kernel
  refine ⟨slowBuilt, slowRun.1, ?_, steadyBuilt, steadyRun.1, ?_⟩
  · rw [slowRun.2, decide_eq_false slowLate]
  · rw [steadyRun.2, decide_eq_false steadyLate]

end
end Admission.MemoryStore
