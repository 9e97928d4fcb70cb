import Admission.Proofs.Meter.Spent
import Admission.Store.Memory

namespace Admission.MemoryStore

/-- A store that keeps a key with some permits in use. -/
def Holds (limiter : Limiter) (key : String) (n : Nat) (store : MemoryStore) : Prop :=
  Meter.Standing limiter store.clock n (store.meter? key)

variable {limiter : Limiter} {key : String} {n : Nat} {store : MemoryStore}

theorem holds_fresh (limiter : Limiter) (fresh : store.meter? key = none) : Holds limiter key 0 store := by
  unfold Holds
  rw [fresh]
  exact .fresh

theorem holds_of_used {meter : Meter} {now : Timestamp} (clock : store.clock = now)
    (shown : store.meter? key = some meter) (used : Meter.Used limiter now n meter) :
    Holds limiter key n store := by
  unfold Holds
  rw [clock, shown]
  exact .used used

/-- Before the last reading a meter of a window of a millisecond outlives the reading. -/
theorem outlives {now : Timestamp} (early : now < Timestamp.last) (long : .ofMillis 1 ≤ limiter.window) :
    now < now.after limiter.ttl := by
  have window : 1000000 ≤ limiter.window.nanos := long
  have ttl : 1 ≤ limiter.ttl.toMillis.toNat := by
    rw [limiter.toNat_ttl]
    simp only [durationEnd, UInt64.size]
    omega
  rw [UInt64.lt_iff_toNat_lt, Timestamp.toNat_last] at early
  rw [Timestamp.after, UInt64.lt_iff_toNat_lt, Timestamp.toNat_plus]
  omega

/-- A charge is remembered: the meter that shows afterwards has the permits in use that were granted. -/
theorem charge_holds (precise : limiter.Exact) (outlives : store.clock < store.clock.after limiter.ttl)
    (holds : Holds limiter key n store) (permits : UInt64) :
    let charged := store.charge key limiter permits store.clock
    charged.state.clock = store.clock ∧
      (1 ≤ permits.toNat → (charged.allowed = true ↔ n + permits.toNat ≤ limiter.capacity.toNat)) ∧
      ∃ meter, charged.state.meter? key = some meter ∧
        Meter.Used limiter store.clock (if charged.allowed then n + permits.toNat else n) meter := by
  intro charged
  obtain ⟨meter, allowed, same, used, fits⟩ := Meter.charge_standing precise holds permits
  have verdict : charged.allowed = allowed := congrArg Charge.allowed same
  have shown : charged.state.meter? key = some meter := by
    rw [meter?_charge, if_pos rfl, if_pos outlives, same]
  rw [verdict]
  exact ⟨rfl, fits, meter, shown, used⟩

/-- A store in which some permits of a key have been granted at its reading. -/
def Spent (limiter : Limiter) (key : String) (n : Nat) (store : MemoryStore) : Prop :=
  Meter.Spent limiter store.clock n (store.meter? key)

theorem spent_zero (precise : limiter.Exact) (key : String) (store : MemoryStore) : Spent limiter key 0 store :=
  Meter.spent_zero precise ..

theorem Spent.le (precise : limiter.Exact) (spent : Spent limiter key n store) : n ≤ limiter.capacity.toNat :=
  Meter.Spent.le precise spent

theorem Spent.charge (precise : limiter.Exact) (outlives : store.clock < store.clock.after limiter.ttl)
    (spent : Spent limiter key n store) (charged : String) (permits : UInt64) :
    let charge := store.charge charged limiter permits store.clock
    Spent limiter key (if charge.allowed ∧ charged = key then n + permits.toNat else n) charge.state := by
  intro charge
  unfold Spent
  rw [meter?_charge]
  by_cases own : charged = key
  · subst own
    rw [if_pos rfl, if_pos outlives]
    simp only [and_true]
    exact Meter.Spent.charge precise spent permits
  · rw [if_neg own, if_neg fun both => own both.2]
    exact spent

end Admission.MemoryStore
