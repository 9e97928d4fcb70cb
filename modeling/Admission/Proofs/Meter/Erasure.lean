import Admission.Proofs.Meter.WindowBound

namespace Admission

/-- A request that was denied or asked for no permits. -/
def Charged.Idle {σ : Type} (charged : Charged σ) : Prop :=
  charged.charge.allowed = false ∨ charged.request.permits = 0

instance {σ : Type} (charged : Charged σ) : Decidable charged.Idle :=
  inferInstanceAs (Decidable (_ ∨ _))

/-- What is left of a log without some of its idle requests. -/
inductive Thinned {σ : Type} : List (Charged σ) → List (Charged σ) → Prop
  | nil : Thinned [] []
  | keep {charged : Charged σ} {log kept : List (Charged σ)} :
      Thinned log kept → Thinned (charged :: log) (charged :: kept)
  | drop {charged : Charged σ} {log kept : List (Charged σ)} :
      charged.Idle → Thinned log kept → Thinned (charged :: log) kept

namespace Window

section Step

variable {limiter : Limiter} {now later : Timestamp} {permits : UInt64} {previous? other? : Option Window}

/-- A charge depends on what was kept by the window that it is counted in only. -/
theorem charge_eq (limiter : Limiter) (permits : UInt64) (now : Timestamp) (previous? : Option Window) :
    charge limiter permits now previous? =
      if (moved limiter now previous?).weighted (lengthOf limiter) now + .ofNat (permits.toNat - 1) <
          .ofNat limiter.requests.toNat then
        ⟨{ moved limiter now previous? with
          current := UInt64.ofNatClamp ((moved limiter now previous?).current.toNat + permits.toNat) }, true⟩
      else ⟨moved limiter now previous?, false⟩ := rfl

theorem charge_congr (same : moved limiter now previous? = moved limiter now other?) (permits : UInt64) :
    charge limiter permits now previous? = charge limiter permits now other? := by
  rw [charge_eq, charge_eq, same]

theorem moved_moved (le : now ≤ later) (limiter : Limiter) (previous? : Option Window) :
    moved limiter later (some (moved limiter now previous?)) = moved limiter later previous? := by
  cases previous? with
  | none => exact rotate_empty le (lengthOf limiter)
  | some window => exact rotate_rotate le (lengthOf limiter) window

theorem state_of_idle
    (idle : (charge limiter permits now previous?).allowed = false ∨ permits = 0) :
    (charge limiter permits now previous?).state = moved limiter now previous? := by
  rw [charge_eq] at idle ⊢
  split_ifs at idle ⊢
  · obtain rfl : permits = 0 := by simpa using idle
    have count : UInt64.ofNatClamp ((moved limiter now previous?).current.toNat + (0 : UInt64).toNat) =
        (moved limiter now previous?).current := by
      have word := (moved limiter now previous?).current.toNat_lt
      rw [← UInt64.toNat_inj, Timestamp.toNat_ofNatClamp, UInt64.size]
      simp only [UInt64.toNat_zero]
      omega
    simp only [count]
  · rfl

end Step

section Run

variable {limiter : Limiter}

/-- A log and what is left of it go on alike from windows that move on to the same. -/
theorem run_thinned (requests : List Request) (sorted : requests.Pairwise (·.now ≤ ·.now))
    {full? thin? : Option Window}
    (agree : ∀ request ∈ requests, moved limiter request.now full? = moved limiter request.now thin?)
    {kept : List (Charged Window)} (thinned : Thinned (run (charge limiter) full? requests) kept) :
    run (charge limiter) thin? (kept.map (·.request)) = kept := by
  induction requests generalizing full? thin? kept with
  | nil =>
    cases thinned
    rfl
  | cons request rest ih =>
    obtain ⟨first, ordered⟩ := List.pairwise_cons.mp sorted
    have here := agree request (List.mem_cons_self ..)
    rw [run] at thinned
    cases thinned with
    | @keep _ _ kept thinned =>
      have charged := charge_congr here request.permits
      have tail := ih ordered (fun _ _ => rfl) thinned
      rw [List.map_cons, run]
      simp only [← charged]
      rw [tail]
    | drop idle thinned =>
      refine ih ordered (fun later member => ?_) thinned
      rw [state_of_idle idle, moved_moved (first later member), agree later (List.mem_cons_of_mem _ member)]

/-- While the clock does not go back, what is left of a run without some of its idle requests is a run of
its own: every verdict and every window in it stays as it was. Windows themselves do not tell in how many
moves they came to a time. -/
theorem run_forgets_idle (requests : List Request) (sorted : requests.Pairwise (·.now ≤ ·.now)) :
    (∀ kept, Thinned (run (charge limiter) none requests) kept →
      run (charge limiter) none (kept.map (·.request)) = kept) ∧
    ∀ (length : Nat) (window : Window) (now later : Timestamp), now ≤ later →
      (window.rotate length now).rotate length later = window.rotate length later :=
  ⟨fun _ thinned => run_thinned requests sorted (fun _ _ => rfl) thinned,
    fun length window _ _ le => rotate_rotate le length window⟩

/-- A request for no permits that starts the first window, and one that finds the second window full. -/
theorem run_forgets_two_idle :
    let limiter : Limiter :=
      { name := "api", algorithm := .slidingWindow, requests := 2, window := .ofSeconds 1,
        failStrategy := .failOpen, capacity := 2, refillRate := 2, throttle? := none }
    let requests : List Request := [⟨0, 100⟩, ⟨2, 1200⟩, ⟨1, 1400⟩, ⟨1, 2700⟩]
    requests.Pairwise (·.now ≤ ·.now) ∧
      ∃ opening full turned last, run (charge limiter) none requests = [opening, full, turned, last] ∧
        opening.Idle ∧ turned.Idle ∧ run (charge limiter) none [⟨2, 1200⟩, ⟨1, 2700⟩] = [full, last] := by
  intro limiter requests
  have sorted : requests.Pairwise (·.now ≤ ·.now) := by decide
  refine ⟨sorted, _, _, _, _, rfl, by decide +kernel, by decide +kernel, ?_⟩
  exact (run_forgets_idle requests sorted).1 _
    (.drop (by decide +kernel) (.keep (.drop (by decide +kernel) (.keep .nil))))

end Run
end Window
end Admission
