import Admission.Proofs.Meter.WindowBound

/-! What requests ask of a sliding window. Main statement: while any two adjacent windows are asked for
no more than the limit, no request is denied. -/
namespace Admission

/-- The permits that requests ask for together from one reading on and before another. -/
def asked (first last : Nat) : List Request → Nat
  | [] => 0
  | request :: rest =>
    (if first ≤ request.now.toNat ∧ request.now.toNat < last then request.permits.toNat else 0) +
      asked first last rest

private theorem asked_cons (first last : Nat) (request : Request) (rest : List Request) :
    asked first last (request :: rest) =
      (if first ≤ request.now.toNat ∧ request.now.toNat < last then request.permits.toNat else 0) +
        asked first last rest := rfl

private theorem asked_cons_of_mem {first last : Nat} {request : Request} (later : first ≤ request.now.toNat)
    (earlier : request.now.toNat < last) (rest : List Request) :
    asked first last (request :: rest) = request.permits.toNat + asked first last rest := by
  rw [asked_cons, if_pos ⟨later, earlier⟩]

private theorem asked_mono {first first' last last' : Nat} (earlier : first' ≤ first) (later : last ≤ last')
    (requests : List Request) : asked first last requests ≤ asked first' last' requests := by
  induction requests with
  | nil => exact Nat.le_refl 0
  | cons request rest ih =>
    rw [asked_cons, asked_cons]
    split_ifs <;> omega

namespace Window

/-- A window whose counts were asked for, the one before it included. -/
structure Covered (limiter : Limiter) (past : List Request) (window : Window) : Prop where
  aligned : lengthOf limiter ∣ window.start.toNat
  current : window.current.toNat ≤ asked window.start.toNat (window.start.toNat + lengthOf limiter) past
  both : window.previous.toNat + window.current.toNat ≤
    asked (window.start.toNat - lengthOf limiter) (window.start.toNat + lengthOf limiter) past

section Step

variable {limiter : Limiter} {past : List Request} {previous? : Option Window} {now : Timestamp}

theorem Covered.rotate {window : Window} (covered : Covered limiter past window) (now : Timestamp) :
    Covered limiter past (window.rotate (lengthOf limiter) now) := by
  have aligned : lengthOf limiter ∣ (window.rotate (lengthOf limiter) now).start.toNat :=
    dvd_rotate_start covered.aligned
  rcases Nat.lt_trichotomy 1 (now.since window.start / lengthOf limiter) with far | once | young
  · rw [rotate_of_two_le far]
    exact ⟨aligned, Nat.zero_le _, Nat.zero_le _⟩
  · -- The current window has become the one before.
    have start : (window.rotate (lengthOf limiter) now).start.toNat =
        window.start.toNat + lengthOf limiter := by rw [toNat_rotate_start, ← once, Nat.one_mul]
    have current : (window.rotate (lengthOf limiter) now).current = 0 := by
      rw [Window.rotate, ← once, if_neg Nat.one_ne_zero]
    have previous : (window.rotate (lengthOf limiter) now).previous = window.current := by
      rw [Window.rotate, ← once, if_neg Nat.one_ne_zero, if_pos rfl]
    refine ⟨aligned, ?_, ?_⟩
    · rw [current]
      exact Nat.zero_le _
    · rw [current, previous, start, Nat.add_sub_cancel]
      exact covered.current.trans (asked_mono (Nat.le_refl _) (Nat.le_add_right ..) past)
  · have same : window.rotate (lengthOf limiter) now = window := if_pos (Nat.lt_one_iff.mp young)
    rw [same]
    exact covered

theorem Covered.moved (covered : ∀ window ∈ previous?, Covered limiter past window) (now : Timestamp) :
    Covered limiter past (moved limiter now previous?) := by
  cases previous? with
  | none => exact ⟨dvd_empty_start, Nat.zero_le _, Nat.zero_le _⟩
  | some window => exact (covered window rfl).rotate now

theorem charge_of_le (small : limiter.requests.toNat ≤ 2 ^ 53) {permits : UInt64} (asks : 1 ≤ permits.toNat)
    (room : (moved limiter now previous?).previous.toNat + (moved limiter now previous?).current.toNat +
      permits.toNat ≤ limiter.requests.toNat) :
    ∃ count : UInt64, count.toNat = (moved limiter now previous?).current.toNat + permits.toNat ∧
      charge limiter permits now previous? = ⟨{ moved limiter now previous? with current := count }, true⟩ := by
  have word := limiter.requests.toNat_lt
  refine ⟨UInt64.ofNatClamp ((moved limiter now previous?).current.toNat + permits.toNat), ?_,
    if_pos (admits_of_le small asks room)⟩
  rw [Timestamp.toNat_ofNatClamp, UInt64.size]
  omega

/-- A window that holds a reading counts the permits that are granted then. -/
theorem Covered.count {window : Window} (covered : Covered limiter past window) {request : Request}
    (started : window.start ≤ request.now)
    (runs : request.now.toNat < window.start.toNat + lengthOf limiter) {count : UInt64}
    (counted : count.toNat = window.current.toNat + request.permits.toNat) :
    Covered limiter (request :: past) { window with current := count } := by
  have later := UInt64.le_iff_toNat_le.mp started
  have current := covered.current
  have both := covered.both
  refine ⟨covered.aligned, ?_, ?_⟩
  · show count.toNat ≤ _
    rw [asked_cons_of_mem later runs, counted]
    omega
  · show window.previous.toNat + count.toNat ≤ _
    rw [asked_cons_of_mem ((Nat.sub_le ..).trans later) runs, counted]
    omega

end Step

section Run

variable {limiter : Limiter}

/-- The span of two windows that ends with an aligned one lies in two adjacent windows. -/
private theorem asked_span_le {length start limit : Nat} {past rest : List Request} (aligned : length ∣ start)
    (light : ∀ index, asked (index * length) ((index + 2) * length) past +
      asked (index * length) ((index + 2) * length) rest ≤ limit) :
    asked (start - length) (start + length) past + asked (start - length) (start + length) rest ≤ limit := by
  obtain ⟨index, rfl⟩ := aligned
  have first : (index - 1) * length ≤ length * index - length := by
    rw [Nat.sub_mul, Nat.one_mul, Nat.mul_comm]
  have last : length * index + length ≤ (index - 1 + 2) * length := by
    rw [← Nat.mul_succ, Nat.mul_comm]
    exact Nat.mul_le_mul_right length (by omega)
  exact (Nat.add_le_add (asked_mono first last past) (asked_mono first last rest)).trans (light (index - 1))

theorem run_covered (small : limiter.requests.toNat ≤ 2 ^ 53) (requests past : List Request)
    (sorted : requests.Pairwise (·.now ≤ ·.now)) (asking : ∀ request ∈ requests, 1 ≤ request.permits.toNat)
    {previous? : Option Window} (covered : ∀ window ∈ previous?, Covered limiter past window)
    (started : ∀ window ∈ previous?, ∀ request ∈ requests, window.start ≤ request.now)
    (light : ∀ index, asked (index * lengthOf limiter) ((index + 2) * lengthOf limiter) past +
      asked (index * lengthOf limiter) ((index + 2) * lengthOf limiter) requests ≤ limiter.requests.toNat) :
    ∀ charged ∈ run (charge limiter) previous? requests, charged.charge.allowed = true := by
  induction requests generalizing past previous? with
  | nil => simp [run]
  | cons request rest ih =>
    obtain ⟨first, ordered⟩ := List.pairwise_cons.mp sorted
    have here := Covered.moved covered request.now
    obtain ⟨begun, runs⟩ := moved_around limiter fun window kept =>
      started window kept request (List.mem_cons_self ..)
    have later := UInt64.le_iff_toNat_le.mp begun
    have span := asked_span_le here.aligned light
    rw [asked_cons_of_mem ((Nat.sub_le ..).trans later) runs] at span
    have room := here.both
    obtain ⟨count, counted, charged⟩ := charge_of_le small (asking request (List.mem_cons_self ..))
      (by omega : (moved limiter request.now previous?).previous.toNat +
        (moved limiter request.now previous?).current.toNat + request.permits.toNat ≤
          limiter.requests.toNat)
    rw [run, charged]
    refine List.forall_mem_cons.mpr ⟨rfl, ih (request :: past) ordered ?_ ?_ ?_ ?_⟩
    · exact fun other member => asking other (List.mem_cons_of_mem _ member)
    · rintro _ ⟨⟩
      exact here.count begun runs counted
    · rintro _ ⟨⟩ other member
      exact UInt64.le_trans begun (first other member)
    · intro index
      have both := light index
      rw [asked_cons] at both ⊢
      omega

/-- While the clock does not go back and any two adjacent aligned windows are asked for no more than the
limit together, every request is granted. -/
theorem run_grants_light_demand (small : limiter.requests.toNat ≤ 2 ^ 53) (requests : List Request)
    (sorted : requests.Pairwise (·.now ≤ ·.now)) (asking : ∀ request ∈ requests, 1 ≤ request.permits.toNat)
    (light : ∀ index, asked (index * lengthOf limiter) ((index + 2) * lengthOf limiter) requests ≤
      limiter.requests.toNat) :
    ∀ charged ∈ run (charge limiter) none requests, charged.charge.allowed = true :=
  run_covered small requests [] sorted asking (by simp) (by simp) fun index => by
    rw [asked, Nat.zero_add]
    exact light index

/-- Three windows of a limit of three, each of which makes up the limit with the next. -/
theorem run_grants_three_windows :
    let limiter : Limiter :=
      { name := "api", algorithm := .slidingWindow, requests := 3, window := .ofSeconds 1,
        failStrategy := .failOpen, capacity := 3, refillRate := 3, throttle? := none }
    let requests : List Request := [⟨2, 999⟩, ⟨1, 1000⟩, ⟨1, 2000⟩, ⟨1, 2000⟩]
    limiter.requests.toNat ≤ 2 ^ 53 ∧ requests.Pairwise (·.now ≤ ·.now) ∧
      (∀ request ∈ requests, 1 ≤ request.permits.toNat) ∧
      (∀ index, asked (index * lengthOf limiter) ((index + 2) * lengthOf limiter) requests ≤
        limiter.requests.toNat) ∧
      ∀ charged ∈ run (charge limiter) none requests, charged.charge.allowed = true := by
  intro limiter requests
  have small : limiter.requests.toNat ≤ 2 ^ 53 := by decide
  have sorted : requests.Pairwise (·.now ≤ ·.now) := by decide
  have asking : ∀ request ∈ requests, 1 ≤ request.permits.toNat := by decide
  have light : ∀ index, asked (index * lengthOf limiter) ((index + 2) * lengthOf limiter) requests ≤
      limiter.requests.toNat := by
    rintro (_ | _ | _ | index)
    · decide
    · decide
    · decide
    · -- Nothing is asked for from the fourth window on.
      have length : lengthOf limiter = 1000 := by decide
      have late : ¬ (index + 3) * 1000 ≤ 999 ∧ ¬ (index + 3) * 1000 ≤ 1000 ∧ ¬ (index + 3) * 1000 ≤ 2000 := by
        omega
      simp [requests, asked, length, late]
  exact ⟨small, sorted, asking, light, run_grants_light_demand small requests sorted asking light⟩

end Run
end Window
end Admission
