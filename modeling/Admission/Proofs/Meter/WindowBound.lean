import Admission.Proofs.Meter.Estimate
import Admission.Proofs.Meter.Rotation
import Admission.Proofs.Meter.Run

/-! Sliding windows admit no more than their limit. Main statement: each window admits at most the
limit, and so any span of one length at most twice the limit while the clock does not go back. -/
namespace Admission.Window

/-- A window at a multiple of its length, with counts up to the limit. -/
structure Valid (limiter : Limiter) (window : Window) : Prop where
  aligned : lengthOf limiter ∣ window.start.toNat
  current_le : window.current.toNat ≤ limiter.requests.toNat
  previous_le : window.previous.toNat ≤ limiter.requests.toNat

/-- A window of a millisecond or more is measured in its whole milliseconds. -/
theorem lengthOf_eq_toMillis {limiter : Limiter} (long : 1000000 ≤ limiter.window.nanos) :
    lengthOf limiter = limiter.window.toMillis.toNat := by
  refine max_eq_right ?_
  rw [Duration.toNat_toMillis, UInt64.size]
  omega

/-- The window that a request is counted in. -/
def moved (limiter : Limiter) (now : Timestamp) (previous? : Option Window) : Window :=
  match previous? with
  | some previous => previous.rotate (lengthOf limiter) now
  | none => empty (lengthOf limiter) now

section Step

variable {limiter : Limiter} {previous? : Option Window} {permits : UInt64} {now : Timestamp}

/-- A request is counted in its window, and fits there, or it leaves the window as it is. -/
theorem charge_cases (small : limiter.requests.toNat ≤ 2 ^ 53) (permits : UInt64) (now : Timestamp)
    (previous? : Option Window) :
    (∃ count : UInt64, count.toNat = (moved limiter now previous?).current.toNat + permits.toNat ∧
        count.toNat ≤ limiter.requests.toNat ∧
        charge limiter permits now previous? =
          ⟨{ moved limiter now previous? with current := count }, true⟩) ∨
      charge limiter permits now previous? = ⟨moved limiter now previous?, false⟩ := by
  by_cases admits : (moved limiter now previous?).weighted (lengthOf limiter) now +
      .ofNat (permits.toNat - 1) < .ofNat limiter.requests.toNat
  · have room := fits small admits
    have word := limiter.requests.toNat_lt
    have count : (UInt64.ofNatClamp ((moved limiter now previous?).current.toNat + permits.toNat)).toNat =
        (moved limiter now previous?).current.toNat + permits.toNat := by
      rw [Timestamp.toNat_ofNatClamp, UInt64.size]
      omega
    exact .inl ⟨_, count, by omega, if_pos admits⟩
  · exact .inr (if_neg admits)

theorem charge_start (limiter : Limiter) (permits : UInt64) (now : Timestamp) (previous? : Option Window) :
    (charge limiter permits now previous?).state.start = (moved limiter now previous?).start := by
  unfold charge
  dsimp only
  split_ifs <;> rfl

theorem moved_around (limiter : Limiter) (started : ∀ window ∈ previous?, window.start ≤ now) :
    (moved limiter now previous?).start ≤ now ∧
      now.toNat < (moved limiter now previous?).start.toNat + lengthOf limiter := by
  cases previous? with
  | none => exact empty_around (lengthOf_pos limiter)
  | some window => exact rotate_around (lengthOf_pos limiter) (started window rfl)

theorem Valid.moved (valid : ∀ window ∈ previous?, Valid limiter window) (now : Timestamp) :
    Valid limiter (moved limiter now previous?) := by
  cases previous? with
  | none => exact ⟨dvd_empty_start, Nat.zero_le _, Nat.zero_le _⟩
  | some window =>
    obtain ⟨aligned, current, previous⟩ := valid window rfl
    show Valid limiter (window.rotate (lengthOf limiter) now)
    rcases rotate_cases (lengthOf_pos limiter) window now with same | ⟨-, fresh, kept⟩
    · rw [same]
      exact ⟨aligned, current, previous⟩
    · refine ⟨dvd_rotate_start aligned, ?_, ?_⟩
      · rw [fresh]
        exact Nat.zero_le _
      · rcases kept with kept | cleared
        · rw [kept]
          exact current
        · rw [cleared]
          exact Nat.zero_le _

theorem Valid.charge (small : limiter.requests.toNat ≤ 2 ^ 53)
    (valid : ∀ window ∈ previous?, Valid limiter window) (permits : UInt64) (now : Timestamp) :
    Valid limiter (charge limiter permits now previous?).state := by
  have counted := Valid.moved valid now
  rcases charge_cases small permits now previous? with ⟨count, -, fits, same⟩ | same
  · rw [same]
    exact ⟨counted.aligned, fits, counted.previous_le⟩
  · rw [same]
    exact counted

/-- What a window that starts at a reading can no longer give: all if it is over, what it has counted
if it is the current one, and nothing if it is still to come. -/
def spent (limiter : Limiter) (start : Timestamp) (window : Window) : Nat :=
  if start < window.start then limiter.requests.toNat
  else if start = window.start then window.current.toNat
  else 0

private theorem spent_le (valid : Valid limiter window) (start : Timestamp) :
    spent limiter start window ≤ limiter.requests.toNat := by
  unfold spent
  split_ifs
  · exact Nat.le_refl _
  · exact valid.current_le
  · exact Nat.zero_le _

private theorem spent_rotate (valid : Valid limiter window) (now start : Timestamp) :
    spent limiter start window ≤ spent limiter start (window.rotate (lengthOf limiter) now) := by
  rcases rotate_cases (lengthOf_pos limiter) window now with same | ⟨later, -, -⟩
  · rw [same]
  · by_cases begun : start ≤ window.start
    · have gone : start < (window.rotate (lengthOf limiter) now).start := by
        rw [UInt64.le_iff_toNat_le] at begun
        rw [UInt64.lt_iff_toNat_lt]
        omega
      rw [spent, spent, if_pos gone]
      exact spent_le valid start
    · rw [UInt64.le_iff_toNat_le] at begun
      have nothing : spent limiter start window = 0 := by
        rw [spent, if_neg, if_neg]
        · intro same
          exact begun (same ▸ Nat.le_refl _)
        · rw [UInt64.lt_iff_toNat_lt]
          omega
      rw [nothing]
      exact Nat.zero_le _

private theorem given_add_spent_le (small : limiter.requests.toNat ≤ 2 ^ 53) (request : Request)
    (previous? : Option Window) (start : Timestamp) :
    (if (charge limiter request.permits request.now previous?).state.start = start then
        Charged.given ⟨request, charge limiter request.permits request.now previous?⟩
      else 0) + spent limiter start (moved limiter request.now previous?) ≤
      spent limiter start (charge limiter request.permits request.now previous?).state := by
  rcases charge_cases small request.permits request.now previous? with ⟨count, counted, -, same⟩ | same
  · rw [same]
    simp only [Charged.given, if_true]
    by_cases here : (moved limiter request.now previous?).start = start
    · subst here
      simp only [spent, UInt64.lt_irrefl, if_true, if_false]
      omega
    · simp only [spent, here, Ne.symm here, if_false, Nat.zero_add]
      exact Nat.le_refl _
  · rw [same]
    simp only [Charged.given, Bool.false_eq_true, if_false, ite_self, Nat.zero_add]
    exact Nat.le_refl _

end Step

section Run

variable {limiter : Limiter}

theorem valid_run (small : limiter.requests.toNat ≤ 2 ^ 53) (requests : List Request) :
    ∀ charged ∈ run (charge limiter) none requests, Valid limiter charged.charge.state := by
  refine run_invariant _ (Valid limiter) ?_ ?_ requests none (by simp)
  · intro permits now
    exact Valid.charge small (by simp) permits now
  · intro permits now window valid
    exact Valid.charge small (by simpa using valid) permits now

/-- What is still given for a window and what it has spent make up no more than the limit. -/
private theorem admitted_add_spent_le (small : limiter.requests.toNat ≤ 2 ^ 53) (start : Timestamp)
    (requests : List Request) {window : Window} (valid : Valid limiter window) :
    admitted ((run (charge limiter) (some window) requests).filter (·.charge.state.start = start)) +
      spent limiter start window ≤ limiter.requests.toNat := by
  induction requests generalizing window with
  | nil =>
    rw [run, List.filter_nil, admitted_nil, Nat.zero_add]
    exact spent_le valid start
  | cons request rest ih =>
    have kept : ∀ previous ∈ some window, Valid limiter previous := by simpa using valid
    have later := ih (Valid.charge small kept request.permits request.now)
    have now := given_add_spent_le small request (some window) start
    have before := spent_rotate valid request.now start
    rw [run, admitted_filter_cons]
    simp only [decide_eq_true_eq, moved] at *
    omega

/-- Whatever the clock does, one window gives no more than the limit. -/
theorem admitted_window_le (small : limiter.requests.toNat ≤ 2 ^ 53) (start : Timestamp)
    (requests : List Request) :
    admitted ((run (charge limiter) none requests).filter (·.charge.state.start = start)) ≤
      limiter.requests.toNat := by
  cases requests with
  | nil => exact Nat.zero_le _
  | cons request rest =>
    have valid : Valid limiter (charge limiter request.permits request.now none).state :=
      Valid.charge small (by simp) request.permits request.now
    have later := admitted_add_spent_le small start rest valid
    have first := given_add_spent_le small request none start
    rw [run, admitted_filter_cons]
    simp only [decide_eq_true_eq] at *
    omega

/-- While the clock does not go back, every request is counted in the window that holds it. -/
theorem run_around (requests : List Request) (sorted : requests.Pairwise (·.now ≤ ·.now))
    (previous? : Option Window)
    (started : ∀ window ∈ previous?, ∀ request ∈ requests, window.start ≤ request.now) :
    ∀ charged ∈ run (charge limiter) previous? requests,
      charged.charge.state.start ≤ charged.request.now ∧
        charged.request.now.toNat < charged.charge.state.start.toNat + lengthOf limiter := by
  induction requests generalizing previous? with
  | nil => simp [run]
  | cons request rest ih =>
    obtain ⟨first, later⟩ := List.pairwise_cons.mp sorted
    have begun : ∀ window ∈ previous?, window.start ≤ request.now :=
      fun window kept => started window kept request (List.mem_cons_self ..)
    have around := moved_around limiter begun
    rw [← charge_start limiter request.permits] at around
    intro charged member
    rcases List.mem_cons.mp member with rfl | member
    · exact around
    · refine ih later _ ?_ charged member
      intro window kept request' member'
      cases kept
      exact UInt64.le_trans around.1 (first request' member')

theorem start_eq {window : Window} {now : Timestamp} (aligned : lengthOf limiter ∣ window.start.toNat)
    (started : window.start ≤ now) (ends : now.toNat < window.start.toNat + lengthOf limiter) :
    window.start.toNat = now.toNat / lengthOf limiter * lengthOf limiter := by
  obtain ⟨index, start⟩ := aligned
  rw [UInt64.le_iff_toNat_le, start] at started
  rw [start, Nat.mul_comm]
  congr 1
  refine (Nat.div_eq_of_lt_le ?_ ?_).symm
  · rw [Nat.mul_comm]
    exact started
  · rw [Nat.succ_mul, Nat.mul_comm, ← start]
    exact ends

theorem admitted_aligned_le (small : limiter.requests.toNat ≤ 2 ^ 53) (requests : List Request)
    (sorted : requests.Pairwise (·.now ≤ ·.now)) (index : Nat) :
    admitted ((run (charge limiter) none requests).filter fun charged =>
      charged.request.now.toNat / lengthOf limiter = index) ≤ limiter.requests.toNat := by
  refine Nat.le_trans (admitted_filter_le ?_)
    (admitted_window_le small (UInt64.ofNat (index * lengthOf limiter)) requests)
  intro charged member inside
  obtain ⟨started, ends⟩ := run_around requests sorted none (by simp) charged member
  have start := start_eq (valid_run small requests charged member).aligned started ends
  rw [decide_eq_true_eq] at inside ⊢
  rw [← inside, ← start, UInt64.ofNat_toNat]

/-- A span of one length lies in two aligned windows. -/
theorem admitted_span_le (small : limiter.requests.toNat ≤ 2 ^ 53) (requests : List Request)
    (sorted : requests.Pairwise (·.now ≤ ·.now)) (first : Nat) :
    admitted ((run (charge limiter) none requests).filter fun charged =>
      first ≤ charged.request.now.toNat ∧ charged.request.now.toNat < first + lengthOf limiter) ≤
        2 * limiter.requests.toNat := by
  have positive := lengthOf_pos limiter
  have lower := admitted_aligned_le small requests sorted (first / lengthOf limiter)
  have upper := admitted_aligned_le small requests sorted (first / lengthOf limiter + 1)
  have both := admitted_filter_or_le (run (charge limiter) none requests)
    (fun charged => charged.request.now.toNat / lengthOf limiter = first / lengthOf limiter)
    (fun charged => charged.request.now.toNat / lengthOf limiter = first / lengthOf limiter + 1)
  refine Nat.le_trans (admitted_filter_le ?_) (Nat.le_trans both (by omega))
  intro charged member inside
  rw [decide_eq_true_eq] at inside
  rw [Bool.or_eq_true, decide_eq_true_eq, decide_eq_true_eq]
  have low := Nat.div_le_div_right (c := lengthOf limiter) inside.1
  have high := Nat.div_le_div_right (c := lengthOf limiter) inside.2.le
  rw [Nat.add_div_right _ positive] at high
  omega

/-- Whatever the permits and the clock are, every window is valid and gives no more than the limit
over the time that it is kept. While the clock does not go back, an aligned window gives no more
than the limit, and a span of one length no more than twice the limit. -/
theorem run_never_over_admits (small : limiter.requests.toNat ≤ 2 ^ 53) (requests : List Request) :
    let log := run (charge limiter) none requests
    let length := lengthOf limiter
    (∀ charged ∈ log, Valid limiter charged.charge.state) ∧
      (∀ start, admitted (log.filter (·.charge.state.start = start)) ≤ limiter.requests.toNat) ∧
      (requests.Pairwise (·.now ≤ ·.now) →
        (∀ index, admitted (log.filter fun charged => index * length ≤ charged.request.now.toNat ∧
          charged.request.now.toNat < (index + 1) * length) ≤ limiter.requests.toNat) ∧
        ∀ first, admitted (log.filter fun charged => first ≤ charged.request.now.toNat ∧
          charged.request.now.toNat < first + length) ≤ 2 * limiter.requests.toNat) := by
  intro log length
  refine ⟨valid_run small requests, fun start => admitted_window_le small start requests, ?_⟩
  intro sorted
  refine ⟨fun index => ?_, admitted_span_le small requests sorted⟩
  refine Nat.le_trans (admitted_filter_le ?_) (admitted_aligned_le small requests sorted index)
  intro charged member inside
  rw [decide_eq_true_eq] at inside ⊢
  exact Nat.div_eq_of_lt_le inside.1 inside.2

/-- Two requests each second, the third of them late enough. -/
theorem run_never_over_admits_two :
    let limiter : Limiter :=
      { name := "api", algorithm := .slidingWindow, requests := 2, window := .ofSeconds 1,
        failStrategy := .failOpen, capacity := 2, refillRate := 2, throttle? := none }
    let requests : List Request := [⟨1, 0⟩, ⟨1, 400⟩, ⟨1, 1500⟩]
    limiter.requests.toNat ≤ 2 ^ 53 ∧ requests.Pairwise (·.now ≤ ·.now) ∧
      admitted ((run (charge limiter) none requests).filter fun charged =>
        700 ≤ charged.request.now.toNat ∧ charged.request.now.toNat < 700 + lengthOf limiter) ≤ 2 * 2 :=
  ⟨by decide, by decide, ((run_never_over_admits (by decide) _).2.2 (by decide)).2 700⟩

end Run
end Admission.Window
