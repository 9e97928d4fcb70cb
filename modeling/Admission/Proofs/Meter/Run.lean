import Mathlib.Tactic.SplitIfs
import Admission.Meter.Charge
import Admission.Proofs.Timestamp

namespace Admission

/-- A request for permits at a clock reading. -/
structure Request where
  permits : UInt64
  now : Timestamp
  deriving DecidableEq

/-- A request with what charging it gave. -/
structure Charged (σ : Type) where
  request : Request
  charge : Charge σ

/-- The latest of a reading and those of some requests. -/
def latest (start : Timestamp) (requests : List Request) : Timestamp :=
  requests.foldl (fun t request => max t request.now) start

theorem latest_cons (start : Timestamp) (request : Request) (rest : List Request) :
    latest start (request :: rest) = latest (max start request.now) rest := rfl

variable {σ : Type}

/-- Charges requests in turn, the first to a previous meter if there is one. -/
def run (charge : UInt64 → Timestamp → Option σ → Charge σ) (previous? : Option σ) :
    List Request → List (Charged σ)
  | [] => []
  | request :: rest =>
    let charged := charge request.permits request.now previous?
    ⟨request, charged⟩ :: run charge (some charged.state) rest

namespace Charged

/-- The permits that a request was given. -/
def given (charged : Charged σ) : Nat :=
  if charged.charge.allowed then charged.request.permits.toNat else 0

end Charged

/-- The permits that requests were given together. -/
def admitted : List (Charged σ) → Nat
  | [] => 0
  | charged :: log => charged.given + admitted log

@[simp] theorem admitted_nil : admitted ([] : List (Charged σ)) = 0 := rfl

@[simp] theorem admitted_cons (charged : Charged σ) (log : List (Charged σ)) :
    admitted (charged :: log) = charged.given + admitted log := rfl

theorem admitted_filter_cons (kept : Charged σ → Bool) (charged : Charged σ) (log : List (Charged σ)) :
    admitted ((charged :: log).filter kept) =
      (if kept charged then charged.given else 0) + admitted (log.filter kept) := by
  rw [List.filter_cons]
  split_ifs <;> simp

theorem admitted_filter_le {log : List (Charged σ)} {fewer more : Charged σ → Bool}
    (within : ∀ charged ∈ log, fewer charged → more charged) :
    admitted (log.filter fewer) ≤ admitted (log.filter more) := by
  induction log with
  | nil => exact Nat.le_refl _
  | cons charged log ih =>
    have rest := ih fun charged member => within charged (List.mem_cons_of_mem _ member)
    have first := within charged (List.mem_cons_self ..)
    rw [admitted_filter_cons, admitted_filter_cons]
    split_ifs with inside outside
    · omega
    · exact absurd (first inside) outside
    · omega
    · omega

theorem admitted_filter_or_le (log : List (Charged σ)) (one other : Charged σ → Bool) :
    admitted (log.filter fun charged => one charged || other charged) ≤
      admitted (log.filter one) + admitted (log.filter other) := by
  induction log with
  | nil => exact Nat.le_refl _
  | cons charged log ih =>
    rw [admitted_filter_cons, admitted_filter_cons, admitted_filter_cons]
    cases one charged <;> cases other charged <;> simp only [Bool.or_false, Bool.or_true, if_true,
      if_false, Bool.false_eq_true] <;> omega

variable (charge : UInt64 → Timestamp → Option σ → Charge σ)

/-- What every charge keeps holds of every meter of a run. -/
theorem run_invariant (Invariant : σ → Prop)
    (fresh : ∀ permits now, Invariant (charge permits now none).state)
    (kept : ∀ permits now meter, Invariant meter → Invariant (charge permits now (some meter)).state)
    (requests : List Request) (previous? : Option σ) (start : ∀ meter ∈ previous?, Invariant meter) :
    ∀ charged ∈ run charge previous? requests, Invariant charged.charge.state := by
  induction requests generalizing previous? with
  | nil => simp [run]
  | cons request rest ih =>
    have next : Invariant (charge request.permits request.now previous?).state := by
      cases previous? with
      | none => exact fresh ..
      | some meter => exact kept _ _ _ (start meter rfl)
    intro charged member
    rcases List.mem_cons.mp member with rfl | later
    · exact next
    · exact ih _ (by simpa using next) charged later

end Admission
