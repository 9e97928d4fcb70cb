/-! Values that several writers replace while readers hold on to what they have read. A
writer that derives its value from the current one starts again whenever another write came
in between, even one of an equal value. -/
namespace Admission.Shared

variable {α ε : Type}

/-- How an update ended: its result, the value afterwards, and how often it was derived. -/
structure Update (ε α : Type) where
  result : Except ε α
  value : α
  runs : Nat

/-- Derives a value from the current one while other writers put in the given values, one
during each derivation. `derive` is told how often it ran before. -/
def updateFrom (derive : Nat → α → Except ε α) (run : Nat) (current : α) :
    (writes : List α) → Update ε α
  | [] =>
    match derive run current with
    | .ok next => ⟨.ok next, next, run + 1⟩
    | .error refusal => ⟨.error refusal, current, run + 1⟩
  | write :: rest =>
    match derive run current with
    | .ok _ => updateFrom derive (run + 1) write rest
    | .error refusal => ⟨.error refusal, write, run + 1⟩

/-- Replaces a value by one derived from it, unless the derivation refuses. -/
def update (derive : Nat → α → Except ε α) (current : α) (writes : List α) : Update ε α :=
  updateFrom derive 0 current writes

theorem update_nil (derive : Nat → α → Except ε α) (current : α) :
    update derive current [] = match derive 0 current with
      | .ok next => ⟨.ok next, next, 1⟩
      | .error refusal => ⟨.error refusal, current, 1⟩ := by
  rfl

end Admission.Shared
