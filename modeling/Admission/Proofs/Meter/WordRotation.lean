import Mathlib.Data.Nat.ModEq
import Admission.Proofs.Meter.Rotation

namespace Admission.Window

/-- The sum of two words, if a word can hold it. -/
def sum? (a b : UInt64) : Option UInt64 :=
  if a.toNat + b.toNat < UInt64.size then some (a + b) else none

def product? (a b : UInt64) : Option UInt64 :=
  if a.toNat * b.toNat < UInt64.size then some (a * b) else none

def wordsPassed (length : UInt64) (now start : Timestamp) : UInt64 :=
  (if now < start then 0 else now - start) / length

/-- Moves on by words alone, and not at all if a sum or a product is too great for a word. -/
def rotateWords? (length : UInt64) (now : Timestamp) (window : Window) : Option Window :=
  let passed := wordsPassed length now window.start
  if passed = 0 then some window
  else if passed = 1 then do
    let start ← sum? window.start length
    return ⟨start, 0, window.current⟩
  else do
    let gone ← product? passed length
    let start ← sum? window.start gone
    return ⟨start, 0, 0⟩

section

variable {a b c : UInt64}

private theorem sum?_eq_some (total : c.toNat = a.toNat + b.toNat) : sum? a b = some c := by
  have fits : a.toNat + b.toNat < UInt64.size := total ▸ c.toNat_lt
  have same : a + b = c := by
    rw [← UInt64.toNat_inj, UInt64.toNat_add, total]
    exact Nat.mod_eq_of_lt fits
  rw [sum?, if_pos fits, same]

private theorem product?_of_lt (fits : a.toNat * b.toNat < UInt64.size) :
    ∃ c, product? a b = some c ∧ c.toNat = a.toNat * b.toNat :=
  ⟨a * b, if_pos fits, (UInt64.toNat_mul a b).trans (Nat.mod_eq_of_lt fits)⟩

private theorem toNat_wordsPassed (length : UInt64) (now start : Timestamp) :
    (wordsPassed length now start).toNat = now.since start / length.toNat := by
  rw [wordsPassed, UInt64.toNat_div, Timestamp.since]
  split
  · rename_i before
    rw [Nat.sub_eq_zero_of_le (Nat.le_of_lt (UInt64.lt_iff_toNat_lt.mp before))]
    rfl
  · rename_i reached
    rw [UInt64.toNat_sub_of_le _ _ (UInt64.not_lt.mp reached)]

private theorem wordsPassed_eq_iff (length : UInt64) (now start : Timestamp) (count : UInt64) :
    wordsPassed length now start = count ↔ now.since start / length.toNat = count.toNat := by
  rw [← toNat_wordsPassed, UInt64.toNat_inj]

/-- Words are wide enough for a rotation. -/
theorem rotateWords?_eq (length : UInt64) (now : Timestamp) (window : Window) :
    window.rotateWords? length now = some (window.rotate length.toNat now) := by
  have zero := wordsPassed_eq_iff length now window.start 0
  have one := wordsPassed_eq_iff length now window.start 1
  have moved : (window.rotate length.toNat now).start.toNat = _ := toNat_rotate_start
  unfold rotateWords?
  dsimp only
  by_cases young : now.since window.start / length.toNat = 0
  · rw [if_pos (zero.mpr young), rotate, if_pos young]
  rw [if_neg (mt zero.mp young)]
  by_cases once : now.since window.start / length.toNat = 1
  · rw [once, Nat.one_mul] at moved
    rw [if_pos (one.mpr once), sum?_eq_some moved]
    exact congrArg some (rotate_of_eq_one once).symm
  · have far : 2 ≤ now.since window.start / length.toNat := (Nat.two_le_iff _).mpr ⟨young, once⟩
    have fits := Nat.lt_of_le_of_lt (Nat.le_add_left ..) (start_add_passed_lt length.toNat now window)
    rw [← toNat_wordsPassed] at fits moved
    obtain ⟨gone, product, amount⟩ := product?_of_lt fits
    rw [← amount] at moved
    rw [if_neg (mt one.mp once), product]
    show (sum? window.start gone).bind _ = _
    rw [sum?_eq_some moved]
    exact congrArg some (rotate_of_two_le far).symm

private theorem passed_eq_one {length : Nat} {now : Timestamp} (window : Window)
    (ended : window.start.toNat + length ≤ now.toNat) (recent : now.toNat < window.start.toNat + 2 * length) :
    now.since window.start / length = 1 := by
  refine Nat.div_eq_of_lt_le ?_ ?_
  · rw [Timestamp.since, Nat.one_mul]
    omega
  · rw [Timestamp.since]
    omega

private theorem two_le_passed {length : Nat} {now : Timestamp} (window : Window) (positive : 0 < length)
    (late : window.start.toNat + 2 * length ≤ now.toNat) : 2 ≤ now.since window.start / length := by
  rw [Nat.le_div_iff_mul_le positive, Timestamp.since]
  omega

theorem rotate_start_modEq (length : Nat) (now : Timestamp) (window : Window) :
    (window.rotate length now).start.toNat ≡ window.start.toNat [MOD length] := by
  rw [toNat_rotate_start, Nat.ModEq, Nat.add_mul_mod_self_right]

/-- Whatever was kept of a window, at every reading and for every length the words of a rotation are wide
enough for its sums and its product. A window that starts later than the reading stays as it is. Any
other moves on by whole lengths to the one that holds the reading: after a single length its count is
the previous one, and after more of them nothing is left. -/
theorem rotate_lands_on_window (length : UInt64) (positive : 0 < length) (now : Timestamp) (window : Window) :
    let rotated := window.rotate length.toNat now
    window.rotateWords? length now = some rotated ∧
      (now < window.start → rotated = window) ∧
      (window.start ≤ now →
        rotated.start ≤ now ∧ now.toNat < rotated.start.toNat + length.toNat ∧
        rotated.start.toNat ≡ window.start.toNat [MOD length.toNat] ∧
        (now.toNat < window.start.toNat + length.toNat → rotated = window) ∧
        (window.start.toNat + length.toNat ≤ now.toNat →
          now.toNat < window.start.toNat + 2 * length.toNat →
          rotated.current = 0 ∧ rotated.previous = window.current) ∧
        (window.start.toNat + 2 * length.toNat ≤ now.toNat →
          rotated.current = 0 ∧ rotated.previous = 0)) := by
  intro rotated
  have lasts : 0 < length.toNat := UInt64.lt_iff_toNat_lt.mp positive
  refine ⟨rotateWords?_eq length now window, fun before => ?_, fun started => ?_⟩
  · refine rotate_of_lt ?_
    rw [UInt64.lt_iff_toNat_lt] at before
    rw [Timestamp.since]
    omega
  · obtain ⟨reached, within⟩ := rotate_around lasts started
    refine ⟨reached, within, rotate_start_modEq .., fun young => ?_, fun ended recent => ?_, fun late => ?_⟩
    · refine rotate_of_lt ?_
      rw [Timestamp.since]
      omega
    · have moved := rotate_of_eq_one (passed_eq_one window ended recent)
      exact ⟨congrArg current moved, congrArg previous moved⟩
    · have moved := rotate_of_two_le (two_le_passed window lasts late)
      exact ⟨congrArg current moved, congrArg previous moved⟩

/-- A window that moves on six lengths to the last one there is, the end of which no word can hold. -/
theorem rotate_lands_on_last_window :
    let window : Window := ⟨18446744073709551000, 7, 9⟩
    let rotated := window.rotate 100 Timestamp.last
    0 < (100 : UInt64) ∧ window.start ≤ Timestamp.last ∧
      window.start.toNat + 2 * 100 ≤ Timestamp.last.toNat ∧
      window.rotateWords? 100 Timestamp.last = some rotated ∧
      rotated = ⟨18446744073709551600, 0, 0⟩ ∧
      Timestamp.last.toNat < rotated.start.toNat + 100 ∧
      rotated.start.toNat ≡ window.start.toNat [MOD 100] := by
  intro window rotated
  have started : window.start ≤ Timestamp.last := by decide
  have late : window.start.toNat + 2 * 100 ≤ Timestamp.last.toNat := by decide
  obtain ⟨words, -, lands⟩ := rotate_lands_on_window 100 (by decide) Timestamp.last window
  obtain ⟨-, within, aligned, -, -, -⟩ := lands started
  exact ⟨by decide, started, late, words, by decide, within, aligned⟩

end
end Admission.Window
