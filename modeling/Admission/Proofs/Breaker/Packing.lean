import Admission.Proofs.Breaker.Effect
import Admission.Proofs.Breaker.Run

/-! The word of a breaker. Main statement: the word is always packed from a state and two counts that fit,
and an outcome raises its own count by one, if there is room, and nothing else. -/
namespace Admission

namespace BreakerWord

def countMask : BreakerWord :=
  BitVec.ofNat 64 maxCount

/-- A state and two counts put together by shifts and masks. -/
def joined (tally : Tally) : BreakerWord :=
  tally.circuit.bits.setWidth 64 <<< 62 ||| (BitVec.ofNat 64 tally.failures &&& countMask) <<< 31 |||
    BitVec.ofNat 64 tally.successes &&& countMask

/-- The state and the counts taken out of a word by shifts and masks. -/
def parted (word : BreakerWord) : Tally :=
  { circuit := if word >>> 62 = 0 then .closed else if word >>> 62 = 2 then .halfOpen else .opened
    failures := (word >>> 31 &&& countMask).toNat
    successes := (word &&& countMask).toNat }

/-- The two bits on top stand for a state, and are not the pair that none is given. -/
def Tagged (word : BreakerWord) : Prop :=
  word.extractLsb' 62 2 ≠ 3

section

variable {word : BreakerWord}

private theorem getLsbD_countMask (i : Nat) : countMask.getLsbD i = decide (i < 31) := by
  have ones : maxCount = 2 ^ 31 - 1 := rfl
  rw [countMask, ones, BitVec.getLsbD_ofNat, Nat.testBit_two_pow_sub_one, Bool.and_eq_right_iff_imp]
  intro low
  rw [decide_eq_true_eq] at *
  omega

private theorem toNat_and_countMask (word : BreakerWord) :
    (word &&& countMask).toNat = word.toNat % (maxCount + 1) := by
  have ones : countMask.toNat = 2 ^ 31 - 1 := rfl
  rw [BitVec.toNat_and, ones, Nat.and_two_pow_sub_one_eq_mod]

/-- A word is packed as shifts and masks put it together, also if a count is too great for its field. -/
theorem pack_eq_joined (tally : Tally) : pack tally = joined tally := by
  refine BitVec.eq_of_getLsbD_eq fun i within => ?_
  simp only [pack, joined, BitVec.getLsbD_append, BitVec.getLsbD_or, BitVec.getLsbD_and,
    BitVec.getLsbD_shiftLeft, BitVec.getLsbD_setWidth, BitVec.getLsbD_ofNat, getLsbD_countMask]
  by_cases low : i < 31
  · have below : i < 62 := by omega
    simp [low, below, within]
  by_cases middle : i < 62
  · have field : i - 31 < 31 := by omega
    have range : i - 31 < 64 := by omega
    simp [low, middle, field, range, within]
  · have field : ¬ i - 31 < 31 := by omega
    have range : i - 62 < 64 := by omega
    have place : i - 31 - 31 = i - 62 := by omega
    simp [low, middle, field, range, within, place]

/-- A word is unpacked as shifts and masks take it apart. -/
theorem unpack_eq_parted (word : BreakerWord) : unpack word = parted word := by
  have width := word.isLt
  have top : (word.extractLsb' 62 2).toNat = (word >>> 62).toNat := by
    rw [BitVec.extractLsb'_toNat, BitVec.toNat_ushiftRight, Nat.shiftRight_eq_div_pow]
    omega
  have tag (bits : BitVec 2) (value : BreakerWord) (same : bits.toNat = value.toNat) :
      word.extractLsb' 62 2 = bits ↔ word >>> 62 = value := by
    rw [← BitVec.toNat_inj, ← BitVec.toNat_inj, top, same]
  simp only [unpack, parted, Circuit.ofBits, tag 0 0 rfl, tag 2 2 rfl, toNat_and_countMask,
    BitVec.extractLsb'_toNat, BitVec.toNat_ushiftRight, Nat.shiftRight_zero]

private theorem bits_ofBits : ∀ bits : BitVec 2, bits ≠ 3 → (Circuit.ofBits bits).bits = bits := by
  decide

theorem tagged_pack (tally : Tally) : (pack tally).Tagged := by
  rw [Tagged, tag_pack]
  cases tally.circuit <;> decide

theorem pack_unpack (tagged : word.Tagged) : pack word.unpack = word := by
  simp only [pack, unpack, bits_ofBits _ tagged, BitVec.ofNat_toNat, BitVec.setWidth_eq]
  rw [BitVec.extractLsb'_append_extractLsb'_eq_extractLsb' (by decide)]
  exact BitVec.extractLsb'_append_extractLsb'

end
end BreakerWord

def Tally.countOf (tally : Tally) (success : Bool) : Nat :=
  if success then tally.successes else tally.failures

/-- One more, or the greatest count still. -/
def Raised (before after : Nat) : Prop :=
  before < maxCount ∧ after = before + 1 ∨ before = maxCount ∧ after = maxCount

private theorem raised_countUp {count : Nat} (fits : count ≤ maxCount) : Raised count (countUp count) := by
  unfold Raised countUp
  omega

private theorem countOf_add (tally : Tally) (success : Bool) :
    (tally.add success).countOf success = countUp (tally.countOf success) := by
  cases success <;> rfl

private theorem countOf_not_add (tally : Tally) (success : Bool) :
    (tally.add success).countOf (!success) = tally.countOf (!success) := by
  cases success <;> rfl

namespace Breaker

variable {breaker : Breaker} {now : Timestamp}

private theorem tally_openWith {failures successes : Nat} (few : failures ≤ maxCount)
    (others : successes ≤ maxCount) :
    (breaker.openWith failures successes now).tally = ⟨.opened, failures, successes⟩ :=
  BreakerWord.unpack_pack few others

private theorem countOf_le (breaker : Breaker) (success : Bool) : breaker.tally.countOf success ≤ maxCount := by
  cases success with
  | true => exact breaker.tally_fits.2
  | false => exact breaker.tally_fits.1

private theorem tally_roll (breaker : Breaker) (now : Timestamp) :
    (breaker.roll now).tally = if breaker.WindowOver now then ⟨.closed, 0, 0⟩ else breaker.tally := by
  by_cases ended : breaker.WindowOver now
  · rw [roll_of_over ended, if_pos ended, tally_closeAt]
  · rw [roll_of_not_over ended, if_neg ended]

end Breaker

namespace Session

open Breaker BreakerWord

variable {session : Session}

theorem tagged_create (name : String) (settings : BreakerSettings) (draws : Random.Stream)
    (clock : Timestamp) : (create name settings draws clock).breaker.word.Tagged :=
  tagged_pack ⟨.closed, 0, 0⟩

/-- Every word that an action writes is packed. -/
theorem tagged_step (tagged : session.breaker.word.Tagged) (action : Action) :
    (session.step action).session.breaker.word.Tagged := by
  cases effect_step session action with
  | kept _ _ _ same => exact same.word ▸ tagged
  | halfOpened _ _ same => exact same.word ▸ tagged_pack _
  | counted _ _ _ same => exact same.word ▸ tagged_pack _
  | tipped _ _ _ same => exact same.word ▸ tagged_pack _
  | recovered _ _ same => exact same.word ▸ tagged_pack _
  | reopened _ _ same => exact same.word ▸ tagged_pack _
  | tripped same => exact same.word ▸ tagged_pack _
  | reset same => exact same.word ▸ tagged_pack _

theorem tally_finish {call : Nat} {permit : Permit} (found : session.permit? call = some permit)
    (closed : session.breaker.circuit = .closed) (success : Bool) :
    let counted := session.breaker.counted success session.clock
    let after := (session.step (.finish call success)).session.breaker.tally
    after.failures = counted.failures ∧ after.successes = counted.successes ∧
      after.circuit =
        if success = false ∧ session.breaker.settings.OpensAt counted.failures counted.successes then .opened
        else .closed := by
  intro counted after
  have fits := session.breaker.counted_fits success session.clock
  have ended : after = _ := congrArg tally (step_finish found success)
  rw [ended, (sameCircuit_release _ permit).tally, record_closed closed, count_eq closed]
  split
  · rw [tally_openWith fits.1 fits.2]
    exact ⟨rfl, rfl, rfl⟩
  · rw [tally_counted]
    exact ⟨rfl, rfl, circuit_counted closed success⟩

/-- The end of a call that a closed circuit counts raises one count by one. -/
theorem finish_raises {call : Nat} (found : (session.permit? call).isSome)
    (closed : session.breaker.circuit = .closed) (success : Bool) :
    let before := (session.breaker.roll session.clock).tally
    let after := (session.step (.finish call success)).session.breaker.tally
    Raised (before.countOf success) (after.countOf success) ∧
      after.countOf (!success) = before.countOf (!success) ∧
      after.circuit =
        if success = false ∧ session.breaker.settings.OpensAt after.failures after.successes then .opened
        else .closed := by
  intro before after
  obtain ⟨permit, found⟩ := Option.isSome_iff_exists.mp found
  obtain ⟨failures, successes, circuit⟩ := tally_finish found closed success
  have counts (which : Bool) : after.countOf which = (before.add success).countOf which := by
    cases which with
    | true => exact successes
    | false => exact failures
  refine ⟨?_, ?_, ?_⟩
  · rw [counts, countOf_add]
    exact raised_countUp (countOf_le ..)
  · rw [counts, countOf_not_add]
  · rw [failures, successes]
    exact circuit

/-- A word gives back the state and the counts that it was packed from, which is done as by shifts and
masks. After any run the word of a breaker is packed from a state and two counts that fit. An outcome
that a closed circuit counts, in a new window if the last one is over, raises one of its counts by one
if there is room, leaves the other one, and opens the circuit only where a failure should. -/
theorem run_packs_word :
    (∀ tally : Tally, pack tally = joined tally ∧
      (tally.failures ≤ maxCount → tally.successes ≤ maxCount → unpack (pack tally) = tally)) ∧
    (∀ word : BreakerWord, unpack word = parted word) ∧
    ∀ (name : String) (settings : BreakerSettings) (draws : Random.Stream) (clock : Timestamp)
      (actions : List Action),
      let session := ((create name settings draws clock).run actions).1
      let breaker := session.breaker
      breaker.word.Tagged ∧ breaker.word = pack breaker.tally ∧
        breaker.tally.failures ≤ maxCount ∧ breaker.tally.successes ≤ maxCount ∧
        ∀ call success, (session.permit? call).isSome → breaker.circuit = .closed →
          let before := if breaker.WindowOver session.clock then ⟨.closed, 0, 0⟩ else breaker.tally
          let after := (session.step (.finish call success)).session.breaker.tally
          Raised (before.countOf success) (after.countOf success) ∧
            after.countOf (!success) = before.countOf (!success) ∧
            after.circuit = if success = false ∧ settings.OpensAt after.failures after.successes then .opened
              else .closed := by
  refine ⟨fun tally => ⟨pack_eq_joined tally, unpack_pack⟩, unpack_eq_parted, ?_⟩
  intro name settings draws clock actions session breaker
  obtain ⟨tagged, same⟩ : breaker.word.Tagged ∧ breaker.settings = settings := by
    refine run_invariant
      (fun session => session.breaker.word.Tagged ∧ session.breaker.settings = settings) ?_
      ⟨tagged_create name settings draws clock, rfl⟩ actions
    rintro session action ⟨tagged, same⟩
    exact ⟨tagged_step tagged action, (effect_step session action).settings.trans same⟩
  obtain ⟨failures, successes⟩ := breaker.tally_fits
  refine ⟨tagged, (pack_unpack tagged).symm, failures, successes, fun call success found closed => ?_⟩
  have raised := finish_raises found closed success
  rw [tally_roll, same] at raised
  exact raised

/-- One of two calls has succeeded, and the failure of the other one opens the circuit. -/
theorem run_packs_word_opening :
    let settings : BreakerSettings :=
      { threshold := 1 / 2, minimumCalls := 2, window := .ofSeconds 10, recovery := .ofSeconds 30,
        jitter := .none, maxProbes := 1 }
    let session := ((create "store" settings (.ofList []) 0).run [.start, .start, .finish 0 true]).1
    let after := (session.step (.finish 1 false)).session.breaker.tally
    (session.permit? 1).isSome ∧ session.breaker.circuit = .closed ∧
      session.breaker.word = pack ⟨.closed, 0, 1⟩ ∧ Raised 0 (after.countOf false) ∧
      after.countOf true = 1 ∧ after.circuit = .opened := by
  intro settings session after
  have found : (session.permit? 1).isSome := by decide +kernel
  have closed : session.breaker.circuit = .closed := by decide +kernel
  have counts : session.breaker.tally = ⟨.closed, 0, 1⟩ := by decide +kernel
  have going : ¬ session.breaker.WindowOver session.clock := by decide +kernel
  obtain ⟨-, packed, -, -, raises⟩ :=
    run_packs_word.2.2 "store" settings (.ofList []) 0 [.start, .start, .finish 0 true]
  have counted := raises 1 false found closed
  dsimp only at counted
  rw [if_neg going, counts] at counted
  obtain ⟨raised, other, -⟩ := counted
  exact ⟨found, closed, packed.trans (congrArg pack counts), raised, other, by decide +kernel⟩

end Session
end Admission
