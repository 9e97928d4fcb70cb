import Admission.Meter.Json
import Admission.Proofs.Json.Tree

namespace Admission

namespace Json

variable {name : String} {value : Json} {names : List String} {values : List Json}
  {fields others all : List (Option String × Json)}

private theorem valuesOf_append (name : String) (fields others : List (Option String × Json)) :
    valuesOf name (fields ++ others) = valuesOf name fields ++ valuesOf name others := by
  simp only [valuesOf, List.filter_append, List.map_append]

private theorem valuesOf_eq_nil (absent : ∀ field ∈ others, field.1 ≠ some name) :
    valuesOf name others = [] := by
  rw [valuesOf, List.filter_eq_nil_iff.mpr, List.map_nil]
  intro field member same
  exact absent field member (of_decide_eq_true same)

private theorem mem_names_of_valuesOf (given : valuesOf name fields ≠ []) : some name ∈ fields.map (·.1) := by
  by_contra missing
  refine given (valuesOf_eq_nil fun field member same => missing ?_)
  exact List.mem_map.mpr ⟨field, member, same⟩

/-- Neither the order of fields nor those of other names matter for a name that is given once. -/
theorem valuesOf_of_perm (perm : all.Perm (fields ++ others))
    (apart : ∀ field ∈ others, field.1 ∉ fields.map (·.1)) (once : valuesOf name fields = [value]) :
    valuesOf name all = [value] := by
  have named : some name ∈ fields.map (·.1) := mem_names_of_valuesOf (once ▸ List.cons_ne_nil _ _)
  have absent : ∀ field ∈ others, field.1 ≠ some name := fun field member same => apart field member (same ▸ named)
  have same : (valuesOf name all).Perm (valuesOf name (fields ++ others)) := (perm.filter _).map _
  rw [valuesOf_append, once, valuesOf_eq_nil absent, List.append_nil] at same
  exact List.perm_singleton.mp same

theorem record?_of_valuesOf (texts : (fields.all fun field => field.1.isSome) = true)
    (once : List.Forall₂ (fun name value => valuesOf name fields = [value]) names values) :
    record? names (.object fields) = some (values.map some) := by
  rw [record?, if_pos texts]
  induction once with
  | nil => rfl
  | cons first _ ih => rw [List.mapM_cons, first, ih]; rfl

def nested : Nat → Json
  | 0 => .array []
  | n + 1 => .array [nested n]

private theorem fits_nested (reader : NumberReader) (n : Nat) : (nested n).fits reader n = false := by
  induction n with
  | zero => rfl
  | succ n ih => rw [nested, fits, elementsFit, ih, Bool.false_and]

private theorem wellFormed_nested (n : Nat) : ∀ token ∈ (nested n).tokens, token.WellFormed := by
  induction n with
  | zero => simp [nested, tokens, Token.WellFormed]
  | succ n ih => simpa [nested, tokens, elementTokens, Token.WellFormed, or_imp, forall_and] using ih

end Json

namespace Meter

variable {reader : Json.NumberReader} {meter : Meter} {fields others all : List (Option String × Json)}

private theorem ofJsonAs?_other {algorithm : Algorithm} {tag : String} (other : tag ≠ algorithm.tag)
    (tagged : Json.valuesOf "algorithm" fields = [.string (some tag)]) :
    ofJsonAs? reader algorithm (.object fields) = none := by
  have named (more : List (Option Json)) :
      ofFields? reader algorithm (some (.string (some tag)) :: more) = none := by
    unfold ofFields?
    split
    · rename_i same
      cases same
      simp [Json.required?, Json.text?, other]
    · rename_i same
      cases same
      simp [Json.required?, Json.text?, other]
    · rfl
  obtain ⟨more, names⟩ : ∃ more, fieldNames algorithm = "algorithm" :: more := by
    cases algorithm <;> exact ⟨_, rfl⟩
  rw [ofJsonAs?, names, Json.record?]
  split_ifs
  · rw [List.mapM_cons, tagged]
    cases read : more.mapM fun name => Json.single? (Json.valuesOf name fields) with
    | none => rfl
    | some values => exact named values
  · rfl

/-- A meter whose tokens, if it holds any, are a finite number. -/
def IsFinite : Meter → Prop
  | bucket b => b.tokens.isFinite = true
  | window _ => True

/-- Fields that can be written and kept, and that make up a meter in any order and among any others. -/
structure Encodes (reader : Json.NumberReader) (fields : List (Option String × Json))
    (meter : Meter) : Prop where
  wellFormed : ∀ token ∈ (Json.object fields).tokens, token.WellFormed
  keepable : (fields.all fun field => field.1.isSome && field.2.fits reader 126) = true
  decodes : ∀ {others all}, (∀ field ∈ others, field.1 ∉ fields.map (·.1)) → all.Perm (fields ++ others) →
    (all.all fun field => field.1.isSome) = true → ofJson? reader (.object all) = some meter

private theorem exists_encodes_bucket (correct : reader.Correct) {bucket : Bucket}
    (finite : bucket.tokens.isFinite) :
    ∃ fields, (Meter.bucket bucket).jsonFields? = some fields ∧ Encodes reader fields (.bucket bucket) := by
  obtain ⟨tokens, written, wellFormed, read⟩ := correct.ofBinary64? finite
  have word := correct.isSome_ofUInt64 bucket.lastRefill
  have digits : (Json.Numeral.ofUInt64 bucket.lastRefill).WellFormed := Json.Numeral.wellFormed_ofNat _
  refine ⟨_, by rw [jsonFields?, written]; rfl, ?_⟩
  constructor
  case wellFormed =>
    simp [Json.tokens, Json.fieldTokens, Json.Token.WellFormed, wellFormed, digits]
  case keepable =>
    simp [Json.fits, read, word]
  case decodes =>
    intro others all apart perm texts
    have record : Json.record? (fieldNames .tokenBucket) (.object all) =
        some [some (.string (some Algorithm.tokenBucket.tag)), some (.number tokens),
          some (.number (.ofUInt64 bucket.lastRefill))] := by
      refine Json.record?_of_valuesOf texts (.cons ?_ (.cons ?_ (.cons ?_ .nil)))
      all_goals exact Json.valuesOf_of_perm perm apart (by simp [Json.valuesOf])
    rw [ofJson?, ofJsonAs?, record]
    simp [ofFields?, Json.required?, Json.text?, Json.numeral?, Json.uint64?, Option.filter, read,
      Json.Numeral.toUInt64?_ofUInt64]

private theorem exists_encodes_window (correct : reader.Correct) (window : Window) :
    ∃ fields, (Meter.window window).jsonFields? = some fields ∧ Encodes reader fields (.window window) := by
  have word := correct.isSome_ofUInt64
  have digits (word : UInt64) : (Json.Numeral.ofUInt64 word).WellFormed := Json.Numeral.wellFormed_ofNat _
  refine ⟨_, rfl, ?_⟩
  constructor
  case wellFormed =>
    simp [Json.tokens, Json.fieldTokens, Json.Token.WellFormed, digits]
  case keepable =>
    simp [Json.fits, word]
  case decodes =>
    intro others all apart perm texts
    have tagged : Json.valuesOf "algorithm" all = [.string (some Algorithm.slidingWindow.tag)] :=
      Json.valuesOf_of_perm perm apart (by simp [Json.valuesOf])
    have record : Json.record? (fieldNames .slidingWindow) (.object all) =
        some [some (.string (some Algorithm.slidingWindow.tag)), some (.number (.ofUInt64 window.start)),
          some (.number (.ofUInt64 window.current)), some (.number (.ofUInt64 window.previous))] := by
      refine Json.record?_of_valuesOf texts (.cons tagged (.cons ?_ (.cons ?_ (.cons ?_ .nil))))
      all_goals exact Json.valuesOf_of_perm perm apart (by simp [Json.valuesOf])
    rw [ofJson?, ofJsonAs?_other (by decide) tagged, ofJsonAs?, record]
    simp [ofFields?, Json.required?, Json.text?, Json.numeral?, Json.uint64?, Option.filter,
      Json.Numeral.toUInt64?_ofUInt64]

theorem exists_encodes (correct : reader.Correct) (finite : meter.IsFinite) :
    ∃ fields, meter.jsonFields? = some fields ∧ Encodes reader fields meter := by
  cases meter with
  | bucket bucket => exact exists_encodes_bucket correct finite
  | window window => exact exists_encodes_window correct window

/-- A text of the fields of a meter and others is read if the others can be kept. -/
theorem Encodes.readWith? (encodes : Encodes reader fields meter)
    (apart : ∀ field ∈ others, field.1 ∉ fields.map (·.1)) (perm : all.Perm (fields ++ others)) {text : String}
    (stands : Json.read? text = some (.object all)) :
    readWith? reader text =
      if others.all fun field => field.1.isSome && field.2.fits reader 126 then some meter else none := by
  have kept : (Json.object all).fits reader Json.keptDepth =
      others.all fun field => field.1.isSome && field.2.fits reader 126 := by
    rw [Json.keptDepth, Json.fits, Json.fieldsFit_eq_all, perm.all_eq, List.all_append, encodes.keepable,
      Bool.true_and]
  rw [Meter.readWith?, Json.readKept?_of_read? stands, kept]
  split_ifs with fit
  · have texts : (all.all fun field => field.1.isSome) = true := by
      refine List.all_eq_true.mpr fun field member => ?_
      have either := List.mem_append.mp (perm.mem_iff.mp member)
      have held := either.elim (List.all_eq_true.mp encodes.keepable field) (List.all_eq_true.mp fit field)
      exact (Bool.and_eq_true_iff.mp held).1
    rw [Option.bind_some, encodes.decodes apart perm texts]
  · rfl

/-- Whoever reads numbers correctly recovers each meter with finite tokens from its text. From any text of an
object with the same fields, in any order and among any others, the meter is recovered as well, if the others can be
kept: their names and strings are texts, their numbers are in range, and they are nested in no more than 126 levels.
A text with others that cannot be kept is refused. -/
theorem recovered_from_text (correct : reader.Correct) (finite : meter.IsFinite) :
    (∃ text, meter.text? = some text ∧ readWith? reader text = some meter) ∧
      ∀ fields others all text, meter.jsonFields? = some fields → (∀ field ∈ others, field.1 ∉ fields.map (·.1)) →
        all.Perm (fields ++ others) → Json.read? text = some (.object all) →
          readWith? reader text =
            if others.all fun field => field.1.isSome && field.2.fits reader 126 then some meter else none := by
  obtain ⟨fields, written, encodes⟩ := exists_encodes correct finite
  constructor
  · have alone : ∀ field ∈ ([] : List (Option String × Json)), field.1 ∉ fields.map (·.1) := by simp
    refine ⟨(Json.object fields).text, by rw [text?, written]; rfl, ?_⟩
    exact encodes.readWith? alone (by rw [List.append_nil]) (Json.read?_text encodes.wellFormed)
  · intro fields' others all text same apart perm stands
    cases written.symm.trans same
    exact encodes.readWith? apart perm stands

/-- A bucket of half a token, its fields in another order and with a note. -/
theorem recovered_from_text_half :
    let text := "\x7b\"note\": [1, \"x\"], \"last_refill\": 7, \"tokens\": 0.5, \"algorithm\": \"token_bucket\"\x7d"
    readWith? Json.nearestReader text = some (.bucket { tokens := 1 / 2, lastRefill := 7 }) := by
  intro text
  let half : Json.Numeral := { whole := ['0'], fraction := ['5'] }
  let fields : List (Option String × Json) :=
    [(some "algorithm", .string (some "token_bucket")), (some "tokens", .number half),
      (some "last_refill", .number (.ofUInt64 7))]
  let others : List (Option String × Json) := [(some "note", .array [.number (.ofNat 1), .string (some "x")])]
  have finite : IsFinite (.bucket { tokens := 1 / 2, lastRefill := 7 }) := by
    show (1 / 2 : Binary64).isFinite = true
    decide +kernel
  have written : (Meter.bucket { tokens := 1 / 2, lastRefill := 7 }).jsonFields? = some fields := by
    have numeral : Json.Numeral.ofBinary64? (1 / 2) = some half := by decide +kernel
    rw [jsonFields?, numeral]
    rfl
  have stands : Json.read? text = some (.object (fields ++ others).reverse) := by
    have split : Json.Token.ofText? text.toList = some (Json.object (fields ++ others).reverse).tokens := by
      decide +kernel
    rw [Json.read?, split, Option.bind_some, Json.ofAllTokens?_tokens]
  have kept : (others.all fun field => field.1.isSome && field.2.fits Json.nearestReader 126) = true := by
    decide +kernel
  obtain ⟨-, recovers⟩ := recovered_from_text Json.correct_nearestReader finite
  rw [recovers fields others _ text written (by decide) (List.reverse_perm _) stands, kept, if_pos rfl]

/-- With a field in 127 levels of nesting the text of a window is refused, whoever reads the numbers. -/
theorem nested_field_refused :
    let meter : Meter := .window { start := 0, current := 0, previous := 0 }
    let fields : List (Option String × Json) :=
      [(some "algorithm", .string (some "sliding_window")), (some "window_start", .number (.ofNat 0)),
        (some "current_count", .number (.ofNat 0)), (some "previous_count", .number (.ofNat 0))]
    let text := (Json.object (fields ++ [(some "x", .nested 126)])).text
    meter.jsonFields? = some fields ∧ some "x" ∉ fields.map (·.1) ∧
      Json.read? text = some (.object (fields ++ [(some "x", .nested 126)])) ∧
      ∀ reader, readWith? reader text = none := by
  intro meter fields text
  have digit : (Json.Numeral.ofNat 0).WellFormed := Json.Numeral.wellFormed_ofNat 0
  have stands : Json.read? text = some (.object (fields ++ [(some "x", .nested 126)])) := by
    refine Json.read?_text ?_
    have arrays := Json.wellFormed_nested 126
    generalize Json.nested 126 = value at arrays
    simpa [fields, Json.tokens, Json.fieldTokens, Json.Token.WellFormed, digit, or_imp, forall_and] using arrays
  refine ⟨rfl, by decide, stands, fun reader => ?_⟩
  have full : (Json.object (fields ++ [(some "x", .nested 126)])).fits reader Json.keptDepth = false := by
    have deep := Json.fits_nested reader 126
    generalize Json.nested 126 = value at deep
    simp [Json.keptDepth, Json.fits, Json.fieldsFit_eq_all, deep]
  rw [readWith?, Json.readKept?_of_read? stands, full]
  rfl

end Meter
end Admission
