namespace Admission.Text

/-- The characters with the Unicode property White_Space. -/
def blank (c : Char) : Bool :=
  (0x09 ≤ c.val && c.val ≤ 0x0d) || c.val = 0x20 || c.val = 0x85 || c.val = 0xa0 ||
  c.val = 0x1680 || (0x2000 ≤ c.val && c.val ≤ 0x200a) || c.val = 0x2028 || c.val = 0x2029 ||
  c.val = 0x202f || c.val = 0x205f || c.val = 0x3000

/-- The characters of the Unicode category Cc. -/
def control (c : Char) : Bool :=
  c.val < 0x20 || (0x7f ≤ c.val && c.val ≤ 0x9f)

/-- Nothing but blank characters. -/
def isBlank (text : String) : Bool :=
  text.toList.all blank

/-- The characters between the first and the last that is not blank. -/
def trim (text : List Char) : List Char :=
  ((text.dropWhile blank).reverse.dropWhile blank).reverse

/-- The form in which a name of an option is looked up: without blank ends, ASCII letters
in lower case, and words joined by underscores. -/
def optionName (text : String) : String :=
  String.ofList <| (trim text.toList).map fun c =>
    if c = '-' || c = ' ' then '_' else c.toLower

/-- Whether `fragment` stands somewhere in a text. -/
def occurs (fragment : List Char) : List Char → Bool
  | [] => fragment.isEmpty
  | c :: rest => fragment.isPrefixOf (c :: rest) || occurs fragment rest

theorem occurs_iff (fragment text : List Char) :
    occurs fragment text = true ↔ ∃ before after, text = before ++ fragment ++ after := by
  induction text with
  | nil => simp [occurs]
  | cons c rest ih =>
    simp only [occurs, Bool.or_eq_true, List.isPrefixOf_iff_prefix, ih]
    constructor
    · rintro (⟨after, same⟩ | ⟨before, after, rfl⟩)
      · exact ⟨[], after, by simp [same]⟩
      · exact ⟨c :: before, after, by simp⟩
    · rintro ⟨before, after, same⟩
      cases before with
      | nil => exact .inl ⟨after, by simpa using same.symm⟩
      | cons d before =>
        simp only [List.cons_append, List.cons.injEq] at same
        exact .inr ⟨before, after, same.2⟩

end Admission.Text
