import Mathlib.Data.String.Basic
import FirebirdSql.Fragment.Splicing
import FirebirdSql.Proofs.Inert

/-!
Values written out in a template. Each takes the place of one placeholder, in order; what is between the placeholders
stays as it is. Cutting the template at the byte offsets of its placeholders comes to the same, and never cuts through a
character.
-/

namespace FirebirdSql

open String (utf8Len)

namespace Text

theorem isValid_utf8Len (before after : List Char) :
    String.Pos.Raw.IsValid (.ofList (before ++ after)) ⟨utf8Len before⟩ := by
  refine String.Pos.Raw.isValid_ofList.mpr ⟨before.length, ?_⟩
  rw [List.take_left, String.utf8ByteSize_ofList]

/-- Offsets between characters cut out what is between them. -/
theorem slice?_utf8Len (before part after : List Char) :
    slice? (.ofList (before ++ part ++ after)) (utf8Len before) (utf8Len (before ++ part)) = some (.ofList part) := by
  have first : String.Pos.Raw.IsValid (.ofList (before ++ part ++ after)) ⟨utf8Len before⟩ := by
    rw [List.append_assoc]
    exact isValid_utf8Len before (part ++ after)
  have last := isValid_utf8Len (before ++ part) after
  have order : utf8Len before ≤ utf8Len (before ++ part) := by
    rw [String.utf8Len_append]
    exact Nat.le_add_right ..
  rw [slice?, if_pos ⟨order, first, last⟩, String.utf8Len_append, String.extract_of_valid]

end Text

namespace Fragment

variable {q : Quote} {c : Char}

theorem isPlaceholder_iff : isPlaceholder q c = true ↔ q = none ∧ c = '?' := by
  rw [isPlaceholder, Bool.and_eq_true, beq_iff_eq, beq_iff_eq]

theorem offsetsFrom_placeholder (h : isPlaceholder q c = true) (offset : Nat) (rest : List Char) :
    offsetsFrom q offset (c :: rest) = offset :: offsetsFrom none (offset + 1) rest := by
  obtain ⟨rfl, rfl⟩ := isPlaceholder_iff.mp h
  rfl

theorem offsetsFrom_other (h : isPlaceholder q c = false) (offset : Nat) (rest : List Char) :
    offsetsFrom q offset (c :: rest) = offsetsFrom (step q c) (offset + c.utf8Size) rest := by
  rw [offsetsFrom, h, if_neg Bool.false_ne_true]

theorem length_offsetsFrom (q : Quote) (offset : Nat) (template : List Char) :
    (offsetsFrom q offset template).length = countFrom q template := by
  induction template generalizing q offset with
  | nil => rfl
  | cons c rest ih =>
    rw [offsetsFrom, countFrom]
    split
    · rw [List.length_cons, ih, Nat.add_comm]
    · rw [ih, Nat.zero_add]

/-! What is left of the placeholders -/

section Literals

variable {literal : Value → List Char}

theorem inlineFrom_nil (q : Quote) (template : List Char) : inlineFrom literal q template [] = template := by
  induction template generalizing q with
  | nil => rfl
  | cons c rest ih =>
    rw [inlineFrom, ih]
    exact nofun

theorem inlineFrom_value (h : isPlaceholder q c = true) (rest : List Char) (v : Value) (values : List Value) :
    inlineFrom literal q (c :: rest) (v :: values) = literal v ++ inlineFrom literal q rest values := by
  obtain ⟨rfl, rfl⟩ := isPlaceholder_iff.mp h
  rfl

theorem inlineFrom_other (h : isPlaceholder q c = false) (rest : List Char) (values : List Value) :
    inlineFrom literal q (c :: rest) values = c :: inlineFrom literal (step q c) rest values := by
  rw [inlineFrom]
  intro v others placeholder
  rw [h] at placeholder
  cases placeholder

/-- With the mark itself for a literal the template is what it was. -/
theorem inlineFrom_mark (q : Quote) (template : List Char) (values : List Value) :
    inlineFrom (fun _ => ['?']) q template values = template := by
  induction template generalizing q values with
  | nil => rfl
  | cons c rest ih =>
    cases h : isPlaceholder q c with
    | false => rw [inlineFrom_other h, ih]
    | true =>
      cases values with
      | nil => rw [inlineFrom_nil]
      | cons v values =>
        rw [inlineFrom_value h, ih, (isPlaceholder_iff.mp h).2]
        rfl

variable (inert : ∀ v, Inert (.ofList (literal v)))

include inert

/-- Literals leave a scan outside of quotes, where it was before the placeholder. -/
theorem scan_inlineFrom (q : Quote) (template : List Char) (values : List Value) :
    scan q (inlineFrom literal q template values) = scan q template := by
  induction template generalizing q values with
  | nil => rfl
  | cons c rest ih =>
    cases h : isPlaceholder q c with
    | false =>
      rw [inlineFrom_other h]
      exact ih (step q c) values
    | true =>
      cases values with
      | nil => rw [inlineFrom_nil]
      | cons v values =>
        obtain ⟨rfl, rfl⟩ := isPlaceholder_iff.mp h
        have closed := (inert v).closed
        rw [String.toList_ofList] at closed
        rw [inlineFrom_value h, scan_append, closed]
        exact ih none values

/-- Every value takes the place of one placeholder. -/
theorem countFrom_inlineFrom (q : Quote) (template : List Char) (values : List Value) :
    countFrom q (inlineFrom literal q template values) = countFrom q template - values.length := by
  induction template generalizing q values with
  | nil => exact (Nat.zero_sub _).symm
  | cons c rest ih =>
    cases h : isPlaceholder q c with
    | false => rw [inlineFrom_other h, countFrom, countFrom, h, ih, if_neg Bool.false_ne_true, Nat.zero_add, Nat.zero_add]
    | true =>
      cases values with
      | nil => rw [inlineFrom_nil, List.length_nil, Nat.sub_zero]
      | cons v values =>
        obtain ⟨rfl, rfl⟩ := isPlaceholder_iff.mp h
        have silent := (inert v).silent
        have closed := (inert v).closed
        rw [String.toList_ofList] at silent closed
        rw [inlineFrom_value h, countFrom_append, silent, closed, ih, countFrom, h, if_pos rfl, List.length_cons,
          Nat.zero_add, Nat.add_comm 1, Nat.add_sub_add_right]
        rfl

end Literals

/-! The parts of a template -/

/-- The parts of the template from `first` on, without the byte at each of the offsets. -/
def partsFrom? (template : String) (first : Nat) : List Nat → Option (List String)
  | [] => (Text.slice? template first template.utf8ByteSize).map ([·])
  | offset :: rest => do
    let part ← Text.slice? template first offset
    let parts ← partsFrom? template (offset + 1) rest
    return part :: parts

/-- The parts of the template between its placeholders. -/
def parts? (template : String) : Option (List String) := partsFrom? template 0 (offsets template)

/-- The parts with a literal between each and the next, as far as there are literals. -/
def interleaved : (parts literals : List String) → String
  | part :: next :: parts, literal :: literals => part ++ literal ++ interleaved (next :: parts) literals
  | part :: _, _ => part
  | [], _ => ""

theorem length_partsFrom {template : String} {first : Nat} {offsets : List Nat} {parts : List String}
    (h : partsFrom? template first offsets = some parts) : parts.length = offsets.length + 1 := by
  induction offsets generalizing first parts with
  | nil =>
    obtain ⟨part, -, rfl⟩ := Option.map_eq_some_iff.mp h
    rfl
  | cons offset offsets ih =>
    obtain ⟨part, -, h⟩ := Option.bind_eq_some_iff.mp h
    obtain ⟨others, cut, ⟨⟩⟩ := Option.bind_eq_some_iff.mp h
    rw [List.length_cons, ih cut, List.length_cons]

theorem interleaved_singleton (part : String) (literals : List String) : interleaved [part] literals = part := by
  cases literals <;> rfl

theorem interleaved_cons {parts : List String} (h : parts ≠ []) (part literal : String) (literals : List String) :
    interleaved (part :: parts) (literal :: literals) = part ++ literal ++ interleaved parts literals := by
  obtain ⟨next, parts, rfl⟩ := List.exists_cons_of_ne_nil h
  rfl

/-- Splicing cuts out the parts, and puts the literals between them. -/
theorem spliceFrom?_eq (template : String) (first : Nat) (offsets : List Nat) (literals : List String) :
    spliceFrom? template first (offsets.zip literals) =
      (partsFrom? template first (offsets.take literals.length)).map (interleaved · literals) := by
  have whole (first : Nat) (literals : List String) : spliceFrom? template first [] =
      (partsFrom? template first []).map (interleaved · literals) := by
    simp [spliceFrom?, partsFrom?, Function.comp_def, interleaved_singleton]
  induction offsets generalizing first literals with
  | nil =>
    rw [List.zip_nil_left, List.take_nil]
    exact whole first literals
  | cons offset offsets ih =>
    cases literals with
    | nil => exact whole first []
    | cons literal literals =>
      rw [List.zip_cons_cons, List.length_cons, List.take_succ_cons, spliceFrom?, partsFrom?, ih]
      cases Text.slice? template first offset with
      | none => rfl
      | some part =>
        cases cut : partsFrom? template (offset + 1) (offsets.take literals.length) with
        | none => rfl
        | some parts =>
          have more : parts ≠ [] := List.ne_nil_of_length_eq_add_one (length_partsFrom cut)
          simp [interleaved_cons more]

theorem partsFrom?_nil {template : String} {read part : List Char} (spelled : template = .ofList (read ++ part)) :
    partsFrom? template (utf8Len read) [] = some [.ofList part] := by
  have sliced := Text.slice?_utf8Len read part []
  rw [List.append_nil] at sliced
  rw [partsFrom?, spelled, String.utf8ByteSize_ofList, sliced]
  rfl

/-- With literals in between, the parts behind what was read already are the text with its values written out. The part
that the scan is in began where the last placeholder was. -/
theorem partsFrom?_inlineFrom (literal : Value → List Char) (q : Quote) (values : List Value) {template : String}
    (read part : List Char) {rest : List Char} (spelled : template = .ofList (read ++ part ++ rest)) :
    ∃ parts,
      partsFrom? template (utf8Len read) ((offsetsFrom q (utf8Len (read ++ part)) rest).take values.length) = some parts ∧
        interleaved parts (values.map fun v => .ofList (literal v)) =
          .ofList (part ++ inlineFrom literal q rest values) := by
  induction rest generalizing q read part values with
  | nil =>
    refine ⟨_, ?_, interleaved_singleton (.ofList (part ++ [])) _⟩
    rw [offsetsFrom, List.take_nil]
    exact partsFrom?_nil (spelled.trans (by rw [List.append_assoc]))
  | cons c rest ih =>
    cases h : isPlaceholder q c with
    | false =>
      obtain ⟨parts, cut, text⟩ := ih (step q c) values read (part ++ [c]) (spelled.trans (by simp))
      refine ⟨parts, ?_, ?_⟩
      · rw [offsetsFrom_other h]
        simpa [Nat.add_assoc] using cut
      · rw [text, inlineFrom_other h, List.append_assoc, List.singleton_append]
    | true =>
      cases values with
      | nil =>
        refine ⟨_, partsFrom?_nil (spelled.trans (by rw [List.append_assoc])), ?_⟩
        rw [interleaved_singleton, inlineFrom_nil]
      | cons v values =>
        obtain ⟨rfl, rfl⟩ := isPlaceholder_iff.mp h
        obtain ⟨parts, cut, text⟩ := ih none values (read ++ part ++ ['?']) [] (spelled.trans (by simp))
        have more : parts ≠ [] := List.ne_nil_of_length_eq_add_one (length_partsFrom cut)
        have sliced := Text.slice?_utf8Len read part ('?' :: rest)
        rw [← spelled] at sliced
        have behind : utf8Len (read ++ part ++ ['?']) = utf8Len (read ++ part) + 1 := String.utf8Len_append ..
        rw [List.append_nil, behind] at cut
        refine ⟨.ofList part :: parts, ?_, ?_⟩
        · rw [List.length_cons, offsetsFrom_placeholder h, List.take_succ_cons, partsFrom?, sliced, cut]
          rfl
        · rw [List.map_cons, interleaved_cons more, text, inlineFrom_value h, List.nil_append, String.ofList_append,
            String.ofList_append, String.append_assoc]

/-- Every cut is between two characters, and what is put together is the text with its values written out. -/
theorem spliced?_eq (literal : Value → List Char) (f : Fragment) :
    f.spliced? (fun v => .ofList (literal v)) = some (f.inlined literal) := by
  obtain ⟨parts, cut, text⟩ :=
    partsFrom?_inlineFrom literal none f.params [] [] (String.ofList_toList (s := f.template)).symm
  rw [spliced?, spliceFrom?_eq, List.length_map]
  exact (congrArg (Option.map _) cut).trans (congrArg some text)

theorem interleaved_parts {f : Fragment} (full : f.placeholders = f.params.length) (literal : Value → List Char) :
    ∃ parts, parts? f.template = some parts ∧ parts.length = f.params.length + 1 ∧
      interleaved parts (f.params.map fun v => .ofList (literal v)) = f.inlined literal := by
  obtain ⟨parts, cut, text⟩ :=
    partsFrom?_inlineFrom literal none f.params [] [] (String.ofList_toList (s := f.template)).symm
  have all : (offsetsFrom none 0 f.template.toList).length = f.params.length := (length_offsetsFrom ..).trans full
  rw [← all] at cut
  have cut : parts? f.template = some parts := by
    rw [parts?, offsets, ← List.take_length (l := offsetsFrom none 0 f.template.toList)]
    exact cut
  exact ⟨parts, cut, (length_partsFrom cut).trans (congrArg (· + 1) all), text⟩

/-- Cutting a template at its placeholders never fails, and gives the template with its values written out. With a value
for every placeholder nothing is left to be bound, the parts between the placeholders are there as they were, with the
literals between them in order, and a scan ends where that of the template does. -/
theorem inlining_consumes (e : Engine) (f : Fragment) :
    f.spliced? (·.literal e) = some (f.inlined fun v => (Literal.ofValue e v).chars) ∧
      (f.placeholders = f.params.length →
        let text := f.inlined fun v => (Literal.ofValue e v).chars
        countPlaceholders text = 0 ∧ scan none text.toList = scan none f.template.toList ∧
          ∃ parts, parts? f.template = some parts ∧ parts.length = f.params.length + 1 ∧
            f.template = interleaved parts (f.params.map fun _ => "?") ∧
            text = interleaved parts (f.params.map (·.literal e))) := by
  have inert (v : Value) : Inert (.ofList (Literal.ofValue e v).chars) := Literal.inert_text _
  refine ⟨spliced?_eq (fun v => (Literal.ofValue e v).chars) f, fun full => ⟨?_, ?_, ?_⟩⟩
  · rw [countPlaceholders, inlined, String.toList_ofList, countFrom_inlineFrom inert]
    exact Nat.sub_eq_zero_of_le full.le
  · rw [inlined, String.toList_ofList, scan_inlineFrom inert]
  · obtain ⟨parts, cut, length, text⟩ := interleaved_parts full fun v => (Literal.ofValue e v).chars
    obtain ⟨_, cut', -, marked⟩ := interleaved_parts full fun _ => ['?']
    cases cut.symm.trans cut'
    rw [inlined, inlineFrom_mark, String.ofList_toList] at marked
    exact ⟨parts, cut, length, marked.symm, text.symm⟩

/-- The literal of the first value touches a quote, and question marks are left in the text: all of them inside quotes. -/
theorem inlining_consumes_touching :
    let e : Engine := ⟨⟨3, 0, 0, 0⟩⟩
    let f : Fragment := ⟨"SELECT ?'é?', \"ß?\" WHERE \"N\" = ?", [.text "it's ?", .int (-7)]⟩
    f.placeholders = f.params.length ∧
      f.spliced? (·.literal e) = some "SELECT 'it''s ?''é?', \"ß?\" WHERE \"N\" = -7" ∧
      countPlaceholders "SELECT 'it''s ?''é?', \"ß?\" WHERE \"N\" = -7" = 0 := by
  intro e f
  have full : f.placeholders = f.params.length := by decide +kernel
  have text : f.inlined (fun v => (Literal.ofValue e v).chars) = "SELECT 'it''s ?''é?', \"ß?\" WHERE \"N\" = -7" := by
    decide +kernel
  have law := inlining_consumes e f
  rw [text] at law
  exact ⟨full, law.1, (law.2 full).1⟩

end Fragment

end FirebirdSql
