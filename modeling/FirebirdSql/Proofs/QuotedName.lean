import FirebirdSql.Proofs.DelimitedName
import FirebirdSql.Proofs.Quotation
import FirebirdSql.Proofs.Subject

/-!
Reading identifiers: between the quotes two quotes stand for one, and nothing comes after the closing one. An identifier
that is made of a name denotes the name in the form of the catalog just if no quote is left in it.
-/

namespace FirebirdSql

namespace Text

theorem mem_upper_quote {s : List Char} : '"' ∈ upper s ↔ '"' ∈ s := by
  constructor
  · intro h
    obtain ⟨c, hc, hq⟩ := List.mem_flatMap.mp h
    exact eq_quote_of_mem_upperForm hq ▸ hc
  · exact fun h => List.mem_flatMap.mpr ⟨'"', h, List.mem_singleton.mpr rfl⟩

end Text

namespace Identifier

/-- Every quote written twice. -/
def doubled (name : List Char) : List Char := Text.replaceChar '"' ['"', '"'] name

/-- Reads on inside of quotes: the name up to the closing quote, and what comes after it. -/
def readInside : List Char → Option (List Char × List Char)
  | [] => none
  | '"' :: '"' :: rest => (readInside rest).map fun (name, after) => ('"' :: name, after)
  | '"' :: rest => some ([], rest)
  | c :: rest => (readInside rest).map fun (name, after) => (c :: name, after)

/-- The name that an identifier denotes, if its text is one in double quotes and nothing else. -/
def denoted? (i : Identifier) : Option String :=
  match i.text.toList with
  | '"' :: rest =>
    match readInside rest with
    | some (name, []) => some (.ofList name)
    | _ => none
  | _ => none

theorem doubled_cons (c : Char) (s : List Char) :
    doubled (c :: s) = (if c = '"' then ['"', '"'] else [c]) ++ doubled s :=
  Text.replaceChar_cons ..

theorem length_doubled (s : List Char) : (doubled s).length = s.length + s.count '"' := by
  induction s with
  | nil => rfl
  | cons c s ih =>
    rw [doubled_cons, List.length_append, ih, List.length_cons, List.count_cons]
    by_cases quote : c = '"'
    · simp [quote]
      omega
    · simp [quote]
      omega

@[simp] theorem head?_doubled (s : List Char) : (doubled s).head? = s.head? := by
  cases s with
  | nil => rfl
  | cons c s =>
    rw [doubled_cons]
    split
    · next quote => exact congrArg some quote.symm
    · rfl

@[simp] theorem getLast?_doubled (s : List Char) : (doubled s).getLast? = s.getLast? := by
  rcases List.eq_nil_or_concat s with rfl | ⟨s, c, rfl⟩
  · rfl
  · have append : doubled (s ++ [c]) = doubled s ++ doubled [c] := List.flatMap_append
    rw [List.concat_eq_append, append, doubled_cons, List.getLast?_append, List.getLast?_concat]
    split
    · next quote => exact congrArg some quote.symm
    · rfl

/-- A text is the same with every quote written twice just if it has none. -/
theorem doubled_eq_self_iff {s : List Char} : doubled s = s ↔ '"' ∉ s := by
  constructor
  · intro same
    have length := length_doubled s
    rw [same] at length
    exact List.count_eq_zero.mp (by omega)
  · intro free
    induction s with
    | nil => rfl
    | cons c s ih =>
      obtain ⟨other, free⟩ := List.ne_and_not_mem_of_not_mem_cons free
      rw [doubled_cons, if_neg (Ne.symm other), ih free]
      rfl

theorem readInside_eq (s : List Char) : readInside s = Text.readQuoted '"' s := by
  fun_induction readInside s with
  | case1 => rfl
  | case2 rest ih => rw [Text.readQuoted_twice, ih]
  | case3 rest other =>
    cases rest with
    | nil => rfl
    | cons c rest =>
      have closes : c ≠ '"' := fun same => other rest (congrArg (· :: rest) same)
      exact ((if_pos rfl).trans (if_neg closes)).symm
  | case4 c rest _ other ih => rw [Text.readQuoted_other other, ih]

theorem readInside_doubled (name after : List Char) (ends : after.head? ≠ some '"') :
    readInside (doubled name ++ '"' :: after) = some (name, after) :=
  (readInside_eq _).trans (Text.readQuoted_replaceChar name ends)

/-- What is read inside of quotes, and the rest, are the parts of what was there. -/
theorem eq_of_readInside {s name after : List Char} (h : readInside s = some (name, after)) :
    s = doubled name ++ '"' :: after :=
  (Text.eq_of_readQuoted ((readInside_eq s).symm.trans h)).1

theorem eq_iff_toList {i j : Identifier} : i = j ↔ i.text.toList = j.text.toList := by
  cases i
  cases j
  rw [mk.injEq, String.toList_inj]

/-- Just one spelling denotes a name. -/
theorem denoted?_eq_some_iff {i : Identifier} {name : String} : i.denoted? = some name ↔ i = ofStored name := by
  rw [eq_iff_toList, ofStored, String.toList_ofList]
  unfold denoted?
  constructor
  · intro h
    split at h
    · next rest spelled =>
      split at h
      · next body read =>
        obtain rfl := Option.some.inj h
        rw [spelled, eq_of_readInside read, String.toList_ofList]
        rfl
      · cases h
    · cases h
  · intro spelled
    rw [spelled]
    change (match readInside (doubled name.toList ++ ['"']) with | some (name, []) => _ | _ => none) = _
    rw [readInside_doubled name.toList [] (by simp)]
    exact congrArg some String.ofList_toList

/-- An identifier denotes what stands between its quotes just if there is no quote among it. -/
theorem denoted?_ofCatalogName {name : String} : (ofCatalogName name).denoted? = some name ↔ '"' ∉ name.toList := by
  rw [denoted?_eq_some_iff, eq_iff_toList, ofCatalogName, ofStored, String.toList_ofList, String.toList_ofList,
    ← doubled_eq_self_iff]
  constructor
  · intro same
    exact (List.append_cancel_right (List.cons.inj same).2).symm
  · intro same
    exact congrArg delimit same.symm

/-- What is left of a name in upper case, when it is cut, before the digest. -/
def kept (limit : Nat) (name : List Char) : List Char :=
  let raised := Text.upper name
  if raised.length ≤ limit then raised else raised.take (limit - cutDigestLength)

theorem quote_mem_cut {limit : Nat} {name : List Char} : '"' ∈ cut limit (Text.upper name) ↔ '"' ∈ kept limit name := by
  have digest : '"' ∉ Digest.ofNames [Text.upper name] cutDigestLength := fun h =>
    Text.forall_hexOfBytes (p := (· ≠ '"')) (fun _ hn => (Text.visible_hexDigit hn).2.1) _ _
      (List.mem_of_mem_take h) rfl
  unfold cut kept
  dsimp only
  split
  · rfl
  · rw [List.mem_append, or_iff_left digest]

/-- What a name gives to its identifier: what stands between its quotes, or else what is kept of it. -/
def inherited (e : Engine) (name : String) : List Char :=
  if isDelimited name.toList then undelimit name.toList else kept e.identifierLimit name.toList

theorem quote_mem_catalogName {e : Engine} {name : String} :
    '"' ∈ (catalogName e name).toList ↔ '"' ∈ inherited e name := by
  rw [catalogName, String.toList_ofList, quoteChars, inherited]
  split
  · rfl
  · rw [undelimit_delimit, Text.mem_upper_quote, quote_mem_cut]

/-- Whatever the name, its identifier is one between quotes that denotes the name of the catalog just if no quote is
inherited. -/
theorem quote_denotes_catalogName_iff (e : Engine) (name : String) :
    (quote e name).denoted? = some (catalogName e name) ↔ '"' ∉ inherited e name := by
  rw [← ofCatalogName_catalogName, denoted?_ofCatalogName, quote_mem_catalogName]

/-- A quote within a name ends its identifier early. Between quotes a quote that is written twice is one in the stored
name, but still two in the name of the catalog. -/
theorem quote_denotes_otherwise :
    let e : Engine := ⟨⟨3, 0, 5, 0⟩⟩
    (quote e "a\"b").text = "\"A\"B\"" ∧ (quote e "a\"b").denoted? = none ∧
      (quote e "\"a\"\"b\"").denoted? = some "a\"b" ∧ catalogName e "\"a\"\"b\"" = "a\"\"b" := by
  decide +kernel

end Identifier

end FirebirdSql
