import FirebirdSql.Conversion
import FirebirdSql.Proofs.LiteralReading
import FirebirdSql.Proofs.StoredName
import FirebirdSql.Proofs.Utf8

/-!
Values that are read back. What was written of an identifier or a text comes back as the value that it was, bytes become a
text if and only if they are the form of one, and a value that a column's kind has been given to keeps it.
-/

namespace FirebirdSql

namespace Text

theorem trim_padded {before s after : List Char} (hb : before.all isBlank = true) (ha : after.all isBlank = true)
    (h : ∀ c ∈ s, Visible c) : trim (before ++ s ++ after) = s := by
  rw [trim_append_blanks _ (List.all_eq_true.mp ha), trim, trimStart, List.dropWhile_append_of_pos (List.all_eq_true.mp hb)]
  exact trim_of_visible h

end Text

namespace Uuid

theorem visible_simpleChars (u : Uuid) : ∀ c ∈ u.simpleChars, Text.Visible c :=
  Text.forall_hexPadded (fun _ => Text.visible_hexDigit) 32 _

theorem read?_simpleChars (u : Uuid) : read? u.simpleChars = some u := by
  have length : u.simpleChars.length = 32 := Text.length_hexPadded 32 _
  have bound : u.value.toNat % Nat.pow 16 32 = u.value.toNat := Nat.mod_eq_of_lt u.value.isLt
  rw [read?, if_pos length, ofDigits?, if_pos length, simpleChars, Text.readHex?_hexPadded, bound, Option.map_some,
    BitVec.ofNat_toNat, BitVec.setWidth_eq]

end Uuid

namespace Decimal

theorem places_of_ofParts? {negative : Bool} {coefficient places : Nat} {d : Decimal}
    (h : ofParts? negative coefficient places = some d) : d.places = places := by
  unfold ofParts? at h
  split at h
  · rw [← Option.some.inj h]
  · cases h

variable (d : Decimal) (places : Nat)

/-- A number that could not be rounded would stay as it is. -/
theorem round_spec : (d.round places).places ≤ places ∨ d.round places = d := by
  unfold round
  split
  · exact .inr rfl
  · dsimp only
    generalize Binary64.nearestEven d.coefficient (Nat.pow 10 (d.places - places)) = c
    cases room : ofParts? (d.negative && c != 0) c places with
    | none => exact .inr rfl
    | some r => exact .inl (Nat.le_of_eq (places_of_ofParts? room))

/-- Places are added one by one until all of them are there, or until there is no room for one more. -/
theorem addPlaces_spec (count : Nat) : (d.addPlaces count).places = d.places + count ∨
    (d.addPlaces count).places ≤ d.places + count ∧ ∀ more, (d.addPlaces count).addPlaces more = d.addPlaces count := by
  induction count generalizing d with
  | zero => exact .inl rfl
  | succ count ih =>
    rw [addPlaces]
    cases room : ofParts? d.negative (10 * d.coefficient) (d.places + 1) with
    | none =>
      refine .inr ⟨Nat.le_add_right _ _, fun more => ?_⟩
      cases more with
      | zero => rfl
      | succ more => rw [addPlaces, room]
    | some wider =>
      have further := ih wider
      rw [places_of_ofParts? room, Nat.add_assoc, Nat.add_comm 1] at further
      exact further

theorem rescale_of_le {d : Decimal} {places : Nat} (h : d.places ≤ places) :
    d.rescale places = d.addPlaces (places - d.places) := by
  rw [rescale, round, if_pos h]

/-- What has been given its places keeps them. -/
theorem rescale_rescale : (d.rescale places).rescale places = d.rescale places := by
  by_cases fits : (d.round places).places ≤ places
  · have start : d.rescale places = (d.round places).addPlaces (places - (d.round places).places) := rfl
    rw [start]
    rcases (d.round places).addPlaces_spec (places - (d.round places).places) with all | ⟨most, full⟩
    · rw [rescale_of_le (by omega), all, Nat.add_sub_cancel' fits, Nat.sub_self]
      rfl
    · rw [rescale_of_le (by omega), full]
  · have same : d.round places = d := (d.round_spec places).resolve_left fits
    have kept : d.rescale places = d := by
      rw [rescale, Nat.sub_eq_zero_of_le (by omega), same]
      rfl
    rw [kept, kept]

end Decimal

namespace Value

variable {type : ColumnType} {v w : Value}

/-- A value that is converted stays what it is when it is converted again. -/
theorem convert_convert (h : convert type v = .ok w) : convert type w = .ok w := by
  have whole := h
  unfold convert at h
  split at h
  case h_1 =>
    cases h
    exact whole
  case h_2 kind _ =>
    obtain ⟨digits, places, rfl⟩ : ∃ digits places, type = .decimal digits places := by
      cases type <;> simp_all [ColumnType.kind]
    obtain ⟨d, -, rfl⟩ := exists_of_map_eq_ok h
    exact congrArg (fun d => Except.ok (decimal d)) (d.rescale_rescale places)
  case h_3 kind | h_4 kind | h_5 kind | h_6 kind | h_14 kind =>
    cases h
    simp [convert, kind]
  case h_7 kind _ | h_8 kind _ | h_9 kind _ | h_10 kind _ | h_11 kind _ | h_12 kind _ =>
    split at h
    case h_4 =>
      cases h
      exact whole
    all_goals
      obtain ⟨n, -, rfl⟩ := exists_of_map_eq_ok h
      simp [convert, kind]
  case h_13 kind | h_15 kind | h_16 kind =>
    obtain ⟨a, -, rfl⟩ := exists_of_map_eq_ok h
    simp [convert, kind]
  case h_17 =>
    cases h
    exact whole

theorem convert_uuid_text (s : String) :
    convert .uuid (.text s) = uuid <$> (text s).required .uuid (Uuid.read? (Text.trim s.toList)) := rfl

theorem convert_bytes (kind : type.kind = .text ∨ type.kind = .char) (bs : List UInt8) :
    convert type (.bytes bs) = text <$> (bytes bs).toText := by
  rcases kind with kind | kind <;> simp [convert, kind]

/-- Bytes are converted to the text that they are the UTF-8 form of. -/
theorem convert_bytes_eq_ok_iff (kind : type.kind = .text ∨ type.kind = .char) {bs : List UInt8} :
    convert type (.bytes bs) = .ok w ↔ ∃ s : String, w = .text s ∧ Text.Utf8.encode s.toList = bs := by
  rw [convert_bytes kind, toText]
  constructor
  · intro h
    obtain ⟨s, read, rfl⟩ := exists_of_map_eq_ok h
    refine ⟨s, rfl, ?_⟩
    cases decoded : Text.Utf8.decode bs with
    | error fault =>
      rw [decoded] at read
      cases read
    | ok cs =>
      rw [decoded] at read
      obtain rfl : String.ofList cs = s := Except.ok.inj read
      rw [String.toList_ofList]
      exact Text.Utf8.decode_eq_ok_iff.mp decoded
  · rintro ⟨s, rfl, encoded⟩
    rw [Text.Utf8.decode_eq_ok_iff.mpr encoded]
    change Except.ok (text (.ofList s.toList)) = _
    rw [String.ofList_toList]

theorem literal_uuid (e : Engine) (u : Uuid) : ((Value.uuid u).literal e).toList = Literal.quoteText u.simpleChars :=
  String.toList_ofList

/-- Reading back undoes writing. The text of an identifier's literal is that identifier again, whatever blanks are put around
it. Bytes in a column of text are the text that they encode, and are refused if they are no UTF-8; a text in a column of bytes
is its encoding. What a conversion gives, of any type, is given again when it is converted once more. -/
theorem convert_undoes (e : Engine) :
    (∀ u : Uuid, ∃ written, Literal.readText? ((Value.uuid u).literal e).toList = some (written, []) ∧
      ∀ before after : List Char, before.all Text.isBlank = true → after.all Text.isBlank = true →
        convert .uuid (.text (.ofList (before ++ written ++ after))) = .ok (.uuid u)) ∧
    (∀ type : ColumnType, type.kind = .text ∨ type.kind = .char → ∀ bs : List UInt8,
      (∀ w, convert type (.bytes bs) = .ok w ↔ ∃ s : String, w = .text s ∧ Text.Utf8.encode s.toList = bs) ∧
      ((∃ w, convert type (.bytes bs) = .ok w) ↔ bs.toByteArray.IsValidUTF8)) ∧
    (∀ s : String, convert .binary (.text s) = .ok (.bytes (Text.Utf8.encode s.toList))) ∧
    ∀ (type : ColumnType) (v w : Value), convert type v = .ok w → convert type w = .ok w := by
  refine ⟨fun u => ⟨u.simpleChars, ?_, fun before after hb ha => ?_⟩, fun type kind bs => ⟨fun w => ?_, ?_⟩, fun s => rfl,
    fun type v w => convert_convert⟩
  · have read : Literal.readText? (Literal.quoteText u.simpleChars ++ []) = some (u.simpleChars, []) :=
      Literal.readText?_quoteText.mpr (by simp)
    rwa [literal_uuid, ← List.append_nil (Literal.quoteText _)]
  · have read : Uuid.read? (Text.trim (before ++ u.simpleChars ++ after)) = some u := by
      rw [Text.trim_padded hb ha u.visible_simpleChars, u.read?_simpleChars]
    rw [convert_uuid_text, String.toList_ofList, read]
    rfl
  · exact convert_bytes_eq_ok_iff kind
  · rw [Text.Utf8.isValidUTF8_iff]
    constructor
    · rintro ⟨w, h⟩
      obtain ⟨s, -, encoded⟩ := (convert_bytes_eq_ok_iff kind).mp h
      exact ⟨s.toList, encoded⟩
    · rintro ⟨s, encoded⟩
      exact ⟨.text (.ofList s), (convert_bytes_eq_ok_iff kind).mpr ⟨.ofList s, rfl, by rwa [String.toList_ofList]⟩⟩

/-- An identifier with a tab and a wide blank around its digits, and a text of three characters. -/
theorem convert_undoes_padded :
    convert .uuid (.text "\t67e5504410b1426f9247bb680e5fe0c8\u3000") = .ok (.uuid ⟨0x67e5504410b1426f9247bb680e5fe0c8⟩) ∧
      convert (.char 3) (.bytes [0x61, 0xE2, 0x82, 0xAC, 0xF0, 0x9F, 0x98, 0x80]) = .ok (.text "a€😀") ∧
      convert (.char 3) (.text "a€😀") = .ok (.text "a€😀") := by
  obtain ⟨identifiers, texts, -, again⟩ := convert_undoes ⟨⟨3, 0, 0, 0⟩⟩
  have encoded : convert (.char 3) (.bytes [0x61, 0xE2, 0x82, 0xAC, 0xF0, 0x9F, 0x98, 0x80]) = .ok (.text "a€😀") :=
    ((texts (.char 3) (.inr rfl) _).1 _).mpr ⟨_, rfl, by decide⟩
  refine ⟨?_, encoded, again _ _ _ encoded⟩
  obtain ⟨written, literal, read⟩ := identifiers ⟨0x67e5504410b1426f9247bb680e5fe0c8⟩
  have digits : Literal.readText? ((Value.uuid ⟨0x67e5504410b1426f9247bb680e5fe0c8⟩).literal ⟨⟨3, 0, 0, 0⟩⟩).toList =
      some ("67e5504410b1426f9247bb680e5fe0c8".toList, []) := by decide +kernel
  obtain rfl : written = _ := congrArg Prod.fst (Option.some.inj (literal.symm.trans digits))
  have padded := read ['\t'] ['\u3000'] (by decide) (by decide)
  exact padded

end Value

end FirebirdSql
