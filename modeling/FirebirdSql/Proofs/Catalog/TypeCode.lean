import FirebirdSql.Catalog.Column

/-!
The codes of blobs and of decimals that are stored as whole numbers count on from bases a hundred apart, with no bound on the
sub type, so one of them may be the code of another type. With the engine's own sub types it is not: those of blobs are not
negative, and those of decimals are the first two.
-/

namespace FirebirdSql.Catalog

/-- The codes of the types that are not told apart by a sub type. -/
def nativeCodes : List Int := [7, 8, 10, 12, 13, 14, 16, 23, 27, 35, 37, 40]

def decimalCodes : List Int := [161, 162]

def blobCodes : List Int := [260, 261]

/-- A whole number with the sub type of a decimal. -/
structure IsDecimal (fieldType subType : Int) : Prop where
  stored : fieldType ∈ [7, 8, 16]
  typed : 0 < subType

instance (fieldType subType : Int) : Decidable (IsDecimal fieldType subType) :=
  decidable_of_iff (fieldType ∈ [7, 8, 16] ∧ 0 < subType) ⟨fun h => ⟨h.1, h.2⟩, fun h => ⟨h.1, h.2⟩⟩

theorem typeCode_blob (subType : Int) : typeCode 261 subType = 260 + subType := by
  simp [typeCode]

theorem IsDecimal.typeCode_eq {fieldType subType : Int} (h : IsDecimal fieldType subType) :
    typeCode fieldType subType = 160 + subType := by
  have stored := h.stored
  simp only [List.mem_cons, List.not_mem_nil, or_false] at stored
  exact if_pos ⟨stored, h.typed⟩

variable {code blob decimal fieldType blobType decimalType : Int}

theorem kindOfCode?_blob_iff :
    kindOfCode? code ∈ [none, some .text, some .binary] ∧ code ∉ nativeCodes ↔ code ∉ nativeCodes ++ decimalCodes := by
  unfold kindOfCode? nativeCodes decimalCodes
  split <;> simp_all

theorem kindOfCode?_decimal_iff :
    kindOfCode? code ∈ [none, some .decimal] ↔ code ∉ nativeCodes ++ blobCodes := by
  unfold kindOfCode? nativeCodes blobCodes
  split <;> simp_all

/-- The code of a blob and that of a decimal have kinds of their own families, if they have any, and are different from each
other. The blob's is no code of a native type either. -/
structure FamiliesApart (blob decimal : Int) : Prop where
  blobKind : kindOfCode? blob ∈ [none, some .text, some .binary]
  decimalKind : kindOfCode? decimal ∈ [none, some .decimal]
  distinct : blob ≠ decimal
  notNative : blob ∉ nativeCodes

theorem familiesApart_iff_codes : FamiliesApart blob decimal ↔
    blob ∉ nativeCodes ++ decimalCodes ∧ decimal ∉ nativeCodes ++ blobCodes ∧ blob ≠ decimal := by
  rw [← kindOfCode?_blob_iff, ← kindOfCode?_decimal_iff]
  constructor
  · rintro ⟨blobKind, decimalKind, distinct, notNative⟩
    exact ⟨⟨blobKind, notNative⟩, decimalKind, distinct⟩
  · rintro ⟨⟨blobKind, notNative⟩, decimalKind, distinct⟩
    exact ⟨blobKind, decimalKind, distinct, notNative⟩

/-- The sub types that give a blob the code of a native type or of a decimal. -/
def strayBlobTypes : List Int := (nativeCodes ++ decimalCodes).map (· - 260)

/-- The sub types that give a decimal the code of a blob. -/
def strayDecimalTypes : List Int := blobCodes.map (· - 160)

theorem typeCode_blob_notMem_iff :
    typeCode 261 blobType ∉ nativeCodes ++ decimalCodes ↔ blobType ∉ strayBlobTypes := by
  rw [typeCode_blob, strayBlobTypes, List.mem_map]
  apply not_congr
  constructor
  · intro known
    exact ⟨260 + blobType, known, by omega⟩
  · rintro ⟨code, known, rfl⟩
    rwa [show 260 + (code - 260) = code by omega]

theorem IsDecimal.typeCode_notMem_iff (h : IsDecimal fieldType decimalType) :
    typeCode fieldType decimalType ∉ nativeCodes ++ blobCodes ↔ decimalType ∉ strayDecimalTypes := by
  have typed := h.typed
  rw [h.typeCode_eq]
  simp only [nativeCodes, blobCodes, strayDecimalTypes, List.cons_append, List.nil_append, List.map_cons, List.map_nil,
    List.mem_cons, List.not_mem_nil, or_false]
  omega

theorem IsDecimal.typeCode_ne_iff (h : IsDecimal fieldType decimalType) :
    typeCode 261 blobType ≠ typeCode fieldType decimalType ↔ decimalType ≠ blobType + 100 := by
  rw [typeCode_blob, h.typeCode_eq]
  omega

/-- The engine's own sub types keep the families apart. -/
theorem IsDecimal.familiesApart_of_ordinary (h : IsDecimal fieldType decimalType) (ordinaryBlob : 0 ≤ blobType)
    (ordinaryDecimal : decimalType < 100) : FamiliesApart (typeCode 261 blobType) (typeCode fieldType decimalType) := by
  have negative : ∀ stray ∈ strayBlobTypes, stray < 0 := by decide
  have hundredth : ∀ stray ∈ strayDecimalTypes, 100 ≤ stray := by decide
  refine familiesApart_iff_codes.mpr ⟨?_, ?_, ?_⟩
  · apply typeCode_blob_notMem_iff.mpr
    intro stray
    have := negative _ stray
    omega
  · apply h.typeCode_notMem_iff.mpr
    intro stray
    have := hundredth _ stray
    omega
  · apply h.typeCode_ne_iff.mpr
    omega

/-- The families are apart except for the sub types that lead to a code of others, and for a decimal's that is a hundred
above the blob's. -/
theorem familiesApart_iff (h : IsDecimal fieldType decimalType) :
    FamiliesApart (typeCode 261 blobType) (typeCode fieldType decimalType) ↔
      blobType ∉ strayBlobTypes ∧ decimalType ∉ strayDecimalTypes ∧ decimalType ≠ blobType + 100 := by
  rw [familiesApart_iff_codes, typeCode_blob_notMem_iff, h.typeCode_notMem_iff, h.typeCode_ne_iff]

/-- A text blob and a `NUMERIC` that is stored in 32 bits. -/
theorem familiesApart_text_numeric : FamiliesApart (typeCode 261 1) (typeCode 8 1) :=
  (familiesApart_iff (by decide)).mpr (by decide)

/-- A blob with a sub type of its user's has the code of that `NUMERIC`, and is read as a decimal. -/
theorem not_familiesApart_user_blob :
    typeCode 261 (-99) = typeCode 8 1 ∧ kindOfCode? (typeCode 261 (-99)) = some .decimal ∧
      ¬FamiliesApart (typeCode 261 (-99)) (typeCode 8 1) :=
  ⟨by decide, by decide, fun apart => apart.distinct (by decide)⟩

end FirebirdSql.Catalog
