import FirebirdSql.Proofs.QuotedName

/-!
Quoted names in a text. A quote in a name is written twice, so the text alone tells where the name ends. Hence a text that
starts with a quoted name, or with a list of them, determines the names and what comes after them.
-/

namespace FirebirdSql

namespace Identifier

/-- A stored name as it is spelled: between quotes, each quote in it written twice. -/
def quoted (name : List Char) : List Char := delimit (doubled name)

theorem quoted_append (name after : List Char) : quoted name ++ after = '"' :: (doubled name ++ '"' :: after) := by
  simp [quoted, delimit]

theorem quoted_append_inj {name other after rest : List Char} (ends : after.head? ≠ some '"')
    (ends' : rest.head? ≠ some '"') (same : quoted name ++ after = quoted other ++ rest) :
    name = other ∧ after = rest := by
  rw [quoted_append, quoted_append] at same
  have read := congrArg readInside (List.cons.inj same).2
  rw [readInside_doubled name after ends, readInside_doubled other rest ends'] at read
  exact Prod.mk.inj (Option.some.inj read)

section Lists

variable {s close : Char} {sep : List Char} {names others : List (List Char)} {after rest : List Char}

/-- What comes after a name in a list: the separator, or else what closes the list. -/
theorem head?_following (hs : s ≠ '"') (hc : close ≠ '"') (names : List (List Char)) (after : List Char) :
    (names.flatMap ((s :: sep) ++ quoted ·) ++ close :: after).head? ≠ some '"' := by
  intro head
  cases names with
  | nil => exact hc (Option.some.inj head)
  | cons name names => exact hs (Option.some.inj head)

theorem following_inj (hs : s ≠ '"') (hc : close ≠ '"') (apart : s ≠ close)
    (same : names.flatMap ((s :: sep) ++ quoted ·) ++ close :: after =
      others.flatMap ((s :: sep) ++ quoted ·) ++ close :: rest) : names = others ∧ after = rest := by
  -- The first character tells whether another name comes: it is that of the separator, or what closes the list.
  induction names generalizing others with
  | nil =>
    cases others with
    | nil => exact ⟨rfl, (List.cons.inj same).2⟩
    | cons other others => exact absurd (List.cons.inj same).1.symm apart
  | cons name names ih =>
    cases others with
    | nil => exact absurd (List.cons.inj same).1 apart
    | cons other others =>
      rw [List.flatMap_cons, List.flatMap_cons, List.append_assoc, List.append_assoc, List.append_assoc,
        List.append_assoc] at same
      obtain ⟨first, same⟩ := quoted_append_inj (head?_following hs hc names after) (head?_following hs hc others rest)
        (List.append_cancel_left same)
      obtain ⟨more, tail⟩ := ih same
      exact ⟨by rw [first, more], tail⟩

/-- The names of a list, up to what closes it. Neither that nor the separator may be taken for a part of a name. -/
theorem joinWith_quoted_inj (hs : s ≠ '"') (hc : close ≠ '"') (apart : s ≠ close)
    (same : Text.joinWith (s :: sep) (names.map quoted) ++ close :: after =
      Text.joinWith (s :: sep) (others.map quoted) ++ close :: rest) : names = others ∧ after = rest := by
  cases names with
  | nil =>
    cases others with
    | nil => exact ⟨rfl, (List.cons.inj same).2⟩
    | cons other others =>
      rw [List.map_cons, Text.joinWith_cons] at same
      exact absurd (List.cons.inj same).1 hc
  | cons name names =>
    cases others with
    | nil =>
      rw [List.map_cons, Text.joinWith_cons] at same
      exact absurd (List.cons.inj same).1.symm hc
    | cons other others =>
      rw [List.map_cons, List.map_cons, Text.joinWith_cons, Text.joinWith_cons, List.flatMap_map, List.flatMap_map,
        List.append_assoc, List.append_assoc] at same
      obtain ⟨first, same⟩ := quoted_append_inj (head?_following hs hc names after) (head?_following hs hc others rest) same
      obtain ⟨more, tail⟩ := following_inj hs hc apart same
      exact ⟨by rw [first, more], tail⟩

end Lists

end Identifier

end FirebirdSql
