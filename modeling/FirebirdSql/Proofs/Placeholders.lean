import FirebirdSql.Statement

/-!
The placeholders that a statement's text has: what stands between identifiers neither is one nor opens a quote, so they
depend on the identifiers alone.
-/

namespace FirebirdSql

namespace Fragment

theorem validate_iff {f : Fragment} : f.validate = .ok () ↔ countFrom none f.template.toList = f.params.length := by
  unfold validate
  split
  · next h => exact iff_of_true rfl h
  · next h => exact iff_of_false (by rintro ⟨⟩) h

theorem validate_sql {template : String} : (sql template).validate = .ok () ↔ countFrom none template.toList = 0 :=
  validate_iff

def isMute (c : Char) : Bool := c != '\'' && c != '"' && c != '?'

/-- A scan ends outside of quotes, or inside those of one of the two characters for them. -/
def Quotes (q : Quote) : Prop := ∀ d ∈ q, d = '\'' ∨ d = '"'

variable {q : Quote}

theorem Quotes.step (h : Quotes q) (c : Char) : Quotes (step q c) := by
  intro d hd
  unfold Fragment.step at hd
  split at hd
  · split at hd
    · cases hd
    · exact h d hd
  · split at hd
    · next hc => exact Option.some.inj hd ▸ hc
    · cases hd

theorem Quotes.scan (h : Quotes q) (template : List Char) : Quotes (scan q template) := by
  induction template generalizing q with
  | nil => exact h
  | cons c rest ih => exact ih (h.step c)

theorem Quotes.step_of_mute (h : Quotes q) {c : Char} (hc : isMute c = true) : Fragment.step q c = q := by
  simp only [isMute, Bool.and_eq_true, bne_iff_ne] at hc
  unfold Fragment.step
  split
  · next d =>
    refine if_neg ?_
    rcases h d rfl with rfl | rfl
    · exact hc.1.1
    · exact hc.1.2
  · exact if_neg (by simp [hc])

/-- Mute text is passed over. -/
theorem Quotes.countFrom_append (h : Quotes q) {template : List Char} (mute : template.all isMute = true)
    (rest : List Char) : countFrom q (template ++ rest) = countFrom q rest := by
  induction template with
  | nil => rfl
  | cons c template ih =>
    rw [List.all_cons, Bool.and_eq_true] at mute
    have none : isPlaceholder q c = false := by
      have := mute.1
      simp only [isMute, Bool.and_eq_true, bne_iff_ne] at this
      simp [isPlaceholder, this]
    rw [List.cons_append, countFrom, h.step_of_mute mute.1, none, ih mute.2]
    exact Nat.zero_add _

theorem Quotes.countFrom_between (h : Quotes q) {before after : List Char} (mute : before.all isMute = true)
    (mute' : after.all isMute = true) (body : List Char) :
    countFrom q (before ++ (body ++ after)) = countFrom q body := by
  rw [h.countFrom_append mute, Fragment.countFrom_append, ← List.append_nil after,
    (h.scan body).countFrom_append mute']
  rfl

/-- It does not matter by what mute text some parts are separated. -/
theorem Quotes.countFrom_joinWith (h : Quotes q) {sep sep' : List Char} (mute : sep.all isMute = true)
    (mute' : sep'.all isMute = true) (parts : List (List Char)) :
    countFrom q (Text.joinWith sep parts) = countFrom q (Text.joinWith sep' parts) := by
  induction parts generalizing q with
  | nil => rfl
  | cons part parts ih =>
    cases parts with
    | nil => rfl
    | cons next parts =>
      simp only [Text.joinWith, List.append_assoc, Fragment.countFrom_append q part]
      rw [(h.scan part).countFrom_append mute, (h.scan part).countFrom_append mute', ih (h.scan part)]

theorem quotes_none : Quotes none := fun _ h => nomatch h

end Fragment

/-- An index over the hash of some columns has the placeholders of the index over the columns. -/
theorem Statement.validate_createHashIndex (unique : Bool) (name table : Identifier) (columns : List Identifier) :
    (createHashIndex unique name table columns).fragment.validate =
      (createIndex unique name table columns).fragment.validate := by
  have parts {q : Fragment.Quote} (h : Fragment.Quotes q) :
      Fragment.countFrom q (" COMPUTED BY (" ++ hashSource columns ++ ")").toList =
        Fragment.countFrom q (" (" ++ identifiers columns ++ ")").toList := by
    have hashed : (" COMPUTED BY (" ++ hashSource columns ++ ")").toList =
        " COMPUTED BY (HASH(".toList ++ (Text.joinWith " || ".toList ((columns.map (·.text)).map String.toList) ++
          "))".toList) := by
      simp [hashSource, Text.joined]
    have listed : (" (" ++ identifiers columns ++ ")").toList =
        " (".toList ++ (Text.joinWith ", ".toList ((columns.map (·.text)).map String.toList) ++ ")".toList) := by
      simp [identifiers, Text.joined]
    rw [hashed, listed, h.countFrom_between (by decide) (by decide), h.countFrom_between (by decide) (by decide)]
    exact h.countFrom_joinWith (by decide) (by decide) _
  have count : (createHashIndex unique name table columns).fragment.placeholders =
      (createIndex unique name table columns).fragment.placeholders := by
    have headed (tail : String) : Fragment.countFrom none (createIndexHead unique name table ++ tail).toList = _ :=
      (congrArg _ String.toList_append).trans (Fragment.countFrom_append ..)
    simp only [fragment, Fragment.sql, Fragment.placeholders, Fragment.countPlaceholders,
      String.append_assoc] at parts ⊢
    rw [headed, headed, parts (Fragment.quotes_none.scan _)]
  unfold Fragment.validate
  rw [count]
  rfl

end FirebirdSql
