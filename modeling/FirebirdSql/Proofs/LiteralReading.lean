import FirebirdSql.Proofs.Inert
import FirebirdSql.Proofs.Quotation

/-!
Literals in a statement. The literal of a text is read back as the text, and reading goes on with what was written after
it, so no text says anything of the statement that it is put in. A scan for placeholders passes over every literal.
-/

namespace FirebirdSql.Literal

open Fragment (Inert)

/-- Reads the literal of a text: what stands between single quotes, two of them for one, and what comes after it. -/
def readText? : List Char → Option (List Char × List Char)
  | '\'' :: rest => Text.readQuoted '\'' rest
  | _ => none

theorem quoteText_append (s after : List Char) :
    quoteText s ++ after = '\'' :: (Text.replaceChar '\'' ['\'', '\''] s ++ '\'' :: after) := by
  simp [quoteText]

theorem readText?_quoteText {s after : List Char} :
    readText? (quoteText s ++ after) = some (s, after) ↔ after.head? ≠ some '\'' := by
  rw [quoteText_append]
  exact Text.readQuoted_eq_some_iff.trans (and_iff_right rfl)

theorem literal_text (e : Engine) (s : String) : ((Value.text s).literal e).toList = quoteText s.toList :=
  String.toList_ofList

/-- A text comes back from its literal, and what was written after it with it, unless that begins with the quote that
would go on with the text. From outside of quotes a scan is outside again behind the literal of any value, and meets no
placeholder in it. -/
theorem literal_contained (e : Engine) :
    (∀ (s : String) (after : List Char),
      readText? (((Value.text s).literal e).toList ++ after) = some (s.toList, after) ↔ after.head? ≠ some '\'') ∧
    ∀ v : Value, Inert (v.literal e) := by
  refine ⟨fun s after => ?_, fun v => inert_text _⟩
  rw [literal_text]
  exact readText?_quoteText

example : readText? ['\'', 'i', 't', '\'', '\'', 's', '\'', ',', '?'] = some (['i', 't', '\'', 's'], [',', '?']) := rfl

end FirebirdSql.Literal
