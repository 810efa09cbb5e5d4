import FirebirdSql.Proofs.Alteration.Rows
import FirebirdSql.Proofs.Catalog.Cache
import FirebirdSql.Proofs.Editor.Keeper
import FirebirdSql.Proofs.Editor.Noting
import FirebirdSql.Proofs.Transaction

/-!
Altering a field keeps the rows of its table. Over a connection that takes every statement, all statements about the
table are legal one after the other, whatever the catalog says of indexes, keys and checks.
-/

namespace FirebirdSql

namespace Editor

open Action (Keeps Triple Ends)

variable {n : Nat} {T t u : TableRows n}

/-- The statements noted so far are legal, and make `t` of the table `T`. -/
def Holding (T t : TableRows n) (s : State (Noted σ Statement)) : Prop := T.run s.base.link.notes = some t

def recording (ed : Editor σ) : Editor (Noted σ Statement) := ed.noting (fun s => [s]) fun _ => []

variable {ed : Editor σ} {e : Error} {s : Statement}

theorem Holding.after {x y : State (Noted σ Statement)} (h : Holding T t x) (hs : t.apply s = some u)
    (hn : y.base.link.notes = x.base.link.notes ++ [s]) : Holding T u y := by
  rw [Holding, hn, TableRows.run_append, h, Option.bind_some, TableRows.run_cons, hs]
  rfl

theorem Holding.same {x y : State (Noted σ Statement)} (h : Holding T t x)
    (hn : y.base.link.notes = x.base.link.notes) : Holding T t y := by
  rw [Holding, hn]
  exact h

theorem keeps_holding_ask (q : CatalogQuery) : Keeps (Holding T t) (onLink (Catalog.ask ed.recording.cursor q)) := by
  intro x h
  have asked := Cursor.noting_query_triple ed.cursor (fun s => [s]) (fun _ => []) (.catalog q) _ x.base.link rfl
  refine h.after (s := .catalog q) (t.apply_of_keepsRows rfl) ?_
  exact Action.ends_always.mp (asked.mono (fun _ _ hn => hn.trans (List.append_nil _)) fun _ _ hn => hn)

theorem keeper_holding (ed : Editor σ) (t : TableRows n) :
    Keeper ed.recording (Holding T t) (fun _ s => s.keepsRows = true) fun _ => True := by
  refine Keeper.of_blind (fun _ _ _ => id) (fun table s hs x h => ?_) keeps_holding_ask fun x h => ?_
  · rcases ed.noting_run_notes (fun s => [s]) (fun _ => []) s x table with hn | hn
    · exact h.same hn
    · exact h.after (t.apply_of_keepsRows hs) hn
  · have committed := Cursor.noting_commit_adds ed.cursor (fun s => [s]) (fun _ => []) x.base.link
    exact h.same (committed.trans (List.append_nil _))

def IsMismatch (e : Error) : Prop := ∃ placeholders values, e = .parameterMismatch placeholders values

section Accepting

variable (hc : ed.cursor.Accepts) (hs : ed.collects = false)

include hc

theorem recording_send (s : Statement) (link : Noted σ Statement) : (ed.recording.send s link).1 = .ok () := by
  have accepts : ed.recording.cursor.Accepts := ⟨fun s link => hc.execute s link.link, fun link => hc.commit link.link⟩
  exact accepts.send s link

include hs

/-- A legal statement is sent and takes effect, unless values are missing for it. -/
theorem run_holding {table : String} (h : t.apply s = some u) :
    Triple (Holding T t) (ed.recording.run table s) (fun _ => Holding T u) fun e x => IsMismatch e ∧ Holding T t x := by
  intro x hx
  have collects : ed.recording.collects = false := hs
  rw [run_apply]
  by_cases hv : s.fragment.placeholders = s.fragment.params.length
  · have done : ed.recording.execute s x = onLink (ed.recording.send s) x := by
      simp [Editor.execute, Action.bind_apply, Fragment.validate, hv, collects]
    have sent : (onLink (ed.recording.send s) x).1 = .ok () := recording_send hc s x.base.link
    rw [done, sent]
    exact Action.ends_ok.mpr (hx.after h (ed.noting_send_adds (fun s => [s]) (fun _ => []) s x.base.link))
  · have done : ed.recording.execute s x =
        (.error (.parameterMismatch s.fragment.placeholders s.fragment.params.length), x) := by
      simp [Editor.execute, Action.bind_apply, Fragment.validate, hv]
    rw [done]
    exact Action.ends_error.mpr ⟨⟨_, _, rfl⟩, hx⟩

theorem runAll_holding {table : String} {ss : List Statement} (h : t.run ss = some u) :
    Triple (Holding T t) (ed.recording.runAll table ss) (fun _ => Holding T u)
      fun e x => IsMismatch e ∧ ∃ w, Holding T w x := by
  induction ss generalizing t with
  | nil =>
    obtain rfl : t = u := Option.some.inj h
    exact Triple.pure fun x => id
  | cons s ss ih =>
    rw [TableRows.run_cons] at h
    obtain ⟨w, hw, hu⟩ := Option.bind_eq_some_iff.mp h
    refine Triple.bind ?_ fun _ => ih hu
    exact (run_holding hc hs hw).weaken (fun _ => id) (fun _ _ => id) fun e x hx => ⟨hx.1, t, hx.2⟩

end Accepting

/-- Altering a field runs statements that are legal one after the other. After a success the column has its new name,
holds what it held and in the rows without a value the default if the new field needs one, and nothing else of the
table has changed. A failure leaves the rows as they were or as altered, but for the statement that lacks values. -/
theorem alterField_rows {ed : Editor σ} (hc : ed.cursor.Accepts) (hs : ed.collects = false) {a : Alteration}
    {v : Fin n → Option Value} (h : a.Fits ed.engine T v) {x : State (Noted σ Statement)}
    (hx : x.base.link.notes = []) :
    Ends (fun _ => Holding T (a.alteredRows ed.engine T v))
      (fun e x => Holding T T x ∨ Holding T (a.alteredRows ed.engine T v) x ∨ IsMismatch e ∧ ∃ w, Holding T w x)
      (ed.recording.alterField a x) := by
  have start : Holding T T x := by rw [Holding, hx, TableRows.run_nil]
  refine Keeper.alterField_triple (keeper_holding ed T) (keeper_holding ed (a.alteredRows ed.engine T v)) ?_ ?_ ?_
    (fun _ _ => .inl) (fun _ _ h => .inr (.inl h)) x start
  · exact fun s _ hk => hk
  · exact fun _ _ s _ hk => hk
  · exact (runAll_holding hc hs h.run_columnStatements).weaken (fun _ => id) (fun _ _ => id) fun _ _ h => .inr (.inr h)

namespace Sample

def editor : Editor Unit := ⟨.silent, ⟨⟨3, 0, 0, 0⟩⟩, Options.standard, false⟩

/-- A note becomes a text that has to be there. -/
def alteration : Alteration where
  model := ⟨"page", [], [], [], []⟩
  old := { Field.ofType "note" (.char 10) with null := true }
  new := { Field.ofType "text" .text with default := some (.text "?") }

/-- One page has a note, the other has none. -/
def notes : Fin 2 → Option Value := fun r => if r = 0 then some (.text "a") else none

def pages : TableRows 2 where
  name := Identifier.quote editor.engine "page"
  columns := fun c => if c = Identifier.quote editor.engine "note" then some notes else none

theorem pages_of_ne {c : Identifier} (h : c ≠ Identifier.quote editor.engine "note") : pages.columns c = none := if_neg h

theorem silent_accepts : editor.cursor.Accepts := ⟨fun _ _ => rfl, fun _ => rfl⟩

theorem alteration_fits : alteration.Fits editor.engine pages notes where
  table := rfl
  plain_old := by decide
  plain_new := by decide
  holds := by simp [pages, alteration, Field.ofType]
  respected h := absurd h (by decide)
  default_not_null := by simp [alteration]
  name_free _ := pages_of_ne (by decide +kernel)
  temporary_free _ := ⟨pages_of_ne (by decide +kernel), by decide +kernel⟩
  complete _ _ h := absurd h (by simp [alteration])

def start : State (Noted Unit Statement) := ⟨⟨⟨(), []⟩, .empty⟩, [], []⟩

theorem altered_isOk : (editor.recording.alterField alteration start).1.isOk = true := by decide +kernel

end Sample

/-- The text of the page without a note is the default. -/
theorem alterField_rows_page :
    Sample.alteration.Fits Sample.editor.engine Sample.pages Sample.notes ∧
      Sample.alteration.filled Sample.notes = (fun r => some (.text (if r = 0 then "a" else "?"))) ∧
      Holding Sample.pages (Sample.alteration.alteredRows Sample.editor.engine Sample.pages Sample.notes)
        (Sample.editor.recording.alterField Sample.alteration Sample.start).2 := by
  have filled (r : Fin 2) : Sample.alteration.filled Sample.notes r = some (.text (if r = 0 then "a" else "?")) := by
    match r with
    | 0 => rfl
    | 1 => rfl
  have ends := alterField_rows Sample.silent_accepts rfl Sample.alteration_fits (x := Sample.start) rfl
  obtain ⟨-, holding⟩ := ends.of_isOk Sample.altered_isOk
  exact ⟨Sample.alteration_fits, funext filled, holding⟩

end Editor

end FirebirdSql
