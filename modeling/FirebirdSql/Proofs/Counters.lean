import FirebirdSql.Proofs.Columns
import FirebirdSql.Proofs.QuotedName
import FirebirdSql.Proofs.Transaction

/-!
What counts for tables as the catalog stores it: sequences, and triggers with the columns that they fill. Statements make
and drop them within transactions, and the catalog answers truly which of them are there.
-/

namespace FirebirdSql

open Action (Ends ends_ok ends_error ends_always)

/-- The sequences and the triggers that there are, by their stored names. -/
structure Counters where
  sequences : String → Bool
  /-- The column that a trigger fills. -/
  triggers : String → Option Place

namespace Statement

variable {s : Statement} {n : String} {k : Counters}

/-- What counts after the statement. An identifier that denotes no name makes and drops nothing, and a table takes its
triggers with it. -/
def countersAfter (k : Counters) : Statement → Counters
  | .createSequence sequence => { k with sequences := fun n => k.sequences n || sequence.denoted? == some n }
  | .dropSequence sequence => { k with sequences := fun n => k.sequences n && sequence.denoted? != some n }
  | .createTrigger trigger table column _ =>
    { k with triggers := fun n => if trigger.denoted? = some n then some ⟨table, column⟩ else k.triggers n }
  | .dropTrigger trigger => { k with triggers := fun n => if trigger.denoted? = some n then none else k.triggers n }
  | .dropTable table => { k with triggers := fun n => (k.triggers n).filter (·.table != table) }
  | _ => k

/-- The column that the statement renames or drops. -/
def movedColumn? : Statement → Option Place
  | .renameColumn table old _ => some ⟨table, old⟩
  | .dropColumn table column => some ⟨table, column⟩
  | _ => none

/-- The statement neither renames nor drops the column that the trigger of this name fills. -/
def Respects (n : String) (k : Counters) (s : Statement) : Prop := ∀ p ∈ s.movedColumn?, k.triggers n ≠ some p

instance (n : String) (k : Counters) (s : Statement) : Decidable (s.Respects n k) :=
  inferInstanceAs (Decidable (∀ p ∈ s.movedColumn?, k.triggers n ≠ some p))

theorem createTrigger_triggers {trigger table column sequence : Identifier} (h : trigger.denoted? = some n) :
    ((createTrigger trigger table column sequence).countersAfter k).triggers n = some ⟨table, column⟩ := if_pos h

theorem dropTrigger_triggers {trigger : Identifier} (h : trigger.denoted? = some n) :
    ((dropTrigger trigger).countersAfter k).triggers n = none := if_pos h

theorem countersAfter_of_isAside (h : s.isAside = true) (k : Counters) : s.countersAfter k = k := by
  cases s <;> first | rfl | cases h

theorem respects_of_keepsRows (h : s.keepsRows = true) : s.Respects n k := by
  have nothing : s.movedColumn? = none := by cases s <;> first | rfl | cases h
  intro p moved
  rw [nothing] at moved
  cases moved

end Statement

/-- What counts as it is committed, and as the transaction sees it. -/
structure Counters.Standing where
  settled : Counters
  seen : Counters

/-- Statements that the connection does not refuse make and drop what counts, commits settle it and rollbacks go back to
what is settled. The catalog tells truly what the transaction sees. -/
structure Cursor.Reflects (c : Cursor σ) (standing : σ → Counters.Standing) : Prop where
  executed : ∀ s link,
    Ends (fun _ t => standing t = { standing link with seen := s.countersAfter (standing link).seen })
      (fun _ t => standing t = standing link) (c.execute s link)
  fetched : ∀ link, standing (c.fetchAll link).2 = standing link
  committed : ∀ link, Ends (fun _ t => standing t = ⟨(standing link).seen, (standing link).seen⟩)
    (fun _ t => standing t = standing link) (c.commit link)
  returned : ∀ link, standing (c.rollback link).2 = ⟨(standing link).settled, (standing link).settled⟩
  sequence : ∀ name link rows, (c.query (.catalog (.sequence name)) link).1 = .ok rows →
    (!rows.isEmpty) = (standing link).seen.sequences name
  trigger : ∀ name link rows, (c.query (.catalog (.trigger name)) link).1 = .ok rows →
    (!rows.isEmpty) = ((standing link).seen.triggers name).isSome

theorem Action.Ends.within {α σ τ : Type} {Q : α → σ → Prop} {E : Error → σ → Prop} {r : Except Error α × σ}
    (h : Ends Q E r) (part : τ → σ) {t : τ} (same : part t = r.2) :
    Ends (fun a t => Q a (part t)) (fun e t => E e (part t)) (r.1, t) := by
  obtain ⟨r, s⟩ := r
  obtain rfl : part t = s := same
  cases r with
  | ok a => exact ends_ok.mpr (ends_ok.mp h)
  | error e => exact ends_error.mpr (ends_error.mp h)

namespace Cursor.Reflects

variable {c : Cursor σ} {standing : σ → Counters.Standing} (h : c.Reflects standing)

include h

theorem asked (q : CatalogQuery) (link : σ) : standing (c.query (.catalog q) link).2 = standing link := by
  have executed : standing (c.execute (.catalog q) link).2 = standing link :=
    ends_always.mp (h.executed (.catalog q) link)
  rw [Cursor.query, Action.bind_apply]
  revert executed
  obtain ⟨r, t⟩ := c.execute (.catalog q) link
  intro executed
  cases r with
  | ok _ => exact (h.fetched t).trans executed
  | error e => exact executed

theorem noting (note : Statement → List ε) (answer : List Row → List ε) :
    (c.noting note answer).Reflects fun s => standing s.link where
  executed s t := (h.executed s t.link).within Noted.link rfl
  fetched t := by
    change standing ((Noted.onLink c.fetchAll >>= fun rows => Noted.add (answer rows) >>= fun _ => pure rows) t).2.link = _
    rw [Action.bind_apply, Noted.onLink, Action.within_apply]
    have fetched := h.fetched t.link
    revert fetched
    obtain ⟨r, link⟩ := c.fetchAll t.link
    cases r <;> exact id
  committed t := (h.committed t.link).within Noted.link rfl
  returned t := h.returned t.link
  sequence name t rows answered := h.sequence name t.link rows ((c.noting_query_fst note answer _ t).symm.trans answered)
  trigger name t rows answered := h.trigger name t.link rows ((c.noting_query_fst note answer _ t).symm.trans answered)

end Cursor.Reflects

/-- A server that knows nothing but what counts, with the rows that it has to give out. -/
structure Registry where
  standing : Counters.Standing
  rows : List Row

namespace Registry

def empty : Registry := ⟨⟨⟨fun _ => false, fun _ => none⟩, ⟨fun _ => false, fun _ => none⟩⟩, []⟩

def found (there : Bool) : List Row := if there then [⟨[.int 1]⟩] else []

def answer (k : Counters) : CatalogQuery → List Row
  | .sequence name => found (k.sequences name)
  | .trigger name => found (k.triggers name).isSome
  | _ => []

def cursor : Cursor Registry where
  execute
    | .catalog q => Action.modify fun r => { r with rows := answer r.standing.seen q }
    | s => Action.modify fun r => ⟨{ r.standing with seen := s.countersAfter r.standing.seen }, []⟩
  fetchOne := return none
  fetchAll r := (.ok r.rows, r)
  start _ := return ()
  commit := Action.modify fun r => { r with standing := ⟨r.standing.seen, r.standing.seen⟩ }
  rollback := Action.modify fun r => { r with standing := ⟨r.standing.settled, r.standing.settled⟩ }
  serverVersion := return "WI-V3.0.5.33220 Firebird 3.0"

theorem found_isEmpty (there : Bool) : (!(found there).isEmpty) = there := by cases there <;> rfl

theorem cursor_reflects : cursor.Reflects standing where
  executed s r := by cases s <;> exact ends_ok.mpr rfl
  fetched _ := rfl
  committed _ := ends_ok.mpr rfl
  returned _ := rfl
  sequence name r rows answered := Except.ok.inj answered ▸ found_isEmpty (r.standing.seen.sequences name)
  trigger name r rows answered := Except.ok.inj answered ▸ found_isEmpty (r.standing.seen.triggers name).isSome

end Registry

end FirebirdSql
