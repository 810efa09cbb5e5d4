import FirebirdSql.Proofs.Log
import FirebirdSql.Proofs.Shadow.Ordering
import FirebirdSql.Shadow.Store

/-!
Making constraints again, one after the other, whatever fails. Each has its turn: it is either passed over, because its
statement cannot be put together, or its statement is sent, once. No failure ends the replay, and the two tables are
cleared behind it.
-/

namespace FirebirdSql

def Logged.IsQuestion (l : Logged) : Prop := ∃ q, l.call = .execute (.catalog q)

namespace Shadow

open Action (Keeps)

/-! Questions -/

/-- Nothing but questions was sent since these calls. -/
def Asking (calls : List Logged) (s : Noted σ Logged) : Prop :=
  ∃ asked, s.notes = calls ++ asked ∧ ∀ l ∈ asked, l.IsQuestion

section Questions

variable (c : Cursor σ) {calls : List Logged}

theorem asking_self (s : Noted σ Logged) : Asking s.notes s :=
  ⟨[], (List.append_nil _).symm, List.forall_mem_nil _⟩

theorem ask_asking (q : CatalogQuery) : Keeps (Asking calls) (Catalog.ask c.logged q) := by
  have executed : Keeps (Asking calls) (c.logged.execute (.catalog q)) := by
    rintro s ⟨asked, sent, questions⟩
    refine ⟨asked ++ [⟨.execute (.catalog q), failureOf (c.execute (.catalog q) s.link).1⟩], ?_, ?_⟩
    · rw [← List.append_assoc, ← sent]
      rfl
    · exact List.forall_mem_append.mpr ⟨questions, List.forall_mem_singleton.mpr ⟨q, rfl⟩⟩
  have fetched : Keeps (Asking calls) c.logged.fetchAll := fun _ h => h
  exact executed.bind fun _ => fetched

theorem tableExists_asking (table : String) : Keeps (Asking calls) (tableExists c.logged table) :=
  (ask_asking c _).bind fun _ => Keeps.pure _

theorem stored_asking : Keeps (Asking calls) (stored c.logged) := by
  refine (ask_asking c _).bind fun _ => (Keeps.lift _).bind fun _ => ?_
  exact (ask_asking c _).bind fun _ => (Keeps.lift _).bind fun _ => Keeps.pure _

theorem referencedKey_asking (k : Constraint) : Keeps (Asking calls) (referencedKey c.logged k) := by
  unfold referencedKey
  split
  · exact (ask_asking c _).bind fun _ => Keeps.lift _
  · exact Keeps.pure _

end Questions

/-! Turns -/

/-- What there was to one constraint: the key that it references as far as it was found, the calls to find it, and the
calls to make the constraint. -/
structure Attempt where
  constraint : Constraint
  found : Except Error (Option Key)
  asked : List Logged
  made : List Logged

namespace Attempt

def log (a : Attempt) : List Logged := a.asked ++ a.made

/-- The statement was executed and committed. -/
def succeeds (a : Attempt) : Bool := decide (⟨.commit, none⟩ ∈ a.made)

end Attempt

/-- The statement by which a constraint is made with this definition. -/
def Constraint.addition (k : Constraint) (definition : ConstraintDefinition) : Statement :=
  .addConstraint (.ofStored k.relationName) (.ofStored k.name) definition

/-- The turn of a constraint on the way from one state to another. -/
inductive Turn (c : Cursor σ) (s : Noted σ Logged) : Attempt → Noted σ Logged → Prop where
  /-- No statement is sent for a constraint whose key cannot be read, or which has none that could be written. -/
  | passed {k : Constraint} {found : Except Error (Option Key)} {asked : List Logged} {t : Noted σ Logged} {e : Error}
      (lookup : referencedKey c.logged k s = (found, t)) (notes : t.notes = s.notes ++ asked)
      (questions : ∀ l ∈ asked, l.IsQuestion) (unwritten : found >>= k.restoreStatement = .error e) :
      Turn c s ⟨k, found, asked, []⟩ t
  /-- Otherwise it is tried once, as a transaction of its own, and rolled back at once if that fails. -/
  | tried {k : Constraint} {found : Except Error (Option Key)} {asked made : List Logged} {t u : Noted σ Logged}
      {definition : ConstraintDefinition} {r : Except Error Unit}
      (lookup : referencedKey c.logged k s = (found, t)) (notes : t.notes = s.notes ++ asked)
      (questions : ∀ l ∈ asked, l.IsQuestion)
      (written : found >>= k.restoreStatement = .ok (k.addition definition))
      (run : c.logged.executeCommitted (k.addition definition) t = (r, u)) (sent : u.notes = t.notes ++ made)
      (calls : Tried (k.addition definition) true made (failureOf r)) :
      Turn c s ⟨k, found, asked, made⟩ u

/-- One turn after the other. -/
inductive Replay (c : Cursor σ) : Noted σ Logged → List Attempt → Noted σ Logged → Prop where
  | done (s : Noted σ Logged) : Replay c s [] s
  | next {s t u : Noted σ Logged} {a : Attempt} {rest : List Attempt} (turn : Turn c s a t) (others : Replay c t rest u) :
    Replay c s (a :: rest) u

section Replaying

variable {c : Cursor σ} {s t : Noted σ Logged}

theorem isNone_failureOf {α : Type} (r : Except Error α) : (failureOf r).isNone = r.isOk := by cases r <;> rfl

theorem succeeds_of_tried {statement : Statement} {made : List Logged} {failure : Option Error}
    (h : Tried statement true made failure) : decide ((⟨.commit, none⟩ : Logged) ∈ made) = failure.isNone := by
  cases h <;> simp

theorem Turn.notes {a : Attempt} (h : Turn c s a t) : t.notes = s.notes ++ a.log := by
  cases h with
  | passed _ notes => exact notes.trans (congrArg (s.notes ++ ·) (List.append_nil _).symm)
  | tried _ notes _ _ _ sent => rw [sent, notes, List.append_assoc, Attempt.log]

theorem Replay.notes {attempts : List Attempt} (h : Replay c s attempts t) :
    t.notes = s.notes ++ attempts.flatMap (·.log) := by
  induction h with
  | done s => exact (List.append_nil _).symm
  | next turn _ ih => rw [ih, turn.notes, List.flatMap_cons, List.append_assoc]

/-- A failure to find the key is one to put the statement together. -/
theorem restore_of_lookup {c : Cursor σ} {k : Constraint} {s t : σ} {found : Except Error (Option Key)}
    (lookup : referencedKey c k s = (found, t)) :
    restore c k s = match found >>= k.restoreStatement with
      | .ok statement => c.executeCommitted statement t
      | .error e => (.error e, t) := by
  rw [restore, Action.bind_apply, lookup]
  cases found with
  | error e => rfl
  | ok referenced =>
    change (Action.lift (k.restoreStatement referenced) >>= c.executeCommitted) t =
      match k.restoreStatement referenced with
      | .ok statement => c.executeCommitted statement t
      | .error e => (.error e, t)
    cases k.restoreStatement referenced <;> rfl

theorem eq_addition {k : Constraint} {found : Except Error (Option Key)} {statement : Statement}
    (h : found >>= k.restoreStatement = .ok statement) : ∃ definition, statement = k.addition definition := by
  obtain ⟨referenced, -, written⟩ := bind_eq_ok_iff.mp h
  rw [Constraint.restoreStatement] at written
  cases declared : k.definition referenced with
  | error e =>
    rw [declared] at written
    cases written
  | ok definition =>
    rw [declared] at written
    exact ⟨definition, (Except.ok.inj written).symm⟩

theorem restore_turn (k : Constraint) (s : Noted σ Logged) :
    ∃ a, a.constraint = k ∧ Turn c s a (restore c.logged k s).2 ∧ a.succeeds = (restore c.logged k s).1.isOk := by
  obtain ⟨asked, notes, questions⟩ := referencedKey_asking c k s (asking_self s)
  obtain ⟨found, t, lookup⟩ : ∃ found t, referencedKey c.logged k s = (found, t) := ⟨_, _, rfl⟩
  rw [lookup] at notes
  rw [restore_of_lookup lookup]
  cases written : found >>= k.restoreStatement with
  | error e => exact ⟨⟨k, found, asked, []⟩, rfl, .passed lookup notes questions written, rfl⟩
  | ok statement =>
    obtain ⟨definition, rfl⟩ := eq_addition written
    obtain ⟨made, sent, calls⟩ := c.logged_executeCommitted _ t
    refine ⟨⟨k, found, asked, made⟩, rfl, .tried lookup notes questions written rfl sent calls, ?_⟩
    exact (succeeds_of_tried calls).trans (isNone_failureOf _)

/-- Every constraint has its turn, whatever became of those before it. -/
theorem restoreAll_replays (cs : List Constraint) (s : Noted σ Logged) :
    ∃ attempts t, Replay c s attempts t ∧ attempts.map (·.constraint) = cs ∧
      restoreAll c.logged cs s = (.ok (attempts.countP (·.succeeds)), t) := by
  induction cs generalizing s with
  | nil => exact ⟨[], s, .done s, rfl, rfl⟩
  | cons k cs ih =>
    obtain ⟨a, own, turn, outcome⟩ := restore_turn (c := c) k s
    obtain ⟨attempts, u, others, constraints, run⟩ := ih (restore c.logged k s).2
    refine ⟨a :: attempts, u, .next turn others, ?_, ?_⟩
    · rw [List.map_cons, own, constraints]
    · rw [restoreAll, Action.bind_apply, Action.attempt_apply]
      dsimp only
      rw [Action.bind_of_ok run, List.countP_cons, outcome, Nat.add_comm]
      rfl

theorem pairwise_stored {c : Cursor σ} {s t : σ} {cs : List Constraint} (h : stored c s = (.ok cs, t)) :
    cs.Pairwise fun a b => restoreRank a.kind ≤ restoreRank b.kind := by
  obtain ⟨rows, s, -, h⟩ := Action.bind_ok h
  obtain ⟨constraints, s, -, h⟩ := Action.bind_ok h
  obtain ⟨rows, s, -, h⟩ := Action.bind_ok h
  obtain ⟨segments, s, -, h⟩ := Action.bind_ok h
  obtain rfl := Except.ok.inj (congrArg Prod.fst h)
  exact Reading.pairwise_mergeSort_by Nat.le_trans Nat.le_total (fun k : Constraint => restoreRank k.kind) _

theorem committed_notes {statement : Statement} (h : c.logged.executeCommitted statement s = (.ok (), t)) :
    t.notes = s.notes ++ [⟨.execute statement, none⟩, ⟨.commit, none⟩] := by
  obtain ⟨calls, sent, tried⟩ := c.logged_executeCommitted statement s
  rw [h] at sent tried
  cases tried
  exact sent

/-- If the two tables are there, can be read and can be cleared, then what else fails does not keep enabling from
success. Every constraint has its turn, those that others need first, the tables are cleared behind the last of them,
and what is returned is the number of those that were made and committed. -/
theorem enable_replays (c : Cursor σ) {s t u : Noted σ Logged} {cs : List Constraint}
    (present : tableExists c.logged CatalogQuery.constraintTable s = (.ok true, t))
    (read : stored c.logged t = (.ok cs, u)) :
    cs.Pairwise (fun a b => restoreRank a.kind ≤ restoreRank b.kind) ∧
      ∃ questions attempts w, (∀ l ∈ questions, l.IsQuestion) ∧
        Replay c u attempts w ∧ attempts.map (·.constraint) = cs ∧
        ∀ x z, c.logged.executeCommitted (.deleteRows (.ofStored CatalogQuery.segmentTable)) w = (.ok (), x) →
          c.logged.executeCommitted (.deleteRows (.ofStored CatalogQuery.constraintTable)) x = (.ok (), z) →
          enable c.logged s = (.ok (attempts.countP (·.succeeds)), z) ∧
            z.notes = s.notes ++ questions ++ attempts.flatMap (·.log) ++
              [⟨.execute (.deleteRows (.ofStored CatalogQuery.segmentTable)), none⟩, ⟨.commit, none⟩,
                ⟨.execute (.deleteRows (.ofStored CatalogQuery.constraintTable)), none⟩, ⟨.commit, none⟩] := by
  have listed : Asking s.notes t := by
    have kept := tableExists_asking c CatalogQuery.constraintTable s (asking_self s)
    rwa [present] at kept
  obtain ⟨questions, asked, all⟩ : Asking s.notes u := by
    have kept := stored_asking c t listed
    rwa [read] at kept
  obtain ⟨attempts, w, replay, constraints, restored⟩ := restoreAll_replays (c := c) cs u
  refine ⟨pairwise_stored read, questions, attempts, w, all, replay, constraints, fun x z segments rest => ⟨?_, ?_⟩⟩
  · rw [enable, Action.bind_of_ok present, if_pos rfl, Action.bind_of_ok read, Action.bind_of_ok restored,
      Action.bind_of_ok segments, Action.bind_of_ok rest]
    rfl
  · rw [committed_notes rest, committed_notes segments, replay.notes, asked, List.append_assoc _ [_, _]]
    rfl

end Replaying

namespace Attic

def lost : Error := .invalidVersion "lost"

def refused : Identifier := .ofStored "BOOK_TITLE_UQ"

def uncommitted : Identifier := .ofStored "BOOK_PAGES_CK"

/-- One of the keys that are referenced is no longer there. -/
def catalog : CatalogQuery → List Row
  | .table name => [⟨[.text name]⟩]
  | .storedConstraints =>
    [⟨[.text "BOOK_AUTHOR_FK", .text "FOREIGN KEY", .text "BOOK", .null, .text "AUTHOR_PK", .null, .null, .null]⟩,
      ⟨[.text "BOOK_PAGES_CK", .text "CHECK", .text "BOOK", .null, .null, .null, .null, .text "CHECK (PAGES > 0)"]⟩,
      ⟨[.text "BOOK_TITLE_UQ", .text "UNIQUE", .text "BOOK", .null, .null, .null, .null, .null]⟩,
      ⟨[.text "LOAN_BOOK_FK", .text "FOREIGN KEY", .text "LOAN", .null, .text "BOOK_PK", .null, .null, .null]⟩]
  | .storedSegments =>
    [⟨[.text "BOOK_AUTHOR_FK", .text "AUTHOR", .int 0]⟩, ⟨[.text "BOOK_TITLE_UQ", .text "TITLE", .int 0]⟩,
      ⟨[.text "LOAN_BOOK_FK", .text "BOOK", .int 0]⟩]
  | .key "AUTHOR_PK" => [⟨[.text "AUTHOR", .text "ID"]⟩]
  | _ => []

/-- A connection that refuses one constraint and cannot commit another, and on which nothing is rolled back. Its state
are the rows to be fetched and the constraint that was made last. -/
def cursor : Cursor (List Row × Option Identifier) where
  execute
    | .catalog q => Action.modify fun _ => (catalog q, none)
    | .addConstraint _ name _ =>
      if name = refused then Action.fail lost else Action.modify fun _ => ([], some name)
    | _ => Action.modify fun _ => ([], none)
  fetchOne := return (← Action.get).1.head?
  fetchAll := return (← Action.get).1
  start _ := return ()
  commit := do if (← Action.get).2 = some uncommitted then Action.fail lost
  rollback := Action.fail lost
  serverVersion := return ""

def start : Noted (List Row × Option Identifier) Logged := ⟨([], none), []⟩

def author : Constraint :=
  ⟨"BOOK_AUTHOR_FK", .foreignKey, "BOOK", none, some "AUTHOR_PK", none, none, none, ["AUTHOR"]⟩

def pages : Constraint := ⟨"BOOK_PAGES_CK", .check, "BOOK", none, none, none, none, some "CHECK (PAGES > 0)", []⟩

def title : Constraint := ⟨"BOOK_TITLE_UQ", .unique, "BOOK", none, none, none, none, none, ["TITLE"]⟩

def loan : Constraint := ⟨"LOAN_BOOK_FK", .foreignKey, "LOAN", none, some "BOOK_PK", none, none, none, ["BOOK"]⟩

theorem stored_catalog (t : Noted (List Row × Option Identifier) Logged) :
    ∃ u, stored cursor.logged t = (.ok [title, pages, author, loan], u) := by
  let bare (k : Constraint) : Constraint := { k with columns := [] }
  let segments : List Segment := [⟨author.name, 0, "AUTHOR"⟩, ⟨title.name, 0, "TITLE"⟩, ⟨loan.name, 0, "BOOK"⟩]
  have attached : Constraint.attach segments ([author, pages, title, loan].map bare) = [author, pages, title, loan] := by
    decide +kernel
  have sorted : Constraint.assemble ([author, pages, title, loan].map bare) segments = [title, pages, author, loan] := by
    rw [Constraint.assemble, attached]
    exact mergeSort_restoreRank (by decide)
  rw [← sorted]
  exact ⟨_, rfl⟩

/-- Of four constraints one is made. One is refused, one is lost, and nothing is sent for the last, whose key is gone. -/
theorem enable_replays_attic :
    ∃ (attempts : List Attempt) (u w z : Noted (List Row × Option Identifier) Logged),
      Replay cursor u attempts w ∧ attempts.map (·.constraint) = [title, pages, author, loan] ∧
        enable cursor.logged start = (.ok 1, z) ∧ attempts.countP (·.succeeds) = 1 ∧
        (attempts.flatMap (·.log)).Sublist z.notes := by
  obtain ⟨t, present⟩ : ∃ t, tableExists cursor.logged CatalogQuery.constraintTable start = (.ok true, t) := ⟨_, rfl⟩
  obtain ⟨u, read⟩ := stored_catalog t
  obtain ⟨-, questions, attempts, w, -, replay, constraints, cleared⟩ := enable_replays cursor present read
  obtain ⟨enabled, notes⟩ := cleared _ _ rfl rfl
  have one : (enable cursor.logged start).1 = .ok 1 := by
    rw [enable, Action.bind_of_ok present, if_pos rfl, Action.bind_of_ok read]
    rfl
  rw [enabled] at one
  have count := Except.ok.inj one
  rw [count] at enabled
  refine ⟨attempts, u, w, _, replay, constraints, enabled, count, ?_⟩
  rw [notes]
  exact (List.sublist_append_right _ _).trans (List.sublist_append_left _ _)

end Attic

end Shadow

end FirebirdSql
