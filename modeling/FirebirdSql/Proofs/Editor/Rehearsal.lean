import FirebirdSql.Proofs.Editor.Discipline
import FirebirdSql.Proofs.Transaction

/-!
Collecting statements rehearses sending them: where nothing fails and the catalog answers as is taken as given, an
editor that collects asks the catalog and does no more, and has in the end the statements that one that sends has sent.
-/

namespace FirebirdSql

/-- The statements of a log that are no questions to the catalog. -/
def Logged.sent (calls : List Logged) : List Statement :=
  calls.filterMap fun l =>
    match l.call with
    | .execute s => if s.isCatalogRead then none else some s
    | _ => none

theorem Logged.sent_append (calls calls' : List Logged) : sent (calls ++ calls') = sent calls ++ sent calls' :=
  List.filterMap_append

theorem Tried.sent_eq {s : Statement} {commits : Bool} {calls : List Logged} {r : Option Error} (h : Tried s commits calls r)
    (change : s.isCatalogRead = false) : Logged.sent calls = [s] := by
  cases h <;> simp [Logged.sent, change]

/-- Nothing fails on the connection, and its catalog answers every question with the same rows each time. -/
structure Cursor.Obliges (c : Cursor σ) (reply : CatalogQuery → List Row) : Prop where
  execute : ∀ s t, (c.execute s t).1 = .ok ()
  commit : ∀ t, (c.commit t).1 = .ok ()
  catalog : Catalog.Steady c fun _ q => .ok (reply q)

namespace Cursor

variable (c : Cursor σ)

/-- A question and its answer are one call. -/
theorem logged_query_apply (s : Statement) (t : Noted σ Logged) :
    (c.logged.query s t).1 = (c.query s t.link).1 ∧
      (c.logged.query s t).2.notes = t.notes ++ [⟨.execute s, failureOf (c.execute s t.link).1⟩] := by
  simp only [query, logged, Action.bind_apply, Noted.logging]
  obtain ⟨r, link⟩ := c.execute s t.link
  cases r <;> exact ⟨rfl, rfl⟩

variable {c : Cursor σ} {reply : CatalogQuery → List Row}

theorem Obliges.logged (h : c.Obliges reply) : c.logged.Obliges reply where
  execute s t := h.execute s t.link
  commit t := h.commit t.link
  catalog q t := ⟨(c.logged_query_apply (.catalog q) t).1.trans (h.catalog q t.link).1, rfl⟩

theorem Obliges.accepts (h : c.Obliges reply) : c.Accepts := ⟨h.execute, h.commit⟩

theorem Accepts.logged (h : c.Accepts) : c.logged.Accepts where
  execute s t := h.execute s t.link
  commit t := h.commit t.link

end Cursor

namespace Catalog

theorem Inquiry.found_invalidate (i : Inquiry) (cache : Cache) (table : String) :
    i.found (cache.invalidate table) = if Cache.key i.table = Cache.key table then none else i.found cache := by
  cases i with
  | columns other =>
    simp only [found, Inquiry.table, Cache.columns?_invalidate]
    exact apply_ite ..
  | constraints other =>
    simp only [found, Inquiry.table, Cache.constraints?_invalidate]
    exact apply_ite ..

end Catalog

namespace Editor

/-- A statement is sent once, whether or not it fails. -/
theorem logged_send_sent (ed : Editor σ) {s : Statement} (change : s.isCatalogRead = false) (link : Noted σ Logged) :
    Logged.sent (ed.logged.send s link).2.notes = Logged.sent link.notes ++ [s] := by
  obtain ⟨calls, notes, tried⟩ := ed.send_logs s link
  rw [notes, Logged.sent_append, tried.sent_eq change]

/-- Where an editor that collects stands when one that sends has done the same. -/
structure Rehearsed (x y : State (Noted σ Logged)) : Prop where
  tidy : y.Tidy
  deferred : x.deferred = y.deferred
  remembered : ∀ i : Catalog.Inquiry, i.found x.base.cache = i.found y.base.cache
  collected : x.collected = Logged.sent y.base.link.notes
  asks : ∀ l ∈ x.base.link.notes, ∃ q, l.call = .execute (.catalog q)

namespace Rehearsed

variable {x y : State (Noted σ Logged)} {c : Cursor σ}

/-- What only the sending editor asks is not among its statements. -/
theorem ask_right (same : Rehearsed x y) (q : CatalogQuery) : Rehearsed x (onLink (Catalog.ask c.logged q) y).2 := by
  refine ⟨same.tidy, same.deferred, same.remembered, same.collected.trans ?_, same.asks⟩
  change _ = Logged.sent (c.logged.query (.catalog q) y.base.link).2.notes
  rw [(c.logged_query_apply (.catalog q) y.base.link).2, Logged.sent_append]
  exact (List.append_nil _).symm

theorem ask_left (same : Rehearsed x y) (q : CatalogQuery) : Rehearsed (onLink (Catalog.ask c.logged q) x).2 y := by
  refine ⟨same.tidy, same.deferred, same.remembered, same.collected, ?_⟩
  change ∀ l ∈ (c.logged.query (.catalog q) x.base.link).2.notes, _
  rw [(c.logged_query_apply (.catalog q) x.base.link).2]
  exact List.forall_mem_append.mpr ⟨same.asks, List.forall_mem_singleton.mpr ⟨q, rfl⟩⟩

end Rehearsed

/-- The first program does in an editor that collects what the second one does in an editor that sends. -/
def Rehearses (x y : Edit (Noted σ Logged) α) : Prop :=
  ∀ s t, Rehearsed s t → (x s).1 = (y t).1 ∧ Rehearsed (x s).2 (y t).2

namespace Rehearses

variable {ed : Editor σ} {reply : CatalogQuery → List Row}

theorem lift (r : Except Error α) : Rehearses (Action.lift r : Edit (Noted σ Logged) α) (Action.lift r) :=
  fun _ _ same => ⟨rfl, same⟩

theorem bind {x y : Edit (Noted σ Logged) α} {f g : α → Edit (Noted σ Logged) β} (hx : Rehearses x y)
    (hf : ∀ a, Rehearses (f a) (g a)) : Rehearses (x >>= f) (y >>= g) := by
  intro s t same
  obtain ⟨outcome, same⟩ := hx s t same
  rw [Action.bind_apply, Action.bind_apply]
  revert outcome same
  obtain ⟨r, s⟩ := x s
  obtain ⟨r', t⟩ := y t
  rintro ⟨rfl⟩ same
  cases r with
  | ok a => exact hf a s t same
  | error e => exact ⟨rfl, same⟩

theorem ite {c : Prop} [Decidable c] {x x' y y' : Edit (Noted σ Logged) α} (h : Rehearses x y) (h' : Rehearses x' y') :
    Rehearses (if c then x else x') (if c then y else y') := by
  split
  · exact h
  · exact h'

theorem attempt {x y : Edit (Noted σ Logged) α} (h : Rehearses x y) : Rehearses x.attempt y.attempt :=
  fun s t same => ⟨congrArg Except.ok (h s t same).1, (h s t same).2⟩

theorem execute (h : ed.cursor.Obliges reply) {s : Statement} (change : s.isCatalogRead = false) :
    Rehearses (ed.logged.collecting.execute s) (ed.logged.sending.execute s) := by
  intro x y same
  unfold Editor.execute
  rw [Action.bind_apply, Action.bind_apply, Action.lift_apply, Action.lift_apply]
  cases s.fragment.validate with
  | error e => exact ⟨rfl, same⟩
  | ok _ =>
    have passes : (ed.logged.send s y.base.link).1 = .ok () := h.accepts.logged.send s _
    refine ⟨passes.symm, ⟨same.tidy, same.deferred, same.remembered, ?_, same.asks⟩⟩
    change x.collected ++ [s] = Logged.sent (ed.logged.send s y.base.link).2.notes
    rw [ed.logged_send_sent change, same.collected]

theorem run (h : ed.cursor.Obliges reply) (table : String) {s : Statement} (change : s.isCatalogRead = false) :
    Rehearses (ed.logged.collecting.run table s) (ed.logged.sending.run table s) := by
  intro x y same
  obtain ⟨outcome, same⟩ := execute h change x y same
  rw [run_apply, run_apply]
  refine ⟨outcome, ⟨same.tidy, same.deferred, fun i => ?_, same.collected, same.asks⟩⟩
  dsimp only
  rw [i.found_invalidate, i.found_invalidate, same.remembered]

theorem createIndex (h : ed.cursor.Obliges reply) (table name : String) (columns : List String) (unique : Bool) :
    Rehearses (ed.logged.collecting.createIndex table name columns unique)
      (ed.logged.sending.createIndex table name columns unique) := by
  let direct := Statement.createIndex unique (ed.quote name) (ed.quote table) (ed.quoteAll columns)
  let hashed := Statement.createHashIndex unique (ed.quote name) (ed.quote table) (ed.quoteAll columns)
  refine (run h table (s := direct) rfl).attempt.bind fun r => ?_
  cases r with
  | ok _ => exact lift (.ok ())
  | error e => exact ite (run h table (s := hashed) rfl) (lift (.error e))

theorem ask (h : ed.cursor.Obliges reply) (q : CatalogQuery) :
    Rehearses (onLink (Catalog.ask ed.logged.cursor q)) (onLink (Catalog.ask ed.logged.cursor q)) := by
  intro x y same
  refine ⟨?_, (same.ask_left q).ask_right q⟩
  exact (h.logged.catalog q x.base.link).1.trans (h.logged.catalog q y.base.link).1.symm

/-- What is taken as given is what the catalog has to say. -/
theorem presume (h : ed.cursor.Obliges reply) (q : CatalogQuery) {read : List Row → Except Error α} {given : α}
    (foreseen : read (reply q) = .ok given) : Rehearses (return given)
      (onLink (Catalog.ask ed.logged.cursor q >>= fun rows => Action.lift (read rows))) := by
  intro x y same
  have answered : (onLink (Catalog.ask ed.logged.cursor q) y).1 = .ok (reply q) := (h.logged.catalog q y.base.link).1
  have asked := same.ask_right (c := ed.cursor) q
  rw [onLink_bind, Action.bind_apply]
  revert answered asked
  change (onLink (Catalog.ask ed.logged.cursor q) y).1 = _ →
    Rehearsed _ (onLink (Catalog.ask ed.logged.cursor q) y).2 → _
  obtain ⟨r, t⟩ := onLink (Catalog.ask ed.logged.cursor q) y
  rintro ⟨rfl⟩ asked
  exact ⟨foreseen.symm, asked⟩

theorem cached {c : Cursor (Noted σ Logged)} {e : Engine} {i : Catalog.Inquiry}
    (h : Rehearses (onLink (i.direct c e)) (onLink (i.direct c e))) :
    Rehearses (onBase (i.cached c e)) (onBase (i.cached c e)) := by
  intro x y same
  rw [onBase, Action.within_apply, Action.within_apply]
  cases hit : i.found x.base.cache with
  | some d =>
    rw [Catalog.Inquiry.cached_hit hit, Catalog.Inquiry.cached_hit ((same.remembered i).symm.trans hit)]
    exact ⟨rfl, same⟩
  | none =>
    obtain ⟨outcome, link, kept⟩ := Catalog.Inquiry.cached_miss (c := c) (e := e) hit
    obtain ⟨outcome', link', kept'⟩ :=
      Catalog.Inquiry.cached_miss (c := c) (e := e) ((same.remembered i).symm.trans hit)
    obtain ⟨described, read⟩ := h x y same
    have told : (i.direct c e x.base.link).1 = (i.direct c e y.base.link).1 := described
    refine ⟨outcome.trans (told.trans outcome'.symm), ⟨read.tidy, read.deferred, fun j => ?_, ?_, ?_⟩⟩
    · exact (kept j).trans ((congrArg₂ _ (congrArg _ told) (same.remembered j)).trans (kept' j).symm)
    · exact read.collected.trans (congrArg _ (congrArg Noted.notes link'.symm))
    · rw [show (i.cached c e x.base).2.link.notes = _ from congrArg Noted.notes link]
      exact read.asks

theorem defer {ss : List Statement} (h : ∀ s ∈ ss, s.isSingle = true) :
    Rehearses (Editor.defer ss : Edit (Noted σ Logged) Unit) (Editor.defer ss) := fun _ _ same =>
  ⟨rfl, ⟨List.forall_mem_append.mpr ⟨same.tidy, h⟩, congrArg (· ++ ss) same.deferred, same.remembered, same.collected,
    same.asks⟩⟩

theorem finish (h : ∀ ss : List Statement, (∀ s ∈ ss, s.isSingle = true) →
      Rehearses (Action.forEach ed.logged.collecting.execute ss) (Action.forEach ed.logged.sending.execute ss)) :
    Rehearses (do let _ ← ed.logged.collecting.finish; return ()) (do let _ ← ed.logged.sending.finish; return ()) := by
  intro x y same
  rw [finish_apply, finish_apply, same.deferred]
  refine h y.deferred same.tidy _ _ ⟨?_, rfl, same.remembered, same.collected, same.asks⟩
  exact fun d hd => absurd hd List.not_mem_nil

theorem refresh (h : ed.cursor.Obliges reply) :
    Rehearses ed.logged.collecting.refresh ed.logged.sending.refresh := by
  intro x y same
  have spared : ed.logged.collecting.refresh = return () := if_neg (by simp [collecting])
  rw [spared]
  unfold Editor.refresh
  split
  · refine ⟨(h.commit y.base.link.link).symm, ⟨same.tidy, same.deferred, same.remembered, ?_, same.asks⟩⟩
    refine same.collected.trans ?_
    change _ = Logged.sent (_ ++ [_])
    rw [Logged.sent_append]
    exact (List.append_nil _).symm
  · exact ⟨rfl, same⟩

end Rehearses

variable {ed : Editor σ} {reply : CatalogQuery → List Row} {P : CatalogQuery → Prop}

theorem InStep.rehearses {x y : Edit (Noted σ Logged) α} (h : ed.cursor.Obliges reply)
    (foreseen : ∀ q, P q → q.Foreseen (reply q)) (hx : InStep ed.logged P x y) : Rehearses x y := by
  induction hx with
  | lift r => exact .lift r
  | bind _ _ ihx ihf => exact ihx.bind ihf
  | execute s single => exact .execute h (Statement.isCatalogRead_of_single single)
  | run table s single => exact .run h table (Statement.isCatalogRead_of_single single)
  | createIndex table name columns unique => exact .createIndex h table name columns unique
  | ask q => exact .ask h q
  | inquire i _ ih => exact ih.cached
  | presume q read given asked answers => exact .presume h q (answers _ (foreseen q asked))
  | defer ss single => exact .defer single
  | finish _ ih => exact .finish ih

theorem Ending.rehearses {x y : Edit (Noted σ Logged) Unit} (h : ed.cursor.Obliges reply)
    (foreseen : ∀ q, P q → q.Foreseen (reply q)) (hx : Ending ed.logged P x y) : Rehearses x y := by
  induction hx with
  | refresh => exact .refresh h
  | bind hx _ ih => exact (hx.rehearses h foreseen).bind ih

/-- One request after another. -/
theorem Rehearses.after {ι : Type} {f g : ι → Edit (Noted σ Logged) α} {is : List ι}
    (h : ∀ i ∈ is, Rehearses (f i) (g i)) {x y : State (Noted σ Logged)} (same : Rehearsed x y) :
    Action.results f is x = Action.results g is y ∧ Rehearsed (Action.after f is x) (Action.after g is y) := by
  induction is generalizing x y with
  | nil => exact ⟨rfl, same⟩
  | cons i is ih =>
    obtain ⟨outcome, same⟩ := h i List.mem_cons_self x y same
    obtain ⟨outcomes, same⟩ := ih (fun j hj => h j (List.mem_cons_of_mem i hj)) same
    exact ⟨List.cons_eq_cons.mpr ⟨outcome, outcomes⟩, same⟩

/-- On a connection that obliges, and whose catalog answers as is taken as given, requests of an editor that collects
end as those of one that sends. The first puts nothing but questions to the catalog; its script has the statements that
the second has sent, in their order and with their values written out. -/
theorem collecting_rehearses_sending {c : Cursor σ} {reply : CatalogQuery → List Row} (h : c.Obliges reply) (e : Engine)
    (o : Options) (requests : List Request)
    (foreseen : ∀ r ∈ requests, ∀ q, r.Presumes e q → q.Foreseen (reply q)) (link : σ) (cache : Catalog.Cache) :
    let collecting := Request.run (⟨c.logged, e, o, true⟩ : Editor (Noted σ Logged))
    let sending := Request.run (⟨c.logged, e, o, false⟩ : Editor (Noted σ Logged))
    let start := State.ofBase ⟨⟨link, []⟩, cache⟩
    Action.results collecting requests start = Action.results sending requests start ∧
      (∀ l ∈ (Action.after collecting requests start).base.link.notes, ∃ q, l.call = .execute (.catalog q)) ∧
      (Action.after collecting requests start).collected.map (Statement.script e) =
        (Logged.sent (Action.after sending requests start).base.link.notes).map fun s =>
          s.fragment.inlined (fun v => (Literal.ofValue e v).chars) ++ ";" := by
  intro collecting sending start
  have same : Rehearsed start start := by
    refine ⟨?_, rfl, fun _ => rfl, rfl, fun l hl => absurd hl List.not_mem_nil⟩
    exact fun d hd => absurd hd List.not_mem_nil
  have rehearses (r : Request) (hr : r ∈ requests) : Rehearses (collecting r) (sending r) := by
    let plain : Editor σ := ⟨c, e, o, false⟩
    cases refreshes : r.refreshes with
    | false => exact (Request.inStep plain.logged refreshes).rehearses h (foreseen r hr)
    | true => exact (Request.ending plain.logged refreshes).rehearses h (foreseen r hr)
  obtain ⟨outcomes, same⟩ := Rehearses.after rehearses same
  exact ⟨outcomes, same.asks, congrArg (List.map (Statement.script e)) same.collected⟩

namespace Rehearsal

def engine : Engine := ⟨⟨3, 0, 0, 0⟩⟩

/-- All that counts is there, columns have their defaults, and nothing references anything. -/
def furnished : CatalogQuery → List Row
  | .sequence _ | .trigger _ => [⟨[.int 1]⟩]
  | .columnDefault .. => [⟨[.text "DEFAULT 0"]⟩]
  | _ => []

theorem clerk_obliges (reply : CatalogQuery → List Row) : (Catalog.clerk reply).Obliges reply where
  execute s _ := by cases s <;> rfl
  commit _ := rfl
  catalog := Catalog.steady_clerk reply

def books : Model := ⟨"book", [.autoKey "id", .ofType "title" .text], [], [], []⟩

/-- Books may have a number of pages, and then must have one; at last there are no books. -/
def requests : List Request :=
  let optional := { Field.ofType "pages" .integer with null := true }
  let required := { Field.ofType "pages" .integer with default := some (.int 0) }
  [.addField books optional, .alterField ⟨books, optional, required⟩, .deleteModel books, .finish]

theorem furnished_foreseen : ∀ r ∈ requests, ∀ q, r.Presumes engine q → q.Foreseen (furnished q) := by
  intro r hr q presumed
  simp only [requests, List.mem_cons, List.not_mem_nil, or_false] at hr
  rcases hr with rfl | rfl | rfl | rfl
  · cases presumed.1
  · rcases presumed with ⟨column, rfl⟩ | ⟨auto, -⟩
    · rfl
    · cases auto
  · obtain rfl := presumed
    exact List.cons_ne_nil _ _
  · cases presumed

/-- The script of a rehearsal tells what will be sent. -/
theorem collecting_rehearses_sending_books :
    (Catalog.clerk furnished).Obliges furnished ∧
      (∀ r ∈ requests, ∀ q, r.Presumes engine q → q.Foreseen (furnished q)) ∧
      (Logged.sent (Action.after (Request.run ⟨(Catalog.clerk furnished).logged, engine, Options.standard, false⟩)
          requests (State.ofBase ⟨⟨[], []⟩, .empty⟩)).base.link.notes).map (fun s =>
            s.fragment.inlined (fun v => (Literal.ofValue engine v).chars) ++ ";") =
        ["ALTER TABLE \"BOOK\" ADD \"PAGES\" INTEGER;",
          "ALTER TABLE \"BOOK\" ALTER \"PAGES\" SET DEFAULT 0;",
          "UPDATE \"BOOK\" SET \"PAGES\" = 0 WHERE \"PAGES\" IS NULL;",
          "ALTER TABLE \"BOOK\" ALTER \"PAGES\" SET NOT NULL;",
          "ALTER TABLE \"BOOK\" ALTER \"PAGES\" DROP DEFAULT;",
          "DROP TABLE \"BOOK\";",
          "DROP SEQUENCE \"BOOK_SQ\";"] := by
  refine ⟨clerk_obliges furnished, furnished_foreseen, ?_⟩
  have rehearsed := collecting_rehearses_sending (clerk_obliges furnished) engine Options.standard requests
    furnished_foreseen [] .empty
  exact rehearsed.2.2.symm.trans (by decide +kernel)

end Rehearsal

end Editor

end FirebirdSql
