import FirebirdSql.Proofs.Counters
import FirebirdSql.Proofs.Editor.Sent
import FirebirdSql.Proofs.SequenceName

/-!
What counts for a table while an editor works on it. A model that is created and deleted again, and a field that is
altered, are followed through the statements that are sent for them and, if they are sent, through what the catalog
tells.
-/

namespace FirebirdSql.Editor

open Action (Keeps Triple Ends ends_ok ends_error ends_always)

/-- The connection sees this, and with a commit after every statement it is settled. -/
structure Sees (ed : Editor σ) (standing : σ → Counters.Standing) (k : Counters) (link : σ) : Prop where
  seen : (standing link).seen = k
  settled : ed.options.commitAfterDdl = true → (standing link).settled = k

def Shows (ed : Editor σ) (standing : σ → Counters.Standing) (k : Counters) (x : State σ) : Prop :=
  ed.Sees standing k x.base.link

theorem onLink_ends {α σ : Type} {x : Action σ α} {s : State σ} {Q : α → σ → Prop} {E : Error → σ → Prop}
    (h : Ends Q E (x s.base.link)) :
    Ends (fun a t => Q a t.base.link) (fun e t => E e t.base.link) (onLink x s) :=
  h.within (fun t : State σ => t.base.link) rfl

section Reflecting

variable {ed : Editor σ} {standing : σ → Counters.Standing} (reflects : ed.cursor.Reflects standing) {k : Counters}

include reflects

/-- A statement that is sent takes effect, or is refused and leaves everything as it was. -/
theorem send_sees (s : Statement) :
    Triple (ed.Sees standing k) (ed.send s) (fun _ => ed.Sees standing (s.countersAfter k)) fun _ => ed.Sees standing k := by
  have executed : Triple (ed.Sees standing k) (ed.cursor.execute s)
      (fun _ t => (standing t).seen = s.countersAfter k ∧
        (ed.options.commitAfterDdl = true → (standing t).settled = k)) (fun _ => ed.Sees standing k) := by
    refine fun link told => (reflects.executed s link).mono (fun _ t ht => ?_) fun _ t ht => ?_
    · rw [ht, told.seen]
      exact ⟨rfl, told.settled⟩
    · exact ⟨ht ▸ told.seen, ht ▸ told.settled⟩
  unfold Editor.send
  split
  · next commits =>
    have committed : Triple (fun t => (standing t).seen = s.countersAfter k ∧
          (ed.options.commitAfterDdl = true → (standing t).settled = k)) ed.cursor.commit
        (fun _ => ed.Sees standing (s.countersAfter k)) (fun _ t => (standing t).settled = k) := by
      refine fun link told => (reflects.committed link).mono (fun _ t ht => ?_) fun _ t ht => ?_
      · exact ⟨ht ▸ told.1, fun _ => ht ▸ told.1⟩
      · exact ht ▸ told.2 commits
    -- After a commit that fails all goes back to what is settled, which was seen before the statement.
    have back : Triple (fun t => (standing t).settled = k) ed.cursor.rollback (fun _ => ed.Sees standing k)
        (fun _ => ed.Sees standing k) := by
      refine fun link settled => ends_always.mpr ?_
      have returned := reflects.returned link
      exact ⟨returned ▸ settled, fun _ => returned ▸ settled⟩
    refine Cursor.executeCommitted_triple ?_ committed fun _ => Cursor.abandon_triple back
    exact executed.weaken (fun _ => id) (fun _ _ => id) fun _ _ told => told.settled commits
  · next keeps =>
    refine Cursor.executeClassified_triple (executed.weaken (fun _ => id) (fun _ t ht => ?_) fun _ _ => id)
    exact ⟨ht.1, fun commits => absurd commits keeps⟩

variable (sends : ed.collects = false)

include sends

theorem run_shows (table : String) (s : Statement) :
    Triple (ed.Shows standing k) (ed.run table s) (fun _ => ed.Shows standing (s.countersAfter k))
      fun _ => ed.Shows standing k := by
  intro x hx
  have sent := send_sees reflects s x.base.link hx
  rw [run_apply, Editor.execute, Action.bind_apply, Action.lift_apply, sends]
  cases s.fragment.validate with
  | error e => exact ends_error.mpr hx
  | ok _ =>
    dsimp only
    rw [if_neg Bool.false_ne_true]
    exact sent.within (fun y : State σ => y.base.link) rfl

omit sends in
theorem ask_shows (q : CatalogQuery) : Keeps (ed.Shows standing k) (onLink (Catalog.ask ed.cursor q)) := by
  intro x hx
  have asked := reflects.asked q x.base.link
  exact ⟨asked ▸ hx.seen, asked ▸ hx.settled⟩

theorem keeper_shows (k : Counters) :
    Keeper ed (ed.Shows standing k) (fun _ s => s.isAside = true) fun _ => True := by
  refine Keeper.of_blind (fun _ _ _ => id) (fun table s aside => ?_) (ask_shows reflects) fun x hx => ?_
  · have ran := run_shows reflects sends (k := k) table s
    rw [Statement.countersAfter_of_isAside aside] at ran
    exact Action.keeps_iff_triple.mpr ran
  · refine ends_always.mp ((onLink_ends (reflects.committed x.base.link)).mono (fun _ y hy => ?_) fun _ y hy => ?_)
    · exact ⟨hy ▸ hx.seen, fun _ => hy ▸ hx.seen⟩
    · exact ⟨hy ▸ hx.seen, hy ▸ hx.settled⟩

end Reflecting

/-- What weighs of what was sent, and what the connection tells if anything is sent to it. -/
structure Followed (ed : Editor σ) (standing : σ → Counters.Standing) (start ss : List Statement) (k : Counters)
    (x : State (Noted σ Statement)) : Prop where
  sent : ed.Sent start ss x
  told : ed.collects = false → ed.recording.Shows (fun link => standing link.link) k x

theorem Followed.of_collects {ed : Editor σ} {standing : σ → Counters.Standing} {start ss : List Statement} {k : Counters}
    {x : State (Noted σ Statement)} (collects : ed.collects = true) (h : ed.Sent start ss x) :
    ed.Followed standing start ss k x :=
  ⟨h, fun sends => absurd (collects.symm.trans sends) Bool.noConfusion⟩

section Following

variable {ed : Editor σ} {standing : σ → Counters.Standing} (truth : ed.collects = false → ed.cursor.Reflects standing)
variable {start ss : List Statement} {k : Counters} {table : String}

include truth

theorem recording_reflects (sends : ed.collects = false) :
    ed.recording.cursor.Reflects fun link => standing link.link := (truth sends).noting _ _

theorem keeper_followed (start ss : List Statement) (k : Counters) :
    Keeper ed.recording (ed.Followed standing start ss k) (fun _ s => s.isAside = true) fun _ => True := by
  have sent := keeper_sent ed start ss
  have shown (sends : ed.collects = false) := keeper_shows (recording_reflects truth sends) sends k
  refine Keeper.of_blind (fun _ _ _ h => ⟨h.sent, h.told⟩) (fun table s aside x h => ?_) (fun q x h => ?_) fun x h => ?_
  · exact ⟨sent.run table s aside x h.sent, fun sends => (shown sends).run table s aside x (h.told sends)⟩
  · exact ⟨sent.ask q x h.sent, fun sends => (shown sends).ask q x (h.told sends)⟩
  · exact ⟨sent.commit x h.sent, fun sends => (shown sends).commit x (h.told sends)⟩

theorem run_followed {s : Statement} (weighs : s.isAside = false) :
    Triple (ed.Followed standing start ss k) (ed.recording.run table s)
      (fun _ => ed.Followed standing start (ss ++ [s]) (s.countersAfter k)) (fun _ _ => True) := by
  intro x hx
  have sent : Ends _ _ (ed.recording.run table s x) := run_sent weighs x hx.sent
  cases sends : ed.collects with
  | true => exact sent.mono (fun _ _ => .of_collects sends) fun _ _ _ => trivial
  | false =>
    have shown := run_shows (recording_reflects truth sends) sends table s x (hx.told sends)
    exact (sent.and shown).mono (fun _ y hy => ⟨hy.1, fun _ => hy.2⟩) fun _ _ _ => trivial

theorem runAll_followed {more : List Statement} (weigh : ∀ s ∈ more, s.isAside = false) :
    Triple (ed.Followed standing start ss k) (ed.recording.runAll table more)
      (fun _ => ed.Followed standing start (ss ++ more) (more.foldl Statement.countersAfter k)) (fun _ _ => True) := by
  induction more generalizing ss k with
  | nil =>
    rw [List.append_nil]
    exact Triple.pure fun _ => id
  | cons s more ih =>
    refine (run_followed truth (weigh s List.mem_cons_self)).bind fun _ => ?_
    have rest := @ih (ss ++ [s]) (s.countersAfter k) fun s' hs => weigh s' (List.mem_cons_of_mem s hs)
    rwa [List.append_assoc] at rest

/-- A question whether something is there is answered truly, and taken as answered if statements are only collected. -/
theorem there_followed {q : CatalogQuery} {there : Counters → Bool}
    (told : ed.collects = false → ∀ link rows, (ed.recording.cursor.query (.catalog q) link).1 = .ok rows →
      (!rows.isEmpty) = there (standing link.link).seen) :
    Triple (ed.Followed standing start ss k)
      (ed.recording.unlessCollecting true (onLink do return !(← Catalog.ask ed.recording.cursor q).isEmpty))
      (fun found y => found = (ed.collects || there k) ∧ ed.Followed standing start ss k y) (fun _ _ => True) := by
  have collects : ed.recording.collects = ed.collects := rfl
  rw [Editor.unlessCollecting, collects]
  cases sends : ed.collects with
  | true => exact Triple.pure fun _ hx => ⟨rfl, hx⟩
  | false =>
    intro x hx
    have answered (rows : List Row) (h : (onLink (Catalog.ask ed.recording.cursor q) x).1 = .ok rows) :
        (!rows.isEmpty) = there k := (told sends x.base.link rows h).trans (congrArg there (hx.told sends).seen)
    have kept := (keeper_followed truth start ss k).ask q x hx
    rw [if_neg Bool.false_ne_true, onLink_bind, Action.bind_apply]
    revert answered kept
    obtain ⟨r, y⟩ := onLink (Catalog.ask ed.recording.cursor q) x
    intro answered kept
    cases r with
    | ok rows => exact ends_ok.mpr ⟨answered rows rfl, kept⟩
    | error e => exact ends_error.mpr trivial

theorem drop_followed {q : CatalogQuery} (there : Counters → Bool) {s : Statement} (weighs : s.isAside = false)
    (told : ed.collects = false → ∀ link rows, (ed.recording.cursor.query (.catalog q) link).1 = .ok rows →
      (!rows.isEmpty) = there (standing link.link).seen) :
    Triple (ed.Followed standing start ss k)
      (do
        if ← ed.recording.unlessCollecting true (onLink do return !(← Catalog.ask ed.recording.cursor q).isEmpty) then
          ed.recording.run table s)
      (fun _ y => ∃ k', ed.Followed standing start (ss ++ if ed.collects || there k then [s] else []) k' y)
      (fun _ _ => True) := by
  refine (there_followed truth told).bind fun found x hx => ?_
  obtain ⟨rfl, hx⟩ := hx
  cases ed.collects || there k with
  | true => exact (run_followed truth weighs x hx).mono (fun _ _ hy => ⟨_, hy⟩) fun _ _ _ => trivial
  | false => exact ends_ok.mpr ⟨k, by rwa [if_neg Bool.false_ne_true, List.append_nil]⟩

theorem dropSequence_followed (table : String) :
    Triple (ed.Followed standing start ss k) (ed.recording.dropSequence table)
      (fun _ y => ∃ k', ed.Followed standing start
        (ss ++ if ed.collects || k.sequences (Sequence.ofTable ed.engine table).sequenceCatalogName then
          [.dropSequence (Sequence.ofTable ed.engine table).sequence] else []) k' y) (fun _ _ => True) :=
  drop_followed truth (·.sequences (Sequence.ofTable ed.engine table).sequenceCatalogName) rfl
    fun sends => (recording_reflects truth sends).sequence _

theorem dropTrigger_followed (table : String) :
    Triple (ed.Followed standing start ss k) (ed.recording.dropTrigger table)
      (fun _ y => ∃ k', ed.Followed standing start
        (ss ++ if ed.collects || (k.triggers (Sequence.ofTable ed.engine table).triggerCatalogName).isSome then
          [.dropTrigger (Sequence.ofTable ed.engine table).trigger] else []) k' y) (fun _ _ => True) :=
  drop_followed truth (fun k => (k.triggers (Sequence.ofTable ed.engine table).triggerCatalogName).isSome) rfl
    fun sends => (recording_reflects truth sends).trigger _

end Following

def ofRegistry : Editor Registry := ⟨Registry.cursor, ⟨⟨3, 0, 5, 33220⟩⟩, Options.standard, false⟩

def startOf (r : Registry) : State (Noted Registry Statement) := ⟨⟨⟨r, []⟩, .empty⟩, [], []⟩

theorem ofRegistry_reflects : ofRegistry.collects = false → ofRegistry.cursor.Reflects Registry.standing :=
  fun _ => Registry.cursor_reflects

theorem startOf_shows {r : Registry} {k : Counters} (stands : r.standing = ⟨k, k⟩) :
    ofRegistry.recording.Shows (fun link => link.link.standing) k (startOf r) where
  seen := congrArg Counters.Standing.seen stands
  settled _ := congrArg Counters.Standing.settled stands

end FirebirdSql.Editor
