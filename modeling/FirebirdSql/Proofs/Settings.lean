import FirebirdSql.Options

/-!
The pairs of a query as a whole. Of several pairs with one name the last one counts. The first pair that has no known name, or a
value that its option does not take, is what the reading fails with.
-/

namespace FirebirdSql.Options

/-- How a flag is written, in small letters. -/
def flagWords : List (String × Bool) := [
  ("1", true), ("true", true), ("yes", true), ("on", true),
  ("0", false), ("false", false), ("no", false), ("off", false)]

def flag? (value : String) : Option Bool := flagWords.lookup (.ofList (value.toList.map Char.toLower))

def number? (value : String) : Option Nat := Text.readUpTo? 0xFFFFFFFFFFFFFFFF value.toList

def textNames : List String := ["role", "charset", "server_version"]

def flagNames : List String := ["keep_db_defaults", "connection_persists_old_columns", "commit_after_ddl", "use_tz"]

/-- There is an option of the name, and the value is one of its values. -/
def accepts (name value : String) : Bool :=
  textNames.contains name || (flagNames.contains name && (flag? value).isSome)
    || (name == "no_limit_value" && (number? value).isSome)

/-- What the last value that the pairs give to an option reads as. Where they give it none it stays as it is. -/
def latest {α : Type} (pairs : List (String × String)) (name : String) (read : String → Option α) (old : α) : α :=
  ((pairs.reverse.lookup name).bind read).getD old

/-- The settings after all pairs. -/
def settled (o : Options) (pairs : List (String × String)) : Options :=
  { o with
    role := latest pairs "role" (some ∘ some) o.role
    charset := latest pairs "charset" some o.charset
    serverVersion := latest pairs "server_version" (some ∘ some) o.serverVersion
    keepDbDefaults := latest pairs "keep_db_defaults" flag? o.keepDbDefaults
    persistsOldColumns := latest pairs "connection_persists_old_columns" flag? o.persistsOldColumns
    commitAfterDdl := latest pairs "commit_after_ddl" flag? o.commitAfterDdl
    useTz := latest pairs "use_tz" flag? o.useTz
    noLimitValue := latest pairs "no_limit_value" (Option.map some ∘ number?) o.noLimitValue }

theorem readFlag_eq (name value : String) :
    readFlag name value = match flag? value with
      | some b => .ok b
      | none => .error (.invalidOption name value) := by
  unfold readFlag flag?
  generalize String.ofList (value.toList.map Char.toLower) = v
  dsimp only
  split
  · next yes =>
    simp only [List.contains_iff_mem, List.mem_cons, List.not_mem_nil, or_false] at yes
    rcases yes with rfl | rfl | rfl | rfl <;> rfl
  split
  · next no =>
    simp only [List.contains_iff_mem, List.mem_cons, List.not_mem_nil, or_false] at no
    rcases no with rfl | rfl | rfl | rfl <;> rfl
  · next yes no =>
    have absent : flagWords.lookup v = none := by
      simp_all [flagWords, List.lookup_eq_none_iff]
    rw [absent]

variable {name value : String}

theorem accepts_flag (known : name ∈ flagNames) (value : String) : accepts name value = (flag? value).isSome := by
  simp only [flagNames, List.mem_cons, List.not_mem_nil, or_false] at known
  rcases known with rfl | rfl | rfl | rfl <;> simp [accepts, textNames, flagNames]

theorem accepts_number (value : String) : accepts "no_limit_value" value = (number? value).isSome := by
  simp [accepts, textNames, flagNames]

/-- A flag is read before anything is set. -/
theorem set_flag {o : Options} {change : Bool → Options} (known : name ∈ flagNames)
    (settles : ∀ b, flag? value = some b → change b = o.settled [(name, value)]) :
    (do return change (← readFlag name value))
      = if accepts name value then .ok (o.settled [(name, value)]) else .error (.invalidOption name value) := by
  rw [readFlag_eq, accepts_flag known]
  cases read : flag? value with
  | none => rfl
  | some b =>
    rw [← settles b read]
    rfl

theorem set_eq (o : Options) (name value : String) :
    o.set name value = if accepts name value then .ok (o.settled [(name, value)]) else .error (.invalidOption name value) := by
  unfold set
  split
  case h_1 | h_2 | h_3 => rfl
  case h_4 | h_5 | h_6 | h_7 => exact set_flag (by decide) fun b read => by simp [settled, latest, read]
  case h_8 =>
    rw [accepts_number, ← number?]
    cases read : number? value <;> simp [settled, latest, read]
  case h_9 => simp_all [accepts, textNames, flagNames]

theorem latest_cons {α : Type} {read : String → Option α} {pairs : List (String × String)} {given : String}
    (readable : ∀ v, (name, v) ∈ pairs → (read v).isSome = true) (old : α) :
    latest pairs name read (latest [(given, value)] name read old) = latest ((given, value) :: pairs) name read old := by
  have split : ((given, value) :: pairs).reverse.lookup name
      = (pairs.reverse.lookup name).or ([(given, value)].lookup name) := by
    rw [List.reverse_cons, List.lookup_append]
  -- A value that the rest gives hides the one of the first pair, since it can be read.
  unfold latest
  rw [split]
  cases last : pairs.reverse.lookup name with
  | none => rfl
  | some v =>
    obtain ⟨before, after, parts, -⟩ := List.lookup_eq_some_iff.mp last
    have within : (name, v) ∈ pairs := List.mem_reverse.mp (parts ▸ List.mem_append_right _ List.mem_cons_self)
    obtain ⟨a, read⟩ := Option.isSome_iff_exists.mp (readable v within)
    simp [read]

theorem settled_cons (o : Options) {pairs : List (String × String)}
    (accepted : ∀ name value, (name, value) ∈ pairs → accepts name value = true) :
    (o.settled [(name, value)]).settled pairs = o.settled ((name, value) :: pairs) := by
  have flag (name : String) (known : name ∈ flagNames) (v : String) (within : (name, v) ∈ pairs) : (flag? v).isSome = true := by
    rw [← accepts_flag known]
    exact accepted name v within
  have number (v : String) (within : ("no_limit_value", v) ∈ pairs) : ((Option.map some ∘ number?) v).isSome = true := by
    rw [Function.comp_apply, Option.isSome_map, ← accepts_number]
    exact accepted _ v within
  unfold settled
  congr 1
  · exact latest_cons (fun _ _ => rfl) _
  · exact latest_cons (fun _ _ => rfl) _
  · exact latest_cons (fun _ _ => rfl) _
  · exact latest_cons (flag _ (by decide)) _
  · exact latest_cons (flag _ (by decide)) _
  · exact latest_cons (flag _ (by decide)) _
  · exact latest_cons (flag _ (by decide)) _
  · exact latest_cons number _

/-- All pairs are set, or the first that is not accepted is reported. -/
theorem setAll_eq (o : Options) (pairs : List (String × String)) :
    o.setAll pairs = match pairs.find? fun (name, value) => !accepts name value with
      | some (name, value) => .error (.invalidOption name value)
      | none => .ok (o.settled pairs) := by
  induction pairs generalizing o with
  | nil => rfl
  | cons pair pairs ih =>
    obtain ⟨name, value⟩ := pair
    rw [setAll, set_eq]
    cases here : accepts name value with
    | false => simp [here]
    | true =>
      simp only [if_true, ih, List.find?_cons, here, Bool.not_true]
      cases first : pairs.find? fun (name, value) => !accepts name value with
      | some other => rfl
      | none =>
        have accepted (name value : String) (within : (name, value) ∈ pairs) : accepts name value = true := by
          simpa using List.find?_eq_none.mp first _ within
        simp only [settled_cons o accepted]

end FirebirdSql.Options
