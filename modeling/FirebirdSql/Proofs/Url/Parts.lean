import FirebirdSql.Proofs.Url.Host
import Mathlib.Data.List.TakeWhile

/-!
A URL that is put together from its parts is read as these parts. Credentials, the segment of the path and the pairs of the query
are percent-encoded, so that no mark between the parts is taken from within one of them.
-/

namespace FirebirdSql.Url

/-- The parts of a connection URL as they are written: credentials, a host with a port, the segments of the path, and pairs. -/
structure Parts where
  user : List Char
  password : List Char
  host : List Char
  port : List Char
  segments : List (List Char)
  pairs : List (List Char × List Char)

namespace Parts

def hostAndPort (p : Parts) : List Char := p.host ++ ':' :: p.port

def credentials (p : Parts) : List Char := p.user ++ ':' :: p.password

def authority (p : Parts) : List Char := p.credentials ++ '@' :: p.hostAndPort

def path (p : Parts) : List Char := '/' :: Text.joinWith ['/'] p.segments

def pair (name value : List Char) : List Char := name ++ '=' :: value

def writtenPairs (p : Parts) : List (List Char) := p.pairs.map fun (name, value) => pair name value

def query (p : Parts) : List Char := Text.joinWith ['&'] p.writtenPairs

def target (p : Parts) : List Char := p.path ++ '?' :: p.query

/-- The parts after the double slash. -/
def chars (p : Parts) : List Char := p.authority ++ p.target

def text (p : Parts) : String := .ofList ("firebird://".toList ++ p.chars)

theorem toList_text (p : Parts) : p.text.toList = "firebird://".toList ++ p.chars := String.toList_ofList

end Parts

/-- A character that texts are spelled with. -/
def IsSpelling (c : Char) : Prop := c = '%' ∨ Text.Percent.isUnreserved c = true

/-- What the reader asks of the parts so that it finds them; `host` and `n` are what it makes of the host and the port. -/
structure Parts.Sound (p : Parts) (host : List Char) (n : Nat) : Prop where
  user : ∀ c ∈ p.user, IsSpelling c
  password : ∀ c ∈ p.password, IsSpelling c
  segments : ∀ segment ∈ p.segments, ∀ c ∈ segment, IsSpelling c
  pairs : ∀ pair ∈ p.pairs, (∀ c ∈ pair.1, IsSpelling c) ∧ ∀ c ∈ pair.2, IsSpelling c
  hostForm : HostForm p.host host
  numeral : Text.readNat? p.port = some n
  fits : n ≤ 65535
  named : p.user ≠ []
  rooted : p.segments ≠ []
  noDots : ∀ segment ∈ p.segments, isDoubleDot segment = false ∧ isDot segment = false

theorem IsSpelling.elim {p : Char → Prop} [DecidablePred p] {c : Char} (h : IsSpelling c) (percent : p '%')
    (unreserved : ∀ n : Fin 128, Text.Percent.isUnreserved (Char.ofNat n) = true → p (Char.ofNat n)) : p c := by
  rcases h with rfl | h
  · exact percent
  · exact Text.Percent.forall_unreserved unreserved h

/-- What stands between the parts of a URL is in none of the parts. -/
theorem IsSpelling.notMem_marks {c : Char} (h : IsSpelling c) : c ∉ marks ∧ c ∉ [':', '=', '&', '+', ' '] :=
  h.elim (p := fun c => c ∉ marks ∧ c ∉ [':', '=', '&', '+', ' ']) (by decide) (by decide)

theorem IsSpelling.printable {c : Char} (h : IsSpelling c) : 32 < c.toNat :=
  h.elim (p := fun c => 32 < c.toNat) (by decide) (by decide)

theorem isSpelling_of_readNat? {s : List Char} {n : Nat} (h : Text.readNat? s = some n) : ∀ c ∈ s, IsSpelling c :=
  fun c hc => .inr (Ipv6.isUnreserved_of_readNat? h c hc)

theorem encode_of_isSpelling {escapes : Char → Bool} {s : List Char} (h : ∀ c ∈ s, IsSpelling c) (percent : escapes '%' = false)
    (unreserved : ∀ n : Fin 128, Text.Percent.isUnreserved (Char.ofNat n) = true → escapes (Char.ofNat n) = false) :
    Text.Percent.encode escapes s = s := by
  refine Text.Percent.encode_of_passed fun c hc => ⟨?_, ?_⟩
  · exact (h c hc).elim (p := fun c => c.toNat < 128) (by decide) (by decide)
  · exact (h c hc).elim (p := fun c => escapes c = false) percent unreserved

section

variable {c : Char} {s : List Char} {q : Char → Bool}

theorem takeWhile_append_stop (h : ∀ d ∈ s, q d = true) (stop : q c = false) (rest : List Char) :
    (s ++ c :: rest).takeWhile q = s := by
  rw [List.takeWhile_append_of_pos h, List.takeWhile_cons_of_neg (by simp [stop]), List.append_nil]

theorem dropWhile_append_stop (h : ∀ d ∈ s, q d = true) (stop : q c = false) (rest : List Char) :
    (s ++ c :: rest).dropWhile q = c :: rest := by
  rw [List.dropWhile_append_of_pos h, List.dropWhile_cons_of_neg (by simp [stop])]

theorem bne_of_notMem (h : c ∉ s) : ∀ d ∈ s, (d != c) = true := by
  intro d hd
  rw [bne_iff_ne]
  rintro rfl
  exact h hd

theorem splitAtFirst_append (h : c ∉ s) (rest : List Char) : splitAtFirst c (s ++ c :: rest) = (s, rest) := by
  have stop : (c != c) = false := bne_self_eq_false c
  rw [splitAtFirst, takeWhile_append_stop (bne_of_notMem h) stop, dropWhile_append_stop (bne_of_notMem h) stop]
  rfl

theorem splitLast?_append (before : List Char) (h : c ∉ s) : splitLast? c (before ++ c :: s) = some (before, s) := by
  have stop : (c != c) = false := bne_self_eq_false c
  have present : (before ++ c :: s).contains c = true := by simp
  have backwards : (before ++ c :: s).reverse = s.reverse ++ c :: before.reverse := by simp
  have absent : c ∉ s.reverse := by simpa using h
  rw [splitLast?, if_pos present, backwards, takeWhile_append_stop (bne_of_notMem absent) stop,
    dropWhile_append_stop (bne_of_notMem absent) stop, List.reverse_reverse, List.drop_one, List.tail_cons,
    List.reverse_reverse]

end

section

variable {s : List Char} {v n : Nat}

theorem le_of_readDigits (h : Text.readDigits v s = some n) : v ≤ n := by
  induction s generalizing v with
  | nil => exact Nat.le_of_eq (Option.some.inj h)
  | cons c s ih =>
    rw [Text.readDigits] at h
    split at h
    · have := ih h
      omega
    · cases h

theorem readPort_append (h : Text.readDigits v s = some n) (fits : n ≤ 65535) (rest : List Char) :
    readPort (some v) (s ++ '/' :: rest) = .ok (some n, '/' :: rest) := by
  induction s generalizing v with
  | nil =>
    obtain rfl := Option.some.inj h
    rfl
  | cons c s ih =>
    cases digit : Text.digitValue? c with
    | none =>
      rw [Text.readDigits, digit] at h
      cases h
    | some d =>
      rw [Text.readDigits, digit] at h
      -- The value only grows with the digits after it, so the bound on all of them is one on it.
      have least := le_of_readDigits h
      simp only [List.cons_append, readPort, digit, Option.getD_some]
      rw [if_neg (by omega), ih h]

theorem readPort_numeral (h : Text.readNat? s = some n) (fits : n ≤ 65535) (rest : List Char) :
    readPort none (s ++ '/' :: rest) = .ok (some n, '/' :: rest) := by
  cases s with
  | nil => cases h
  | cons c s =>
    have start : readPort none (c :: s ++ '/' :: rest) = readPort (some 0) (c :: s ++ '/' :: rest) := by
      simp only [List.cons_append, readPort, Option.getD_none, Option.getD_some]
      cases digit : Text.digitValue? c with
      | none => simp [Text.readNat?, Text.readDigits, digit] at h
      | some d => rfl
    rw [start]
    exact readPort_append h fits rest

end

/-- Segments that are no dot segments stay. -/
theorem resolveFrom_of_noDots {segments : List (List Char)} (some : segments ≠ [])
    (noDots : ∀ segment ∈ segments, isDoubleDot segment = false ∧ isDot segment = false) (outer : List (List Char)) :
    resolveFrom outer segments = outer.reverse ++ segments := by
  induction segments generalizing outer with
  | nil => exact absurd rfl some
  | cons segment segments ih =>
    obtain ⟨⟨double, single⟩, others⟩ := List.forall_mem_cons.mp noDots
    cases segments with
    | nil => simp [resolveFrom, double, single]
    | cons next segments =>
      have rest := ih (List.cons_ne_nil _ _) others (segment :: outer)
      simp only [resolveFrom, double, single, Bool.false_eq_true, if_false, rest, List.reverse_cons, List.append_assoc,
        List.singleton_append]

variable {p : Parts} {host : List Char} {n : Nat}

namespace Parts

theorem Sound.char_of_mem_authority (h : p.Sound host n) : ∀ c ∈ p.authority, c ∈ marks → c = '@' := by
  intro c hc mark
  have spelling (hc : IsSpelling c) : c = '@' := absurd mark hc.notMem_marks.1
  have colon (hc : c = ':') : c = '@' := absurd mark (by rw [hc]; decide)
  simp only [authority, credentials, hostAndPort, List.mem_append, List.mem_cons] at hc
  rcases hc with (hc | hc | hc) | hc | hc | hc | hc
  · exact spelling (h.user c hc)
  · exact colon hc
  · exact spelling (h.password c hc)
  · exact hc
  · exact absurd mark (h.hostForm.notMem_marks c hc)
  · exact colon hc
  · exact spelling (isSpelling_of_readNat? h.numeral c hc)

theorem Sound.splitLast?_authority (h : p.Sound host n) :
    splitLast? '@' p.authority = some (p.credentials, p.hostAndPort) := by
  have mark : '@' ∈ marks := by decide
  refine splitLast?_append _ fun within => ?_
  rcases List.mem_append.mp within with within | within
  · exact h.hostForm.notMem_marks _ within mark
  · rcases List.mem_cons.mp within with within | within
    · exact absurd within (by decide)
    · exact (isSpelling_of_readNat? h.numeral _ within).notMem_marks.1 mark

theorem Sound.read_credentials (h : p.Sound host n) :
    Credentials.read p.credentials = ⟨p.user, if p.password.isEmpty then none else some p.password⟩ := by
  have colon : ':' ∉ p.user := fun within => (h.user _ within).notMem_marks.2 (by decide)
  rw [Credentials.read, credentials, splitAtFirst_append colon]
  dsimp only
  rw [encode_of_isSpelling h.user (by decide) (by decide), encode_of_isSpelling h.password (by decide) (by decide)]

theorem Sound.char_of_mem_path (h : p.Sound host n) : ∀ c ∈ p.path, IsSpelling c ∨ c = '/' := by
  refine List.forall_mem_cons.mpr ⟨.inr rfl, Identifier.forall_joinWith ?_ ?_⟩
  · exact fun c hc => .inr (List.mem_singleton.mp hc)
  · exact fun segment within c hc => .inl (h.segments segment within c hc)

theorem Sound.char_of_mem_pair (h : p.Sound host n) : ∀ part ∈ p.writtenPairs, ∀ c ∈ part, IsSpelling c ∨ c = '=' := by
  intro part within c hc
  obtain ⟨⟨name, value⟩, written, rfl⟩ := List.mem_map.mp within
  obtain ⟨inName, inValue⟩ := h.pairs _ written
  rcases List.mem_append.mp hc with hc | hc
  · exact .inl (inName c hc)
  rcases List.mem_cons.mp hc with same | hc
  · exact .inr same
  · exact .inl (inValue c hc)

theorem Sound.char_of_mem_query (h : p.Sound host n) : ∀ c ∈ p.query, IsSpelling c ∨ c = '=' ∨ c = '&' := by
  refine Identifier.forall_joinWith ?_ ?_
  · exact fun c hc => .inr (.inr (List.mem_singleton.mp hc))
  · exact fun part within c hc => (h.char_of_mem_pair part within c hc).imp_right .inl

theorem Sound.char_of_mem_target (h : p.Sound host n) : ∀ c ∈ p.target, IsSpelling c ∨ c ∈ ['/', '?', '=', '&'] := by
  intro c hc
  rcases List.mem_append.mp hc with hc | hc
  · exact (h.char_of_mem_path c hc).imp_right fun same => by simp [same]
  rcases List.mem_cons.mp hc with rfl | hc
  · exact .inr (by decide)
  · exact (h.char_of_mem_query c hc).imp_right fun same => by rcases same with rfl | rfl <;> decide

theorem Sound.splitQuery_target (h : p.Sound host n) : splitQuery p.target = (p.path, some p.query) := by
  have noHash : ∀ c ∈ p.target, (c != '#') = true := by
    refine fun c hc => bne_iff_ne.mpr ?_
    rintro rfl
    rcases h.char_of_mem_target _ hc with hc | hc
    · exact hc.notMem_marks.1 (by decide)
    · exact absurd hc (by decide)
  have noMark : '?' ∉ p.path := by
    intro hc
    rcases h.char_of_mem_path _ hc with hc | hc
    · exact hc.notMem_marks.1 (by decide)
    · exact absurd hc (by decide)
  have present : p.target.contains '?' = true := by simp [target]
  have query : Text.Percent.encode escapesInQuery p.query = p.query := by
    refine Text.Percent.encode_of_passed fun c hc => ?_
    rcases h.char_of_mem_query c hc with hc | rfl | rfl
    · exact hc.elim (p := fun c => c.toNat < 128 ∧ escapesInQuery c = false) (by decide) (by decide)
    · decide
    · decide
  have whole : p.target.takeWhile (· != '#') = p.target := List.takeWhile_eq_self_iff.mpr noHash
  rw [splitQuery, whole]
  dsimp only
  rw [if_pos present, target, splitAtFirst_append noMark, query]

theorem Sound.pathAfterAuthority_eq (h : p.Sound host n) : pathAfterAuthority .plain p.path = p.path := by
  have slash : (fun c => if SchemeKind.plain.isSlash c then '/' else c) = id := by
    funext c
    rw [SchemeKind.isSlash]
    split <;> simp_all
  have apart : ∀ segment ∈ p.segments, '/' ∉ segment :=
    fun segment within hc => (h.segments segment within _ hc).notMem_marks.1 (by decide)
  have kept : p.segments.map (Text.Percent.encode escapesInPath) = p.segments := by
    have same : ∀ segment ∈ p.segments, Text.Percent.encode escapesInPath segment = id segment :=
      fun segment within => encode_of_isSpelling (h.segments segment within) (by decide) (by decide)
    rw [List.map_congr_left same, List.map_id]
  rw [path, pathAfterAuthority]
  change rootedPath .plain _ = _
  rw [rootedPath, slash, List.map_id, Text.splitAt_joinWith h.rooted apart, kept, resolveFrom_of_noDots h.rooted h.noDots]
  rfl

theorem Sound.readAuthority_eq (h : p.Sound host n) (scheme : List Char) :
    readAuthority scheme .plain p.chars = .ok {
      scheme := .ofList scheme
      username := .ofList p.user
      password := (if p.password.isEmpty then none else some p.password).map String.ofList
      host := some (.ofList host)
      port := some n
      path := .ofList p.path
      query := some (.ofList p.query) } := by
  have before : ∀ c ∈ p.authority, (!endsAuthority .plain c) = true := by
    intro c hc
    have sure := h.char_of_mem_authority c hc
    rw [Bool.not_eq_true']
    refine Bool.eq_false_iff.mpr fun ends => ?_
    simp only [endsAuthority, SchemeKind.isSlash, bne_self_eq_false, Bool.and_false, Bool.or_false, Bool.or_eq_true, beq_iff_eq] at ends
    rcases ends with (rfl | rfl) | rfl
    all_goals exact absurd (sure (by decide)) (by decide)
  have front : p.chars.takeWhile (!endsAuthority .plain ·) = p.authority := takeWhile_append_stop before rfl _
  have back : p.chars.dropWhile (!endsAuthority .plain ·) = p.target := dropWhile_append_stop before rfl _
  have login := h.splitLast?_authority
  have credentials := h.read_credentials
  have length : hostLength false p.hostAndPort = p.host.length := h.hostForm.hostLength_eq p.port
  have read := h.hostForm.readHost_eq
  have port : readPort none (p.port ++ p.target) = .ok (some n, p.target) := readPort_numeral h.numeral h.fits _
  have query := h.splitQuery_target
  have path := h.pathAfterAuthority_eq
  have hostText : p.hostAndPort.take p.host.length = p.host := List.take_left
  have portText : p.hostAndPort.drop p.host.length = ':' :: p.port := List.drop_left
  have written : p.host.isEmpty = false := by simpa using h.hostForm.ne_nil.1
  have value : host.isEmpty = false := by simpa using h.hostForm.ne_nil.2
  obtain ⟨c, cs, present⟩ : ∃ c cs, p.credentials = c :: cs :=
    List.exists_cons_of_ne_nil (List.append_ne_nil_of_left_ne_nil h.named _)
  -- The reader's steps in their order: the userinfo, the extent of the host, the host, the port, the path and the query.
  unfold readAuthority
  rw [front, back]
  dsimp only
  rw [login, present]
  simp only [pure_bind, ← present, credentials, reduceCtorEq, if_false, length, hostText, portText, written, Bool.false_eq_true,
    false_and, read, port]
  simp only [bind, Except.bind, query, path, value, Bool.false_eq_true, if_false, Option.map_some, pure, Except.pure]

theorem Sound.printable_target (h : p.Sound host n) : ∀ c ∈ p.target, 32 < c.toNat := by
  intro c hc
  rcases h.char_of_mem_target c hc with hc | hc
  · exact hc.printable
  · have all : ['/', '?', '=', '&'].all (32 < ·.toNat) = true := by decide
    exact of_decide_eq_true (List.all_eq_true.mp all c hc)

theorem Sound.kept_text (h : p.Sound host n) : ∀ c ∈ p.text.toList, (c != '\t' && c != '\n' && c != '\r') = true := by
  intro c hc
  rw [toList_text] at hc
  rcases List.mem_append.mp hc with hc | hc
  · have all : "firebird://".toList.all (fun c => c != '\t' && c != '\n' && c != '\r') = true := by decide
    exact List.all_eq_true.mp all c hc
  simp only [Bool.and_eq_true, bne_iff_ne, and_assoc]
  rcases List.mem_append.mp hc with hc | hc
  · have sure := h.char_of_mem_authority c hc
    refine ⟨?_, ?_, ?_⟩
    all_goals
      rintro rfl
      exact absurd (sure (by decide)) (by decide)
  · have visible := h.printable_target c hc
    refine ⟨?_, ?_, ?_⟩
    all_goals
      rintro rfl
      exact absurd visible (by decide)

/-- There is nothing in the URL for the reader to drop. -/
theorem Sound.clean_text (h : p.Sound host n) : clean p.text.toList = p.text.toList := by
  obtain ⟨target, last, ends⟩ : ∃ s c, p.target = s ++ [c] :=
    ⟨_, _, (List.dropLast_concat_getLast (List.append_ne_nil_of_right_ne_nil p.path (List.cons_ne_nil '?' p.query))).symm⟩
  have printable : 32 < last.toNat := h.printable_target last (by simp [ends])
  have back : p.text.toList.reverse.dropWhile (fun c => decide (c.toNat ≤ 32)) = p.text.toList.reverse := by
    rw [toList_text, chars, ends, ← List.append_assoc, ← List.append_assoc, List.reverse_concat]
    exact List.dropWhile_cons_of_neg (by simp [printable])
  have front : p.text.toList.dropWhile (fun c => decide (c.toNat ≤ 32)) = p.text.toList := by
    rw [toList_text]
    exact List.dropWhile_cons_of_neg (by decide)
  rw [clean, front, back, List.reverse_reverse, List.filter_eq_self.mpr h.kept_text]

theorem Sound.read_text (h : p.Sound host n) :
    Url.read p.text = .ok {
      scheme := "firebird"
      username := .ofList p.user
      password := (if p.password.isEmpty then none else some p.password).map String.ofList
      host := some (.ofList host)
      port := some n
      path := .ofList p.path
      query := some (.ofList p.query) } := by
  have scheme (rest : List Char) : splitScheme? ("firebird://".toList ++ rest) = some ("firebird".toList, '/' :: '/' :: rest) := rfl
  have kind : SchemeKind.ofName (.ofList "firebird".toList) = .plain := by decide
  rw [Url.read, h.clean_text, toList_text, scheme]
  dsimp only
  rw [kind]
  refine (h.readAuthority_eq "firebird".toList).trans ?_
  rw [String.ofList_toList]

open Text.Percent (decodeText)

theorem Sound.pairs_query (h : p.Sound host n) :
    Url.pairs (.ofList p.query) = p.pairs.map fun (name, value) => (decodeText name, decodeText value) := by
  have space {s : List Char} (hs : ∀ c ∈ s, IsSpelling c) : (s.map fun c => if c = '+' then ' ' else c) = s := by
    have same : ∀ c ∈ s, (if c = '+' then ' ' else c) = id c := by
      intro c hc
      refine if_neg ?_
      rintro rfl
      exact (hs _ hc).notMem_marks.2 (by decide)
    rw [List.map_congr_left same, List.map_id]
  have parts : (Text.splitAt '&' p.query).filter (!·.isEmpty) = p.writtenPairs := by
    have notEmpty : ∀ part ∈ p.writtenPairs, (!part.isEmpty) = true := by
      intro part within
      obtain ⟨⟨name, value⟩, -, rfl⟩ := List.mem_map.mp within
      simp [pair]
    have apart : ∀ part ∈ p.writtenPairs, '&' ∉ part := by
      intro part within hc
      rcases h.char_of_mem_pair part within _ hc with hc | hc
      · exact hc.notMem_marks.2 (by decide)
      · exact absurd hc (by decide)
    rw [query]
    by_cases none : p.writtenPairs = []
    · rw [none]
      rfl
    · rw [Text.splitAt_joinWith none apart, List.filter_eq_self.mpr notEmpty]
  rw [Url.pairs, String.toList_ofList, parts, writtenPairs, List.map_map]
  refine List.map_congr_left fun (name, value) within => ?_
  obtain ⟨inName, inValue⟩ := h.pairs _ within
  have mark : '=' ∉ name := fun hc => (inName _ hc).notMem_marks.2 (by decide)
  dsimp only [Function.comp_apply]
  rw [pair, splitAtFirst_append mark]
  dsimp only
  rw [space inName, space inValue]

end Parts

section

open Text.Percent (Writes decode)

variable {s : List Char} {t : String}

theorem decode_append_of_isDot (h : isDot s = true) (rest : List Char) : decode (s ++ rest) = 0x2E :: decode rest := by
  simp only [isDot, Bool.or_eq_true, beq_iff_eq] at h
  rcases h with (rfl | rfl) | rfl <;> rfl

theorem decode_of_isDot (h : isDot s = true) : decode s = [0x2E] := by
  have whole := decode_append_of_isDot h []
  rwa [List.append_nil] at whole

theorem decode_of_isDoubleDot (h : isDoubleDot s = true) : decode s = [0x2E, 0x2E] := by
  obtain ⟨first, second, rfl, hf, hs⟩ : ∃ first second, s = first ++ second ∧ isDot first = true ∧ isDot second = true := by
    simp only [isDoubleDot, Bool.or_eq_true, Bool.and_eq_true, beq_iff_eq] at h
    rcases h with ⟨point, rest⟩ | ⟨first, second⟩
    · obtain ⟨s, rfl⟩ := List.head?_eq_some_iff.mp point
      exact ⟨['.'], s, rfl, rfl, rest⟩
    · exact ⟨_, _, (List.take_append_drop 3 s).symm, first, second⟩
  rw [decode_append_of_isDot hf, decode_of_isDot hs]

/-- The text of a dot segment is a dot or two. -/
theorem noDots_of_writes (h : Writes s t) (single : t ≠ ".") (double : t ≠ "..") : isDoubleDot s = false ∧ isDot s = false := by
  have other {dots : String} (ne : t ≠ dots) (same : Text.Utf8.encode t.toList = Text.Utf8.encode dots.toList) : False :=
    ne (String.toList_injective (Text.Utf8.encode_injective same))
  constructor
  · refine Bool.eq_false_iff.mpr fun dots => other double ?_
    rw [← Text.Percent.Spells.decode_eq h, decode_of_isDoubleDot dots]
    rfl
  · refine Bool.eq_false_iff.mpr fun dot => other single ?_
    rw [← Text.Percent.Spells.decode_eq h, decode_of_isDot dot]
    rfl

end

end FirebirdSql.Url
