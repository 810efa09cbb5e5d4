import FirebirdSql.Proofs.Url.Spelling
import FirebirdSql.Url

/-!
Hosts as they stand in a URL: names, and addresses between brackets. The reader finds where a host ends, since neither of them
has a character of its surroundings in it, but for the colons of an address.
-/

namespace FirebirdSql.Url

namespace Ipv6

open Text

theorem isUnreserved_of_readHex? {s : List Char} {n : Nat} (h : readHex? s = some n) :
    ∀ c ∈ s, Percent.isUnreserved c = true := by
  have digits (v : Nat) (s : List Char) (h : (s.foldlM (fun n c => (hexValue? c).map (16 * n + ·)) v).isSome) :
      ∀ c ∈ s, Percent.isUnreserved c = true := by
    induction s generalizing v with
    | nil => exact fun c hc => absurd hc List.not_mem_nil
    | cons d s ih =>
      cases hd : hexValue? d with
      | none =>
        rw [List.foldlM_cons, hd] at h
        cases h
      | some k =>
        rw [List.foldlM_cons, hd] at h
        exact List.forall_mem_cons.mpr ⟨Percent.isUnreserved_of_hexValue? hd, ih _ h⟩
  exact digits 0 s (by rw [← readHex?, h]; rfl)

theorem isUnreserved_of_readNat? {s : List Char} {n : Nat} (h : readNat? s = some n) :
    ∀ c ∈ s, Percent.isUnreserved c = true := by
  intro c hc
  have decimal : digitValue? c ≠ none := fun none => notMem_of_readNat? h none hc
  unfold digitValue? at decimal
  split at decimal
  · next within => exact Percent.isUnreserved_of_hexValue? (if_pos within)
  · exact absurd rfl decimal

theorem isUnreserved_of_piece? {group : List Char} {n : Nat} (h : piece? group = some n) : ∀ c ∈ group, Percent.isUnreserved c = true := by
  unfold piece? at h
  split at h
  · cases h
  · exact isUnreserved_of_readHex? h

theorem isUnreserved_of_octet? {s : List Char} {n : Nat} (h : octet? s = some n) : ∀ c ∈ s, Percent.isUnreserved c = true := by
  unfold octet? at h
  split at h
  · cases h
  · obtain ⟨read, -⟩ := Option.filter_eq_some_iff.mp h
    exact isUnreserved_of_readNat? read

theorem forall_of_mapM_eq_some {α β : Type} {f : α → Option β} {as : List α} {bs : List β} (h : as.mapM f = some bs) :
    ∀ a ∈ as, ∃ b, f a = some b := by
  induction as generalizing bs with
  | nil => exact fun a ha => absurd ha List.not_mem_nil
  | cons a as ih =>
    rw [List.mapM_cons, Option.bind_eq_bind, Option.bind_eq_some_iff] at h
    obtain ⟨b, first, h⟩ := h
    rw [Option.bind_eq_bind, Option.bind_eq_some_iff] at h
    obtain ⟨others, rest, -⟩ := h
    exact List.forall_mem_cons.mpr ⟨⟨b, first⟩, ih rest⟩

theorem isUnreserved_of_ipv4Pieces? {group : List Char} {ns : List Nat} (h : ipv4Pieces? group = some ns) :
    ∀ c ∈ group, Percent.isUnreserved c = true := by
  obtain ⟨octets, read, -⟩ := Option.bind_eq_some_iff.mp h
  intro c hc
  rcases eq_or_mem_splitAt (c := '.') hc with point | ⟨part, within, here⟩
  · rw [point]
    rfl
  · obtain ⟨n, octet⟩ := forall_of_mapM_eq_some read part within
    exact isUnreserved_of_octet? octet c here

theorem isUnreserved_of_groups? {groups : List (List Char)} {r r' : Reading} (h : r.groups? groups = some r') :
    ∀ group ∈ groups, ∀ c ∈ group, Percent.isUnreserved c = true := by
  fun_induction Reading.groups? r groups with
  | case1 => simp
  | case2 => simp
  | case5 r group _ _ _ _ =>
    obtain ⟨pieces, read, -⟩ := Option.map_eq_some_iff.mp h
    exact List.forall_mem_singleton.mpr (isUnreserved_of_ipv4Pieces? read)
  | case6 r group _ _ _ =>
    obtain ⟨piece, read, -⟩ := Option.map_eq_some_iff.mp h
    exact List.forall_mem_singleton.mpr (isUnreserved_of_piece? read)
  | case8 r rest _ _ ih => exact List.forall_mem_cons.mpr ⟨fun c hc => absurd hc List.not_mem_nil, ih h⟩
  | case10 r group rest _ _ _ _ piece read ih => exact List.forall_mem_cons.mpr ⟨isUnreserved_of_piece? read, ih h⟩
  | case3 | case4 | case7 | case9 | case11 => cases h

/-- An address is written with hexadecimal digits, points and colons. -/
theorem char_of_read? {s : List Char} {pieces : List Nat} (h : read? s = some pieces) :
    ∀ c ∈ s, Percent.isUnreserved c = true ∨ c = ':' := by
  have groups : ∀ group ∈ splitAt ':' s, ∀ c ∈ group, Percent.isUnreserved c = true := by
    unfold read? at h
    split at h
    · next group rest parts =>
      obtain ⟨r, read, -⟩ := Option.bind_eq_some_iff.mp h
      rw [parts]
      simpa using isUnreserved_of_groups? read
    · cases h
    · obtain ⟨r, read, -⟩ := Option.bind_eq_some_iff.mp h
      exact isUnreserved_of_groups? read
  intro c hc
  rcases eq_or_mem_splitAt (c := ':') hc with colon | ⟨group, within, here⟩
  · exact .inr colon
  · exact .inl (groups group within c here)

end Ipv6

/-- A host as it is written, and as it is read. A name is kept, with all that is not printable ASCII escaped; an address between
brackets is written anew. -/
inductive HostForm : List Char → List Char → Prop where
  | name {s : List Char} : s ≠ [] → (∀ c ∈ s, isForbiddenInHost c = false) → HostForm s (Text.Percent.encode isControl s)
  | address {s : List Char} {pieces : List Nat} : Ipv6.read? s = some pieces →
      HostForm ('[' :: s ++ [']']) ('[' :: Ipv6.write pieces ++ [']'])

/-- The marks around a host, and what is taken out of every URL. -/
def marks : List Char := ['/', '?', '#', '@', '\t', '\n', '\r']

variable {s host : List Char}

theorem ne_of_isForbiddenInHost {c d : Char} (allowed : isForbiddenInHost c = false) (forbidden : isForbiddenInHost d = true) :
    c ≠ d := by
  rintro rfl
  rw [allowed] at forbidden
  cases forbidden

theorem marks_notMem_of_address {pieces : List Nat} (h : Ipv6.read? s = some pieces) :
    ∀ c ∈ s, c ∉ marks ∧ c ≠ '[' ∧ c ≠ ']' := by
  intro c hc
  rcases Ipv6.char_of_read? h c hc with unreserved | rfl
  · exact Text.Percent.forall_unreserved (p := fun c => c ∉ marks ∧ c ≠ '[' ∧ c ≠ ']') (by decide) unreserved
  · decide

theorem HostForm.notMem_marks (h : HostForm s host) : ∀ c ∈ s, c ∉ marks := by
  cases h with
  | name _ allowed =>
    intro c hc mark
    have forbidden : marks.all isForbiddenInHost = true := by decide
    exact ne_of_isForbiddenInHost (allowed c hc) (List.all_eq_true.mp forbidden c mark) rfl
  | address read =>
    have inner := marks_notMem_of_address read
    intro c hc
    simp only [List.cons_append, List.mem_cons, List.mem_append, List.not_mem_nil, or_false] at hc
    rcases hc with rfl | hc | rfl
    · decide
    · exact (inner c hc).1
    · decide

theorem HostForm.ne_nil (h : HostForm s host) : s ≠ [] ∧ host ≠ [] := by
  cases h with
  | name some _ =>
    refine ⟨some, ?_⟩
    cases s with
    | nil => exact absurd rfl some
    | cons c s =>
      rw [Text.Percent.encode, List.flatMap_cons]
      refine List.append_ne_nil_of_left_ne_nil ?_ _
      split
      · cases bytes : String.utf8EncodeChar c with
        | nil => exact absurd bytes String.utf8EncodeChar_ne_nil
        | cons b bs => simp [Text.Percent.encodeByte]
      · exact List.cons_ne_nil _ _
  | address _ => exact ⟨List.cons_ne_nil _ _, List.cons_ne_nil _ _⟩

theorem HostForm.readHost_eq (h : HostForm s host) : readHost .plain s = .ok host := by
  cases h with
  | name some allowed =>
    have first : ¬s.head? = Option.some '[' := by
      intro head
      exact ne_of_isForbiddenInHost (allowed _ (List.mem_of_mem_head? head)) (by decide) rfl
    have none : ¬s.any isForbiddenInHost = true := by simpa using allowed
    rw [readHost, if_neg first, if_pos rfl, if_neg none]
  | @address s pieces read =>
    have last : ('[' :: s ++ [']']).getLast? = some ']' := List.getLast?_concat
    have inner : (('[' :: s ++ [']']).drop 1).dropLast = s := List.dropLast_concat
    rw [readHost, if_pos last, inner, read]
    exact if_pos rfl

theorem hostLength_append {bracketed : Bool} (h : ∀ c ∈ s, (c = ':' → bracketed = true) ∧ c ≠ '[' ∧ c ≠ ']') (rest : List Char) :
    hostLength bracketed (s ++ rest) = s.length + hostLength bracketed rest := by
  induction s with
  | nil => simp
  | cons c s ih =>
    obtain ⟨⟨colon, opening, closing⟩, others⟩ := List.forall_mem_cons.mp h
    rw [List.cons_append, hostLength, if_neg (by simpa using colon), if_neg opening, if_neg closing, ih others,
      List.length_cons]
    omega

/-- A host ends before the colon of the port. -/
theorem HostForm.hostLength_eq (h : HostForm s host) (rest : List Char) : hostLength false (s ++ ':' :: rest) = s.length := by
  cases h with
  | name _ allowed =>
    have inner (c : Char) (hc : c ∈ s) : (c = ':' → false = true) ∧ c ≠ '[' ∧ c ≠ ']' :=
      ⟨fun same => absurd same (ne_of_isForbiddenInHost (allowed c hc) (by decide)),
        ne_of_isForbiddenInHost (allowed c hc) (by decide), ne_of_isForbiddenInHost (allowed c hc) (by decide)⟩
    rw [hostLength_append inner]
    rfl
  | @address s pieces read =>
    have inner (c : Char) (hc : c ∈ s) : (c = ':' → true = true) ∧ c ≠ '[' ∧ c ≠ ']' :=
      ⟨fun _ => rfl, (marks_notMem_of_address read c hc).2⟩
    have opening : hostLength false ('[' :: s ++ [']'] ++ ':' :: rest) = 1 + hostLength true (s ++ ']' :: ':' :: rest) := by
      rw [List.append_assoc]
      rfl
    rw [opening, hostLength_append inner]
    change 1 + (s.length + 1) = _
    rw [List.length_append, List.length_cons, List.length_singleton]
    omega

end FirebirdSql.Url
