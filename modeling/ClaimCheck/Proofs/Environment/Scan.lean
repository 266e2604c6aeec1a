import ClaimCheck.Environment
import ClaimCheck.Proofs.Text.Identifier

namespace ClaimCheck.Environment
open Text (Rune isIdentifier runes)

/-- What can be written as a reference: an identifier, and a fallback without a closing brace. -/
structure Reference.WellFormed (r : Reference) : Prop where
  name : isIdentifier r.name = true
  fallback : ∀ text, r.fallback = some text → .char '}' ∉ text

def StartsReference (rs : List Rune) : Prop :=
  ∃ r rest, Reference.WellFormed r ∧ rs = r.source ++ rest

/-- The pieces that a text consists of. Nothing inside a reference is read again, so a reference
in the fallback of another one is no piece. -/
inductive Pieces : List Rune → List Segment → Prop
  | nil : Pieces [] []
  | reference (r : Reference) {rest : List Rune} {pieces : List Segment}
      (h : r.WellFormed) (hrest : Pieces rest pieces) :
      Pieces (r.source ++ rest) (.reference r :: pieces)
  | literal (c : Rune) {rest : List Rune} {pieces : List Segment}
      (h : ¬ StartsReference (c :: rest)) (hrest : Pieces rest pieces) :
      Pieces (c :: rest) (.literal c :: pieces)

theorem mem_runes_iff {c : Char} {s : String} : .char c ∈ runes s ↔ c ∈ s.toList := by
  simp only [runes, List.mem_map, Rune.char.injEq, exists_eq_right]

theorem isTorn_runes (s : String) : Text.isTorn (runes s) = false :=
  List.any_eq_false.mpr fun r hr => by
    obtain ⟨c, _, rfl⟩ := List.mem_map.mp hr
    exact Bool.false_ne_true

theorem runes_ofList {rs : List Rune} (h : Text.isTorn rs = false) :
    runes (String.ofList (rs.filterMap Rune.char?)) = rs := by
  rw [runes, String.toList_ofList]
  induction rs with
  | nil => rfl
  | cons r rs ih =>
      rw [Text.isTorn, List.any_cons, Bool.or_eq_false_iff] at h
      cases r with
      | char c => exact congrArg (.char c :: ·) (ih h.2)
      | half => cases h.1

theorem ofRunes_runes (s : String) : Value.ofRunes (runes s) = .text s := by
  have hchars : (runes s).filterMap Rune.char? = s.toList := by
    rw [runes, List.filterMap_map]
    exact List.filterMap_some
  rw [Value.ofRunes, dif_neg (by rw [isTorn_runes]; exact Bool.false_ne_true), hchars,
    String.ofList_toList]

theorem texts_ofRunes (rs : List Rune) : texts (.ofRunes rs) = [rs] := by
  unfold Value.ofRunes
  split
  next => rfl
  next h => rw [texts, runes_ofList (Bool.eq_false_iff.mpr h)]

theorem brace_ends_identifier : Text.continuesIdentifier '}' = false := by decide

theorem colon_ends_identifier : Text.continuesIdentifier ':' = false := by decide

theorem leading_append (name : List Char) (rs : List Rune) :
    leading (name.map .char ++ rs) = name ++ leading rs := by
  induction name with
  | nil => rfl
  | cons c name ih => exact congrArg (c :: ·) ih

theorem eq_append_of_leading {name more : List Char} {rs : List Rune}
    (h : leading rs = name ++ more) : rs = name.map .char ++ rs.drop name.length := by
  induction name generalizing rs with
  | nil => rfl
  | cons c name ih =>
      cases rs with
      | nil => cases h
      | cons r rs =>
          cases r with
          | half => cases h
          | char d =>
              obtain ⟨rfl, hrest⟩ := List.cons.inj h
              exact congrArg (.char d :: ·) (ih hrest)

/-- An identifier is taken whole where no character after it continues it. -/
theorem takeName?_append {name : List Char} (h : isIdentifier name = true) {stop : Char}
    (hstop : Text.continuesIdentifier stop = false) (rest : List Rune) :
    takeName? (name.map .char ++ .char stop :: rest) = some (name, .char stop :: rest) := by
  have htaken := Text.takeIdentifier?_append h hstop (leading rest)
  have hdrop : (name.map Rune.char ++ .char stop :: rest).drop name.length = .char stop :: rest :=
    List.drop_left' (List.length_map ..)
  rw [takeName?, leading_append, leading, htaken, Option.map_some]
  simp only [hdrop]

theorem takeName?_eq_some {rs rest : List Rune} {name : List Char}
    (h : takeName? rs = some (name, rest)) :
    isIdentifier name = true ∧ rs = name.map .char ++ rest := by
  rw [takeName?, Option.map_eq_some_iff] at h
  obtain ⟨⟨_, more⟩, htaken, h⟩ := h
  cases h
  obtain ⟨hname, hleading⟩ := Text.takeIdentifier?_eq_some htaken
  exact ⟨hname, eq_append_of_leading hleading⟩

theorem Reference.source_bare (name : List Char) (rest : List Rune) :
    Reference.source ⟨name, none⟩ ++ rest =
      .char '$' :: .char '{' :: (name.map .char ++ .char '}' :: rest) := by
  simp only [Reference.source, List.cons_append, List.nil_append, List.append_assoc,
    List.append_nil]

theorem Reference.source_fallback (name : List Char) (text rest : List Rune) :
    Reference.source ⟨name, some text⟩ ++ rest =
      .char '$' :: .char '{' ::
        (name.map .char ++ .char ':' :: .char '-' :: (text ++ .char '}' :: rest)) := by
  simp only [Reference.source, List.cons_append, List.nil_append, List.append_assoc]

/-- A fallback ends at the first closing brace. -/
theorem takeWhile_fallback {text : List Rune} (h : .char '}' ∉ text) (rest : List Rune) :
    (text ++ .char '}' :: rest).takeWhile (· != .char '}') = text := by
  have hall : ∀ c ∈ text, (c != .char '}') = true := by
    intro c hc
    rw [bne_iff_ne]
    rintro rfl
    exact h hc
  rw [List.takeWhile_append_of_pos hall, List.takeWhile_cons_of_neg (by simp), List.append_nil]

theorem exists_of_contains_brace {rs : List Rune} (h : rs.contains (.char '}') = true) :
    ∃ text rest, .char '}' ∉ text ∧ rs = text ++ .char '}' :: rest := by
  induction rs with
  | nil => cases h
  | cons c rs ih =>
      by_cases hc : c = .char '}'
      · exact ⟨[], rs, List.not_mem_nil, by rw [hc, List.nil_append]⟩
      · have hrest : rs.contains (.char '}') = true := by
          rw [List.contains_iff_mem] at h ⊢
          exact (List.mem_cons.mp h).resolve_left (Ne.symm hc)
        obtain ⟨text, rest, htext, rfl⟩ := ih hrest
        refine ⟨c :: text, rest, ?_, rfl⟩
        rw [List.mem_cons, not_or]
        exact ⟨Ne.symm hc, htext⟩

/-- The source of a reference is read back, whatever follows it. -/
theorem referenceAfterDollar?_source {r : Reference} (h : r.WellFormed) {rs rest : List Rune}
    (hrs : .char '$' :: rs = r.source ++ rest) : referenceAfterDollar? rs = some r := by
  obtain ⟨name, fallback⟩ := r
  cases fallback with
  | none =>
      rw [Reference.source_bare, List.cons.injEq] at hrs
      rw [hrs.2, referenceAfterDollar?, takeName?_append h.name brace_ends_identifier]
      rfl
  | some text =>
      have htext : .char '}' ∉ text := h.fallback text rfl
      rw [Reference.source_fallback, List.cons.injEq] at hrs
      have hcontains : (text ++ .char '}' :: rest).contains (.char '}') = true := by
        rw [List.contains_iff_mem]
        exact List.mem_append_right text List.mem_cons_self
      rw [hrs.2, referenceAfterDollar?, takeName?_append h.name colon_ends_identifier]
      simp only [hcontains, if_true, takeWhile_fallback htext]

theorem source_of_referenceAfterDollar? {r : Reference} {rs : List Rune}
    (h : referenceAfterDollar? rs = some r) :
    r.WellFormed ∧ ∃ rest, .char '$' :: rs = r.source ++ rest := by
  unfold referenceAfterDollar? at h
  split at h
  next rs =>
    split at h
    next name rest htaken =>
      cases h
      obtain ⟨hname, rfl⟩ := takeName?_eq_some htaken
      exact ⟨⟨hname, nofun⟩, rest, (Reference.source_bare name rest).symm⟩
    next name rest htaken =>
      obtain ⟨hname, rfl⟩ := takeName?_eq_some htaken
      split at h
      next hclosed =>
        obtain ⟨text, after, htext, rfl⟩ := exists_of_contains_brace hclosed
        rw [takeWhile_fallback htext] at h
        cases h
        refine ⟨⟨hname, ?_⟩, after, (Reference.source_fallback name text after).symm⟩
        intro other hother
        cases hother
        exact htext
      next => cases h
    next => cases h
  next => cases h

theorem scan_skip (skip : Nat) (rs : List Rune) : scan skip rs = scan 0 (rs.drop skip) := by
  induction skip generalizing rs with
  | zero => rfl
  | succ skip ih =>
      cases rs with
      | nil => rfl
      | cons r rs => rw [scan, ih, List.drop_succ_cons]

theorem Reference.source_eq_cons (r : Reference) : ∃ rs, r.source = .char '$' :: rs :=
  ⟨_, rfl⟩

theorem scan_reference {r : Reference} (h : r.WellFormed) (rest : List Rune) :
    scan 0 (r.source ++ rest) = .reference r :: scan 0 rest := by
  obtain ⟨rs, hsource⟩ := r.source_eq_cons
  have hwhole : .char '$' :: (rs ++ rest) = r.source ++ rest := by rw [hsource, List.cons_append]
  have hread : referenceAfterDollar? (rs ++ rest) = some r := referenceAfterDollar?_source h hwhole
  rw [hsource, List.cons_append, scan, if_pos rfl, hread]
  simp only [List.cons.injEq, true_and]
  rw [scan_skip, hsource, List.length_cons, Nat.add_sub_cancel, List.drop_left]

theorem scan_literal {c : Rune} {rs : List Rune} (h : ¬ StartsReference (c :: rs)) :
    scan 0 (c :: rs) = .literal c :: scan 0 rs := by
  rw [scan]
  split
  next r hread =>
    split at hread
    next hdollar =>
      obtain ⟨hr, rest, hsource⟩ := source_of_referenceAfterDollar? hread
      rw [hdollar] at h
      exact absurd ⟨r, rest, hr, hsource⟩ h
    next => cases hread
  next => rfl

theorem Reference.length_source_append (r : Reference) (rest : List Rune) :
    rest.length < (r.source ++ rest).length := by
  obtain ⟨rs, hsource⟩ := r.source_eq_cons
  rw [hsource, List.cons_append, List.length_cons, List.length_append]
  omega

/-- The scan reads the pieces that a text consists of. -/
theorem scan_pieces (rs : List Rune) : Pieces rs (scan 0 rs) := by
  -- by length, since a reference takes several characters at once
  induction hlength : rs.length using Nat.strongRecOn generalizing rs with
  | ind n ih =>
      subst hlength
      by_cases hstarts : StartsReference rs
      · obtain ⟨r, rest, hr, rfl⟩ := hstarts
        rw [scan_reference hr]
        exact .reference r hr (ih _ (r.length_source_append rest) rest rfl)
      · cases rs with
        | nil => exact .nil
        | cons c rest =>
            rw [scan_literal hstarts]
            exact .literal c hstarts (ih _ (Nat.lt_succ_self rest.length) rest rfl)

theorem Pieces.eq_scan {rs : List Rune} {pieces : List Segment} (h : Pieces rs pieces) :
    pieces = scan 0 rs := by
  induction h with
  | nil => rfl
  | reference r hr hrest ih => rw [scan_reference hr, ← ih]
  | literal c hnot hrest ih => rw [scan_literal hnot, ← ih]

theorem pieces_iff_segments {text : List Rune} {pieces : List Segment} :
    Pieces text pieces ↔ pieces = segments text := by
  constructor
  · exact Pieces.eq_scan
  · rintro rfl
    exact scan_pieces text

end ClaimCheck.Environment
