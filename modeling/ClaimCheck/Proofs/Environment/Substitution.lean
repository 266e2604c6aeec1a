import ClaimCheck.Proofs.Environment.Scan
import ClaimCheck.Proofs.Failure
/-!
Interpolation as one substitution. Every text at a leaf gives what its pieces give, one after
another, and everything around the leaves stays as it is. What a piece gives is settled by the
piece and the environment alone, so nothing that is put in is looked at again.
-/
namespace ClaimCheck.Environment
open Text (Rune Torn isTorn runes)

/-- What a piece of a text gives. A variable that is bound gives its value, also an empty one and
whatever the fallback is. -/
inductive Gives (env : Environment) : Segment → List Rune → Prop
  | literal (c : Rune) : Gives env (.literal c) [c]
  | value (r : Reference) (value : String)
      (h : env.get? (String.ofList r.name) = some value) :
      Gives env (.reference r) (runes value)
  | fallback (r : Reference) (text : List Rune)
      (hunset : env.get? (String.ofList r.name) = none) (h : r.fallback = some text) :
      Gives env (.reference r) text

/-- What pieces give, in their order. -/
inductive Replaced (env : Environment) : List Segment → List Rune → Prop
  | nil : Replaced env [] []
  | cons {piece : Segment} {rest : List Segment} {part out : List Rune}
      (h : Gives env piece part) (hrest : Replaced env rest out) :
      Replaced env (piece :: rest) (part ++ out)

/-- A value and the one that interpolation makes of it: lists keep their length, mappings their
keys and the order of them, and what is no text, list or mapping stays the same. A text becomes a
text, and a torn one may lose its halves. -/
inductive Interpolated (env : Environment) : Value → Value → Prop
  | text {s t : String} {pieces : List Segment} (hpieces : Pieces (runes s) pieces)
      (hout : Replaced env pieces (runes t)) : Interpolated env (.text s) (.text t)
  | torn {t : Torn} {pieces : List Segment} {out : List Rune} (hpieces : Pieces t.runes pieces)
      (hout : Replaced env pieces out) : Interpolated env (.torn t) (.ofRunes out)
  | listNil : Interpolated env (.list []) (.list [])
  | listCons {x y : Value} {xs ys : List Value} (hx : Interpolated env x y)
      (hxs : Interpolated env (.list xs) (.list ys)) :
      Interpolated env (.list (x :: xs)) (.list (y :: ys))
  | mapNil : Interpolated env (.map []) (.map [])
  | mapCons (key : Value) {x y : Value} {entries others : List (Value × Value)}
      (hx : Interpolated env x y) (hentries : Interpolated env (.map entries) (.map others)) :
      Interpolated env (.map ((key, x) :: entries)) (.map ((key, y) :: others))
  | other {data : Value} (htext : ∀ s, data ≠ .text s) (htorn : ∀ t, data ≠ .torn t)
      (hlist : ∀ xs, data ≠ .list xs) (hmap : ∀ entries, data ≠ .map entries) :
      Interpolated env data data

section Pieces
variable {env : Environment} {piece : Segment} {pieces : List Segment} {part out text : List Rune}

theorem resolve_eq_ok_iff : piece.resolve env = .ok part ↔ Gives env piece part := by
  constructor
  · intro h
    cases piece with
    | literal c =>
        cases h
        exact .literal c
    | reference r =>
        simp only [Segment.resolve] at h
        split at h
        next value hvalue =>
          cases h
          exact .value r value hvalue
        next text hunset hfallback =>
          cases h
          exact .fallback r _ hunset hfallback
        next => cases h
  · intro h
    cases h with
    | literal c => rfl
    | value r value h => simp only [Segment.resolve, h]
    | fallback r text hunset h => simp only [Segment.resolve, hunset, h]

theorem resolveAll_eq_ok_iff : resolveAll env pieces = .ok out ↔ Replaced env pieces out := by
  induction pieces generalizing out with
  | nil =>
      constructor
      · intro h
        cases h
        exact .nil
      · intro h
        cases h
        rfl
  | cons piece rest ih =>
      simp only [resolveAll, bind_eq_ok_iff, resolve_eq_ok_iff, ih]
      constructor
      · rintro ⟨part, hpart, after, hafter, h⟩
        cases h
        exact .cons hpart hafter
      · intro h
        cases h with
        | cons hpart hafter => exact ⟨_, hpart, _, hafter, rfl⟩

theorem Replaced.unique {other : List Rune} (h : Replaced env pieces out)
    (hother : Replaced env pieces other) : out = other := by
  rw [← resolveAll_eq_ok_iff] at h hother
  exact Except.ok.inj (h.symm.trans hother)

theorem interpolateText_eq_ok_iff :
    interpolateText env text = .ok out ↔
      ∃ pieces, Pieces text pieces ∧ Replaced env pieces out := by
  simp only [interpolateText, resolveAll_eq_ok_iff, pieces_iff_segments, exists_eq_left]

theorem Pieces.source_eq (h : Pieces text pieces) : pieces.flatMap Segment.source = text := by
  induction h with
  | nil => rfl
  | reference r hr hrest ih => rw [List.flatMap_cons, ih, Segment.source]
  | literal c hnot hrest ih => rw [List.flatMap_cons, ih, Segment.source, List.singleton_append]

theorem Gives.isTorn_eq_false (h : Gives env piece part) (hwhole : isTorn piece.source = false) :
    isTorn part = false := by
  cases h with
  | literal c => exact hwhole
  | value r value h => exact isTorn_runes value
  | fallback r text hunset h =>
      simp only [Segment.source, Reference.source, h, isTorn, List.any_append,
        Bool.or_eq_false_iff] at hwhole
      exact hwhole.1.2.2

/-- Halves come from the text itself. -/
theorem Replaced.isTorn_eq_false (h : Replaced env pieces out)
    (hwhole : isTorn (pieces.flatMap Segment.source) = false) : isTorn out = false := by
  induction h with
  | nil => rfl
  | cons hpart hrest ih =>
      rw [List.flatMap_cons, isTorn, List.any_append, Bool.or_eq_false_iff] at hwhole
      rw [isTorn, List.any_append, Bool.or_eq_false_iff]
      exact ⟨hpart.isTorn_eq_false hwhole.1, ih hwhole.2⟩

end Pieces

section Values
variable {env : Environment}

theorem Interpolated.interpolate {data result : Value} (h : Interpolated env data result) :
    interpolate env data = .ok result := by
  induction h with
  | @text s t _ hpieces hout =>
      exact map_eq_ok_iff.mpr
        ⟨_, interpolateText_eq_ok_iff.mpr ⟨_, hpieces, hout⟩, (ofRunes_runes t).symm⟩
  | torn hpieces hout =>
      exact map_eq_ok_iff.mpr ⟨_, interpolateText_eq_ok_iff.mpr ⟨_, hpieces, hout⟩, rfl⟩
  | listNil => rfl
  | listCons _ _ ihx ihxs =>
      obtain ⟨_, hxs, heq⟩ := map_eq_ok_iff.mp ihxs
      cases heq
      exact map_eq_ok_iff.mpr
        ⟨_, bind_eq_ok_iff.mpr ⟨_, ihx, bind_eq_ok_iff.mpr ⟨_, hxs, rfl⟩⟩, rfl⟩
  | mapNil => rfl
  | mapCons key _ _ ihx ihentries =>
      obtain ⟨_, hentries, heq⟩ := map_eq_ok_iff.mp ihentries
      cases heq
      exact map_eq_ok_iff.mpr
        ⟨_, bind_eq_ok_iff.mpr ⟨_, ihx, bind_eq_ok_iff.mpr ⟨_, hentries, rfl⟩⟩, rfl⟩
  | @other data htext htorn hlist hmap =>
      cases data with
      | text s => exact absurd rfl (htext s)
      | torn t => exact absurd rfl (htorn t)
      | list xs => exact absurd rfl (hlist xs)
      | map entries => exact absurd rfl (hmap entries)
      | _ => rfl

-- The three functions that interpolate call one another; the cases below are those of all three.
mutual

theorem interpolated_of_ok (data : Value) {result : Value}
    (h : interpolate env data = .ok result) : Interpolated env data result := by
  match data with
  | .text s =>
      obtain ⟨out, htext, rfl⟩ := map_eq_ok_iff.mp h
      obtain ⟨pieces, hpieces, hout⟩ := interpolateText_eq_ok_iff.mp htext
      have hwhole : isTorn out = false :=
        hout.isTorn_eq_false (by rw [hpieces.source_eq, isTorn_runes])
      rw [← runes_ofList hwhole] at hout ⊢
      rw [ofRunes_runes]
      exact .text hpieces hout
  | .torn t =>
      obtain ⟨_, htext, rfl⟩ := map_eq_ok_iff.mp h
      obtain ⟨_, hpieces, hout⟩ := interpolateText_eq_ok_iff.mp htext
      exact .torn hpieces hout
  | .list xs =>
      obtain ⟨ys, hxs, rfl⟩ := map_eq_ok_iff.mp h
      exact interpolated_list_of_ok xs hxs
  | .map entries =>
      obtain ⟨others, hentries, rfl⟩ := map_eq_ok_iff.mp h
      exact interpolated_map_of_ok entries hentries
  | .null | .bool _ | .int _ | .float _ | .nan _ | .bytes _ | .duration _ | .moment _
  | .tuple _ | .set _ | .record _ _ _ =>
      cases h
      exact .other nofun nofun nofun nofun

theorem interpolated_list_of_ok (xs : List Value) {ys : List Value}
    (h : interpolateAll env xs = .ok ys) : Interpolated env (.list xs) (.list ys) := by
  match xs with
  | [] =>
      cases h
      exact .listNil
  | x :: xs =>
      simp only [interpolateAll, bind_eq_ok_iff] at h
      obtain ⟨y, hx, ys, hxs, heq⟩ := h
      cases heq
      exact .listCons (interpolated_of_ok x hx) (interpolated_list_of_ok xs hxs)

theorem interpolated_map_of_ok (entries : List (Value × Value)) {others : List (Value × Value)}
    (h : interpolateEntries env entries = .ok others) :
    Interpolated env (.map entries) (.map others) := by
  match entries with
  | [] =>
      cases h
      exact .mapNil
  | (key, x) :: entries =>
      simp only [interpolateEntries, bind_eq_ok_iff] at h
      obtain ⟨y, hx, others, hentries, heq⟩ := h
      cases heq
      exact .mapCons key (interpolated_of_ok x hx) (interpolated_map_of_ok entries hentries)

end

theorem interpolate_eq_ok_iff {data result : Value} :
    interpolate env data = .ok result ↔ Interpolated env data result :=
  ⟨interpolated_of_ok data, Interpolated.interpolate⟩

end Values

/-- Interpolation gives exactly the value with each text at a leaf replaced, piece by piece: every
text is made up of pieces in one way, in which a reference is taken wherever one starts that is
not part of an earlier one. -/
theorem interpolated_by_one_substitution (env : Environment) (data : Value) :
    (∀ result, interpolate env data = .ok result ↔ Interpolated env data result) ∧
      ∀ text : List Rune, ∃ pieces, (∀ other, Pieces text other ↔ other = pieces) ∧
        pieces.flatMap Segment.source = text :=
  ⟨fun _ => interpolate_eq_ok_iff,
    fun text => ⟨segments text, fun _ => pieces_iff_segments, (scan_pieces text).source_eq⟩⟩

example : interpolate [("A", "$\x7bB\x7d"), ("B", "")]
    (.list [.text "$\x7bA\x7d$\x7bB:-$\x7bC\x7d$$\x7bC:-\x7b\x7d", .tuple [.text "$\x7bB\x7d"]]) =
      .ok (.list [.text "$\x7bB\x7d$\x7b", .tuple [.text "$\x7bB\x7d"]]) := by
  rfl

example (h : Text.isHalf 0xd800 = true) :
    interpolate [("A", "a")] (.ofRunes (runes "$\x7bA:-" ++ [.half 0xd800 h, .char '\x7d'])) =
      .ok (.text "a") := by
  rfl

end ClaimCheck.Environment
