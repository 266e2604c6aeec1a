import ClaimCheck.Proofs.Environment.Report
/-!
What data read of an environment. A name matters to them if a scan of one of their texts finds a
reference to it; environments that agree on these names report the same unset variables and put
the same values in, whatever they bind besides.
-/
namespace ClaimCheck.Environment
open Text (Rune Torn runes)

/-- A name that data refer to, with a fallback or without. What stands in a key, a tuple or a set
is never scanned. -/
inductive Refers (name : String) : Value → Prop
  | text {s : String} {pieces : List Segment} {r : Reference} (hpieces : Pieces (runes s) pieces)
      (hr : .reference r ∈ pieces) (hname : String.ofList r.name = name) : Refers name (.text s)
  | torn {t : Torn} {pieces : List Segment} {r : Reference} (hpieces : Pieces t.runes pieces)
      (hr : .reference r ∈ pieces) (hname : String.ofList r.name = name) : Refers name (.torn t)
  | member {xs : List Value} {x : Value} (hx : x ∈ xs) (h : Refers name x) :
      Refers name (.list xs)
  | entry {entries : List (Value × Value)} {key value : Value} (hentry : (key, value) ∈ entries)
      (h : Refers name value) : Refers name (.map entries)

/-- The names that a text refers to, with repetitions. -/
def namesIn (text : List Rune) : List String :=
  (segments text).filterMap Segment.name?

theorem names_list (x : Value) (xs : List Value) :
    names (.list (x :: xs)) = names x ++ names (.list xs) :=
  List.flatMap_append ..

theorem names_map (key value : Value) (entries : List (Value × Value)) :
    names (.map ((key, value) :: entries)) = names value ++ names (.map entries) :=
  List.flatMap_append ..

theorem names_text (s : String) : names (.text s) = namesIn (runes s) :=
  List.flatMap_singleton ..

theorem names_torn (t : Torn) : names (.torn t) = namesIn t.runes :=
  List.flatMap_singleton ..

theorem Segment.name?_eq_some_iff {piece : Segment} {name : String} :
    piece.name? = some name ↔ ∃ r, piece = .reference r ∧ String.ofList r.name = name := by
  cases piece with
  | literal c => simp only [Segment.name?, reduceCtorEq, false_and, exists_false]
  | reference r => simp only [Segment.name?, Option.some.injEq, Segment.reference.injEq,
      exists_eq_left']

theorem mem_namesIn_iff {text : List Rune} {name : String} :
    name ∈ namesIn text ↔
      ∃ pieces r, Pieces text pieces ∧ .reference r ∈ pieces ∧ String.ofList r.name = name := by
  simp only [namesIn, List.mem_filterMap, Segment.name?_eq_some_iff, pieces_iff_segments]
  constructor
  · rintro ⟨_, hpiece, r, rfl, hname⟩
    exact ⟨_, r, rfl, hpiece, hname⟩
  · rintro ⟨_, r, rfl, hr, hname⟩
    exact ⟨_, hr, r, rfl, hname⟩

theorem mem_names_list_iff {name : String} {xs : List Value} :
    name ∈ names (.list xs) ↔ ∃ x ∈ xs, name ∈ names x := by
  induction xs with
  | nil => exact ⟨nofun, fun ⟨_, hx, _⟩ => nomatch hx⟩
  | cons x xs ih => rw [names_list, List.mem_append, ih, List.exists_mem_cons_iff]

theorem mem_names_map_iff {name : String} {entries : List (Value × Value)} :
    name ∈ names (.map entries) ↔ ∃ entry ∈ entries, name ∈ names entry.2 := by
  induction entries with
  | nil => exact ⟨nofun, fun ⟨_, hentry, _⟩ => nomatch hentry⟩
  | cons entry entries ih => rw [names_map, List.mem_append, ih, List.exists_mem_cons_iff]

theorem Refers.mem_names {name : String} {data : Value} (h : Refers name data) :
    name ∈ names data := by
  induction h with
  | text hpieces hr hname =>
      rw [names_text, mem_namesIn_iff]
      exact ⟨_, _, hpieces, hr, hname⟩
  | torn hpieces hr hname =>
      rw [names_torn, mem_namesIn_iff]
      exact ⟨_, _, hpieces, hr, hname⟩
  | member hx _ ih => exact mem_names_list_iff.mpr ⟨_, hx, ih⟩
  | entry hentry _ ih => exact mem_names_map_iff.mpr ⟨_, hentry, ih⟩

theorem refers_of_mem_names {name : String} (data : Value) (h : name ∈ names data) :
    Refers name data := by
  match data with
  | .text s =>
      rw [names_text, mem_namesIn_iff] at h
      obtain ⟨_, _, hpieces, hr, hname⟩ := h
      exact .text hpieces hr hname
  | .torn t =>
      rw [names_torn, mem_namesIn_iff] at h
      obtain ⟨_, _, hpieces, hr, hname⟩ := h
      exact .torn hpieces hr hname
  | .list xs =>
      obtain ⟨x, hx, h⟩ := mem_names_list_iff.mp h
      exact .member hx (refers_of_mem_names x h)
  | .map entries =>
      obtain ⟨⟨key, value⟩, hentry, h⟩ := mem_names_map_iff.mp h
      exact .entry hentry (refers_of_mem_names value h)
termination_by sizeOf data
decreasing_by
  · have hsize := List.sizeOf_lt_of_mem hx
    rw [Value.list.sizeOf_spec]
    omega
  · have hsize := List.sizeOf_lt_of_mem hentry
    rw [Prod.mk.sizeOf_spec] at hsize
    rw [Value.map.sizeOf_spec]
    omega

theorem refers_iff {name : String} {data : Value} : Refers name data ↔ name ∈ names data :=
  ⟨Refers.mem_names, refers_of_mem_names data⟩

theorem names_ofRunes (rs : List Rune) : names (.ofRunes rs) = namesIn rs := by
  rw [names, texts_ofRunes, List.flatMap_singleton, namesIn]

/-- Behind a reference the scan goes on, so nothing in its fallback is referred to. -/
theorem refers_source_append {name : String} {r : Reference} (hr : r.WellFormed)
    (rest : List Rune) :
    Refers name (.ofRunes (r.source ++ rest)) ↔
      name = String.ofList r.name ∨ Refers name (.ofRunes rest) := by
  simp only [refers_iff, names_ofRunes, namesIn, segments, scan_reference hr,
    List.filterMap_cons_some (Segment.name?_eq_some_iff.mpr ⟨r, rfl, rfl⟩), List.mem_cons]

theorem refers_cons {name : String} {c : Rune} {rest : List Rune}
    (h : ¬ StartsReference (c :: rest)) :
    Refers name (.ofRunes (c :: rest)) ↔ Refers name (.ofRunes rest) := by
  simp only [refers_iff, names_ofRunes, namesIn, segments, scan_literal h,
    List.filterMap_cons_none (show (Segment.literal c).name? = none from rfl)]

theorem refers_map_iff {name : String} {entries : List (Value × Value)} :
    Refers name (.map entries) ↔ ∃ value ∈ entries.map (·.2), Refers name value := by
  simp only [refers_iff, mem_names_map_iff, List.mem_map, exists_exists_and_eq_and]

/-- Each of some names has the same value in two environments, or none in either. -/
def Agree (env other : Environment) (names : List String) : Prop :=
  ∀ name ∈ names, env.get? name = other.get? name

section Agree
variable {env other : Environment}

theorem agree_append_iff {names more : List String} :
    Agree env other (names ++ more) ↔ Agree env other names ∧ Agree env other more :=
  List.forall_mem_append

theorem Segment.resolve_congr {piece : Segment} (h : Agree env other piece.name?.toList) :
    piece.resolve env = piece.resolve other := by
  cases piece with
  | literal c => rfl
  | reference r =>
      have hvalue := h (String.ofList r.name) (List.mem_singleton_self _)
      simp only [Segment.resolve, hvalue]

theorem resolveAll_congr {pieces : List Segment}
    (h : Agree env other (pieces.filterMap Segment.name?)) :
    resolveAll env pieces = resolveAll other pieces := by
  induction pieces with
  | nil => rfl
  | cons piece rest ih =>
      have hnames : (piece :: rest).filterMap Segment.name? =
          piece.name?.toList ++ rest.filterMap Segment.name? := by
        cases hpiece : piece.name? <;> simp [hpiece]
      rw [hnames, agree_append_iff] at h
      rw [resolveAll, resolveAll, Segment.resolve_congr h.1, ih h.2]

theorem interpolateText_congr {text : List Rune} (h : Agree env other (namesIn text)) :
    interpolateText env text = interpolateText other text := by
  rw [interpolateText, interpolateText, resolveAll_congr h]

mutual

theorem interpolate_congr (data : Value) (h : Agree env other (names data)) :
    interpolate env data = interpolate other data := by
  match data with
  | .text s =>
      rw [names_text] at h
      rw [interpolate, interpolate, interpolateText_congr h]
  | .torn t =>
      rw [names_torn] at h
      rw [interpolate, interpolate, interpolateText_congr h]
  | .list xs => rw [interpolate, interpolate, interpolateAll_congr xs h]
  | .map entries => rw [interpolate, interpolate, interpolateEntries_congr entries h]
  | .null | .bool _ | .int _ | .float _ | .nan _ | .bytes _ | .duration _ | .moment _
  | .tuple _ | .set _ | .record _ _ _ => rfl

theorem interpolateAll_congr (xs : List Value) (h : Agree env other (names (.list xs))) :
    interpolateAll env xs = interpolateAll other xs := by
  match xs with
  | [] => rfl
  | x :: xs =>
      rw [names_list, agree_append_iff] at h
      rw [interpolateAll, interpolateAll, interpolate_congr x h.1, interpolateAll_congr xs h.2]

theorem interpolateEntries_congr (entries : List (Value × Value))
    (h : Agree env other (names (.map entries))) :
    interpolateEntries env entries = interpolateEntries other entries := by
  match entries with
  | [] => rfl
  | (key, value) :: entries =>
      rw [names_map, agree_append_iff] at h
      rw [interpolateEntries, interpolateEntries, interpolate_congr value h.1,
        interpolateEntries_congr entries h.2]

end

theorem Segment.name?_of_demand? {piece : Segment} {name : String}
    (h : piece.demand? = some name) : piece.name? = some name := by
  cases piece with
  | literal c => cases h
  | reference r =>
      obtain ⟨_, fallback⟩ := r
      cases fallback with
      | none => exact h
      | some text => cases h

/-- What data cannot do without they refer to. -/
theorem demanded_subset_names (data : Value) : demanded data ⊆ names data := by
  intro name h
  simp only [demanded, names, List.mem_flatMap, List.mem_filterMap] at h ⊢
  obtain ⟨s, hs, piece, hpiece, hname⟩ := h
  exact ⟨s, hs, piece, hpiece, Segment.name?_of_demand? hname⟩

theorem missing_congr {data : Value} (h : Agree env other (names data)) :
    missing env data = missing other data := by
  rw [missing_eq, missing_eq]
  refine List.filter_congr fun name hname => ?_
  rw [h name (demanded_subset_names data (mem_firstAppearances.mp hname).1)]

end Agree
end ClaimCheck.Environment
