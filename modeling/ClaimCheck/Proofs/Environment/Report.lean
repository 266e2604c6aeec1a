import Mathlib.Data.List.Basic
import ClaimCheck.Proofs.Environment.Scan
/-!
What the report of unset variables says. The names that a configuration demands are settled by its
texts alone; the report is these names in the order of a depth-first walk, each where it first
appears, without those that the environment binds. So two reports on the same data differ only in
what their environments bind.
-/
namespace ClaimCheck.Environment
open Text (Rune Torn runes)

/-- The name that a piece cannot do without. -/
def Segment.demand? : Segment → Option String
  | .reference ⟨name, none⟩ => some (String.ofList name)
  | _ => none

/-- The names that the texts of the data refer to without a fallback, with repetitions. -/
def demanded (data : Value) : List String :=
  (texts data).flatMap fun text => (segments text).filterMap Segment.demand?

/-- What a depth-first walk through the data meets: the names that its texts refer to without a
fallback. Keys, tuples and sets are passed by. -/
inductive Walk : Value → List String → Prop
  | text (s : String) {pieces : List Segment} (h : Pieces (runes s) pieces) :
      Walk (.text s) (pieces.filterMap Segment.demand?)
  | torn (t : Torn) {pieces : List Segment} (h : Pieces t.runes pieces) :
      Walk (.torn t) (pieces.filterMap Segment.demand?)
  | listNil : Walk (.list []) []
  | listCons {x : Value} {xs : List Value} {here after : List String}
      (hx : Walk x here) (hxs : Walk (.list xs) after) : Walk (.list (x :: xs)) (here ++ after)
  | mapNil : Walk (.map []) []
  | mapCons (key : Value) {value : Value} {entries : List (Value × Value)}
      {here after : List String} (hvalue : Walk value here) (hentries : Walk (.map entries) after) :
      Walk (.map ((key, value) :: entries)) (here ++ after)
  | other {data : Value} (htext : ∀ s, data ≠ .text s) (htorn : ∀ t, data ≠ .torn t)
      (hlist : ∀ xs, data ≠ .list xs) (hmap : ∀ entries, data ≠ .map entries) : Walk data []

theorem demanded_text (s : String) :
    demanded (.text s) = (segments (runes s)).filterMap Segment.demand? :=
  List.flatMap_singleton ..

theorem demanded_torn (t : Torn) :
    demanded (.torn t) = (segments t.runes).filterMap Segment.demand? :=
  List.flatMap_singleton ..

theorem demanded_list (x : Value) (xs : List Value) :
    demanded (.list (x :: xs)) = demanded x ++ demanded (.list xs) :=
  List.flatMap_append ..

theorem demanded_map (key value : Value) (entries : List (Value × Value)) :
    demanded (.map ((key, value) :: entries)) = demanded value ++ demanded (.map entries) :=
  List.flatMap_append ..

theorem Walk.eq_demanded {data : Value} {names : List String} (h : Walk data names) :
    names = demanded data := by
  induction h with
  | text s h => rw [demanded_text, pieces_iff_segments.mp h]
  | torn t h => rw [demanded_torn, pieces_iff_segments.mp h]
  | listNil => rfl
  | listCons hx hxs ihx ihxs => rw [demanded_list, ihx, ihxs]
  | mapNil => rfl
  | mapCons key hvalue hentries ihvalue ihentries => rw [demanded_map, ihvalue, ihentries]
  | @other data htext htorn hlist hmap =>
      cases data with
      | text s => exact absurd rfl (htext s)
      | torn t => exact absurd rfl (htorn t)
      | list xs => exact absurd rfl (hlist xs)
      | map entries => exact absurd rfl (hmap entries)
      | _ => rfl

mutual

theorem walk_demanded (data : Value) : Walk data (demanded data) := by
  match data with
  | .text s =>
      rw [demanded_text]
      exact .text s (pieces_iff_segments.mpr rfl)
  | .torn t =>
      rw [demanded_torn]
      exact .torn t (pieces_iff_segments.mpr rfl)
  | .list xs => exact walk_list xs
  | .map entries => exact walk_map entries
  | .null | .bool _ | .int _ | .float _ | .nan _ | .bytes _ | .duration _ | .moment _
  | .tuple _ | .set _ | .record _ _ _ => exact .other nofun nofun nofun nofun

theorem walk_list (xs : List Value) : Walk (.list xs) (demanded (.list xs)) := by
  match xs with
  | [] => exact .listNil
  | x :: xs =>
      rw [demanded_list]
      exact .listCons (walk_demanded x) (walk_list xs)

theorem walk_map (entries : List (Value × Value)) :
    Walk (.map entries) (demanded (.map entries)) := by
  match entries with
  | [] => exact .mapNil
  | (key, value) :: entries =>
      rw [demanded_map]
      exact .mapCons key (walk_demanded value) (walk_map entries)

end

theorem walk_iff {data : Value} {names : List String} :
    Walk data names ↔ names = demanded data := by
  constructor
  · exact Walk.eq_demanded
  · rintro rfl
    exact walk_demanded data

/-- A demanded name is reported where the environment does not bind it. -/
theorem Segment.unset?_eq (env : Environment) (piece : Segment) :
    piece.unset? env = piece.demand?.filter fun name => (env.get? name).isNone := by
  cases piece with
  | literal c => rfl
  | reference r =>
      obtain ⟨name, fallback⟩ := r
      cases fallback with
      | some text => rfl
      | none =>
          cases hv : env.get? (String.ofList name) with
          | none => simp [Segment.unset?, Segment.demand?, Option.filter_some, hv]
          | some value => simp [Segment.unset?, Segment.demand?, Option.filter_some, hv]

theorem mem_firstAppearances {seen names : List String} {name : String} :
    name ∈ firstAppearances seen names ↔ name ∈ names ∧ name ∉ seen := by
  induction names generalizing seen with
  | nil => simp [firstAppearances]
  | cons first rest ih =>
      rw [firstAppearances]
      split
      next hseen =>
        rw [List.contains_iff_mem] at hseen
        rw [ih, List.mem_cons]
        constructor
        · rintro ⟨hrest, hnew⟩
          exact ⟨.inr hrest, hnew⟩
        · rintro ⟨rfl | hrest, hnew⟩
          · exact absurd hseen hnew
          · exact ⟨hrest, hnew⟩
      next hseen =>
        rw [List.contains_iff_mem] at hseen
        rw [List.mem_cons, ih, List.mem_cons, List.mem_cons, not_or]
        by_cases hname : name = first
        · subst hname
          simp [hseen]
        · simp [hname]

/-- Names come in the order in which they first stand in the whole list. -/
theorem firstAppearances_pairwise (seen names : List String) :
    (firstAppearances seen names).Pairwise fun a b => names.idxOf a < names.idxOf b := by
  induction names generalizing seen with
  | nil => exact .nil
  | cons first rest ih =>
      -- behind a name that is passed over or noted, all others stand one place further on
      have hshift : ∀ {a b : String}, a ≠ first → b ≠ first → rest.idxOf a < rest.idxOf b →
          (first :: rest).idxOf a < (first :: rest).idxOf b := by
        intro a b ha hb hlt
        rw [List.idxOf_cons_ne _ (Ne.symm ha), List.idxOf_cons_ne _ (Ne.symm hb)]
        exact Nat.succ_lt_succ hlt
      rw [firstAppearances]
      split
      next hseen =>
        rw [List.contains_iff_mem] at hseen
        have hnew : ∀ {a : String}, a ∈ firstAppearances seen rest → a ≠ first := by
          rintro a ha rfl
          exact (mem_firstAppearances.mp ha).2 hseen
        exact (ih seen).imp_of_mem fun ha hb hlt => hshift (hnew ha) (hnew hb) hlt
      next =>
        have hnew : ∀ {a : String}, a ∈ firstAppearances (first :: seen) rest → a ≠ first := by
          rintro a ha rfl
          exact (mem_firstAppearances.mp ha).2 List.mem_cons_self
        rw [List.pairwise_cons]
        constructor
        · intro b hb
          rw [List.idxOf_cons_self, List.idxOf_cons_ne _ (Ne.symm (hnew hb))]
          exact Nat.succ_pos _
        · exact (ih (first :: seen)).imp_of_mem fun ha hb hlt => hshift (hnew ha) (hnew hb) hlt

theorem firstAppearances_congr {seen other names : List String}
    (h : ∀ name ∈ names, name ∈ seen ↔ name ∈ other) :
    firstAppearances seen names = firstAppearances other names := by
  induction names generalizing seen other with
  | nil => rfl
  | cons first rest ih =>
      have hfirst : seen.contains first = other.contains first := by
        rw [Bool.eq_iff_iff, List.contains_iff_mem, List.contains_iff_mem]
        exact h first List.mem_cons_self
      have hrest : ∀ name ∈ rest, name ∈ seen ↔ name ∈ other :=
        fun name hname => h name (List.mem_cons_of_mem first hname)
      rw [firstAppearances, firstAppearances, hfirst, ih hrest]
      split
      · rfl
      · rw [ih fun name hname => ?_]
        rw [List.mem_cons, List.mem_cons, hrest name hname]

/-- Leaving names out before the repetitions are dropped is leaving them out afterwards. -/
theorem firstAppearances_filter (keep : String → Bool) (seen names : List String) :
    firstAppearances seen (names.filter keep) = (firstAppearances seen names).filter keep := by
  induction names generalizing seen with
  | nil => rfl
  | cons first rest ih =>
      by_cases hkeep : keep first = true
      · rw [List.filter_cons_of_pos hkeep, firstAppearances, firstAppearances]
        split
        · exact ih seen
        · rw [List.filter_cons_of_pos hkeep, ih]
      · rw [List.filter_cons_of_neg hkeep, firstAppearances, ih]
        split
        · rfl
        · rw [List.filter_cons_of_neg hkeep, ← ih, ← ih]
          -- the name that is left out might as well have been seen
          refine firstAppearances_congr fun name hname => ?_
          have hne : name ≠ first := by
            rintro rfl
            exact hkeep (List.mem_filter.mp hname).2
          rw [List.mem_cons, or_iff_right hne]

/-- The report is what the data demands, less what the environment binds. -/
theorem missing_eq (env : Environment) (data : Value) :
    missing env data =
      (firstAppearances [] (demanded data)).filter fun name => (env.get? name).isNone := by
  rw [← firstAppearances_filter, missing, demanded, List.filter_flatMap]
  congr 2
  funext s
  rw [← List.filterMap_eq_filter, List.filterMap_filterMap]
  congr 1
  funext piece
  rw [Segment.unset?_eq]
  cases piece.demand? with
  | none => rfl
  | some name => exact (Option.guard_eq_filter ..).symm

theorem mem_missing_iff {env : Environment} {data : Value} {name : String} :
    name ∈ missing env data ↔ name ∈ demanded data ∧ env.get? name = none := by
  rw [missing_eq, List.mem_filter, mem_firstAppearances, Option.isNone_iff_eq_none]
  simp only [List.not_mem_nil, not_false_eq_true, and_true]

theorem missing_pairwise (env : Environment) (data : Value) :
    (missing env data).Pairwise fun a b =>
      (demanded data).idxOf a < (demanded data).idxOf b := by
  rw [missing_eq]
  exact (firstAppearances_pairwise [] (demanded data)).filter _

theorem missing_nodup (env : Environment) (data : Value) : (missing env data).Nodup := by
  refine (missing_pairwise env data).imp fun hlt => ?_
  rintro rfl
  exact Nat.lt_irrefl _ hlt

theorem get?_append (env added : Environment) (name : String) :
    get? (env ++ added) name = (env.get? name).or (added.get? name) := by
  rw [get?, List.find?_append]
  cases h : env.find? (·.1 == name) with
  | none => rw [get?, h]; rfl
  | some entry => rw [get?, h]; rfl

/-- Further bindings take their names off the report and leave the others in their order. -/
theorem missing_append (env added : Environment) (data : Value) :
    missing (env ++ added) data =
      (missing env data).filter fun name => (added.get? name).isNone := by
  rw [missing_eq, missing_eq, List.filter_filter]
  congr 1
  funext name
  rw [get?_append, Option.isNone_or, Bool.and_comm]

end ClaimCheck.Environment
