import ClaimCheck.Proofs.Config.Load
import ClaimCheck.Proofs.Environment.Agreement
/-!
The part that the environment has in a load. Only the variables that the parsed data refer to
matter; what a variable is bound to is put in as it is, and neither it nor a fallback is read for
further references.
-/
namespace ClaimCheck.Config
open Environment (Agree Pieces Reference Refers StartsReference names)

section Agree
variable {env other : Environment}

theorem ofData_congr {data : Value} (h : Agree env other (names data)) :
    ofData env data = ofData other data := by
  unfold ofData
  rw [Environment.missing_congr h, Environment.interpolate_congr data h]

theorem loadData_congr {data : Value} (h : Agree env other (names data)) :
    loadData env data = loadData other data := by
  rw [loadData, loadData, ofData_congr h]

theorem loadWith_congr {parse : List UInt8 → Except Raised Value} {files : Files} {path : String}
    (h : ∀ contents data, files.contents? (Path.normalized path) = some contents →
      parse contents = .ok data → Agree env other (names data)) :
    loadWith parse env files path = loadWith parse other files path := by
  unfold loadWith
  simp only
  split
  next contents hcontents =>
    split
    next data hparse => exact loadData_congr (h contents data hcontents hparse)
    next => rfl
  next => rfl

end Agree

/-- Two environments that agree on the names which the data in a file refer to give the same load,
outcome and events alike. What a text refers to is settled by its one reading from left to right;
the fallback of a reference, the keys of a mapping, tuples and sets are left out of it. -/
theorem only_referenced_variables_matter :
    (∀ parse (env other : Environment) files path,
      (∀ contents data, files.contents? (Path.normalized path) = some contents →
        parse contents = .ok data → ∀ name, Refers name data → env.get? name = other.get? name) →
      loadWith parse env files path = loadWith parse other files path) ∧
    (∀ text : List Text.Rune, ∃! pieces, Pieces text pieces) ∧
    (∀ (r : Reference) rest name, r.WellFormed →
      (Refers name (.ofRunes (r.source ++ rest)) ↔
        name = String.ofList r.name ∨ Refers name (.ofRunes rest))) ∧
    (∀ c rest name, ¬ StartsReference (c :: rest) →
      (Refers name (.ofRunes (c :: rest)) ↔ Refers name (.ofRunes rest))) ∧
    (∀ entries name, Refers name (.map entries) ↔
      ∃ value ∈ entries.map (·.2), Refers name value) ∧
    ∀ xs name, ¬ Refers name (.tuple xs) ∧ ¬ Refers name (.set xs) := by
  refine ⟨?_, ?_, ?_, ?_, ?_, ?_⟩
  · intro parse env other files path h
    refine loadWith_congr fun contents data hcontents hparse name hname => ?_
    exact h contents data hcontents hparse name (Environment.refers_iff.mpr hname)
  · intro text
    refine ⟨Environment.segments text, Environment.pieces_iff_segments.mpr rfl, ?_⟩
    intro pieces hpieces
    exact Environment.pieces_iff_segments.mp hpieces
  · intro r rest name hr
    exact Environment.refers_source_append hr rest
  · intro c rest name h
    exact Environment.refers_cons h
  · intro entries name
    exact Environment.refers_map_iff
  · intro xs name
    exact ⟨nofun, nofun⟩

/-- Data that name a variable in a fallback, in a key and in a tuple, and refer to another one. -/
def decoys : Value :=
  .map [(.text "name", .text "$\x7bA:-$\x7bB\x7d\x7d"),
    (.text "chat", .map [(.text "model", .text "m")]),
    (.text "$\x7bC\x7d", .tuple [.text "$\x7bD\x7d"])]

def decoyFiles : Files :=
  .ofListing [("config.yaml", .file [])]

/-- What the variable is bound to looks like a reference as well. -/
theorem decoys_are_not_read :
    (loadWith (fun _ => .ok decoys) [("A", "$\x7bE\x7d"), ("E", "e")] decoyFiles
        "config.yaml").outcome = .ok ⟨"$\x7bE\x7d\x7d", ⟨"m", .zero, none, none⟩, .default⟩ ∧
      loadWith (fun _ => .ok decoys) [("A", "$\x7bE\x7d"), ("E", "e")] decoyFiles "config.yaml" =
        loadWith (fun _ => .ok decoys) [("B", "b"), ("C", "c"), ("D", "d"), ("A", "$\x7bE\x7d")]
          decoyFiles "config.yaml" := by
  have hnames : names decoys = ["A"] := by decide +kernel
  refine ⟨ok_of_toOption (by decide +kernel), only_referenced_variables_matter.1 _ _ _ _ _ ?_⟩
  intro contents data _ hparse name hname
  cases hparse
  rw [Environment.refers_iff, hnames, List.mem_singleton] at hname
  subst hname
  rfl

end ClaimCheck.Config
