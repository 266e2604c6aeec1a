import ClaimCheck.Proofs.Config.Load
import ClaimCheck.Proofs.Config.Section
import ClaimCheck.Proofs.Environment.Report

namespace ClaimCheck.Config

theorem ofInterpolated_ne_unset (data : Value) (names : List String) :
    ofInterpolated data ≠ .error (.failure (.variablesNotSet names)) := by
  unfold ofInterpolated
  cases ofValue data with
  | ok config => exact nofun
  | error rejection => exact nofun

theorem ofData_eq_unset_iff {env : Environment} {data : Value} {names : List String} :
    ofData env data = .error (.failure (.variablesNotSet names)) ↔
      (∃ entries, data = .map entries) ∧ Environment.missing env data = names ∧ names ≠ [] := by
  constructor
  · intro h
    unfold ofData at h
    split at h
    next entries =>
      split at h
      next =>
        split at h
        next => exact absurd h (ofInterpolated_ne_unset _ names)
        next => cases h
      next hnames =>
        cases h
        exact ⟨⟨entries, rfl⟩, rfl, hnames⟩
    next => cases h
  · rintro ⟨⟨entries, rfl⟩, rfl, hnames⟩
    rw [ofData]
    split
    next hnil => exact absurd hnil hnames
    next => rfl

theorem loadData_eq_unset_iff {env : Environment} {data : Value} {names : List String} :
    (loadData env data).outcome = .error (.failure (.variablesNotSet names)) ↔
      (∃ entries, data = .map entries) ∧ Environment.missing env data = names ∧ names ≠ [] := by
  rw [← ofData_eq_unset_iff, loadData]
  split
  next config h => simp only [h, reduceCtorEq]
  next raised h => simp only [h]

theorem load_eq_unset_iff {depths : Yaml.Depths} {env : Environment} {files : Files}
    {path : String} {names : List String} :
    (load depths env files path).outcome = .error (.failure (.variablesNotSet names)) ↔
      ∃ data, DataAt depths files path data ∧
        (loadData env data).outcome = .error (.failure (.variablesNotSet names)) := by
  constructor
  · intro h
    rcases loadWith_cases (parseContents depths) env files path with
      ⟨contents, data, hcontents, hparse, hload⟩ | ⟨raised, hraises, hload⟩ | hload
    · exact ⟨data, ⟨contents, hcontents, hparse⟩, hload ▸ h⟩
    · rw [load, hload] at h
      cases h
      cases hraises with
      | contents hcontents hparse =>
          rcases parseContents_raised hparse with hmalformed | ⟨_, hraised⟩
          · cases hmalformed
          · exact hraised.elim
    · rw [load, hload] at h
      cases h
  · rintro ⟨data, hdata, h⟩
    rw [hdata.load]
    exact h

/-- Further bindings leave a load with the names that they do not bind. -/
theorem load_unset_append {depths : Yaml.Depths} {env : Environment} {files : Files}
    {path : String} {names : List String}
    (h : (load depths env files path).outcome = .error (.failure (.variablesNotSet names)))
    (added : Environment) (others : List String) :
    (load depths (env ++ added) files path).outcome = .error (.failure (.variablesNotSet others)) ↔
      (names.filter fun name => (added.get? name).isNone) = others ∧ others ≠ [] := by
  obtain ⟨data, hdata, hload⟩ := load_eq_unset_iff.mp h
  obtain ⟨hmap, hnames, _⟩ := loadData_eq_unset_iff.mp hload
  rw [load_eq_unset_iff, ← hnames, ← Environment.missing_append]
  constructor
  · rintro ⟨other, hother, hload'⟩
    rw [hother.unique hdata] at hload'
    exact (loadData_eq_unset_iff.mp hload').2
  · intro hothers
    exact ⟨data, hdata, loadData_eq_unset_iff.mpr ⟨hmap, hothers⟩⟩

/-- The report of unset variables names what the data refers to without a fallback and the
environment does not bind, each name once and in the order of the walk. Further bindings take
their names off the report. So a load that reports unset variables no longer does so once they
are all bound, whatever they are bound to, and reports the others as long as there are any. -/
theorem unset_report_exact (env : Environment) :
    (∀ data, ∃ walk, (∀ other, Environment.Walk data other ↔ other = walk) ∧
      (Environment.missing env data).Nodup ∧
      (∀ name, name ∈ Environment.missing env data ↔ name ∈ walk ∧ env.get? name = none) ∧
      (Environment.missing env data).Pairwise fun a b => walk.idxOf a < walk.idxOf b) ∧
    (∀ data (added : Environment), Environment.missing (env ++ added) data =
      (Environment.missing env data).filter fun name => (added.get? name).isNone) ∧
    ∀ depths files path names,
      (load depths env files path).outcome = .error (.failure (.variablesNotSet names)) →
      ∀ added : Environment,
        ((∀ name ∈ names, ∃ value, added.get? name = some value) → ∀ others,
          (load depths (env ++ added) files path).outcome ≠
            .error (.failure (.variablesNotSet others))) ∧
        ((∃ name ∈ names, added.get? name = none) →
          (load depths (env ++ added) files path).outcome = .error (.failure (.variablesNotSet
            (names.filter fun name => (added.get? name).isNone)))) := by
  refine ⟨fun data => ?_, fun data added => Environment.missing_append env added data, ?_⟩
  · exact ⟨Environment.demanded data, fun _ => Environment.walk_iff,
      Environment.missing_nodup env data, fun _ => Environment.mem_missing_iff,
      Environment.missing_pairwise env data⟩
  · intro depths files path names h added
    constructor
    · intro hbound others hothers
      obtain ⟨hleft, hsome⟩ := (load_unset_append h added others).mp hothers
      apply hsome
      rw [← hleft, List.filter_eq_nil_iff]
      intro name hname
      obtain ⟨value, hvalue⟩ := hbound name hname
      rw [hvalue]
      exact nofun
    · rintro ⟨name, hname, hnone⟩
      rw [load_unset_append h added]
      refine ⟨rfl, List.ne_nil_of_mem (a := name) ?_⟩
      rw [List.mem_filter, hnone]
      exact ⟨hname, rfl⟩

/-- A file that refers to one variable twice, with and without a fallback, and to another one. -/
def twoVariables : Files :=
  .ofListing [("config.yaml", .file (Text.encodeUtf8 ("name: $\x7bB:-n\x7d $\x7bA\x7d\nchat:\n" ++
    "  model: $\x7bB\x7d$\x7bA\x7d\n")))]

def unsetIn? (r : LoadRun) : Option (List String) :=
  match r.outcome with
  | .error (.failure (.variablesNotSet names)) => some names
  | _ => none

theorem outcome_of_unsetIn? {r : LoadRun} {names : List String} (h : unsetIn? r = some names) :
    r.outcome = .error (.failure (.variablesNotSet names)) := by
  unfold unsetIn? at h
  split at h
  next other hother =>
    cases h
    exact hother
  next => cases h

theorem variables_bound_one_by_one :
    (load ⟨480, 482⟩ [] twoVariables "config.yaml").outcome =
        .error (.failure (.variablesNotSet ["A", "B"])) ∧
      (load ⟨480, 482⟩ [("A", "$\x7bB\x7d")] twoVariables "config.yaml").outcome =
        .error (.failure (.variablesNotSet ["B"])) ∧
      ∀ others, (load ⟨480, 482⟩ [("A", "$\x7bB\x7d"), ("B", "$\x7bA\x7d")] twoVariables
        "config.yaml").outcome ≠ .error (.failure (.variablesNotSet others)) := by
  have hload : (load ⟨480, 482⟩ [] twoVariables "config.yaml").outcome =
      .error (.failure (.variablesNotSet ["A", "B"])) := outcome_of_unsetIn? (by decide +kernel)
  obtain ⟨_, _, hadded⟩ := unset_report_exact []
  have hone := (hadded _ _ _ _ hload [("A", "$\x7bB\x7d")]).2 ⟨"B", by decide, by decide⟩
  have hboth := (hadded _ _ _ _ hload [("A", "$\x7bB\x7d"), ("B", "$\x7bA\x7d")]).1 (by
    intro name hname
    simp only [List.mem_cons, List.not_mem_nil, or_false] at hname
    rcases hname with rfl | rfl
    · exact ⟨_, rfl⟩
    · exact ⟨_, rfl⟩)
  exact ⟨hload, hone, hboth⟩

end ClaimCheck.Config
