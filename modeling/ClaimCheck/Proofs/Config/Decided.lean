import ClaimCheck.Proofs.Config.Conform
/-!
The order in which a load is decided. The data have to be a mapping; then every variable that they
cannot do without has to be set, whatever else is wrong with them; and only then are the data, with
their variables replaced, looked at as a configuration. Nothing is reported before all this is
settled.
-/
namespace ClaimCheck.Config
open Environment (missing interpolate)

/-- What data come to in an environment. At most one of the four ways is open. -/
inductive Decides (env : Environment) (data : Value) : Except Raised Config → Prop
  | notMapping (h : ∀ entries, data ≠ .map entries) :
      Decides env data (.error (.failure (.configInvalid .notMapping)))
  | unset {entries : List (Value × Value)} (hdata : data = .map entries)
      (h : missing env data ≠ []) :
      Decides env data (.error (.failure (.variablesNotSet (missing env data))))
  | unfit {entries : List (Value × Value)} {result : Value} {rejection : Rejection}
      (hdata : data = .map entries) (hset : missing env data = [])
      (hresult : interpolate env data = .ok result) (h : ∀ config : Config, ¬ config.HeldBy result)
      (hrejection : ofValue result = .error rejection) :
      Decides env data (.error (.failure (.configInvalid (.schema rejection))))
  | accepted {entries : List (Value × Value)} {result : Value} {config : Config}
      (hdata : data = .map entries) (hset : missing env data = [])
      (hresult : interpolate env data = .ok result) (h : config.HeldBy result) :
      Decides env data (.ok config)

section Data
variable {env : Environment} {data result : Value}

theorem not_heldBy_of_rejected {rejection : Rejection} (h : ofValue result = .error rejection)
    (config : Config) : ¬ config.HeldBy result := by
  intro hheld
  cases (ofValue_eq_ok_iff.mpr hheld).symm.trans h

theorem ofData_of_set {entries : List (Value × Value)} (hdata : data = .map entries)
    (hset : missing env data = []) (hresult : interpolate env data = .ok result) :
    ofData env data = ofInterpolated result := by
  subst hdata
  simp only [ofData, hset, hresult]

theorem Decides.ofData_eq {outcome : Except Raised Config} (h : Decides env data outcome) :
    ofData env data = outcome := by
  cases h with
  | notMapping h =>
      unfold ofData
      split
      next entries => exact absurd rfl (h entries)
      next => rfl
  | unset hdata h =>
      subst hdata
      unfold ofData
      dsimp only
      split
      next hset => exact absurd hset h
      next => rfl
  | unfit hdata hset hresult h hrejection =>
      rw [ofData_of_set hdata hset hresult, ofInterpolated, hrejection]
      rfl
  | accepted hdata hset hresult h =>
      rw [ofData_of_set hdata hset hresult, ofInterpolated, ofValue_eq_ok_iff.mpr h]
      rfl

theorem exists_decides (env : Environment) (data : Value) :
    ∃ outcome, Decides env data outcome := by
  by_cases hdata : ∃ entries, data = .map entries
  · obtain ⟨entries, hdata⟩ := hdata
    by_cases hset : missing env data = []
    · obtain ⟨result, hresult⟩ := Environment.interpolate_ok_of_missing_nil hset
      cases hvalue : ofValue result with
      | ok config =>
          exact ⟨_, .accepted hdata hset hresult (ofValue_eq_ok_iff.mp hvalue)⟩
      | error rejection =>
          exact ⟨_, .unfit hdata hset hresult (not_heldBy_of_rejected hvalue) hvalue⟩
    · exact ⟨_, .unset hdata hset⟩
  · exact ⟨_, .notMapping fun entries hentries => hdata ⟨entries, hentries⟩⟩

theorem loadData_outcome (env : Environment) (data : Value) :
    (loadData env data).outcome = ofData env data := by
  unfold loadData
  split
  next h => exact h.symm
  next h => exact h.symm

theorem loadData_outcome_iff_decides {outcome : Except Raised Config} :
    (loadData env data).outcome = outcome ↔ Decides env data outcome := by
  rw [loadData_outcome]
  constructor
  · rintro rfl
    obtain ⟨outcome, h⟩ := exists_decides env data
    rwa [h.ofData_eq]
  · exact Decides.ofData_eq

end Data

theorem getLast?_loadEvents (config : Config) :
    (loadEvents config).getLast? = some (.configLoaded config.name config.chat.model) :=
  List.getLast?_concat ..

/-- Whatever data a parser finds in a file, a load of it is decided by their shape, then by the
variables, then by the schema. A load that fails has reported nothing; one that ends with a
configuration reports this last, and the configuration is sound. -/
theorem load_decided_in_order :
    (∀ parse env files path contents data,
      files.contents? (Path.normalized path) = some contents → parse contents = .ok data →
      ∀ outcome, (loadWith parse env files path).outcome = outcome ↔ Decides env data outcome) ∧
    (∀ parse env files path raised, (loadWith parse env files path).outcome = .error raised →
      (loadWith parse env files path).events = []) ∧
    ∀ parse env files path config, (loadWith parse env files path).outcome = .ok config →
      (loadWith parse env files path).events.getLast? =
          some (.configLoaded config.name config.chat.model) ∧
        config.Sound := by
  refine ⟨?_, ?_, ?_⟩
  · intro parse env files path contents data hcontents hparse outcome
    rw [loadWith_of_parsed hcontents hparse]
    exact loadData_outcome_iff_decides
  · intro parse env files path raised h
    exact events_of_loadWith_error h
  · intro parse env files path config h
    rw [events_of_loadWith_ok h]
    exact ⟨getLast?_loadEvents config, sound_of_loadWith h⟩

/-- Data without a chat model, whose name is a variable. -/
def nameOnly : Value :=
  .map [(.text "name", .text "$\x7bNAME\x7d")]

/-- Data with the given name. -/
def dataNamed (name : String) : Value :=
  .map [(.text "name", .text name), (.text "chat", .map [(.text "model", .text "m")])]

def namedByVariable : Value :=
  dataNamed "$\x7bNAME\x7d"

def oneFile : Files :=
  .ofListing [("config.yaml", .file [])]

theorem emptied_name_is_found_late :
    (loadWith (fun _ => .ok nameOnly) [] oneFile "config.yaml").outcome =
        .error (.failure (.variablesNotSet ["NAME"])) ∧
      (loadWith (fun _ => .ok namedByVariable) [("NAME", "")] oneFile "config.yaml").outcome =
        .error (.failure (.configInvalid (.schema ⟨recordName, [⟨[.name "name"], .tooShort⟩]⟩))) ∧
      (loadWith (fun _ => .ok nameOnly) [] oneFile "config.yaml").events = [] ∧
      (loadWith (fun _ => .ok namedByVariable) [("NAME", "n")] oneFile
        "config.yaml").events.getLast? = some (.configLoaded "n" "m") := by
  have hfile : oneFile.contents? (Path.normalized "config.yaml") = some [] := by decide +kernel
  have hmissing : missing [] nameOnly = ["NAME"] := by decide +kernel
  have hset : missing [("NAME", "")] namedByVariable = [] := by decide +kernel
  have hresult : interpolate [("NAME", "")] namedByVariable = .ok (dataNamed "") := rfl
  have hrejection : ofValue (dataNamed "") =
      .error ⟨recordName, [⟨[.name "name"], .tooShort⟩]⟩ := by decide +kernel
  have hload : (loadWith (fun _ => .ok namedByVariable) [("NAME", "n")] oneFile
      "config.yaml").outcome = .ok ⟨"n", ⟨"m", .zero, none, none⟩, .default⟩ :=
    ok_of_toOption (by decide +kernel)
  obtain ⟨hdecided, hsilent, hlast⟩ := load_decided_in_order
  have hunset : (loadWith (fun _ => .ok nameOnly) [] oneFile "config.yaml").outcome =
      .error (.failure (.variablesNotSet ["NAME"])) := by
    rw [hdecided _ _ _ _ _ _ hfile rfl, ← hmissing]
    exact .unset rfl (by rw [hmissing]; exact List.cons_ne_nil _ _)
  have hunfit := (hdecided (fun _ => .ok namedByVariable) _ _ _ _ _ hfile rfl _).mpr
    (.unfit rfl hset hresult (not_heldBy_of_rejected hrejection) hrejection)
  exact ⟨hunset, hunfit, hsilent _ _ _ _ _ hunset, (hlast _ _ _ _ _ hload).1⟩

end ClaimCheck.Config
