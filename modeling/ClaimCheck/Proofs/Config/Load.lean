import ClaimCheck.Config.Load
import ClaimCheck.Proofs.Environment.Missing
import ClaimCheck.Proofs.Failure
import ClaimCheck.Proofs.Text.Stream
/-!
How a load ends. What goes wrong after parsing is always a failure of the loader's own work;
only the file itself can end a load with anything else, and this module says which files do.
-/
namespace ClaimCheck

theorem Files.contents?_of_refusal? {files : Files} {path : String} {refusal : Refusal}
    (h : files.refusal? path = some refusal) : files.contents? path = none := by
  unfold Files.refusal? at h
  unfold Files.contents?
  cases hentry : files.lookUp path with
  | error e => rfl
  | ok entry =>
      rw [hentry] at h
      rcases entry with _ | (_ | _ | _)
      · cases h
      · cases h
      · cases h
      · rfl

namespace Config

theorem ofInterpolated_ofLoad {data : Value} {raised : Raised}
    (h : ofInterpolated data = .error raised) : raised.OfLoad := by
  unfold ofInterpolated at h
  cases hv : ofValue data with
  | ok config => rw [hv] at h; cases h
  | error rejection => rw [hv] at h; cases h; exact .invalid _

/-- Where the substitution begins there is nothing left to report, so it goes through. -/
theorem ofData_ofLoad {env : Environment} {data : Value} {raised : Raised}
    (h : ofData env data = .error raised) : raised.OfLoad := by
  unfold ofData at h
  split at h
  · split at h
    next hnil =>
      obtain ⟨result, hresult⟩ := Environment.interpolate_ok_of_missing_nil hnil
      rw [hresult] at h
      exact ofInterpolated_ofLoad h
    next hnames => cases h; exact .unset _ hnames
  · cases h; exact .invalid _

theorem loadData_ofLoad {env : Environment} {data : Value} {raised : Raised}
    (h : (loadData env data).outcome = .error raised) : raised.OfLoad := by
  unfold loadData at h
  split at h
  next => cases h
  next other hother => cases h; exact ofData_ofLoad hother

theorem loadData_error {env : Environment} {data : Value} {raised : Raised}
    (h : (loadData env data).outcome = .error raised) : raised.IsFailure :=
  (loadData_ofLoad h).isFailure

/-- What a path leads to raises something that a load passes on. -/
inductive FileRaises (parse : List UInt8 → Except Raised Value) (files : Files) (path : String) :
    Raised → Prop
  | refused (refusal : Refusal) (h : files.refusal? (Path.normalized path) = some refusal) :
      FileRaises parse files path (.refused refusal (Path.normalized path))
  | contents {contents : List UInt8} {raised : Raised}
      (hcontents : files.contents? (Path.normalized path) = some contents)
      (hparse : parse contents = .error raised) : FileRaises parse files path raised

section LoadWith
variable {parse : List UInt8 → Except Raised Value} {env : Environment} {files : Files}
  {path : String}

theorem loadWith_of_parsed {contents : List UInt8} {data : Value}
    (hcontents : files.contents? (Path.normalized path) = some contents)
    (hparse : parse contents = .ok data) : loadWith parse env files path = loadData env data := by
  simp only [loadWith, hcontents, hparse]

theorem FileRaises.loadWith_eq {raised : Raised} (h : FileRaises parse files path raised)
    (env : Environment) : loadWith parse env files path = ⟨.error raised, []⟩ := by
  cases h with
  | refused refusal h => simp only [loadWith, Files.contents?_of_refusal? h, h]
  | contents hcontents hparse => simp only [loadWith, hcontents, hparse]

/-- All that can become of a load: its file is parsed, or raises something, or is not there. -/
theorem loadWith_cases (parse : List UInt8 → Except Raised Value) (env : Environment)
    (files : Files) (path : String) :
    (∃ contents data, files.contents? (Path.normalized path) = some contents ∧
        parse contents = .ok data ∧ loadWith parse env files path = loadData env data) ∨
      (∃ raised, FileRaises parse files path raised ∧
        loadWith parse env files path = ⟨.error raised, []⟩) ∨
      loadWith parse env files path = ⟨.error (.failure (.configNotFound path)), []⟩ := by
  cases hcontents : files.contents? (Path.normalized path) with
  | some contents =>
      cases hparse : parse contents with
      | ok data => exact .inl ⟨contents, data, rfl, hparse, loadWith_of_parsed hcontents hparse⟩
      | error raised =>
          have hraises : FileRaises parse files path raised := .contents hcontents hparse
          exact .inr (.inl ⟨raised, hraises, hraises.loadWith_eq env⟩)
  | none =>
      cases hrefusal : files.refusal? (Path.normalized path) with
      | some refusal =>
          have hraises : FileRaises parse files path _ := .refused refusal hrefusal
          exact .inr (.inl ⟨_, hraises, hraises.loadWith_eq env⟩)
      | none => exact .inr (.inr (by simp only [loadWith, hcontents, hrefusal]))

theorem loadWith_eq_ok {config : Config}
    (h : (loadWith parse env files path).outcome = .ok config) :
    ∃ contents data, files.contents? (Path.normalized path) = some contents ∧
      parse contents = .ok data ∧ (loadData env data).outcome = .ok config := by
  rcases loadWith_cases parse env files path with
    ⟨contents, data, hcontents, hparse, hload⟩ | ⟨raised, _, hload⟩ | hload
  · exact ⟨contents, data, hcontents, hparse, hload ▸ h⟩
  · rw [hload] at h; cases h
  · rw [hload] at h; cases h

/-- A load either ends with what it announces or hands on what its file raised. -/
theorem loadWith_error {raised : Raised}
    (h : (loadWith parse env files path).outcome = .error raised) :
    raised.OfLoad ∨ FileRaises parse files path raised := by
  rcases loadWith_cases parse env files path with ⟨_, _, _, _, hload⟩ | ⟨_, hraises, hload⟩ | hload
  · exact .inl (loadData_ofLoad (hload ▸ h))
  · rw [hload] at h; cases h; exact .inr hraises
  · rw [hload] at h; cases h; exact .inl (.notFound path)

/-- Events are reported only once the configuration is there. -/
theorem loadData_events (env : Environment) (data : Value) :
    (loadData env data).events = ((loadData env data).outcome.toOption.map loadEvents).getD [] := by
  unfold loadData
  split <;> rfl

theorem loadWith_events : (loadWith parse env files path).events =
    ((loadWith parse env files path).outcome.toOption.map loadEvents).getD [] := by
  rcases loadWith_cases parse env files path with
    ⟨_, data, _, _, hload⟩ | ⟨_, _, hload⟩ | hload
  · rw [hload]; exact loadData_events env data
  · rw [hload]; rfl
  · rw [hload]; rfl

theorem events_of_loadWith_ok {config : Config}
    (h : (loadWith parse env files path).outcome = .ok config) :
    (loadWith parse env files path).events = loadEvents config := by
  rw [loadWith_events, h]
  rfl

theorem events_of_loadWith_error {raised : Raised}
    (h : (loadWith parse env files path).outcome = .error raised) :
    (loadWith parse env files path).events = [] := by
  rw [loadWith_events, h]
  rfl

end LoadWith

/-- Contents whose bytes stop being text before the document in them is known to be malformed, or
whose document is not malformed and yet has no data. -/
inductive Unreadable (depths : Yaml.Depths) (contents : List UInt8) : Prop
  | notUtf8 (e : Text.Utf8Error)
      (hgap : (Yaml.Source.ofBytes contents).gap = some (.undecodable e))
      (hparse : Yaml.parse depths (Yaml.Source.ofBytes contents) = .error .brokenOff)
  | scalar (flaw : Yaml.ScalarFlaw)
      (hparse : Yaml.parse depths (Yaml.Source.ofBytes contents) = .error (.scalar flaw))
  | nestedTooDeep
      (hparse : Yaml.parse depths (Yaml.Source.ofBytes contents) = .error .nestedTooDeep)

section Contents
variable {depths : Yaml.Depths} {contents : List UInt8}

/-- A parser either calls the contents malformed or passes on what is unreadable. -/
theorem parseContents_raised {raised : Raised}
    (h : parseContents depths contents = .error raised) :
    raised = .failure (.configInvalid .malformed) ∨
      Unreadable depths contents ∧ raised.OfFile := by
  rw [parseContents] at h
  unfold ofParsed at h
  split at h
  next => cases h
  next flaw hparse => cases h; exact .inr ⟨.scalar flaw hparse, trivial⟩
  next hparse => cases h; exact .inr ⟨.nestedTooDeep hparse, trivial⟩
  next e hparse hgap => cases h; exact .inr ⟨.notUtf8 e hgap hparse, trivial⟩
  next => cases h; exact .inl rfl

/-- Unreadable contents do end a parse, and not with a failure of the parser's own. -/
theorem Unreadable.parse (h : Unreadable depths contents) :
    ∃ raised, parseContents depths contents = .error raised ∧ raised.OfFile := by
  cases h with
  | notUtf8 e hgap hparse =>
      exact ⟨.undecodable e, by rw [parseContents, hparse, hgap, ofParsed], trivial⟩
  | scalar flaw hparse => exact ⟨.scalar flaw, by rw [parseContents, hparse, ofParsed], trivial⟩
  | nestedTooDeep hparse =>
      exact ⟨.nestedTooDeep, by rw [parseContents, hparse, ofParsed], trivial⟩

/-- The bytes of a text are unreadable only for what is written in it. -/
theorem Unreadable.of_text {text : String} (h : Unreadable depths (Text.encodeUtf8 text)) :
    ∃ fault, Yaml.parse depths (Yaml.Source.ofBytes (Text.encodeUtf8 text)) = .error fault ∧
      (fault = .nestedTooDeep ∨ ∃ flaw, fault = .scalar flaw) := by
  cases h with
  | notUtf8 e hgap _ => exact (Yaml.Source.not_utf8_of_gap hgap text rfl).elim
  | scalar flaw hparse => exact ⟨_, hparse, .inr ⟨flaw, rfl⟩⟩
  | nestedTooDeep hparse => exact ⟨_, hparse, .inl rfl⟩

end Contents

/-- The path leads to what cannot be read: it cannot be followed, its file is not opened, or the
contents of the file are unreadable. -/
inductive LeadsToUnreadable (depths : Yaml.Depths) (files : Files) (path : String) : Prop
  | refused (refusal : Refusal) (h : files.refusal? (Path.normalized path) = some refusal)
  | contents (contents : List UInt8)
      (hcontents : files.contents? (Path.normalized path) = some contents)
      (hunreadable : Unreadable depths contents)

section Load
variable {depths : Yaml.Depths} {env : Environment} {files : Files} {path : String}
  {raised : Raised}

theorem load_error (h : (load depths env files path).outcome = .error raised) :
    raised.OfLoad ∨ LeadsToUnreadable depths files path ∧ raised.OfFile := by
  rcases loadWith_error h with hload | hraises
  · exact .inl hload
  · cases hraises with
    | refused refusal hrefusal => exact .inr ⟨.refused refusal hrefusal, trivial⟩
    | contents hcontents hparse =>
        rcases parseContents_raised hparse with rfl | ⟨hunreadable, hraised⟩
        · exact .inl (.invalid .malformed)
        · exact .inr ⟨.contents _ hcontents hunreadable, hraised⟩

theorem LeadsToUnreadable.load_error (h : LeadsToUnreadable depths files path)
    (env : Environment) :
    ∃ raised, (load depths env files path).outcome = .error raised ∧ raised.OfFile := by
  cases h with
  | refused refusal h =>
      have hraises : FileRaises (parseContents depths) files path _ := .refused refusal h
      exact ⟨_, congrArg LoadRun.outcome (hraises.loadWith_eq env), trivial⟩
  | contents contents hcontents hunreadable =>
      obtain ⟨raised, hparse, hraised⟩ := hunreadable.parse
      have hraises : FileRaises (parseContents depths) files path raised :=
        .contents hcontents hparse
      exact ⟨raised, congrArg LoadRun.outcome (hraises.loadWith_eq env), hraised⟩

end Load

/-- An interpolation fails exactly where the report names a variable, and with the first name
of the report; so no load ever ends with an interpolation that failed. -/
theorem interpolation_fails_as_reported (env : Environment) :
    (∀ data, (∃ name, Environment.interpolate env data = .error name) ↔
        Environment.missing env data ≠ []) ∧
      (∀ data name, Environment.interpolate env data = .error name ↔
        (Environment.missing env data).head? = some name) ∧
      (∀ data name, (loadData env data).outcome ≠ .error (.unsetVariable name)) ∧
      ∀ depths files path name,
        (load depths env files path).outcome ≠ .error (.unsetVariable name) := by
  have hfirst := Environment.interpolate_eq_error_iff env
  have hload : ∀ data name, (loadData env data).outcome ≠ .error (.unsetVariable name) := by
    intro data name h
    obtain ⟨failure, hfailure⟩ := loadData_error h
    cases hfailure
  refine ⟨fun data => ?_, hfirst, hload, fun depths files path name h => ?_⟩
  · simp only [hfirst]
    cases Environment.missing env data with
    | nil => exact ⟨nofun, nofun⟩
    | cons name names => exact ⟨nofun, fun _ => ⟨name, rfl⟩⟩
  · rcases load_error h with hraised | ⟨_, hraised⟩
    · obtain ⟨failure, hfailure⟩ := hraised.isFailure
      cases hfailure
    · exact hraised

end Config
end ClaimCheck
