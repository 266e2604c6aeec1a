import ClaimCheck.Proofs.Config.Load
/-!
What a load announces and what escapes it. A load ends with a configuration or with a failure of
its own, unless the path leads to what cannot be read: a file that the system does not open, bytes
that stop being text, or a text whose scalars cannot be made or are nested too deep. What is wrong
with those is not turned into a failure.
-/
namespace ClaimCheck.Config

/-- A load ends with a configuration, or with a failure that it announces and that begins with the
words of all failures. -/
def EndsAsAnnounced (r : LoadRun) : Prop :=
  (∃ config, r.outcome = .ok config) ∨
    ∃ failure reason, r.outcome = .error (.failure failure) ∧
      Raised.OfLoad (.failure failure) ∧ failure.message = "Failed to " ++ reason

/-- What escapes a load is what its file raised. -/
def LetsFileEscape (r : LoadRun) : Prop :=
  ∃ raised, r.outcome = .error raised ∧ raised.OfFile

theorem load_announced_or_escaped (depths : Yaml.Depths) (env : Environment) (files : Files)
    (path : String) :
    EndsAsAnnounced (load depths env files path) ∨
      LeadsToUnreadable depths files path ∧ LetsFileEscape (load depths env files path) := by
  cases hload : (load depths env files path).outcome with
  | ok config => exact .inl (.inl ⟨config, hload⟩)
  | error raised =>
      rcases load_error hload with hraised | ⟨hunreadable, hraised⟩
      · obtain ⟨failure, reason, rfl, hmessage⟩ := hraised.message
        exact .inl (.inr ⟨failure, reason, hload, hraised, hmessage⟩)
      · exact .inr ⟨hunreadable, raised, hload, hraised⟩

theorem LetsFileEscape.not_announced {r : LoadRun} (h : LetsFileEscape r) :
    ¬ EndsAsAnnounced r := by
  obtain ⟨raised, hraised, hfile⟩ := h
  rintro (⟨config, hconfig⟩ | ⟨failure, reason, hfailure, hload, _⟩)
  · cases hraised.symm.trans hconfig
  · cases hraised.symm.trans hfailure
    exact hfile.not_ofLoad hload

/-- Whatever the path leads to, a load ends as announced except where it meets what it cannot read;
there, and only there, what is wrong escapes. With a text in the file that is a scalar that cannot
be made, or nesting that is too deep. -/
theorem announced_iff_readable (depths : Yaml.Depths) (env : Environment) (files : Files)
    (path : String) :
    (EndsAsAnnounced (load depths env files path) ↔ ¬ LeadsToUnreadable depths files path) ∧
      (LetsFileEscape (load depths env files path) ↔ LeadsToUnreadable depths files path) ∧
      ∀ text, files.contents? (Path.normalized path) = some (Text.encodeUtf8 text) →
        LeadsToUnreadable depths files path →
        ∃ fault, Yaml.parse depths (Yaml.Source.ofBytes (Text.encodeUtf8 text)) = .error fault ∧
          (fault = .nestedTooDeep ∨ ∃ flaw, fault = .scalar flaw) := by
  have hends := load_announced_or_escaped depths env files path
  refine ⟨⟨?_, ?_⟩, ⟨?_, ?_⟩, ?_⟩
  · intro hannounced hunreadable
    exact LetsFileEscape.not_announced (hunreadable.load_error env) hannounced
  · intro hreadable
    exact hends.resolve_right fun h => hreadable h.1
  · intro hescapes
    exact (hends.resolve_left hescapes.not_announced).1
  · intro hunreadable
    exact hunreadable.load_error env
  · intro text htext hunreadable
    cases hunreadable with
    | refused refusal hrefusal =>
        cases htext.symm.trans (Files.contents?_of_refusal? hrefusal)
    | contents contents hcontents hunreadable =>
        obtain rfl := Option.some.inj (htext.symm.trans hcontents)
        exact hunreadable.of_text

/-- A byte that begins no character, and a day in a month that does not exist. -/
def unreadableFiles : Files :=
  .ofListing [("byte.yaml", .file [0xff]),
    ("day.yaml", .file (Text.encodeUtf8 "name: n\nchat:\n  model: m\n  api_base: 2024-13-45\n"))]

def fileEscapes? (r : LoadRun) : Bool :=
  match r.outcome with
  | .error (.refused _ _) | .error (.undecodable _) | .error (.scalar _)
  | .error .nestedTooDeep => true
  | _ => false

theorem escapes_of_fileEscapes? {r : LoadRun} (h : fileEscapes? r = true) :
    LetsFileEscape r := by
  unfold fileEscapes? at h
  split at h
  next hraised => exact ⟨_, hraised, trivial⟩
  next hraised => exact ⟨_, hraised, trivial⟩
  next hraised => exact ⟨_, hraised, trivial⟩
  next hraised => exact ⟨_, hraised, trivial⟩
  next => cases h

theorem byte_and_day_escape :
    ¬ EndsAsAnnounced (load ⟨480, 482⟩ [] unreadableFiles "byte.yaml") ∧
      ¬ EndsAsAnnounced (load ⟨480, 482⟩ [] unreadableFiles "day.yaml") ∧
      ∃ fault, Yaml.parse ⟨480, 482⟩ (Yaml.Source.ofBytes (Text.encodeUtf8
          "name: n\nchat:\n  model: m\n  api_base: 2024-13-45\n")) = .error fault ∧
        (fault = .nestedTooDeep ∨ ∃ flaw, fault = .scalar flaw) := by
  obtain ⟨hbyte, hbyte', _⟩ := announced_iff_readable ⟨480, 482⟩ [] unreadableFiles "byte.yaml"
  obtain ⟨hday, hday', htext⟩ := announced_iff_readable ⟨480, 482⟩ [] unreadableFiles "day.yaml"
  have hunreadable := hbyte'.mp (escapes_of_fileEscapes? (by decide +kernel))
  have hunreadable' := hday'.mp (escapes_of_fileEscapes? (by decide +kernel))
  exact ⟨fun h => hbyte.mp h hunreadable, fun h => hday.mp h hunreadable',
    htext _ (by decide +kernel) hunreadable'⟩

end ClaimCheck.Config
