import ClaimCheck.Config
import ClaimCheck.Environment
import ClaimCheck.Event
import ClaimCheck.Failure
import ClaimCheck.Yaml.Data
/-!
From parsed data to a configuration. The order is fixed: the data has to be a mapping,
then every variable has to be set, then the interpolated data has to fit the schema. A
load that fails reports no event.
-/
namespace ClaimCheck

structure LoadRun where
  outcome : Except Raised Config
  events : List Event
  deriving Repr

namespace Config

def loadEvents (config : Config) : List Event :=
  (if config.chat.temperature.isPositive then
    [.configTemperatureWarned config.chat.temperature] else [])
    ++ [.configLoaded config.name config.chat.model]

def ofInterpolated (data : Value) : Except Raised Config :=
  (ofValue data).mapError fun rejection => .failure (.configInvalid (.schema rejection))

def ofData (env : Environment) (data : Value) : Except Raised Config :=
  match data with
  | .map _ =>
    match Environment.missing env data with
    | [] =>
      match Environment.interpolate env data with
      | .ok data => ofInterpolated data
      | .error name => .error (.unsetVariable name)
    | names => .error (.failure (.variablesNotSet names))
  | _ => .error (.failure (.configInvalid .notMapping))

def loadData (env : Environment) (data : Value) : LoadRun :=
  match ofData env data with
  | .ok config => ⟨.ok config, loadEvents config⟩
  | .error raised => ⟨.error raised, []⟩

def loadWith (parse : List UInt8 → Except Raised Value) (env : Environment) (files : Files)
    (path : String) : LoadRun :=
  let place := Path.normalized path
  match files.contents? place with
  | some contents =>
    match parse contents with
    | .ok data => loadData env data
    | .error raised => ⟨.error raised, []⟩
  | none =>
    match files.refusal? place with
    | some refusal => ⟨.error (.refused refusal place), []⟩
    | none => ⟨.error (.failure (.configNotFound path)), []⟩

/-- What a load makes of a parser's outcome, for a text that may break off. -/
def ofParsed (result : Except Yaml.Fault Value) (gap : Option Yaml.Gap) : Except Raised Value :=
  match result, gap with
  | .ok data, _ => .ok data
  | .error (.scalar flaw), _ => .error (.scalar flaw)
  | .error .nestedTooDeep, _ => .error .nestedTooDeep
  | .error .brokenOff, some (.undecodable e) => .error (.undecodable e)
  | .error _, _ => .error (.failure (.configInvalid .malformed))

/-- The data in the contents of a file. A fault in what can be read comes before bytes further on
that cannot. -/
def parseContents (depths : Yaml.Depths) (contents : List UInt8) : Except Raised Value :=
  let source := Yaml.Source.ofBytes contents
  ofParsed (Yaml.parse depths source) source.gap

def load (depths : Yaml.Depths) (env : Environment) (files : Files) (path : String) : LoadRun :=
  loadWith (parseContents depths) env files path

end Config
end ClaimCheck
