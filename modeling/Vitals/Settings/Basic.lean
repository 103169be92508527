import Vitals.Collector.Config
import Vitals.Duration.Text
import Vitals.Net.Socket
import Vitals.Settings.Layer
import Vitals.Text.Utf8
import Vitals.Toml.Document

/-!
# Settings

How the service is set up. `Settings.load` lays what was said on the command line upon the
environment, the environment upon a file and the file upon what holds unless it is said, and
reads the settings out of the whole.
-/

namespace Vitals

/-- Where services are found. -/
inductive RegistrySource where
  | file (path : String)
  | http (url : String)
deriving Repr, DecidableEq, Inhabited

/-- How the service is set up. -/
structure Settings where
  collector : CollectorConfig
  listen : SocketAddress
  registry : RegistrySource
deriving Repr, DecidableEq, Inhabited

/-- Why the service cannot be set up. -/
inductive SettingsFault where
  /-- The file cannot be read or is not TOML. -/
  | unloadable
  /-- A setting has a value of the wrong type. -/
  | illTyped
  | duration (key : Key) (fault : DurationFault)
  | collector (fault : ConfigFault)
  | listen (text : String)
  | twoRegistries
  | noRegistry
deriving Repr, DecidableEq, Inhabited

/-- The wording of the fault, the outermost cause first. -/
def SettingsFault.causes : SettingsFault → List String
  | unloadable => ["failed to load configuration"]
  | illTyped => ["invalid configuration"]
  | duration key fault => [s!"invalid {key.name}", fault.message]
  | collector fault => [(CollectorFault.config fault).message]
  | listen text => [s!"invalid listen address: {text}", "invalid socket address syntax"]
  | twoRegistries => ["configure either registry_file or registry_url, not both"]
  | noRegistry => ["no registry configured: set registry_file or registry_url"]

/-! ## The layers -/

/-- What was said on the command line. -/
structure Overrides where
  scrapeInterval : Option String := none
  refreshInterval : Option String := none
  callTimeout : Option String := none
  window : Option UInt32 := none
  listen : Option String := none
  registryFile : Option String := none
  registryUrl : Option String := none
deriving Repr, DecidableEq, Inhabited

/-- What was said as a layer. -/
def Overrides.layer (overrides : Overrides) : Layer
  | .scrapeInterval => overrides.scrapeInterval.map .text
  | .refreshInterval => overrides.refreshInterval.map .text
  | .callTimeout => overrides.callTimeout.map .text
  | .window => overrides.window.map fun window => .integer window.toNat
  | .maxWindow => none
  | .listen => overrides.listen.map .text
  | .registryFile => overrides.registryFile.map .text
  | .registryUrl => overrides.registryUrl.map .text

/-- Where the service listens, unless it is said. -/
def defaultListen : String := "127.0.0.1:8089"

/-- What holds unless it is said. -/
def defaultLayer : Layer
  | .scrapeInterval => some (.text "1s")
  | .refreshInterval => some (.text "10s")
  | .callTimeout => some (.text "2s")
  | .window => some (.integer 3600)
  | .listen => some (.text defaultListen)
  | .maxWindow | .registryFile | .registryUrl => none

/-- A file of settings: its bytes, if it can be read. -/
abbrev SettingsFile := Option (List UInt8)

/-- The layer of a file; without a file it gives nothing. -/
def fileLayer : Option SettingsFile → Except SettingsFault Layer
  | none => .ok .empty
  | some content =>
    match (content.bind Utf8.decode?).bind Toml.parse with
    | some entries => .ok (.ofToml entries)
    | none => .error .unloadable

/-! ## From the layers to the settings -/

/-- The settings as they are written. -/
structure WrittenSettings where
  scrapeInterval : String
  refreshInterval : String
  callTimeout : String
  window : Nat
  maxWindow : Option Nat
  listen : String
  registryFile : Option String
  registryUrl : Option String
deriving Repr, DecidableEq, Inhabited

/-- A value that may be left out; `none` where it has the wrong type. -/
def optional? {α : Type} (convert : Given → Option α) : Option Given → Option (Option α)
  | none => some none
  | some value => (convert value).map some

/-- The settings that a layer gives, if each of them has the right type. -/
def WrittenSettings.ofLayer? (layer : Layer) : Option WrittenSettings := do
  return {
    scrapeInterval := ← (layer .scrapeInterval).bind Given.toText?
    refreshInterval := ← (layer .refreshInterval).bind Given.toText?
    callTimeout := ← (layer .callTimeout).bind Given.toText?
    window := ← (layer .window).bind Given.toCount?
    maxWindow := ← optional? Given.toCount? (layer .maxWindow)
    listen := ← (layer .listen).bind Given.toText?
    registryFile := ← optional? Given.toText? (layer .registryFile)
    registryUrl := ← optional? Given.toText? (layer .registryUrl) }

/-- Where services are found; exactly one place has to be said. -/
def registrySource : Option String → Option String → Except SettingsFault RegistrySource
  | some path, none => .ok (.file path)
  | none, some url => .ok (.http url)
  | some _, some _ => .error .twoRegistries
  | none, none => .error .noRegistry

/-- A setting that is a duration. -/
def readDuration (key : Key) (text : String) : Except SettingsFault Duration :=
  (Duration.parse text).mapError (.duration key)

/-- The settings that the written ones stand for. -/
def WrittenSettings.resolve (written : WrittenSettings) : Except SettingsFault Settings := do
  let collector : CollectorConfig := {
    scrapeInterval := ← readDuration .scrapeInterval written.scrapeInterval
    refreshInterval := ← readDuration .refreshInterval written.refreshInterval
    callTimeout := ← readDuration .callTimeout written.callTimeout
    window := written.window
    maxWindow := written.maxWindow }
  if let some fault := collector.fault? then throw (.collector fault)
  match SocketAddress.parse? written.listen with
  | none => throw (.listen written.listen)
  | some listen =>
    let registry ← registrySource written.registryFile written.registryUrl
    return { collector, listen, registry }

/-- The settings that a layer gives. -/
def Settings.ofLayer (layer : Layer) : Except SettingsFault Settings :=
  match WrittenSettings.ofLayer? layer with
  | none => .error .illTyped
  | some written => written.resolve

/-- The settings out of a file, if there is one, the variables of the environment and what was
said on the command line. -/
def Settings.load (file : Option SettingsFile) (environment : List (String × String))
    (overrides : Overrides) : Except SettingsFault Settings := do
  let file ← fileLayer file
  Settings.ofLayer <|
    overrides.layer.upon ((Layer.ofVariables environment).upon (file.upon defaultLayer))

end Vitals
