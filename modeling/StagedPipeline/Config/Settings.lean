import StagedPipeline.Config.Engine
import StagedPipeline.Config.Executor
import StagedPipeline.Toml.Printer
import StagedPipeline.Toml.Reader

/-!
# Settings files

A settings file is a TOML document. That of an engine holds its settings alone; that of the program
holds them in one table and those of the executor in another. Settings out of range are refused.
-/

namespace StagedPipeline

open Json

/-- Why settings cannot be used. -/
inductive ConfigError where
  /-- The file cannot be read. -/
  | unreadable
  /-- It is no TOML document, or one with values of the wrong kind. -/
  | malformed
  /-- A setting is out of range. -/
  | invalid (flaw : ConfigFlaw)
deriving DecidableEq

/-- What is said about settings that cannot be used. -/
def ConfigError.message : ConfigError → String
  | unreadable => "failed to read config: "
  | malformed => "failed to parse config: "
  | invalid flaw => "invalid config: " ++ flaw.message

namespace EngineConfig

/-- Reads the settings of an engine. -/
def parse (text : String) : Except ConfigError EngineConfig :=
  match Toml.read? record.codec text with
  | none => .error .malformed
  | some config =>
    match config.check with
    | .ok _ => .ok config
    | .error flaw => .error (.invalid flaw)

/-- Reads the settings in a file, given what it holds, if it can be read. -/
def load (file : Option String) : Except ConfigError EngineConfig :=
  match file with
  | none => .error .unreadable
  | some text => parse text

/-- The text of the settings of an engine, if every number fits. -/
def print? (c : EngineConfig) : Option String :=
  Toml.print? (record.encode c)

end EngineConfig

namespace ExecutorConfig

/-- Reads the settings of an executor. -/
def parse (text : String) : Except ConfigError ExecutorConfig :=
  match Toml.read? record.codec text with
  | none => .error .malformed
  | some config => .ok config

end ExecutorConfig

/-- The settings of the program. -/
structure Settings where
  engine : EngineConfig
  executor : ExecutorConfig
deriving DecidableEq

namespace Settings

/-- The default of every setting. -/
def initial : Settings := ⟨.initial, .initial⟩

/-- The settings, by name. -/
def record : Record Settings where
  initial := initial
  mayStop := true
  fields := [
    .defaulted "engine" EngineConfig.record.codec (·.engine) (fun v a => { a with engine := v }),
    .defaulted "executor" ExecutorConfig.record.codec (·.executor)
      (fun v a => { a with executor := v })]

/-- Reads the settings of the program. -/
def parse (text : String) : Except ConfigError Settings :=
  match Toml.read? record.codec text with
  | none => .error .malformed
  | some settings =>
    match settings.engine.check with
    | .ok _ => .ok settings
    | .error flaw => .error (.invalid flaw)

/-- A file that is asked for: its path, and what it holds if it can be read. -/
structure File where
  path : String
  text : Option String
deriving DecidableEq, Repr

/-- Reads the settings in a file, or takes the defaults if no file is asked for. -/
def load : Option File → Except ConfigError Settings
  | none => .ok initial
  | some ⟨_, none⟩ => .error .unreadable
  | some ⟨_, some text⟩ => parse text

/-- What is said first about a file whose settings cannot be used. -/
def loadContext (path : String) : ConfigError → String
  | .unreadable => "failed to read config " ++ path
  | _ => "invalid config " ++ path

/-- The text of the settings, if every number fits. -/
def print? (s : Settings) : Option String :=
  Toml.print? (record.encode s)

end Settings

end StagedPipeline
