import StagedPipeline.CommandLine.Argument
import StagedPipeline.Pipeline.Config

/-!
# Invocations

The meaning of a list of arguments. Options are collected from left to right. The value of an option
that stands in an argument of its own is looked at when the next option of the subcommand is met, or
at the end; so an argument that does not belong counts before a value in front of it that cannot be
read.
-/

namespace StagedPipeline.CommandLine

/-- Why arguments are refused. -/
inductive ArgumentError where
  | noSubcommand
  | unknownSubcommand (word : String)
  | unknownArgument (word : String)
  /-- A value for an option that takes none. -/
  | surplusValue (name : String) (value : String)
  /-- An option that stands there twice. -/
  | repeated (argument : Argument)
  | missingValue (argument : Argument)
  | unreadableValue (argument : Argument) (value : String)
  /-- An option without which a subcommand means nothing. -/
  | missingArgument (argument : Argument)
deriving DecidableEq, Repr

/-- What help is asked for. -/
inductive Topic where
  | program
  | subcommand (subcommand : Subcommand)
  | help
deriving DecidableEq, Repr

/-- Why arguments do not lead to a subcommand. -/
inductive Stop where
  | help (topic : Topic)
  | version
  | refused (error : ArgumentError)
deriving DecidableEq, Repr

/-- What is asked of a run. -/
structure RunOptions where
  task : String
  context : Option String
  maxRetries : Option UInt32
  noRetry : Bool
  stageTimeout : Option Duration
  /-- Whether the report is printed as JSON. -/
  json : Bool
deriving DecidableEq, Repr

/-- The settings of a pipeline with those put in place that are asked for. -/
def RunOptions.apply (o : RunOptions) (c : PipelineConfig) : PipelineConfig :=
  { c with
    context := o.context.or c.context
    maxRetries := o.maxRetries.getD c.maxRetries
    autoRetry := if o.noRetry then false else c.autoRetry
    stageTimeout := o.stageTimeout.getD c.stageTimeout }

/-- What a subcommand is asked to do. -/
inductive Command where
  | run (options : RunOptions)
  | config
deriving DecidableEq, Repr

/-- The meaning of a list of arguments. -/
structure Invocation where
  logJson : Bool
  /-- The settings file that is asked for. -/
  configPath : Option String
  command : Command
deriving DecidableEq, Repr

/-- The options met so far, each with its value; that of an option without one is empty. -/
abbrev Matches := List (Argument × String)

namespace Matches

/-- The value of an option. -/
def value? (m : Matches) (a : Argument) : Option String :=
  m.lookup a

/-- Whether an option is there. -/
def has (m : Matches) (a : Argument) : Bool :=
  (m.value? a).isSome

/-- Looks at the value of an option. -/
def checkValue (a : Argument) (value : String) : Except ArgumentError Unit :=
  let readable := match a with
    | .maxRetries => (readRetries? value).isSome
    | .stageTimeout => (readSeconds? value).isSome
    | _ => true
  if a = .config && value.isEmpty then .error (.missingValue a)
  else if readable then .ok ()
  else .error (.unreadableValue a value)

/-- Adds an option with its value. -/
def add (m : Matches) (a : Argument) (value : String) : Except ArgumentError Matches :=
  if m.has a then .error (.repeated a)
  else do
    checkValue a value
    pure ((a, value) :: m)

/-- The options of a run. -/
def toRunOptions (m : Matches) : RunOptions where
  task := (m.value? .task).getD ""
  context := m.value? .context
  maxRetries := (m.value? .maxRetries).bind readRetries?
  noRetry := m.has .noRetry
  stageTimeout := (m.value? .stageTimeout).bind readSeconds?
  json := m.has .json

end Matches

/-- An option that still waits for its value, or whose value has not been looked at. -/
structure Pending where
  argument : Argument
  value : Option String
deriving DecidableEq, Repr

/-- Adds an option that waited. -/
def settle (m : Matches) : Option Pending → Except ArgumentError Matches
  | none => .ok m
  | some ⟨a, none⟩ => .error (.missingValue a)
  | some ⟨a, some value⟩ => m.add a value

/-- What an error stops. -/
def refuse {α : Type} : Except ArgumentError α → Except Stop α
  | .ok a => .ok a
  | .error e => .error (.refused e)

namespace Subcommand

/-- Collects the options of a subcommand. -/
def collect (s : Subcommand) : Matches → Option Pending → List String → Except Stop Matches
  | m, pending, [] => refuse (settle m pending)
  | m, pending, word :: rest =>
    match Word.ofText word, pending with
    | .plain, some ⟨a, none⟩ => collect s m (some ⟨a, some word⟩) rest
    | .plain, _ => .error (.refused (.unknownArgument word))
    | .escape, pending =>
      match rest with
      | [] => refuse (settle m pending)
      | next :: _ => .error (.refused (.unknownArgument next))
    | .short letter, pending =>
      if letter = 'h' then do
        let _ ← refuse (settle m pending)
        .error (.help (.subcommand s))
      else .error (.refused (.unknownArgument word))
    | .long name value, pending =>
      match s.argument? name, value with
      | none, value =>
        if name = helpName then
          match value with
          | some value => .error (.refused (.surplusValue name value))
          | none => do
            let _ ← refuse (settle m pending)
            .error (.help (.subcommand s))
        else .error (.refused (.unknownArgument word))
      | some a, some value =>
        if a.takesValue then do
          let m ← refuse (settle m pending)
          let m ← refuse (m.add a value)
          collect s m none rest
        else .error (.refused (.surplusValue name value))
      | some a, none => do
        let m ← refuse (settle m pending)
        if a.takesValue then collect s m (some ⟨a, none⟩) rest
        else
          let m ← refuse (m.add a "")
          collect s m none rest

/-- The invocation of a subcommand with some options. -/
def invocation (s : Subcommand) (logJson : Bool) (m : Matches) : Except ArgumentError Invocation :=
  let made (command : Command) : Invocation :=
    ⟨logJson || m.has .logJson, m.value? .config, command⟩
  match s with
  | .config => .ok (made .config)
  | .run =>
    if m.has .task then .ok (made (.run m.toRunOptions)) else .error (.missingArgument .task)

/-- Reads the arguments behind a subcommand. -/
def parse (s : Subcommand) (logJson : Bool) (arguments : List String) : Except Stop Invocation := do
  let m ← s.collect [] none arguments
  refuse (s.invocation logJson m)

end Subcommand

/-- Reads the arguments behind the subcommand that explains others. -/
def helpTopic : List String → Except ArgumentError Topic
  | [] => .ok .program
  | [word] =>
    if word = helpName then .ok .help
    else
      match Subcommand.ofName? word with
      | some s => .ok (.subcommand s)
      | none => .error (.unknownSubcommand word)
  | word :: next :: _ =>
    if word = helpName || (Subcommand.ofName? word).isSome then .error (.unknownSubcommand next)
    else .error (.unknownSubcommand word)

namespace Invocation

/-- Reads arguments up to the subcommand, and on behind it. -/
def parseFrom (logJson : Bool) : List String → Except Stop Invocation
  | [] => .error (.refused .noSubcommand)
  | word :: rest =>
    match Word.ofText word with
    | .plain =>
      if word = helpName then (refuse (helpTopic rest)).bind fun topic => .error (.help topic)
      else
        match Subcommand.ofName? word with
        | some s => s.parse logJson rest
        | none => .error (.refused (.unknownSubcommand word))
    | .escape =>
      match rest with
      | [] => .error (.refused .noSubcommand)
      | next :: _ =>
        if next = helpName || (Subcommand.ofName? next).isSome then
          .error (.refused (.unknownArgument next))
        else .error (.refused (.unknownSubcommand next))
    | .short letter =>
      if letter = 'h' then .error (.help .program)
      else if letter = 'V' then .error .version
      else .error (.refused (.unknownArgument word))
    | .long name value =>
      if name = Argument.logJson.name || name = helpName || name = "version" then
        match value with
        | some value => .error (.refused (.surplusValue name value))
        | none =>
          if name = helpName then .error (.help .program)
          else if name = "version" then .error .version
          else if logJson then .error (.refused (.repeated .logJson))
          else parseFrom true rest
      else .error (.refused (.unknownArgument word))

/-- Reads the arguments of the program. -/
def parse (arguments : List String) : Except Stop Invocation :=
  parseFrom false arguments

end Invocation

end StagedPipeline.CommandLine
