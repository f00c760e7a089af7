import Rollout.Component
import Rollout.Duration.Units
import Rollout.Settings

/-! The command line: what is to be done, where the files are, and which settings are given. -/

set_option autoImplicit false

namespace Rollout

inductive UsageError where
  | help
  /-- Help in place of arguments, of which there are none. -/
  | helpForNothing
  | version
  | unknownArgument
  | unknownCommand
  | missingArgument
  /-- A value that is missing or empty. -/
  | missingValue
  /-- A value that is not of its kind. -/
  | badValue
  | repeated
  /-- A value for a flag that takes none. -/
  | needlessValue
  deriving DecidableEq, Repr

def versionText : String := "kyma-deploy 0.1.0\n"

inductive Flag where
  | config
  | components
  | resources
  | overrides
  | workers
  | cancelTimeout
  | quitTimeout
  | helmTimeout
  | kubeconfig
  deriving DecidableEq, Repr

def Flag.name : Flag → String
  | .config => "config"
  | .components => "components"
  | .resources => "resources"
  | .overrides => "overrides"
  | .workers => "workers"
  | .cancelTimeout => "cancel-timeout"
  | .quitTimeout => "quit-timeout"
  | .helmTimeout => "helm-timeout"
  | .kubeconfig => "kubeconfig"

def Flag.all : List Flag :=
  [.config, .components, .resources, .overrides, .workers, .cancelTimeout, .quitTimeout,
    .helmTimeout, .kubeconfig]

def Flag.ofName? (name : String) : Option Flag :=
  Flag.all.find? (·.name == name)

structure Options where
  config : Option String := none
  components : Option String := none
  overrides : Option String := none
  layer : SettingsLayer := {}
  deriving DecidableEq, Repr

structure Command where
  action : Action
  config : Option String
  components : String
  overrides : Option String
  layer : SettingsLayer
  deriving DecidableEq, Repr

namespace Options

def pathValue (value : String) : Except UsageError String :=
  if value.isEmpty then .error .missingValue else .ok value

def word? (value : String) : Option UInt64 :=
  let digits := match value.toList with
    | '+' :: rest => rest
    | rest => rest
  if digits.isEmpty || !digits.all Char.isDigit then none
  else
    let n := digits.foldl (fun n c => 10 * n + (c.toNat - '0'.toNat)) 0
    if n < 1 <<< 64 then some (UInt64.ofNat n) else none

def wordValue (value : String) : Except UsageError UInt64 :=
  match word? value with
  | some n => .ok n
  | none => .error .badValue

def durationValue (value : String) : Except UsageError Duration :=
  match Duration.ofText? value with
  | some d => .ok d
  | none => .error .badValue

def give (options : Options) (flag : Flag) (value : String) : Except UsageError Options := do
  let layer := options.layer
  match flag with
  | .config => return { options with config := some (← pathValue value) }
  | .components => return { options with components := some (← pathValue value) }
  | .overrides => return { options with overrides := some (← pathValue value) }
  | .resources =>
    return { options with layer := { layer with resourcePath := some (← pathValue value) } }
  | .kubeconfig =>
    return { options with layer := { layer with kubeconfig := some (← pathValue value) } }
  | .workers => return { options with layer := { layer with workers := some (← wordValue value) } }
  | .helmTimeout =>
    return { options with layer := { layer with helmTimeoutSeconds := some (← wordValue value) } }
  | .cancelTimeout =>
    return { options with layer := { layer with cancelTimeout := some (← durationValue value) } }
  | .quitTimeout =>
    return { options with layer := { layer with quitTimeout := some (← durationValue value) } }

end Options

/-- How far the reading of flags has got. The value of the latest flag is looked at only when
the next flag or the end of the line is reached. -/
structure FlagReader where
  options : Options := {}
  seen : List Flag := []
  pending : Option (Flag × Option String) := none
  deriving DecidableEq, Repr

namespace FlagReader

def accept (reader : FlagReader) (flag : Flag) (value : String) :
    Except UsageError FlagReader := do
  if flag ∈ reader.seen then .error .repeated
  else return {
    options := ← reader.options.give flag value
    seen := flag :: reader.seen
    pending := none }

def settle (reader : FlagReader) : Except UsageError FlagReader :=
  match reader.pending with
  | none => .ok reader
  | some (_, none) => .error .missingValue
  | some (flag, some value) => reader.accept flag value

def long? (argument : String) : Option (String × Option String) :=
  match argument.toList with
  | '-' :: '-' :: c :: rest =>
    let text := c :: rest
    let value := match text.dropWhile (· != '=') with
      | '=' :: value => some (String.ofList value)
      | _ => none
    some (String.ofList (text.takeWhile (· != '=')), value)
  | _ => none

def short? (argument : String) : Option Char :=
  match argument.toList with
  | '-' :: c :: _ => if c = '-' then none else some c
  | _ => none

def readArgument (reader : FlagReader) (argument : String) : Except UsageError FlagReader :=
  match long? argument with
  | some (name, value) =>
    if name == "help" then
      if value.isSome then .error .needlessValue
      else do
        let _ ← reader.settle
        .error .help
    else match Flag.ofName? name with
      | none => .error .unknownArgument
      | some flag => do
        let reader ← reader.settle
        match value with
        | some value => reader.accept flag value
        | none => return { reader with pending := some (flag, none) }
  | none =>
    match short? argument with
    | some c =>
      if c = 'h' then do
        let _ ← reader.settle
        .error .help
      else .error .unknownArgument
    | none =>
      match reader.pending with
      | some (flag, none) => .ok { reader with pending := some (flag, some argument) }
      | _ => .error .unknownArgument

/-- Reads the arguments behind a command. Behind two lone dashes there is none to be read. -/
def readAll (reader : FlagReader) : List String → Except UsageError FlagReader
  | [] => reader.settle
  | argument :: rest =>
    if argument == "--" then
      if rest.isEmpty then reader.settle else .error .unknownArgument
    else do
      let reader ← reader.readArgument argument
      reader.readAll rest

end FlagReader

namespace Command

def actionOf? (name : String) : Option Action :=
  if name == "deploy" then some .install
  else if name == "uninstall" then some .uninstall
  else none

/-- The command with the flags given, and with a path for the cluster's configuration from the
surroundings that counts if no flag gives one. -/
def ofArguments (action : Action) (kubeconfig : Option String) (arguments : List String) :
    Except UsageError Command := do
  let reader ← ({} : FlagReader).readAll arguments
  let options ← match kubeconfig with
    | some path =>
      if .kubeconfig ∈ reader.seen then pure reader.options
      else reader.options.give .kubeconfig path
    | none => pure reader.options
  match options.components with
  | none => .error .missingArgument
  | some components => return {
      action := action
      config := options.config
      components := components
      overrides := options.overrides
      layer := options.layer }

def isName (name : String) : Bool :=
  name == "help" || (actionOf? name).isSome

def withoutCommand (argument : String) (rest : List String) : UsageError :=
  if argument == "help" then
    match rest with
    | [] => .help
    | [name] => if isName name then .help else .unknownCommand
    | _ => .unknownCommand
  else if argument == "--" then
    match rest with
    | [] => .helpForNothing
    | name :: _ => if isName name then .unknownArgument else .unknownCommand
  else match FlagReader.long? argument with
    | some (name, value) =>
      if name == "help" || name == "version" then
        if value.isSome then .needlessValue
        else if name == "help" then .help
        else .version
      else .unknownArgument
    | none =>
      match FlagReader.short? argument with
      | some c => if c = 'h' then .help else if c = 'V' then .version else .unknownArgument
      | none => .unknownCommand

def parse (arguments : List String) (kubeconfig : Option String) : Except UsageError Command :=
  match arguments with
  | [] => .error .helpForNothing
  | argument :: rest =>
    match actionOf? argument with
    | some action => ofArguments action kubeconfig rest
    | none => .error (withoutCommand argument rest)

end Command

end Rollout
