import Alerting.Daemon.Files
import Alerting.Installation.StartUp

/-!
# The command line

The daemon is run, prints the built-in rules, or writes settings to start from. A command line that
asks for none of these properly is refused.
-/

namespace Alerting

namespace Daemon

inductive Command where
  | run (settingsPath : String)
  | defaultRules
  | initConfig (path : String)
  | print (text : String)
deriving DecidableEq, Repr

inductive Report where
  | done (output : String)
  | failed (fault : Fault)
  | misused
deriving DecidableEq, Repr

namespace Command

def lines (texts : List String) : String := String.join (texts.map fun text => text ++ "\n")

def versionText : String := lines ["perch-alertd 0.1.0"]

def helpText : String :=
  lines
    ["Perch alerting daemon",
     "",
     "Usage: perch-alertd <COMMAND>",
     "",
     "Commands:",
     "  run            Run the alerting daemon",
     "  default-rules  Print the built-in rules as JSON",
     "  init-config    Generate a sample config file",
     "  help           Print this message or the help of the given subcommand(s)",
     "",
     "Options:",
     "  -h, --help     Print help",
     "  -V, --version  Print version"]

def runHelpText : String :=
  lines
    ["Run the alerting daemon",
     "",
     "Usage: perch-alertd run [OPTIONS]",
     "",
     "Options:",
     "  -c, --config <CONFIG>  Path to config file [default: " ++ defaultSettingsPath ++ "]",
     "  -h, --help             Print help"]

def defaultRulesHelpText : String :=
  lines
    ["Print the built-in rules as JSON",
     "",
     "Usage: perch-alertd default-rules",
     "",
     "Options:",
     "  -h, --help  Print help"]

def initConfigHelpText : String :=
  lines
    ["Generate a sample config file",
     "",
     "Usage: perch-alertd init-config [OPTIONS]",
     "",
     "Options:",
     "  -o, --output <OUTPUT>  Path to write config [default: " ++ defaultSettingsPath ++ "]",
     "  -h, --help             Print help"]

def helpHelpText : String :=
  lines
    ["Print this message or the help of the given subcommand(s)",
     "",
     "Usage: perch-alertd help [COMMAND]...",
     "",
     "Arguments:",
     "  [COMMAND]...  Print help for the subcommand(s)"]

structure PathOption where
  letter : Char
  name : String

def after? (head : List Char) (text : List Char) : Option (List Char) :=
  if head.isPrefixOf text then some (text.drop head.length) else none

def PathOption.attached? (option : PathOption) (argument : List Char) : Option (List Char) :=
  after? (['-', '-'] ++ option.name.toList ++ ['=']) argument <|>
    (after? ['-', option.letter] argument).bind fun value =>
      match value with
      | [] => none
      | '=' :: rest => some rest
      | value => some value

def PathOption.isBare (option : PathOption) (argument : List Char) : Bool :=
  argument == ['-', '-'] ++ option.name.toList || argument == ['-', option.letter]

def isValue (argument : List Char) : Bool :=
  match argument with
  | '-' :: _ :: _ => false
  | [] => false
  | _ => true

/-- Reads the arguments of a command that has at most one option, which may be given once. -/
def ofArguments (option : Option PathOption) (help : String) (build : Option String → Command)
    (given : Option String) : List String → Option Command
  | [] => some (build given)
  | argument :: rest =>
      let chars := argument.toList
      if argument = "--help" ∨ (['-', 'h'].isPrefixOf chars) then some (print help)
      else if argument = "--" then if rest = [] then some (build given) else none
      else match option with
        | none => none
        | some option =>
            match option.attached? chars with
            | some value =>
                if value = [] ∨ given.isSome then none
                else ofArguments option help build (some (String.ofList value)) rest
            | none =>
                if option.isBare chars then
                  match rest with
                  | value :: rest =>
                      if !isValue value.toList ∨ given.isSome then none
                      else ofArguments option help build (some value) rest
                  | [] => none
                else none

def parse? : List String → Option Command
  | "run" :: rest =>
      ofArguments (some ⟨'c', "config"⟩) runHelpText
        (fun path => run (path.getD defaultSettingsPath)) none rest
  | "default-rules" :: rest =>
      ofArguments none defaultRulesHelpText (fun _ => defaultRules) none rest
  | "init-config" :: rest =>
      ofArguments (some ⟨'o', "output"⟩) initConfigHelpText
        (fun path => initConfig (path.getD defaultSettingsPath)) none rest
  | ["help"] => some (print helpText)
  | ["help", "run"] => some (print runHelpText)
  | ["help", "default-rules"] => some (print defaultRulesHelpText)
  | ["help", "init-config"] => some (print initConfigHelpText)
  | ["help", "help"] => some (print helpHelpText)
  | argument :: _ =>
      let chars := argument.toList
      if argument = "--help" ∨ (['-', 'h'].isPrefixOf chars) then some (print helpText)
      else if argument = "--version" ∨ (['-', 'V'].isPrefixOf chars) then some (print versionText)
      else none
  | [] => none

end Command

def start (settings : Settings) (rules : List Rule) : Except Fault Installation :=
  let notifier : Notifier := { name := "log", recorded := false }
  let work : Installation.Attempt Unit := do
    let _ ← Installation.importRules rules
    let _ ← ExceptT.mk (Installation.startAssembly settings.alerting (some notifier) 0).run
  match work.run.run (Installation.start (.clamp 0)) with
  | some (.ok _, installation) => .ok installation
  | some (.error fault, _) => .error (.alerting fault)
  | none => .error (.io "the store does not answer")

section

variable {m : Type → Type} [Monad m] [Files m]

def setUp (path : String) : m (Except Fault Installation) := do
  match ← readSettings path with
  | .error fault => pure (.error fault)
  | .ok settings =>
      match settings.rulesFile with
      | none => pure (start settings [])
      | some path =>
          match ← readRules path with
          | .error fault => pure (.error fault)
          | .ok rules => pure (start settings rules)

def Command.execute (command : Command) : m Report := do
  match command with
  | .run path =>
      match ← setUp path with
      | .ok _ => pure (.done "")
      | .error fault => pure (.failed fault)
  | .defaultRules => pure (.done (exportRules Builtin.rules ++ "\n"))
  | .initConfig path =>
      match ← saveSettings {} path with
      | .ok _ =>
          pure (.done (Command.lines
            ["Config written to " ++ path,
             "",
             "Edit the file to tune the alerting settings, then run:",
             "  perch-alertd run --config " ++ path]))
      | .error fault => pure (.failed fault)
  | .print text => pure (.done text)

def execute (arguments : List String) : m Report :=
  match Command.parse? arguments with
  | some command => command.execute
  | none => pure .misused

end

end Daemon

end Alerting
