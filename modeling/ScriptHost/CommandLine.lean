import ScriptHost.Project
import ScriptHost.Value.Reader
/-!
# The command line

A command line names a project and a command: run the project, fire one of its dispatchers, or
check that all of it compiles. Options and operands may come in any order, the project may be
named before or after the command, and everything after `--` is an operand. A text that starts
with a dash is an option, never a value, unless it is attached with `=`.

`Request.read` reads the arguments. `Project.fireOnce` and `Project.check` are the commands that
come to an end by themselves, with what they print and their exit code.
-/
namespace ScriptHost

inductive CommandName where
  | run
  | fire
  | check
  deriving DecidableEq, Repr

def CommandName.ofText? : String → Option CommandName
  | "run" => some .run
  | "fire" => some .fire
  | "check" => some .check
  | _ => none

inductive Command where
  /-- Runs until stopped; with `watch` changed files are taken over. -/
  | run (watch : Bool)
  | fire (dispatcher : String) (event : Option String)
  | check
  deriving DecidableEq, Repr

/-- What can be described. -/
inductive HelpTopic where
  | program
  | command (name : CommandName)
  /-- The command `help` itself. -/
  | help
  deriving DecidableEq, Repr

/-- What a command line asks for. -/
inductive Request where
  /-- A description. -/
  | help (topic : HelpTopic)
  | perform (project : String) (command : Command)
  deriving DecidableEq, Repr

/-- Why reading arguments ended early. -/
inductive ReadingStop where
  | help (topic : HelpTopic)
  | misuse
  deriving DecidableEq, Repr

/-- The project of a command line that names none. -/
def defaultProject : String := "./project"

namespace Request

/-- What was given to the program or to a command. -/
structure Given where
  project : Option String := none
  event : Option String := none
  noWatch : Bool := false
  operand : Option String := none
  /-- The command, with the arguments that follow it. -/
  command : Option (CommandName × List String) := none

inductive OptionName where
  | project
  | event
  | noWatch
  | help

/-- The options that a command knows. -/
def optionName? (level : Option CommandName) : String → Option OptionName
  | "help" => some .help
  | "project" => some .project
  | "event" => if level = some .fire then some .event else none
  | "no-watch" => if level = some .run then some .noWatch else none
  | _ => none

/-- Gives an option its value; no option has two. -/
def setValue (given : Given) (name : OptionName) (value : String) : Except ReadingStop Given :=
  match name with
  | .project =>
    if given.project.isSome || value.isEmpty then .error .misuse
    else .ok { given with project := some value }
  | .event => if given.event.isSome then .error .misuse else .ok { given with event := some value }
  | .noWatch | .help => .error .misuse

/-- Takes an argument that is no option. -/
def takeOperand (level : Option CommandName) (given : Given) (text : String) :
    Except ReadingStop Given :=
  if level = some .fire && given.operand.isNone then .ok { given with operand := some text }
  else .error .misuse

/-- The request for a description of what is named after `help`. -/
def helpOn : List String → ReadingStop
  | [] => .help .program
  | [name] =>
    match CommandName.ofText? name with
    | some command => .help (.command command)
    | none => if name = "help" then .help .help else .misuse
  | _ => .misuse

/-- What a help option describes among the arguments of the program or of a command. -/
def topicAt (level : Option CommandName) : HelpTopic :=
  match level with
  | none => .program
  | some command => .command command

def isOption (argument : String) : Bool := argument.startsWith "-" && argument != "-"

/-- A long option cut at its first equals sign. -/
def cutAtEquals (text : List Char) : String × Option String :=
  let name := String.ofList (text.takeWhile (· != '='))
  match text.dropWhile (· != '=') with
  | _ :: value => (name, some (String.ofList value))
  | [] => (name, none)

/-- Takes the arguments of the program or of a command, up to a command's name. -/
def take (level : Option CommandName) (given : Given) : List String → Except ReadingStop Given
  | [] => .ok given
  | argument :: rest =>
    let withValue (name : OptionName) : Except ReadingStop Given :=
      match rest with
      | [] => .error .misuse
      | value :: rest =>
        if isOption value then
          match take level given (value :: rest) with
          | .error stop => .error stop
          | .ok _ => .error .misuse
        else
          match setValue given name value with
          | .error stop => .error stop
          | .ok given => take level given rest
    match argument.toList with
    | ['-', '-'] =>
      match rest with
      | [] => .ok given
      | [operand] => takeOperand level given operand
      | _ => .error .misuse
    | '-' :: '-' :: long =>
      let (text, value) := cutAtEquals long
      match optionName? level text, value with
      | none, _ => .error .misuse
      | some .help, none => .error (.help (topicAt level))
      | some .help, some _ => .error .misuse
      | some .noWatch, none =>
        if given.noWatch then .error .misuse else take level { given with noWatch := true } rest
      | some name, some value =>
        match setValue given name value with
        | .error stop => .error stop
        | .ok given => take level given rest
      | some name, none => withValue name
    | '-' :: 'h' :: _ => .error (.help (topicAt level))
    | ['-', 'p'] => withValue .project
    | '-' :: 'p' :: value =>
      let value := if value.head? = some '=' then value.drop 1 else value
      match setValue given .project (String.ofList value) with
      | .error stop => .error stop
      | .ok given => take level given rest
    | '-' :: _ :: _ => .error .misuse
    | _ =>
      if level.isNone then
        match CommandName.ofText? argument with
        | some command => .ok { given with command := some (command, rest) }
        | none => .error (if argument = "help" then helpOn rest else .misuse)
      else
        match takeOperand level given argument with
        | .error stop => .error stop
        | .ok given => take level given rest
termination_by arguments => arguments.length

/-- The command that arguments make. -/
def commandOf (name : CommandName) (given : Given) : Except ReadingStop Command :=
  match name, given.operand with
  | .run, _ => .ok (.run !given.noWatch)
  | .check, _ => .ok .check
  | .fire, some dispatcher => .ok (.fire dispatcher given.event)
  | .fire, none => .error .misuse

/-- The request that the arguments of a command line make, unless they make none. A project
named after the command counts more than one named before. -/
def read (arguments : List String) : Option Request :=
  let outcome : Except ReadingStop Request := do
    let outer ← take none {} arguments
    match outer.command with
    | none => return .perform (outer.project.getD defaultProject) (.run true)
    | some (name, rest) =>
      let inner ← take (some name) {} rest
      let command ← commandOf name inner
      return .perform ((inner.project <|> outer.project).getD defaultProject) command
  match outcome with
  | .ok request => some request
  | .error (.help topic) => some (.help topic)
  | .error .misuse => none

def helpLines (topic : HelpTopic) : List String :=
  let project := "-p, --project <PROJECT>  Path to the project directory [default: ./project]"
  let help := "-h, --help               Print help"
  match topic with
  | .program =>
    [ "Configuration-driven script dispatch and scheduling", "",
      "Usage: vesper [OPTIONS] [COMMAND]", "",
      "Commands:",
      "  run    Start schedules and watch the project until interrupted",
      "  fire   Invoke a dispatcher once",
      "  check  Load the project and report anything that failed to compile",
      "  help   Print this message or the help of the given subcommand(s)", "",
      "Options:", "  " ++ project, "  " ++ help ]
  | .command .run =>
    [ "Start schedules and watch the project until interrupted", "",
      "Usage: vesper run [OPTIONS]", "",
      "Options:",
      "      --no-watch           Don't start the file watcher", "  " ++ project, "  " ++ help ]
  | .command .fire =>
    [ "Invoke a dispatcher once", "",
      "Usage: vesper fire [OPTIONS] <DISPATCHER>", "",
      "Arguments:", "  <DISPATCHER>  Dispatcher id", "",
      "Options:",
      "      --event <EVENT>      JSON payload exposed to scripts as `&event`", "  " ++ project,
        "  " ++ help ]
  | .command .check =>
    [ "Load the project and report anything that failed to compile", "",
      "Usage: vesper check [OPTIONS]", "",
      "Options:", "  " ++ project, "  " ++ help ]
  | .help =>
    [ "Print this message or the help of the given subcommand(s)", "",
      "Usage: vesper help [COMMAND]...", "",
      "Arguments:", "  [COMMAND]...  Print help for the subcommand(s)" ]

end Request

/-! ## Commands that end by themselves -/

inductive ExitCode where
  | success
  | failure
  /-- The command line makes no request. -/
  | misuse
  deriving DecidableEq, Repr

def ExitCode.number : ExitCode → Nat
  | success => 0
  | failure => 1
  | misuse => 2

structure CommandResult where
  code : ExitCode
  output : Array Output := #[]

namespace Project

/-- Loads the project at a path and does something with it. -/
def withLoaded (root : String) (act : Project → CommandResult) : StateM FileTree CommandResult := do
  match ← (load root Engine.core true (.following 0)).run with
  | .ok project => return act project
  | .error _ => return { code := .failure }

/-- Fires a dispatcher of the project at a path for an event given as JSON, by default null. -/
def fireOnce (root dispatcher : String) (event : Option String) : StateM FileTree CommandResult :=
  withLoaded root fun project =>
    match (event.getD "null" |> Value.read?) with
    | none => { code := .failure }
    | some event =>
      match project.graph.fire dispatcher (eventContext event) with
      | (.ok _, after) => { code := .success, output := after.output }
      | (.error _, after) => { code := .failure, output := after.output }

/-- Checks that all of the project at a path compiles. -/
def check (root : String) : StateM FileTree CommandResult :=
  withLoaded root fun project => { code := if project.isSound then .success else .failure }

end Project

/-- Carries out a command on the project at a path, if it is one that ends by itself. -/
def Command.perform? (root : String) : Command → StateM FileTree (Option CommandResult)
  | .run _ => return none
  | .fire dispatcher event => return some (← Project.fireOnce root dispatcher event)
  | .check => return some (← Project.check root)

/-- Carries out what a command line asks for, if that ends by itself; `locate` says where in the
tree the project is that the command line names. -/
def CommandResult.ofRequest? (locate : String → String) : Option Request →
    StateM FileTree (Option CommandResult)
  | none => return some { code := .misuse }
  | some (.help topic) =>
    return some { code := .success, output := ((Request.helpLines topic).map Output.line).toArray }
  | some (.perform project command) => command.perform? (locate project)

end ScriptHost
