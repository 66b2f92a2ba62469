import BuildNotice.EnvFile
import BuildNotice.Problem

namespace BuildNotice

abbrev Environment := List (String × String)

inductive Stage where
  | development
  | production
  | test
  deriving DecidableEq

namespace Stage

def all : List Stage := [.development, .production, .test]

def name : Stage → String
  | .development => "development"
  | .production => "production"
  | .test => "test"

end Stage

inductive Level where
  | fatal
  | error
  | warn
  | info
  | debug
  | trace
  | silent
  deriving DecidableEq

namespace Level

def all : List Level := [.fatal, .error, .warn, .info, .debug, .trace, .silent]

def name : Level → String
  | .fatal => "fatal"
  | .error => "error"
  | .warn => "warn"
  | .info => "info"
  | .debug => "debug"
  | .trace => "trace"
  | .silent => "silent"

def weight : Level → Nat
  | .silent => 7
  | .fatal => 6
  | .error => 5
  | .warn => 4
  | .info => 3
  | .debug => 2
  | .trace => 1

end Level

structure Settings where
  stage : Stage
  level : Level
  pretty : Bool

namespace Settings

def isDevelopment (s : Settings) : Bool :=
  s.stage == .development

def writesPretty (s : Settings) : Bool :=
  s.pretty && s.isDevelopment

def choice {α : Type} (env : Environment) (key : String) (all : List α) (name : α → String)
    (default : α) : Except Problem α :=
  match Record.get? key env with
  | none => .ok default
  | some s =>
    match all.find? fun a => name a == s with
    | some a => .ok a
    | none => .error (.noChoice [key] (all.map name) s)

def stageOf (env : Environment) : Except Problem Stage :=
  choice env "NODE_ENV" Stage.all Stage.name .development

def levelOf (env : Environment) : Except Problem Level :=
  choice env "LOG_LEVEL" Level.all Level.name .info

def prettyOf (env : Environment) : Bool :=
  match Record.get? "LOG_PRETTY" env with
  | none => true
  | some s => s.toList.map Char.toLower == "true".toList

def invalid (problems : List Problem) : Fault :=
  .configuration "Environment validation failed"
    (Value.ofFields [("errors", Value.ofItems (problems.map fun p => .text p.text))])

def ofEnvironment (env : Environment) : Except Fault Settings :=
  match stageOf env, levelOf env with
  | .ok stage, .ok level => .ok ⟨stage, level, prettyOf env⟩
  | stage, level => .error (invalid (Problem.ofResult stage ++ Problem.ofResult level))

/-- A value as an environment keeps it: up to its first NUL. -/
def kept (s : String) : String :=
  String.ofList (s.toList.takeWhile fun c => c != '\x00')

def added (env : Environment) (file : Option String) : Environment :=
  match file with
  | none => []
  | some text =>
    ((EnvFile.parse text).filter fun (k, _) => !Record.has k env).map fun (k, s) => (k, kept s)

def extended (env : Environment) (file : Option String) : Environment :=
  env ++ added env file

def loadFile (file : Option String) : StateM Environment Unit :=
  modify fun env => extended env file

/-- Reads the settings once the variables of a file are in the environment, where they stay even if
the settings are refused. -/
def loadIn (file : Option String) : ExceptT Fault (StateM Environment) Settings := do
  loadFile file
  let env ← get
  ofEnvironment env

def load (env : Environment) (file : Option String) : Except Fault Settings :=
  ((loadIn file).run.run env).1

end Settings

end BuildNotice
