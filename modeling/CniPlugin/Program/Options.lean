import CniPlugin.Recorder
/-!
# Options of the program

The program takes two settings, each from the command line or, if it is not given there, from an
environment variable: a filter for log lines, and the versions to support, separated by commas.
Any text is a filter.  Log lines go to the diagnostic stream only, and at the default filter there
are none.  Those that other filters let through are left out: the filter is read, and nothing else
here depends on it.

A setting takes the text after an equality sign as its value, or else the next word, unless that
starts with a dash.  The filter may be given once; versions may be given repeatedly and add up.
Words are read from left to right, and the first that asks for help or for the version of the
program, or that cannot be understood, decides.
-/

namespace CniPlugin.Program

/-- What the program is set to. -/
structure Options where
  logFilter : String
  versions : List String
  deriving DecidableEq, Repr

/-- Why the program does not serve an invocation. -/
inductive Halt where
  | usage
  | help
  | version
  deriving DecidableEq, Repr

inductive Setting where
  | logFilter
  | versions
  deriving DecidableEq, Repr

/-- The name of a setting on the command line. -/
def Setting.name : Setting → String
  | .logFilter => "log-level"
  | .versions => "supported-versions"

/-- The environment variable of a setting. -/
def Setting.variableName : Setting → String
  | .logFilter => "CNI_NOOP_LOG_LEVEL"
  | .versions => "CNI_NOOP_SUPPORTED_VERSIONS"

def Setting.ofName? (name : String) : Option Setting :=
  [Setting.logFilter, .versions].find? (·.name = name)

/-- The settings given so far. -/
structure Given where
  logFilter : Option String := none
  versions : Option (List String) := none
  deriving DecidableEq, Repr

/-- Takes a value for a setting. -/
def Given.take (given : Given) (setting : Setting) (value : Bytes) : Except Halt Given :=
  match Text.Utf8.toString? value with
  | none => .error .usage
  | some value =>
    match setting with
    | .logFilter =>
      if given.logFilter.isSome then .error .usage
      else .ok { given with logFilter := some value }
    | .versions =>
      .ok { given with
        versions := some (given.versions.getD [] ++ Text.splitString ',' value) }

/-- What kind of word a word is. -/
inductive Word where
  /-- Two dashes alone. -/
  | terminator
  /-- Two dashes, a name, and perhaps a value after an equality sign. -/
  | long (name : Bytes) (value : Option Bytes)
  /-- One dash and letters. -/
  | short (first : UInt8)
  | plain
  deriving DecidableEq, Repr

def Word.of : Bytes → Word
  | [0x2D, 0x2D] => .terminator
  | 0x2D :: 0x2D :: rest =>
    match Text.cut 0x3D rest with
    | some (name, value) => .long name (some value)
    | none => .long rest none
  | 0x2D :: letter :: _ => .short letter
  | _ => .plain

/-- Reads the words of the command line. -/
def scan : List Bytes → Given → Except Halt Given
  | [], given => .ok given
  | word :: words, given =>
    match Word.of word with
    | .terminator => if words = [] then .ok given else .error .usage
    | .short letter =>
      if letter = 0x56 then .error .version
      else if letter = 0x68 then .error .help
      else .error .usage
    | .plain => .error .usage
    | .long name value =>
      match Text.Utf8.toString? name with
      | none => .error .usage
      | some name =>
        match Setting.ofName? name, value with
        | some setting, some value =>
          match given.take setting value with
          | .error halt => .error halt
          | .ok given => scan words given
        | some setting, none =>
          match words with
          | [] => .error .usage
          | value :: words =>
            if Word.of value = .plain then
              match given.take setting value with
              | .error halt => .error halt
              | .ok given => scan words given
            else .error .usage
        | none, none =>
          if name = "version" then .error .version
          else if name = "help" then .error .help
          else .error .usage
        | none, some _ => .error .usage
termination_by structural words => words

/-- Takes a setting from the environment if it is not given yet. -/
def Given.fallBack (given : Given) (setting : Setting) (isGiven : Bool)
    (environment : String → Option Bytes) : Except Halt Given :=
  if isGiven then .ok given
  else
    match environment setting.variableName with
    | none => .ok given
    | some value => given.take setting value

/-- What the program is set to by its words and its environment. -/
def Options.resolve (words : List Bytes) (environment : String → Option Bytes) :
    Except Halt Options := do
  let given ← scan words {}
  let given ← given.fallBack .logFilter given.logFilter.isSome environment
  let given ← given.fallBack .versions given.versions.isSome environment
  pure ⟨given.logFilter.getD "warn", given.versions.getD Recorder.defaultVersions⟩

end CniPlugin.Program
