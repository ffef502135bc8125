import Rehoming.FilePath
import Rehoming.Logging

/-! The arguments of the two programs: what may be given, what must be, and which
variables of the environment stand in for what is not. -/

namespace Rehoming

/-- What kind of value an argument has. -/
inductive ValueKind where
  /-- None; the argument is there or not. -/
  | absent
  /-- A path, which is never empty. -/
  | path
  | text
  | format
  deriving DecidableEq

structure Parameter where
  name : String
  kind : ValueKind
  needed : Bool
  short : Option Char
  /-- Its variable in the environment. -/
  standIn : Option String
  deriving DecidableEq

/-- Why arguments do not amount to a run. -/
inductive Stop where
  | version
  | help
  | misuse (reason : String)
  deriving DecidableEq

/-- Values by the names of their parameters. -/
abbrev Arguments := List (String × String)

namespace Arguments

def accepts : ValueKind → String → Bool
  | .path, value => !value.isEmpty
  | .format, value => value == "json" || value == "text"
  | _, _ => true

/-- Adds a value of the right kind for a parameter that has none yet. -/
def add (p : Parameter) (value : String) (given : Arguments) : Except Stop Arguments :=
  if (given.lookup p.name).isSome then
    .error (.misuse ("--" ++ p.name ++ " cannot be used multiple times"))
  else if accepts p.kind value then .ok (given ++ [(p.name, value)])
  else .error (.misuse ("invalid value for --" ++ p.name))

/-- Whether this is no value, since it looks like the name of a parameter. -/
def isName (arg : String) : Bool := arg.toList.head? == some '-' && arg != "-"

/-- A name that has been read, with what was attached to it. -/
private inductive Named where
  | stop (reason : Stop)
  | parameter (p : Parameter) (attached : Option String)

private def named? (parameters : List Parameter) (name : List Char) (attached : Option String) :
    Named :=
  match parameters.find? fun p => p.name.toList = name with
  | some p => .parameter p attached
  | none =>
    if attached.isNone ∧ name = "version".toList then .stop .version
    else if attached.isNone ∧ name = "help".toList then .stop .help
    else .stop (.misuse ("unexpected argument --" ++ String.ofList name))

/-- What stands behind two dashes: a name, and perhaps a value behind an equals sign. -/
private def ofLong (parameters : List Parameter) (cs : List Char) : Named :=
  let name := cs.takeWhile (· != '=')
  match cs.drop name.length with
  | [] => named? parameters name none
  | _ :: value => named? parameters name (some (String.ofList value))

/-- What stands behind one dash: a letter, and perhaps a value right behind it. -/
private def ofShort (parameters : List Parameter) (letter : Char) (rest : List Char) : Named :=
  match parameters.find? fun p => p.short = some letter with
  | some p =>
    match rest with
    | [] => .parameter p none
    | '=' :: value => .parameter p (some (String.ofList value))
    | value => .parameter p (some (String.ofList value))
  | none =>
    if letter = 'V' then .stop .version
    else if letter = 'h' then .stop .help
    else .stop (.misuse ("unexpected argument -" ++ String.singleton letter))

private def unexpected (arg : String) : Except Stop Arguments :=
  .error (.misuse ("unexpected argument " ++ arg))

/-- Reads arguments from front to back. The first thing that ends the reading
decides. -/
def read (parameters : List Parameter) :
    (given : Arguments) → List String → Except Stop Arguments
  | given, [] => .ok given
  | given, arg :: rest =>
    let named :=
      match arg.toList with
      | ['-', '-'] => none
      | '-' :: '-' :: cs => some (ofLong parameters cs)
      | '-' :: c :: cs => some (ofShort parameters c cs)
      | _ => none
    match named with
    | none =>
      if arg = "--" ∧ rest.isEmpty then .ok given else unexpected arg
    | some (.stop reason) => .error reason
    | some (.parameter p attached) =>
      match p.kind, attached with
      | .absent, some _ => .error (.misuse ("--" ++ p.name ++ " takes no value"))
      | .absent, none => do read parameters (← given.add p "") rest
      | _, some value => do read parameters (← given.add p value) rest
      | _, none =>
        match rest with
        | [] => .error (.misuse ("a value is required for --" ++ p.name))
        | value :: rest =>
          if isName value then .error (.misuse ("a value is required for --" ++ p.name))
          else do read parameters (← given.add p value) rest

/-- Takes what was not given from the environment. -/
def standIn (environment : List (String × String)) (given : Arguments) (p : Parameter) :
    Except Stop Arguments :=
  match given.lookup p.name, p.standIn.bind fun name => environment.lookup name with
  | none, some value => given.add p value
  | _, _ => .ok given

/-- All that is given, or why that is not enough. -/
def complete (parameters : List Parameter) (environment : List (String × String))
    (args : List String) : Except Stop Arguments := do
  let given ← read parameters [] args
  let given ← parameters.foldlM (standIn environment) given
  match parameters.find? fun p => p.needed && (given.lookup p.name).isNone with
  | some p => .error (.misuse ("--" ++ p.name ++ " is required"))
  | none => .ok given

def path? (given : Arguments) (name : String) : Option FilePath :=
  (given.lookup name).map FilePath.mk

def path (given : Arguments) (name : String) : FilePath := (given.path? name).getD default

def flag (given : Arguments) (name : String) : Bool := (given.lookup name).isSome

end Arguments

/-! ## The two programs -/

/-- Makes the plan of a restore, or lists where brigades are now. -/
inductive Program where
  | restore
  | mapping
  deriving DecidableEq

namespace Program

def name : Program → String
  | .restore => "recodesnaps"
  | .mapping => "recodesnapmap"

def version : String := "0.1.0"

def ofName? (name : String) : Option Program :=
  [Program.restore, .mapping].find? fun p => p.name = name

private def value (name : String) (kind : ValueKind) (standIn : Option String) : Parameter :=
  ⟨name, kind, false, none, standIn⟩

private def needed (name : String) (kind : ValueKind) (short : Option Char) : Parameter :=
  ⟨name, kind, true, short, none⟩

private def common : List Parameter :=
  [value "config" .path (some "SNAPRECODE_CONFIG"), value "log" .text (some "SNAPRECODE_LOG"),
    value "log-format" .format (some "SNAPRECODE_LOG_FORMAT")]

def parameters : Program → List Parameter
  | .restore =>
    [value "akey" .path (some "AUTHORITY_PRIV_KEY_FILE"),
      value "mkey" .path (some "MASTER_PRIV_KEY_FILE"),
      value "rkeys" .path (some "REALMS_KEYS_FILE"), needed "in" .path none,
      needed "reservation" .path (some 'c'), needed "out" .path none, needed "tfp" .text none,
      value "map" .path none, value "force" .absent none, value "mirror" .absent none] ++ common
  | .mapping =>
    [value "akey" .path (some "AUTHORITY_PRIV_KEY_FILE"),
      value "rkeys" .path (some "REALMS_KEYS_FILE"), needed "in" .path none] ++ common

/-- How a program is called. -/
def usage (p : Program) : String :=
  "Usage: " ++ p.name ++ String.join (p.parameters.map fun q =>
    let shown := "--" ++ q.name ++ (if q.kind = .absent then "" else " <" ++ q.name ++ ">")
    if q.needed then " " ++ shown else " [" ++ shown ++ "]")

end Program

/-- What both programs are told. -/
structure CommonArguments where
  settings : FilePath
  log : Option String
  format : Option LogFormat
  deriving DecidableEq

structure RestoreArguments where
  authority : Option FilePath
  master : Option FilePath
  realms : Option FilePath
  input : FilePath
  reservation : FilePath
  out : FilePath
  /-- The realm key that the plan is for. -/
  fingerprint : String
  pins : Option FilePath
  force : Bool
  mirror : Bool
  common : CommonArguments
  deriving DecidableEq

structure MappingArguments where
  authority : Option FilePath
  realms : Option FilePath
  input : FilePath
  common : CommonArguments
  deriving DecidableEq

namespace Arguments

/-- Where settings are unless something else is said. -/
def usualSettings : FilePath := ⟨"/etc/vgdept/snaprecode.toml"⟩

def common (given : Arguments) : CommonArguments where
  settings := (given.path? "config").getD usualSettings
  log := given.lookup "log"
  format := (given.lookup "log-format").map LogFormat.ofSetting

def forRestore (given : Arguments) : RestoreArguments where
  authority := given.path? "akey"
  master := given.path? "mkey"
  realms := given.path? "rkeys"
  input := given.path "in"
  reservation := given.path "reservation"
  out := given.path "out"
  fingerprint := (given.lookup "tfp").getD ""
  pins := given.path? "map"
  force := given.flag "force"
  mirror := given.flag "mirror"
  common := given.common

def forMapping (given : Arguments) : MappingArguments where
  authority := given.path? "akey"
  realms := given.path? "rkeys"
  input := given.path "in"
  common := given.common

end Arguments
end Rehoming
