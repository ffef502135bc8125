import Rehoming.CommandLine
import Rehoming.Loading

/-! The two programs, from their arguments to what they leave behind. -/

namespace Rehoming

open Keys

/-- What a program finds around it. -/
structure Surroundings where
  environment : List (String × String)
  working : FilePath
  /-- Which of the tasks that run side by side are done first. -/
  settling : List Nat

namespace Surroundings

def home (s : Surroundings) : FilePath := FilePath.homeOr (s.environment.lookup "HOME") s.working

/-- The filter that holds for the events of all programs. -/
def filter (s : Surroundings) : Option String := s.environment.lookup "RUST_LOG"

end Surroundings

variable {m : Type → Type} [Monad m] {Temp : Type}

/-- A run once its settings are known. -/
structure Session (m : Type → Type) (Temp : Type) where
  host : Host m Temp
  suite : CipherSuite
  home : FilePath
  settings : Settings
  filter : LogFilter
  format : LogFormat

namespace Session

/-- Loads the settings. Arguments win over them. -/
def start (host : Host m Temp) (suite : CipherSuite) (around : Surroundings)
    (args : CommonArguments) : ExceptT Failure m (Session m Temp) := do
  let settings ← host.loadSettings args.settings
  let filter := LogFilter.choose around.filter (args.log.getD settings.log.level)
  let format := args.format.getD (LogFormat.ofSetting settings.log.format)
  return { host, suite, home := around.home, settings, filter, format }

def log (s : Session m Temp) (event : Event) : m Unit :=
  if s.filter.admits event then s.host.report s.format event else pure ()

/-- A result with its events, which are shown whether or not it is an error. -/
def settle {α : Type} (s : Session m Temp) (context : String) (x : Logged α) :
    ExceptT Failure m α := do
  for event in x.events do
    s.log event
  match x.result with
  | .ok a => return a
  | .error e => throw ⟨[context], .refused e⟩

def authority (s : Session m Temp) (named : Option FilePath) : ExceptT Failure m AuthorityKey :=
  s.host.loadAuthority s.log
    (KeySettings.choose s.home named (s.settings.keys.authorityPath s.home))

def master (s : Session m Temp) (named : Option FilePath) : ExceptT Failure m MasterKey :=
  s.host.loadMaster (KeySettings.choose s.home named (s.settings.keys.masterPath s.home))

def realm (s : Session m Temp) (named : Option FilePath) (fingerprint : String) :
    ExceptT Failure m Crypto.Rsa.PublicKey :=
  s.host.loadRealm s.log
    (KeySettings.choose s.home named (s.settings.keys.realmsPath s.home)) fingerprint

/-- A file with the keys of realms is of no use to a program that makes no plan. -/
def noteRealms (s : Session m Temp) (named : Option FilePath) : m Unit :=
  match named with
  | some path => s.log (.realmFileIgnored path.text)
  | none => pure ()

end Session

/-- Writes the plan by which a reservation takes in a bundle. -/
def RestoreArguments.run (args : RestoreArguments) (host : Host m Temp) (suite : CipherSuite)
    (around : Surroundings) (entropy : Entropy) : ExceptT Failure m Unit := do
  let s ← Session.start host suite around args.common
  s.log (.runStarting Program.version args.input.text args.reservation.text)
  let authority ← s.authority args.authority
  let master ← s.master args.master
  let destination ← s.realm args.realms args.fingerprint
  let bundle ← host.loadDocument "snapshot" Bundle.reader args.input
  let reservation ← host.loadDocument "reservation config" Reservation.reader args.reservation
  let pins ← host.loadPins args.pins
  let mode : PlacementMode := if args.mirror then .mirrored else .sequential
  let options := RunOptions.ofSettings s.settings.recode mode args.force around.settling
  let keys : RunKeys := ⟨authority, master, destination, args.fingerprint⟩
  let plan ← s.settle ("recoding " ++ args.input.text)
    (createRestorePlan suite entropy keys options reservation pins bundle)
  host.replaceDocument args.out plan.toValue
  s.log (.planWritten plan.reservationId plan.nodes.length plan.size args.out.text)

/-- Prints where the brigades of a bundle are. -/
def MappingArguments.run (args : MappingArguments) (host : Host m Temp) (suite : CipherSuite)
    (around : Surroundings) : ExceptT Failure m Unit := do
  let s ← Session.start host suite around args.common
  s.noteRealms args.realms
  let authority ← s.authority args.authority
  let bundle ← host.loadDocument "snapshot" Bundle.reader args.input
  let options := RunOptions.ofSettings s.settings.recode .mirrored false around.settling
  let mapping ← s.settle ("inspecting " ++ args.input.text)
    (createMapping suite authority options bundle)
  s.log (.mappingReady mapping.size)
  host.printDocument (Pins.toValue mapping)

/-- How a program ended. -/
inductive Ending where
  | done
  | failed (failure : Failure)
  /-- There was nothing to be run. -/
  | misused (reason : String)
  deriving DecidableEq

def Ending.code : Ending → UInt8
  | .done => 0
  | .failed _ => 1
  | .misused _ => 2

/-- Runs a program on what it is given. -/
def Program.run (program : Program) (host : Host m Temp) (suite : CipherSuite)
    (around : Surroundings) (entropy : Entropy) (args : List String) : m Ending := do
  match Arguments.complete program.parameters around.environment args with
  -- what is shown on request may get lost
  | .error .version =>
    let _ ← host.print (program.name ++ " " ++ Program.version ++ "\n")
    return .done
  | .error .help =>
    let _ ← host.print (program.usage ++ "\n")
    return .done
  | .error (.misuse reason) => return .misused reason
  | .ok given =>
    let result ←
      match program with
      | .restore => (given.forRestore.run host suite around entropy).run
      | .mapping => (given.forMapping.run host suite around).run
    match result with
    | .ok () => return .done
    | .error failure => return .failed failure

end Rehoming
