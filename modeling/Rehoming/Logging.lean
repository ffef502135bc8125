import Rehoming.Event
import Rehoming.Json.Printer

/-! Which events of a run are shown, and how. A filter is a list of directives, each
of which sets a level for all events or for those from one area of the program; of
those that apply to an event, the most specific one counts. -/

namespace Rehoming

inductive LogFormat where
  | text
  | json
  deriving DecidableEq

/-- Whatever is not known as another format means plain text. -/
def LogFormat.ofSetting (name : String) : LogFormat :=
  if name.toList.map Char.toLower = ['j', 's', 'o', 'n'] then .json else .text

/-- How much is shown at a level: this number, and all below. -/
def Level.verbosity : Level → Nat
  | .warn => 2
  | .info => 3
  | .debug => 4

/-- The area of the program that an event comes from. -/
def Event.target : Event → String
  | .runStarting .. | .planWritten .. => "recodesnaps"
  | .realmFileIgnored .. | .mappingReady .. => "recodesnapmap"
  | .authorityLoaded .. => "snaprecode_crypto::authority"
  | .realmResolved .. | .foreignRealmKey .. | .realmKeySkipped .. => "snaprecode_crypto::realms"
  | .exportErrors .. | .recoding .. => "snaprecode_plan::pipeline"
  | .decoded .. => "snaprecode_plan::decode"
  | .pinIgnored .. | .notPlaced .. | .placed .. | .skipped .. | .assembled .. =>
    "snaprecode_plan::placement"

/-- An event on a line of its own. -/
def Event.line (format : LogFormat) (e : Event) : String :=
  match format with
  | .text =>
    e.level.name ++ " " ++ e.target ++ ": " ++ e.message
      ++ String.join (e.fields.map fun f => " " ++ f.1 ++ "=" ++ f.2.compact)
  | .json =>
    (Json.Value.object [("level", .string e.level.name),
      ("fields", .object (("message", .string e.message) :: e.fields)),
      ("target", .string e.target)]).compact

/-- What a directive asks for. One that only applies within a named span of work,
or to fields of a certain value, shows none of the events here. -/
structure Directive where
  target : Option (List Char)
  /-- Fields that an event must have. -/
  fields : List (List Char)
  verbosity : Nat
  bound : Bool
  deriving DecidableEq

namespace Directive

private def verbosityNames : List String := ["off", "error", "warn", "info", "debug", "trace"]

/-- A level by its name or its number. -/
def verbosity? (cs : List Char) : Option Nat :=
  let digits := if cs.head? = some '+' then cs.drop 1 else cs
  if !digits.isEmpty && digits.all Text.Decimal.isDigit then
    let n := Text.Decimal.toNat digits
    if n ≤ 5 then some n else none
  else verbosityNames.findIdx? fun name => name.toList = cs.map Char.toLower

private def everything : Nat := 5

/-- A level without a target, or a target of which everything is shown. -/
private def ofWord (cs : List Char) : Directive :=
  match verbosity? cs with
  | some v => ⟨none, [], v, false⟩
  | none => ⟨some cs, [], everything, false⟩

/-- The names of the fields between braces, and whether one has a value. -/
private def fields? (cs : List Char) : Option (List (List Char) × Bool) :=
  let pieces := cs.splitOn ','
  if pieces.any (·.isEmpty) then none
  else some (pieces.map (·.takeWhile (· != '=')), pieces.any (·.contains '='))

/-- The span and the fields between brackets, and what follows them. -/
private def span? (cs : List Char) : Option (List (List Char) × Bool × List Char) := do
  let name := cs.takeWhile fun c => c != ']' && c != '\x7b'
  match cs.drop name.length with
  | ']' :: rest => some ([], true, rest)
  | _ :: rest =>
    let inner := rest.takeWhile (· != '\x7d')
    match rest.drop inner.length with
    | _ :: ']' :: rest =>
      let (fields, valued) ← fields? inner
      some (fields, valued || !name.isEmpty, rest)
    | _ => none
  | [] => none

/-- The level behind an equals sign; everything, where there is none. -/
private def level? : List Char → Option Nat
  | [] => some everything
  | '=' :: cs => if cs.isEmpty then some everything else verbosity? cs
  | _ => none

private def mayBegin (c : Char) : Bool :=
  c.isAlphanum || c == '-' || c == ':' || c == '_' || 0x80 ≤ c.toNat

/-- A level; or a target, a span, or both, with a level behind. -/
def parse? (cs : List Char) : Option Directive :=
  match cs with
  | [] => some ⟨none, [], everything, false⟩
  | '[' :: rest => do
    let (fields, bound, rest) ← span? rest
    some ⟨none, fields, ← level? rest, bound⟩
  | c :: _ =>
    if mayBegin c then
      let word := cs.takeWhile fun c => c != '=' && c != '['
      match cs.drop word.length with
      | [] => some (ofWord cs)
      | '[' :: rest => do
        let (fields, bound, rest) ← span? rest
        some ⟨some word, fields, ← level? rest, bound⟩
      | rest => do some ⟨some word, [], ← level? rest, false⟩
    else none

/-- Whether an event from this area, with these fields, is meant. -/
def appliesTo (d : Directive) (e : Event) : Bool :=
  let names := "message" :: e.fields.map (·.1)
  !d.bound && d.target.all (·.isPrefixOf e.target.toList)
    && d.fields.all fun f => names.contains (String.ofList f)

/-- Longer targets are more specific, and then more fields. -/
def specificity (d : Directive) : Nat × Nat :=
  (match d.target with
    | none => 0
    | some target => target.length + 1, d.fields.length)

/-- Whether `d` counts before `other`, which stands before it. -/
def outranks (d other : Directive) : Bool :=
  let (a, b) := d.specificity
  let (c, e) := other.specificity
  c < a || (c == a && e ≤ b)

end Directive

abbrev LogFilter := List Directive

namespace LogFilter

private def pieces (text : String) : List (List Char) :=
  (text.toList.splitOn ',').filter (!·.isEmpty)

/-- Without any directive only errors are shown. -/
private def orErrors (filter : LogFilter) : LogFilter :=
  if filter.isEmpty then [⟨none, [], 1, false⟩] else filter

/-- Leaves out what is no directive. -/
def ofText (text : String) : LogFilter := orErrors ((pieces text).filterMap Directive.parse?)

/-- The filter of a text in which all are directives. -/
def ofText? (text : String) : Option LogFilter :=
  ((pieces text).mapM Directive.parse?).map orErrors

/-- A filter for all programs wins over the one for this run, if it is well formed. -/
def choose (general : Option String) (text : String) : LogFilter :=
  (general.bind ofText?).getD (ofText text)

/-- The directive that counts for an event. -/
def directiveFor? (filter : LogFilter) (e : Event) : Option Directive :=
  (filter.filter (·.appliesTo e)).foldl (fun best d =>
    match best with
    | some b => if d.outranks b then some d else some b
    | none => some d) none

def admits (filter : LogFilter) (e : Event) : Bool :=
  match filter.directiveFor? e with
  | some d => e.level.verbosity ≤ d.verbosity
  | none => false

end LogFilter
end Rehoming
