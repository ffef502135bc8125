import Rehoming.Proofs.Documents.Mappings
import Rehoming.Proofs.Files.Sessions

/-! What a run of the mapping program prints. A document goes out piece by piece, and the host may
fail at any of them, or when all is to be let go. Main statement: a run that is done has printed the
line about the map that the files on the disk make, and nothing else; one that fails has printed no
more than the front of this line. -/

namespace Rehoming

open Keys

/-- Of a text, only the front has been printed, which may be all or nothing. -/
def View.Cut (before : View) (text : String) (after : View) : Prop :=
  ∃ front back, text = front ++ back ∧ after = before.saying front

namespace View

variable {before after : View} {first rest : String}

theorem cut_nothing (before : View) (text : String) : before.Cut text before :=
  ⟨"", text, String.empty_append.symm, before.saying_nil.symm⟩

theorem cut_whole (before : View) (text : String) : before.Cut text (before.saying text) :=
  ⟨text, "", String.append_empty.symm, rfl⟩

theorem Cut.followed (cut : before.Cut first after) (rest : String) :
    before.Cut (first ++ rest) after := by
  obtain ⟨front, back, rfl, rfl⟩ := cut
  exact ⟨front, back ++ rest, String.append_assoc, rfl⟩

theorem Cut.behind (cut : (before.saying first).Cut rest after) :
    before.Cut (first ++ rest) after := by
  obtain ⟨front, back, rfl, rfl⟩ := cut
  exact ⟨first ++ front, back, String.append_assoc.symm, before.saying_saying first front⟩

end View

variable {S : Type} {view : S → View} {v : View} {host : Host (StateM S) Location}

/-! ## Printing a document -/

namespace Host

theorem orFail_runs {step : StateM S (Except OsError Unit)} {P failed : View → Prop}
    (acts : Acts view v step fun
      | .ok _, v' => P v'
      | .error _, v' => failed v') (contexts : List String) :
    Runs view v (orFail contexts step) (fun _ v' => P v') failed := by
  refine Runs.bind (Runs.lift acts) fun result v' h => ?_
  cases result with
  | ok _ => exact Runs.pure h
  | error e => exact Runs.throw h _

theorem print_runs (lawful : host.Lawful view) (text : String) (contexts : List String) :
    Runs view v (orFail contexts (host.print text)) (fun _ v' => v' = v.saying text)
      (fun v' => v.troubled ∧ v.Cut text v') := by
  refine orFail_runs ((lawful.print v text).mono fun result v' h => ?_) contexts
  cases result with
  | ok _ => exact h
  | error e => exact h

/-- Pieces come one behind another. Where one of them fails, those before it are there. -/
theorem printPieces_runs (lawful : host.Lawful view) (pieces : List (String × List String)) :
    Runs view v (forIn (m := ExceptT Failure (StateM S)) pieces PUnit.unit fun piece _ => do
        orFail piece.2 (host.print piece.1)
        pure (ForInStep.yield PUnit.unit))
      (fun _ v' => v' = v.saying (String.join (pieces.map (·.1))))
      (fun v' => v.troubled ∧ v.Cut (String.join (pieces.map (·.1))) v') := by
  induction pieces generalizing v with
  | nil => exact Runs.pure v.saying_nil.symm
  | cons piece pieces ih =>
    simp only [List.forIn_cons, bind_assoc, pure_bind, List.map_cons, String.join_cons]
    have first := print_runs (v := v) lawful piece.1 piece.2
    refine Runs.bind (first.mono (fun _ _ h => h) fun _ => And.imp id fun cut => cut.followed _) ?_
    intro _ v' said
    subst said
    refine ih.mono (fun _ v'' said => ?_) fun _ => And.imp id View.Cut.behind
    rw [said, View.saying_saying]

/-- **A document is printed as its line.** -/
theorem printDocument_runs (lawful : host.Lawful view) (value : Json.Value) :
    Runs view v (host.printDocument value) (fun _ v' => v' = v.saying (line value))
      (fun v' => v.troubled ∧ v.Cut (line value) v') := by
  refine Runs.bind (printPieces_runs lawful (linePieces value)) fun _ v' said => ?_
  subst said
  refine orFail_runs ((lawful.flush _).mono fun result v' h => ?_) []
  cases result with
  | ok _ => exact h
  | error e =>
    obtain ⟨rfl, trouble⟩ := h
    exact ⟨trouble, v.cut_whole _⟩

end Host

/-! ## Whole runs -/

namespace MappingArguments

/-- The map that is made from the files on a disk. -/
def mapping? (args : MappingArguments) (suite : CipherSuite) (around : Surroundings) (d : Disk) :
    Option Pins := do
  let settings ← d.settings? args.common.settings
  let authority ← d.key? AuthorityKey.ofText
    (KeySettings.choose around.home args.authority (settings.keys.authorityPath around.home))
  let bundle ← d.document? Bundle.reader args.input
  let options := RunOptions.ofSettings settings.recode .mirrored false around.settling
  (createMapping suite authority options bundle).result.toOption

/-- The files on a disk give these settings, this key, and this bundle. -/
structure Finds (args : MappingArguments) (home : FilePath) (d : Disk) (settings : Settings)
    (authority : AuthorityKey) (bundle : Bundle) : Prop where
  configured : d.settings? args.common.settings = some settings
  unlocked : d.key? AuthorityKey.ofText
    (KeySettings.choose home args.authority (settings.keys.authorityPath home)) = some authority
  delivered : d.document? Bundle.reader args.input = some bundle

theorem Finds.mapping? {args : MappingArguments} {suite : CipherSuite} {around : Surroundings}
    {d : Disk} {settings : Settings} {authority : AuthorityKey} {bundle : Bundle}
    (finds : args.Finds around.home d settings authority bundle) :
    args.mapping? suite around d = (createMapping suite authority
      (RunOptions.ofSettings settings.recode .mirrored false around.settling)
      bundle).result.toOption := by
  simp [MappingArguments.mapping?, finds.configured, finds.unlocked, finds.delivered]

theorem run_makes (lawful : host.Lawful view) (args : MappingArguments) (suite : CipherSuite)
    (around : Surroundings) :
    Makes view v (args.run host suite around) (args.mapping? suite around v.disk)
      (fun pins after => after = v.saying pins.line)
      (fun pins after => v.troubled ∧ v.Cut pins.line after) := by
  refine Makes.afterMap (Session.start_reads lawful suite around args.common) fun settings => ?_
  have quiet := Session.log_quiet
    (s := Session.ofSettings host suite around args.common settings) lawful
  refine Makes.afterQuiet (Session.noteRealms_quiet lawful _) ?_
  refine Makes.after (Host.loadAuthority_reads lawful quiet _) fun authority => ?_
  refine Makes.after (Host.loadDocument_reads lawful _ _ _) fun bundle => ?_
  refine Makes.afterLast (Session.settle_reads lawful _ _) fun pins => ?_
  refine Makes.afterQuiet (quiet v _) (Makes.last ?_)
  exact Host.printDocument_runs lawful pins.toValue

end MappingArguments

/-- **A run that is done has printed the line about its map.** On any lawful host, whatever is on
its disk, all files are as they were. If the mapping program fails, this has a reason, and there is
no more to be seen of the line than its front. -/
theorem Program.mapping_prints (lawful : host.Lawful view) (suite : CipherSuite)
    (around : Surroundings) (entropy : Entropy) (args : List String) (before : View) :
    Acts view before (Program.mapping.run host suite around entropy args) fun ending after =>
      match Arguments.complete Program.mapping.parameters around.environment args, ending with
      | .ok given, .done => ∃ pins,
        given.forMapping.mapping? suite around before.disk = some pins ∧
          after = before.saying pins.line
      | .ok given, .failed _ =>
        let mapping := given.forMapping.mapping? suite around before.disk
        mapping = none ∧ after = before ∨
          before.troubled ∧ (after = before ∨ ∃ pins, mapping = some pins ∧
            before.Cut pins.line after)
      | .ok _, .misused _ => False
      | .error _, _ => ∃ text, after = before.saying text := by
  cases complete : Arguments.complete Program.mapping.parameters around.environment args with
  | error stop => exact Program.run_of_stopped lawful complete before
  | ok given =>
    have ended := (given.forMapping.run_makes (v := before) lawful suite around).ends
    unfold Program.run
    rw [complete]
    refine ended.mono fun ending after h => ?_
    cases ending with
    | done => exact h
    | misused reason => exact h
    | failed failure =>
      rcases h with ⟨rfl, trouble | nothing⟩ | ⟨pins, there, trouble, cut⟩
      · exact .inr ⟨trouble, .inl rfl⟩
      · exact .inl ⟨nothing, rfl⟩
      · exact .inr ⟨trouble, .inr ⟨pins, there, cut⟩⟩

end Rehoming
