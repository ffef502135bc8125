import Rehoming.Proofs.Documents.Plans
import Rehoming.Proofs.Files.Sessions

/-! What a run of the restore program leaves behind. A document is put together in a temporary
file, which is given up as soon as a step fails; only the last step touches the place where the
document goes. Main statement: a run that fails, at whatever step, leaves all files as they were,
and one that is done leaves the plan in its place, from which it is read back, and nothing else. -/

namespace Rehoming

open Keys

/-- Whether a file can get to a path: by way of a temporary one beside it. -/
def Disk.Takes (d : Disk) (path : FilePath) : Prop :=
  (∃ new, d.createTemp path.directory = .ok new) ∧ ∃ location, d.place path = .ok location

/-- With a file of this content. -/
def View.holding (v : View) (location : Location) (content : Bytes) : View :=
  v.onDisk (v.disk.put location (.file content))

/-- All files are as they were. If the host litters, a temporary one may be left where there was
none, with something in it; nobody finds it who did not look for a file in that very place. -/
inductive View.Spared (before : View) : View → Prop where
  | whole : Spared before before
  | littered {temp : Location} {content : Bytes} (litters : before.litters)
    (fresh : before.disk.entry? temp = none)
    (files : ∀ path,
      (before.holding temp content).disk.content? path = before.disk.content? path ∨
        before.disk.content? path = none ∧ before.disk.place path = .ok temp) :
    Spared before (before.holding temp content)

theorem View.Spared.eq_of_tidy {before after : View} (spared : before.Spared after)
    (tidy : ¬ before.litters) : after = before := by
  cases spared with
  | whole => rfl
  | littered litters => exact absurd litters tidy

variable {S : Type} {view : S → View} {v : View} {host : Host (StateM S) Location}

/-! ## Replacing a document -/

namespace Host

variable {origin : View} {temp : Location} (fresh : origin.disk.entry? temp = none)

include fresh

theorem remove_holding (content : Bytes) :
    (origin.holding temp content).onDisk ((origin.holding temp content).disk.remove temp) =
      origin := congrArg origin.onDisk (Disk.remove_put fresh (.file content))

/-- A step that leaves nothing but a temporary file behind if it fails. -/
theorem orDiscard_runs (lawful : host.Lawful view) {step : StateM S (Except OsError Unit)}
    {P : View → Prop} {reason : Prop} (acts : Acts view v step fun
      | .ok _, v' => P v'
      | .error _, v' => (∃ content, v' = origin.holding temp content) ∧ reason)
    (contexts : OsError → List String) :
    Runs view v (host.orDiscard temp contexts step) (fun _ v' => P v')
      (fun v' => origin.Spared v' ∧ reason) := by
  refine Runs.bind (Runs.lift acts) fun result v' h => ?_
  cases result with
  | ok _ => exact Runs.pure h
  | error e =>
    obtain ⟨⟨content, rfl⟩, why⟩ := h
    refine Runs.bind (Runs.lift (lawful.discard _ temp)) fun _ v'' removed => ?_
    rcases removed with rfl | ⟨litters, rfl⟩
    · rw [remove_holding fresh]
      exact Runs.throw ⟨.whole, why⟩ _
    · exact Runs.throw ⟨.littered litters fresh (Disk.content?_put_fresh fresh content), why⟩ _

/-- What is appended comes behind what there is. -/
theorem append_runs (lawful : host.Lawful view) (content bytes : Bytes)
    (contexts : OsError → List String) :
    Runs view (origin.holding temp content)
      (host.orDiscard temp contexts (host.append temp bytes))
      (fun _ v' => v' = origin.holding temp (content ++ bytes))
      (fun v' => origin.Spared v' ∧ origin.troubled) := by
  have held : (origin.holding temp content).disk.contentAt temp = content :=
    Disk.contentAt_put (Disk.ne_nil_of_entry?_none fresh) content
  have longer (more : Bytes) : (origin.holding temp content).onDisk
      ((origin.holding temp content).disk.put temp (.file (content ++ more))) =
        origin.holding temp (content ++ more) := congrArg origin.onDisk (Disk.put_put temp _ _)
  refine orDiscard_runs fresh lawful ((lawful.append _ temp bytes).mono fun result v' h => ?_)
    contexts
  cases result with
  | ok _ => rw [h, held, longer]
  | error e =>
    obtain ⟨trouble, rfl | ⟨front, -, rfl⟩⟩ := h
    · exact ⟨⟨content, rfl⟩, trouble⟩
    · rw [held, longer]
      exact ⟨⟨_, rfl⟩, trouble⟩

theorem sync_runs (lawful : host.Lawful view) (content : Bytes)
    (contexts : OsError → List String) :
    Runs view (origin.holding temp content)
      (host.orDiscard temp contexts (host.sync temp))
      (fun _ v' => v' = origin.holding temp content)
      (fun v' => origin.Spared v' ∧ origin.troubled) := by
  refine orDiscard_runs fresh lawful ((lawful.sync _ temp).mono fun result v' h => ?_) contexts
  cases result with
  | ok _ => exact h
  | error e =>
    obtain ⟨rfl, trouble⟩ := h
    exact ⟨⟨content, rfl⟩, trouble⟩

/-- A file that is moved to its place is as if it had been put there. -/
theorem persist_runs (lawful : host.Lawful view) (content : Bytes) (path : FilePath)
    (contexts : OsError → List String) :
    Runs view (origin.holding temp content)
      (host.orDiscard temp contexts (host.persist temp path))
      (fun _ v' => ∃ location, origin.disk.place path = .ok location ∧
        v' = origin.holding location content)
      (fun v' => origin.Spared v' ∧
        (origin.troubled ∨ ∀ location, origin.disk.place path ≠ .ok location)) := by
  have held : (origin.holding temp content).disk.contentAt temp = content :=
    Disk.contentAt_put (Disk.ne_nil_of_entry?_none fresh) content
  have alike : origin.disk.Alike (origin.holding temp content).disk :=
    Disk.alike_put (by simp [fresh]) content
  refine orDiscard_runs fresh lawful ((lawful.persist _ temp path).mono fun result v' h => ?_)
    contexts
  cases result with
  | ok _ =>
    obtain ⟨location, placed, moved⟩ := h
    refine ⟨location, Disk.place_congr alike.symm placed, ?_⟩
    have gone : (origin.holding temp content).disk.remove temp = origin.disk :=
      Disk.remove_put fresh (.file content)
    rw [moved, held, gone]
    rfl
  | error e =>
    obtain ⟨rfl, why⟩ := h
    refine ⟨⟨content, rfl⟩, why.imp id fun failed location placed => ?_⟩
    rw [Disk.place_congr alike placed] at failed
    cases failed

omit fresh

theorem replaceDocument_runs (lawful : host.Lawful view) (path : FilePath) (value : Json.Value) :
    Runs view v (host.replaceDocument path value)
      (fun _ v' => ∃ location, v.disk.place path = .ok location ∧
        v' = v.holding location (Text.Utf8.ofString (value.pretty ++ "\n")))
      (fun v' => v.Spared v' ∧ (v.troubled ∨ ¬ v.disk.Takes path)) := by
  refine Runs.bind (Runs.lift (lawful.createTemp v path.directory)) fun result v' made => ?_
  cases result with
  | error e =>
    obtain ⟨rfl, why⟩ := made
    refine Runs.throw ⟨.whole, why.imp id fun failed takes => ?_⟩ _
    obtain ⟨⟨new, made⟩, -⟩ := takes
    rw [made] at failed
    cases failed
  | ok temp =>
    obtain ⟨fresh, rfl⟩ := made
    have given_up (v' : View) : v.Spared v' ∧ v.troubled →
        v.Spared v' ∧ (v.troubled ∨ ¬ v.disk.Takes path) := And.imp id .inl
    refine Runs.bind ((append_runs fresh lawful _ _ _).mono (fun _ _ h => h) given_up)
      fun _ v' h => ?_
    subst h
    refine Runs.bind ((append_runs fresh lawful _ _ _).mono (fun _ _ h => h) given_up)
      fun _ v' h => ?_
    subst h
    refine Runs.bind ((sync_runs fresh lawful _ _).mono (fun _ _ h => h) given_up)
      fun _ v' h => ?_
    subst h
    have whole : [] ++ Text.Utf8.encode (value.prettyChars 0) ++ [10] =
        Text.Utf8.ofString (value.pretty ++ "\n") := by
      have chars : (value.pretty ++ "\n").toList = value.prettyChars 0 ++ ['\n'] := by
        simp [Json.Value.pretty]
      rw [Text.Utf8.ofString, chars, Text.Utf8.encode, Text.Utf8.encode, List.flatMap_append]
      rfl
    rw [whole]
    refine (persist_runs fresh lawful _ path _).mono (fun _ _ h => h)
      fun _ => And.imp id (Or.imp id fun nowhere takes => ?_)
    obtain ⟨-, location, placed⟩ := takes
    exact nowhere location placed

end Host

/-- There is a plan of old on it, but no keys. -/
def Machine.keyless : Machine where
  disk := { entries := [(["plan.json"], .file [0x7b, 0x7d])], working := [] }
  reports := []
  printed := ""
  attempts := 0
  trouble := fun _ _ => none

/-- If what was written cannot be made to last, the old document stays. -/
example : ((Machine.host.replaceDocument ⟨"plan.json"⟩ .null).run.run
    { Machine.keyless with trouble := fun
      | _, .sync => some (.other "no space")
      | _, _ => none }).2.disk = Machine.keyless.disk := by decide +kernel

/-! ## Whole runs -/

namespace RestoreArguments

/-- The plan that is made from the files on a disk. -/
def plan? (args : RestoreArguments) (suite : CipherSuite) (around : Surroundings)
    (entropy : Entropy) (d : Disk) : Option RestorePlan := do
  let home := around.home
  let settings ← d.settings? args.common.settings
  let authority ← d.key? AuthorityKey.ofText
    (KeySettings.choose home args.authority (settings.keys.authorityPath home))
  let master ← d.key? MasterKey.ofJson
    (KeySettings.choose home args.master (settings.keys.masterPath home))
  let destination ← d.key? (RealmKey.find · args.fingerprint)
    (KeySettings.choose home args.realms (settings.keys.realmsPath home))
  let bundle ← d.document? Bundle.reader args.input
  let reservation ← d.document? Reservation.reader args.reservation
  let pins ← d.pins? args.pins
  let mode : PlacementMode := if args.mirror then .mirrored else .sequential
  let options := RunOptions.ofSettings settings.recode mode args.force around.settling
  (createRestorePlan suite entropy ⟨authority, master, destination, args.fingerprint⟩ options
    reservation pins bundle).result.toOption

/-- The plan is in its place, and nothing else has changed. -/
structure Leaves (args : RestoreArguments) (before : View) (plan : RestorePlan) (after : View) :
    Prop where
  alone : ∃ location, before.disk.place args.out = .ok location ∧
    after = before.holding location plan.document
  held : after.disk.content? args.out = some plan.document
  complete : RestorePlan.ofDocument? plan.document = some plan

theorem run_makes (lawful : host.Lawful view) (args : RestoreArguments) (suite : CipherSuite)
    (around : Surroundings) (entropy : Entropy) :
    Makes view v (args.run host suite around entropy)
      (args.plan? suite around entropy v.disk) (args.Leaves v)
      (fun _ v' => v.Spared v' ∧ (v.troubled ∨ ¬ v.disk.Takes args.out)) := by
  refine Makes.afterMap (Session.start_reads lawful suite around args.common) fun settings => ?_
  have quiet := Session.log_quiet
    (s := Session.ofSettings host suite around args.common settings) lawful
  refine Makes.afterQuiet (quiet v _) ?_
  refine Makes.after (Host.loadAuthority_reads lawful quiet _) fun authority => ?_
  refine Makes.after (Host.loadMaster_reads lawful _) fun master => ?_
  refine Makes.after (Host.loadRealm_reads lawful quiet _ _) fun destination => ?_
  refine Makes.after (Host.loadDocument_reads lawful _ _ _) fun bundle => ?_
  refine Makes.after (Host.loadDocument_reads lawful _ _ _) fun reservation => ?_
  refine Makes.after (Host.loadPins_reads lawful _) fun pins => ?_
  refine Makes.afterLast (Session.settle_reads lawful _ _) fun plan => Makes.last ?_
  refine Runs.bind (Host.replaceDocument_runs lawful args.out plan.toValue) fun _ v' done => ?_
  refine Runs.lift ((quiet _ _).mono fun _ after same => ?_)
  obtain ⟨location, placed, rfl⟩ := done
  subst same
  have held : (v.holding location plan.document).disk.content? args.out = some plan.document := by
    rw [Disk.content?, View.holding, View.onDisk, Disk.read_put placed]
    rfl
  exact ⟨⟨location, placed, rfl⟩, held, plan.ofDocument?_document⟩

end RestoreArguments

/-- **A failed run leaves all files alone.** On any lawful host, whatever is on its disk and
whatever fails, now or then: if the restore program fails, all is as it was, except that a host that
cannot even remove its temporary file may keep that; and this has a reason: the host has trouble,
the files on the disk do not make a plan, or there is no place for it. If it is done, the plan that
the files make has taken its place, whole, and nothing else has changed. -/
theorem Program.restore_atomic (lawful : host.Lawful view) (suite : CipherSuite)
    (around : Surroundings) (entropy : Entropy) (args : List String) (before : View) :
    Acts view before (Program.restore.run host suite around entropy args) fun ending after =>
      match Arguments.complete Program.restore.parameters around.environment args, ending with
      | .ok given, .done => ∃ plan,
        given.forRestore.plan? suite around entropy before.disk = some plan ∧
          given.forRestore.Leaves before plan after
      | .ok given, .failed _ =>
        (¬ before.litters → after = before) ∧ before.Spared after ∧ (before.troubled ∨
          given.forRestore.plan? suite around entropy before.disk = none ∨
          ¬ before.disk.Takes given.forRestore.out)
      | .ok _, .misused _ => False
      | .error _, _ => ∃ text, after = before.saying text := by
  cases complete : Arguments.complete Program.restore.parameters around.environment args with
  | error stop => exact Program.run_of_stopped lawful complete before
  | ok given =>
    have ended := (given.forRestore.run_makes (v := before) lawful suite around entropy).ends
    unfold Program.run
    rw [complete]
    refine ended.mono fun ending after h => ?_
    cases ending with
    | done => exact h
    | misused reason => exact h
    | failed failure =>
      rcases h with ⟨rfl, trouble | nothing⟩ | ⟨plan, -, spared, why⟩
      · exact ⟨fun _ => rfl, .whole, .inl trouble⟩
      · exact ⟨fun _ => rfl, .whole, .inr (.inl nothing)⟩
      · exact ⟨spared.eq_of_tidy, spared, why.imp id .inr⟩

/-- A run that would replace the plan. -/
def Machine.keylessRun : StateM Machine Ending :=
  Program.restore.run Machine.host CipherSuite.standard ⟨[], ⟨"/"⟩, []⟩ ⟨[]⟩
    ["--in", "bundle.json", "-c", "reservation.json", "--out", "plan.json", "--tfp", "SHA256:x"]

theorem Program.restore_atomic_keyless : Machine.host.Lawful Machine.toView ∧
    (Machine.keylessRun.run .keyless).1 =
      .failed ⟨["reading authority key: /.secret/authority_priv.pem"], .os .notFound⟩ ∧
    (Machine.keylessRun.run .keyless).2.toView = Machine.keyless.toView := by
  have failed : (Machine.keylessRun.run .keyless).1 =
      .failed ⟨["reading authority key: /.secret/authority_priv.pem"], .os .notFound⟩ := by
    decide +kernel
  have acted := Program.restore_atomic Machine.host_lawful CipherSuite.standard ⟨[], ⟨"/"⟩, []⟩ ⟨[]⟩
    ["--in", "bundle.json", "-c", "reservation.json", "--out", "plan.json", "--tfp", "SHA256:x"]
    Machine.keyless.toView .keyless rfl
  refine ⟨Machine.host_lawful, failed, ?_⟩
  unfold Machine.keylessRun at failed ⊢
  rw [failed] at acted
  cases complete : Arguments.complete Program.restore.parameters [] ["--in", "bundle.json", "-c",
      "reservation.json", "--out", "plan.json", "--tfp", "SHA256:x"] with
  | ok given =>
    rw [complete] at acted
    refine acted.1 ?_
    rintro ⟨attempt, e, trouble⟩
    cases trouble
  | error stop =>
    have enough : (Arguments.complete Program.restore.parameters [] ["--in", "bundle.json", "-c",
        "reservation.json", "--out", "plan.json", "--tfp", "SHA256:x"]).toOption.isSome = true := by
      decide +kernel
    rw [complete] at enough
    cases enough

end Rehoming
