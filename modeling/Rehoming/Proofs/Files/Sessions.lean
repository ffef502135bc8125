import Rehoming.Session
import Rehoming.Proofs.Files.Loading

/-! Programs that read, make something of what they have read, and do one thing with it. What the
two of them have in common: as long as they read they change nothing, and whether they get to the
last step depends on the files that there are. -/

namespace Rehoming

open Keys

variable {S : Type} {view : S → View} {v : View} {host : Host (StateM S) Location}

/-- A run that makes something of what there is, and ends by doing something with it. If it fails
before that there is nothing to be made, or the host has trouble, and all is as it was. -/
def Makes {γ : Type} (view : S → View) (v : View) (x : ExceptT Failure (StateM S) Unit)
    (o : Option γ) (leaves spoils : γ → View → Prop) : Prop :=
  Runs view v x (fun _ v' => ∃ c, o = some c ∧ leaves c v')
    (fun v' => v' = v ∧ (v.troubled ∨ o = none) ∨ ∃ c, o = some c ∧ spoils c v')

namespace Makes

variable {α β γ : Type} {leaves spoils : γ → View → Prop} {o : Option α}

/-- The last thing that is done. -/
theorem last {x : ExceptT Failure (StateM S) Unit} {c : γ}
    (run : Runs view v x (fun _ v' => leaves c v') (fun v' => spoils c v')) :
    Makes view v x (some c) leaves spoils :=
  run.mono (fun _ _ done => ⟨c, rfl, done⟩) fun _ failed => .inr ⟨c, rfl, failed⟩

theorem afterMap {h : α → β} {x : ExceptT Failure (StateM S) β} {g : α → Option γ}
    {f : β → ExceptT Failure (StateM S) Unit} (first : Reads view v x (o.map h))
    (next : ∀ a, Makes view v (f (h a)) (g a) leaves spoils) :
    Makes view v (x >>= f) (o.bind g) leaves spoils := by
  cases o with
  | none =>
    exact Reads.andThen first nofun (fun h => .inl ⟨rfl, .inl h⟩) fun _ => .inl ⟨rfl, .inr rfl⟩
  | some a =>
    refine Reads.andThen first (fun b there => ?_) (fun h => .inl ⟨rfl, .inl h⟩) nofun
    cases there
    exact next a

theorem after {x : ExceptT Failure (StateM S) α} {g : α → Option γ}
    {f : α → ExceptT Failure (StateM S) Unit} (first : Reads view v x o)
    (next : ∀ a, Makes view v (f a) (g a) leaves spoils) :
    Makes view v (x >>= f) (o.bind g) leaves spoils := by
  have whole : Reads view v x (o.map id) := by rwa [Option.map_id_apply]
  exact afterMap whole next

/-- The last thing that is read. -/
theorem afterLast {x : ExceptT Failure (StateM S) γ} {o : Option γ}
    {f : γ → ExceptT Failure (StateM S) Unit} (first : Reads view v x o)
    (next : ∀ c, Makes view v (f c) (some c) leaves spoils) :
    Makes view v (x >>= f) o leaves spoils := by
  have both := after first next
  rwa [Option.bind_fun_some] at both

/-- An action in front that is not seen. -/
theorem afterQuiet {act : StateM S Unit} {o : Option γ} {x : ExceptT Failure (StateM S) Unit}
    (quiet : Acts view v act fun _ v' => v' = v) (next : Makes view v x o leaves spoils) :
    Makes view v (liftM act >>= fun _ => x) o leaves spoils := by
  refine Runs.bind (Runs.lift quiet) fun _ v' same => ?_
  subst same
  exact next

/-- How a program ends whose run this is. -/
theorem ends {x : ExceptT Failure (StateM S) Unit} {o : Option γ}
    (makes : Makes view v x o leaves spoils) :
    Acts view v (do
        match ← x.run with
        | .ok () => return Ending.done
        | .error failure => return Ending.failed failure) fun
      | .done, after => ∃ c, o = some c ∧ leaves c after
      | .failed _, after =>
        after = v ∧ (v.troubled ∨ o = none) ∨ ∃ c, o = some c ∧ spoils c after
      | .misused _, _ => False := by
  unfold Makes Runs at makes
  refine Acts.bind makes fun result after h => ?_
  cases result with
  | ok _ => exact Acts.pure h
  | error failure => exact Acts.pure h

end Makes

namespace Session

/-- The session that settings make. -/
def ofSettings (host : Host (StateM S) Location) (suite : CipherSuite) (around : Surroundings)
    (args : CommonArguments) (settings : Settings) : Session (StateM S) Location where
  host := host
  suite := suite
  home := around.home
  settings := settings
  filter := LogFilter.choose around.filter (args.log.getD settings.log.level)
  format := args.format.getD (LogFormat.ofSetting settings.log.format)

theorem start_reads (lawful : host.Lawful view) (suite : CipherSuite) (around : Surroundings)
    (args : CommonArguments) : Reads view v (start host suite around args)
      ((v.disk.settings? args.settings).map (ofSettings host suite around args)) := by
  rw [Option.map_eq_bind]
  exact Reads.bind (Host.loadSettings_reads lawful args.settings) fun settings _ => Reads.pure _

theorem log_quiet {s : Session (StateM S) Location} (lawful : s.host.Lawful view) :
    Quiet view s.log := by
  intro v event
  unfold log
  split
  · exact lawful.report v s.format event
  · exact fun w same => same

theorem settle_reads {α : Type} {s : Session (StateM S) Location} (lawful : s.host.Lawful view)
    (context : String) (x : Logged α) : Reads view v (s.settle context x) x.result.toOption := by
  refine Reads.afterEach (log_quiet lawful) x.events ?_
  cases x.result with
  | ok a => exact Reads.pure a
  | error e => exact Reads.throw _

theorem noteRealms_quiet {s : Session (StateM S) Location} (lawful : s.host.Lawful view)
    (named : Option FilePath) : Acts view v (s.noteRealms named) fun _ v' => v' = v := by
  cases named with
  | some path => exact log_quiet lawful v _
  | none => exact Acts.pure rfl

end Session

/-- A program that is asked for something else than to run, or for nothing it can make sense of,
does not use its files. What is shown on request is printed as far as it gets through. -/
theorem Program.run_of_stopped (lawful : host.Lawful view) {program : Program}
    {suite : CipherSuite} {around : Surroundings} {entropy : Entropy} {args : List String}
    {stop : Stop} (stopped : Arguments.complete program.parameters around.environment args =
      .error stop) (before : View) :
    Acts view before (program.run host suite around entropy args) fun _ after =>
      ∃ text, after = before.saying text := by
  have shown (text : String) : Acts view before (host.print text) fun _ after =>
      ∃ front, after = before.saying front := by
    refine (lawful.print before text).mono fun result after h => ?_
    cases result with
    | ok _ => exact ⟨text, h⟩
    | error e =>
      obtain ⟨-, front, -, -, rfl⟩ := h
      exact ⟨front, rfl⟩
  unfold Program.run
  rw [stopped]
  cases stop with
  | version => exact (shown _).bind fun _ _ said => Acts.pure said
  | help => exact (shown _).bind fun _ _ said => Acts.pure said
  | misuse reason => exact Acts.pure ⟨"", before.saying_nil.symm⟩

end Rehoming
