import Rehoming.Proofs.Files.Disk

/-! Hosts that keep files on a disk. Where a host has trouble of its own, any operation may fail, at
any time and for any reason; what is assumed is what it does to the disk, and to what is printed,
when it fails and when it does not. In particular, moving a file to its place is done or is not
done. Main statement: the model of a machine is such a host. -/

namespace Rehoming

/-- What matters about a host: its disk, what has been printed, whether it has trouble of its own,
and whether that may keep it from removing files. -/
structure View where
  disk : Disk
  printed : String
  troubled : Prop
  litters : Prop

namespace View

/-- With another disk. -/
def onDisk (v : View) (disk : Disk) : View := { v with disk }

/-- With more of a text printed. -/
def saying (v : View) (text : String) : View := { v with printed := v.printed ++ text }

@[simp]
theorem printed_saying (v : View) (text : String) :
    (v.saying text).printed = v.printed ++ text := rfl

theorem saying_nil (v : View) : v.saying "" = v := by
  rw [saying, String.append_empty]

theorem saying_saying (v : View) (first second : String) :
    (v.saying first).saying second = v.saying (first ++ second) := by
  rw [saying, saying, saying, String.append_assoc]

end View

variable {S α β γ : Type} {view : S → View}

/-! ## Single operations -/

/-- From a state with this view, an action ends with such a result and such a view. -/
def Acts (view : S → View) (v : View) (x : StateM S α) (P : α → View → Prop) : Prop :=
  ∀ s, view s = v → P (x.run s).1 (view (x.run s).2)

namespace Acts

variable {v : View} {P : α → View → Prop}

theorem mono {Q : α → View → Prop} {x : StateM S α} (acts : Acts view v x P)
    (h : ∀ a v', P a v' → Q a v') : Acts view v x Q := fun s same => h _ _ (acts s same)

theorem pure {a : α} (h : P a v) : Acts view v (Pure.pure a) P := by
  intro s same
  subst same
  exact h

theorem bind {Q : β → View → Prop} {x : StateM S α} {f : α → StateM S β}
    (first : Acts view v x P) (next : ∀ a v', P a v' → Acts view v' (f a) Q) :
    Acts view v (x >>= f) Q := fun s same => next _ _ (first s same) _ rfl

end Acts

/-- What is done about any item has nothing to do with what is viewed. -/
def Quiet (view : S → View) (act : α → StateM S Unit) : Prop :=
  ∀ v a, Acts view v (act a) fun _ v' => v' = v

/-- What operations do to the disk and to what is printed. A temporary file is new, and gone once it
is given up, unless the host litters. -/
structure Host.Lawful (host : Host (StateM S) Location) (view : S → View) : Prop where
  fileExists : ∀ v path, Acts view v (host.fileExists path) fun answer v' =>
    v' = v ∧ answer = v.disk.fileExists path
  read : ∀ v path, Acts view v (host.read path) fun
    | .ok bytes, v' => v' = v ∧ v.disk.read path = .ok bytes
    | .error e, v' => v' = v ∧ (v.troubled ∨ v.disk.read path = .error e)
  createTemp : ∀ v directory, Acts view v (host.createTemp directory) fun
    | .ok temp, v' => v.disk.entry? temp = none ∧ v' = v.onDisk (v.disk.put temp (.file []))
    | .error e, v' => v' = v ∧ (v.troubled ∨ v.disk.createTemp directory = .error e)
  /-- Where this fails, some of the bytes may have been added. -/
  append : ∀ v temp bytes, Acts view v (host.append temp bytes) fun
    | .ok _, v' => v' = v.onDisk (v.disk.put temp (.file (v.disk.contentAt temp ++ bytes)))
    | .error _, v' => v.troubled ∧ (v' = v ∨ ∃ front, front <+: bytes ∧
      v' = v.onDisk (v.disk.put temp (.file (v.disk.contentAt temp ++ front))))
  sync : ∀ v temp, Acts view v (host.sync temp) fun
    | .ok _, v' => v' = v
    | .error _, v' => v' = v ∧ v.troubled
  /-- All or nothing. -/
  persist : ∀ v temp path, Acts view v (host.persist temp path) fun
    | .ok _, v' => ∃ location, v.disk.place path = .ok location ∧
      v' = v.onDisk ((v.disk.remove temp).put location (.file (v.disk.contentAt temp)))
    | .error e, v' => v' = v ∧ (v.troubled ∨ v.disk.place path = .error e)
  discard : ∀ v temp, Acts view v (host.discard temp) fun _ v' =>
    v' = v.onDisk (v.disk.remove temp) ∨ v.litters ∧ v' = v
  report : ∀ v format event, Acts view v (host.report format event) fun _ v' => v' = v
  /-- Where this fails, the front of the text may have got through. -/
  print : ∀ v text, Acts view v (host.print text) fun
    | .ok _, v' => v' = v.saying text
    | .error _, v' => v.troubled ∧ ∃ front back, text = front ++ back ∧ v' = v.saying front
  flush : ∀ v, Acts view v host.flush fun
    | .ok _, v' => v' = v
    | .error _, v' => v' = v ∧ v.troubled

namespace Machine

/-- What matters about a machine. -/
def toView (w : Machine) : View where
  disk := w.disk
  printed := w.printed
  troubled := ∃ attempt operation e, w.trouble attempt operation = some e
  litters := ∃ attempt e, w.trouble attempt .discard = some e

@[simp]
theorem printed_toView (w : Machine) : w.toView.printed = w.printed := rfl

/-- Trouble keeps an operation from doing anything. How many attempts there have been is not seen. -/
theorem attempt_acts {v : View} {operation : Operation}
    {act : Machine → Except OsError α × Machine} {P : Except OsError α → View → Prop}
    (failed : v.troubled → (operation = .discard → v.litters) → ∀ e, P (.error e) v)
    (done : ∀ w : Machine, w.toView = v → P (act w).1 (act w).2.toView) :
    Acts toView v (attempt operation act) P := by
  intro w same
  simp only [StateT.run, attempt]
  cases trouble : w.trouble w.attempts operation with
  | some e =>
    subst same
    refine failed ⟨w.attempts, operation, e, trouble⟩ (fun removal => ?_) e
    subst removal
    exact ⟨w.attempts, e, trouble⟩
  | none => exact done w same

/-- **Machines are lawful.** -/
theorem host_lawful : Machine.host.Lawful toView where
  fileExists v path w same := ⟨same, same ▸ rfl⟩
  read v path := by
    simp only [host]
    refine attempt_acts (fun trouble _ e => ⟨rfl, .inl trouble⟩) fun w same => ?_
    subst same
    cases found : w.disk.read path with
    | ok bytes => exact ⟨rfl, found⟩
    | error e => exact ⟨rfl, .inr found⟩
  createTemp v directory := by
    simp only [host]
    refine attempt_acts (fun trouble _ e => ⟨rfl, .inl trouble⟩) fun w same => ?_
    subst same
    cases made : w.disk.createTemp directory with
    | ok new =>
      obtain ⟨temp, disk⟩ := new
      obtain ⟨free, put⟩ := Disk.createTemp_eq_ok made
      exact ⟨free, congrArg w.toView.onDisk put⟩
    | error e => exact ⟨rfl, .inr made⟩
  append v temp bytes := by
    simp only [host]
    refine attempt_acts (fun trouble _ e => ⟨trouble, .inl rfl⟩) fun w same => ?_
    subst same
    rfl
  sync v temp := by
    simp only [host]
    exact attempt_acts (fun trouble _ e => ⟨rfl, trouble⟩) fun w same => same
  persist v temp path := by
    simp only [host]
    refine attempt_acts (fun trouble _ e => ⟨rfl, .inl trouble⟩) fun w same => ?_
    subst same
    cases placed : w.disk.place path with
    | ok location => exact ⟨location, placed, rfl⟩
    | error e => exact ⟨rfl, .inr placed⟩
  discard v temp := by
    have removal : Acts toView v (attempt .discard fun w =>
        (.ok (), { w with disk := w.disk.remove temp })) fun (_ : Except OsError Unit) v' =>
          v' = v.onDisk (v.disk.remove temp) ∨ v.litters ∧ v' = v := by
      refine attempt_acts (fun _ litters e => .inr ⟨litters rfl, rfl⟩) fun w same => .inl ?_
      subst same
      rfl
    exact removal.bind fun _ v' gone => .pure gone
  report v format event w same := same
  print v text := by
    simp only [host]
    refine attempt_acts (fun trouble _ e => ⟨trouble, "", text, ?_, ?_⟩) fun w same => ?_
    · rw [String.empty_append]
    · rw [View.saying_nil]
    · subst same
      rfl
  flush v := by
    simp only [host]
    exact attempt_acts (fun trouble _ e => ⟨rfl, trouble⟩) fun w same => same

end Machine

/-! ## Runs -/

/-- From a state with this view, a run ends with such a value and such a view, or it fails with
such a view. -/
def Runs (view : S → View) (v : View) (x : ExceptT Failure (StateM S) α)
    (P : α → View → Prop) (failed : View → Prop) : Prop :=
  Acts view v x.run fun
    | .ok a, v' => P a v'
    | .error _, v' => failed v'

namespace Runs

variable {v : View} {P : α → View → Prop} {Q : β → View → Prop} {failed : View → Prop}

/-- The two ways in which a run ends. -/
theorem ends {x : ExceptT Failure (StateM S) α} (run : Runs view v x P failed) {s : S}
    (same : view s = v) :
    (∃ a, (x.run.run s).1 = .ok a ∧ P a (view (x.run.run s).2)) ∨
      failed (view (x.run.run s).2) := by
  have ended := run s same
  cases result : (x.run.run s).1 with
  | ok a => exact .inl ⟨a, rfl, by rwa [result] at ended⟩
  | error e => exact .inr (by rwa [result] at ended)

theorem pure {a : α} (h : P a v) : Runs view v (Pure.pure a) P failed := Acts.pure h

theorem throw (h : failed v) (failure : Failure) :
    Runs view v (throw failure : ExceptT Failure (StateM S) α) P failed := by
  intro s same
  subst same
  exact h

theorem bind {x : ExceptT Failure (StateM S) α} {f : α → ExceptT Failure (StateM S) β}
    (first : Runs view v x P failed) (next : ∀ a v', P a v' → Runs view v' (f a) Q failed) :
    Runs view v (x >>= f) Q failed := by
  show Acts view v (x.run >>= ExceptT.bindCont f) _
  refine Acts.bind first fun result v' h => ?_
  cases result with
  | ok a => exact next a v' h
  | error e => exact Acts.pure h

theorem lift {x : StateM S α} (h : Acts view v x P) : Runs view v (liftM x) P failed := by
  intro s same
  exact h s same

theorem mono {x : ExceptT Failure (StateM S) α} {P' : α → View → Prop} {failed' : View → Prop}
    (run : Runs view v x P failed) (h : ∀ a v', P a v' → P' a v')
    (h' : ∀ v', failed v' → failed' v') : Runs view v x P' failed' := by
  refine Acts.mono run fun result v' ended => ?_
  cases result with
  | ok a => exact h a v' ended
  | error e => exact h' v' ended

end Runs

/-- A run that gives what there is, and fails if there is nothing or the host has trouble. It
leaves all as it is. -/
def Reads (view : S → View) (v : View) (x : ExceptT Failure (StateM S) α) (o : Option α) : Prop :=
  Runs view v x (fun a v' => v' = v ∧ o = some a) (fun v' => v' = v ∧ (v.troubled ∨ o = none))

namespace Reads

variable {v : View} {o : Option α} {x : ExceptT Failure (StateM S) α}

theorem pure (a : α) : Reads view v (Pure.pure a) (some a) := Runs.pure ⟨rfl, rfl⟩

theorem throw (failure : Failure) :
    Reads view v (throw failure : ExceptT Failure (StateM S) α) none :=
  Runs.throw ⟨rfl, .inr rfl⟩ failure

/-- What is done with what there is decides how the run goes on. -/
theorem andThen {f : α → ExceptT Failure (StateM S) β} {Q : β → View → Prop}
    {failed : View → Prop} (first : Reads view v x o)
    (next : ∀ a, o = some a → Runs view v (f a) Q failed)
    (trouble : v.troubled → failed v) (nothing : o = none → failed v) :
    Runs view v (x >>= f) Q failed := by
  refine Runs.bind (Runs.mono first (fun a v' h => h) fun v' ⟨same, why⟩ => ?_) ?_
  · subst same
    exact why.elim trouble nothing
  · intro a v' ⟨same, there⟩
    subst same
    exact next a there

theorem bind {f : α → ExceptT Failure (StateM S) β} {g : α → Option β} (first : Reads view v x o)
    (next : ∀ a, o = some a → Reads view v (f a) (g a)) : Reads view v (x >>= f) (o.bind g) := by
  cases o with
  | none => exact andThen first nofun (fun h => ⟨rfl, .inl h⟩) fun _ => ⟨rfl, .inr rfl⟩
  | some a =>
    refine andThen first (fun a' there => ?_) (fun h => ⟨rfl, .inl h⟩) nofun
    cases there
    exact next a rfl

/-- What is there is given after all. -/
theorem keep {f : α → ExceptT Failure (StateM S) α} (first : Reads view v x o)
    (next : ∀ a, Reads view v (f a) (some a)) : Reads view v (x >>= f) o := by
  have both := bind first fun a _ => next a
  rwa [Option.bind_fun_some] at both

/-- Quiet actions in front. -/
theorem afterOnce {act : β → StateM S Unit} (quiet : Quiet view act) (b : β)
    (next : Reads view v x o) : Reads view v (liftM (act b) >>= fun _ => x) o := by
  refine Runs.bind (Runs.lift (quiet v b)) fun _ v' same => ?_
  subst same
  exact next

theorem afterEach {act : β → StateM S Unit} (quiet : Quiet view act) (items : List β)
    (next : Reads view v x o) :
    Reads view v ((forIn (m := ExceptT Failure (StateM S)) items PUnit.unit fun b _ => do
      liftM (act b)
      Pure.pure (ForInStep.yield PUnit.unit)) >>= fun _ => x) o := by
  induction items with
  | nil => exact next
  | cons b items ih =>
    simp only [List.forIn_cons, bind_assoc, pure_bind]
    exact afterOnce quiet b ih

end Reads

end Rehoming
