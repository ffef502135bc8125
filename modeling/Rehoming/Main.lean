import Rehoming.Session

/-! The two programs on the machine that this is compiled for. The first argument
names the program. -/

namespace Rehoming

/-- The error number of a failed operation. -/
private def errorNumber : IO.Error → UInt32
  | .noFileOrDirectory _ n _ | .inappropriateType _ n _ | .invalidArgument _ n _
  | .permissionDenied _ n _ | .resourceExhausted _ n _ | .alreadyExists _ n _ => n
  | .resourceBusy n _ | .otherError n _ => n
  | _ => 0

/-- Some numbers come with their sign changed. -/
private def osError (e : IO.Error) : OsError :=
  let n := errorNumber e
  match if n < 0x80000000 then n else 0 - n with
  | 2 => .notFound
  | 16 => .busy
  | 20 => .notDirectory
  | 21 => .isDirectory
  | 36 => .nameTooLong
  | _ => .other (toString e)

private def attempt {α : Type} (act : IO α) : IO (Except OsError α) := do
  match ← act.toBaseIO with
  | .ok a => return .ok a
  | .error e => return .error (osError e)

/-- A file that is being written. -/
private structure OpenFile where
  path : FilePath
  handle : IO.FS.Handle

private def openNew (directory : FilePath) : IO OpenFile := do
  let name := ".tmp" ++ Bytes.toHex (← IO.getRandomBytes 8).toList
  let path := directory.join ⟨name⟩
  return ⟨path, ← IO.FS.Handle.mk ⟨path.text⟩ .writeNew⟩

private def realHost : Host IO OpenFile where
  fileExists path := do
    match ← attempt (IO.FS.Handle.mk ⟨path.text⟩ .read) with
    | .error .notFound | .error .notDirectory | .error .nameTooLong => return false
    | _ => return true
  read path := attempt do return (← IO.FS.readBinFile ⟨path.text⟩).toList
  createTemp directory := attempt (openNew directory)
  append file bytes := attempt (file.handle.write ⟨bytes.toArray⟩)
  sync file := attempt file.handle.flush
  persist file path := attempt (IO.FS.rename ⟨file.path.text⟩ ⟨path.text⟩)
  discard file := do
    let _ ← attempt (IO.FS.removeFile ⟨file.path.text⟩)
  report format event := IO.eprintln (event.line format)
  print text := attempt do (← IO.getStdout).putStr text
  flush := attempt do (← IO.getStdout).flush

/-- The variables that matter to a program. -/
private def environmentOf (program : Program) : IO (List (String × String)) := do
  let names := ["HOME", "RUST_LOG"] ++ program.parameters.filterMap (·.standIn)
  let values ← names.mapM fun name => do
    return (← IO.getEnv name).map fun value => (name, value)
  return values.filterMap id

private def execute (program : Program) (args : List String) : IO UInt32 := do
  let around : Surroundings := ⟨← environmentOf program, ⟨(← IO.currentDir).toString⟩, []⟩
  let entropy : Entropy := ⟨(← IO.getRandomBytes 32).toList⟩
  let ending ← program.run realHost CipherSuite.standard around entropy args
  match ending with
  | .done => pure ()
  | .failed failure => IO.eprintln failure.report
  | .misused reason => IO.eprintln ("error: " ++ reason ++ "\n\n" ++ program.usage)
  return ending.code.toUInt32

end Rehoming

def main (args : List String) : IO UInt32 := do
  match args with
  | [] =>
    IO.eprintln "error: name a program: recodesnaps or recodesnapmap"
    return 2
  | name :: rest =>
    match Rehoming.Program.ofName? name with
    | some program => Rehoming.execute program rest
    | none =>
      IO.eprintln ("error: no such program: " ++ name)
      return 2
