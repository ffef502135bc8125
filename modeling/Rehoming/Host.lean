import Rehoming.Failure
import Rehoming.FilePath
import Rehoming.Logging
import Rehoming.Bytes

/-! What a run asks of the machine that it runs on. A run is written for any such
machine: a real one, or a model of one. -/

namespace Rehoming

/-- Operations on files, and two ways to speak. A temporary file has no content at
first and must be either moved to its place or discarded; it stays if that cannot be
done. -/
structure Host (m : Type → Type) (Temp : Type) where
  fileExists : FilePath → m Bool
  read : FilePath → m (Except OsError Bytes)
  createTemp : (directory : FilePath) → m (Except OsError Temp)
  /-- Adds bytes to a temporary file. -/
  append : Temp → Bytes → m (Except OsError Unit)
  /-- Returns when what was written will survive a crash. -/
  sync : Temp → m (Except OsError Unit)
  /-- Moves a temporary file to its place, over a file that is there. -/
  persist : Temp → FilePath → m (Except OsError Unit)
  discard : Temp → m Unit
  report : LogFormat → Event → m Unit
  print : String → m (Except OsError Unit)
  /-- Returns when nothing that was printed is held back. -/
  flush : m (Except OsError Unit)

end Rehoming
