import DiffScope.Command.Run

/-!
# Running the program

Fetches what a run may look at, runs the program on it and prints what is left of the run.
-/

open DiffScope DiffScope.Command DiffScope.Config DiffScope.Project

/-- What the file system has under a path. -/
def itemAt (path : Path) : IO (Except ReadError Item) := do
  try
    let bytes ← IO.FS.readBinFile (String.ofList path)
    return .ok (.file bytes.toList)
  catch
    | .inappropriateType _ code _ =>
      return if code = 21 then .ok .directory else .error .notDirectory
    | _ => return .error .notFound

/-- The files under some paths. -/
def filesAt (paths : List Path) : IO Files := do
  let found ← paths.mapM fun path => do return (path, ← itemAt path)
  return ⟨fun path =>
    match found.find? fun f => f.1 = path with
    | some f => f.2
    | none => .error .notFound⟩

/-- The variables that the program looks at. -/
def environment : IO Environment := do
  let names := ["XDG_CONFIG_HOME", "HOME", "DIFF_CONTEXT_CONFIG"]
    ++ Setting.all.map Config.Setting.environmentName
  names.filterMapM fun name => do return (← IO.getEnv name).map (name, ·)

/-- All of a stream, behind what was read. -/
partial def readAll (stream : IO.FS.Stream) (bytes : ByteArray) : IO ByteArray := do
  let more ← stream.read 65536
  if more.isEmpty then return bytes else readAll stream (bytes ++ more)

def main (args : List String) : IO UInt32 := do
  let env ← environment
  let paths := pathsOf env args
  let stdin ← if paths.contains ['-'] then readAll (← IO.getStdin) .empty else pure .empty
  let files ← filesAt (paths.filter (· ≠ ['-']))
  -- The work is done at once, so that no stage is late.
  let outcome := run ⟨env, stdin.toList, files, .builtIn, fun _ _ => .ends 0⟩ args
  IO.print outcome.stdout
  IO.eprint outcome.stderr
  return outcome.code.toUInt32
