import MetadataClient.CommandLine.Task

/-! The command over the files of the system. -/
namespace MetadataClient.CommandLine

def causeOf (failure : IO.Error) : FileError :=
  match failure with
  | .noFileOrDirectory .. => .notFound
  | .alreadyExists .. => .alreadyExists
  | .inappropriateType _ 21 _ => .isDirectory
  | .inappropriateType .. => .notDirectory
  | other => .described (toString other)

def answerOf {α : Type} (action : IO α) : IO (Except FileError α) :=
  try return .ok (← action)
  catch failure => return .error (causeOf failure)

def saveFile (path text : String) : IO Unit := do
  IO.FS.createDirAll ("/".intercalate (path.splitOn "/").dropLast)
  IO.FS.writeFile path text

def perform : Task → IO Outcome
  | .finished outcome => return outcome
  | .read path finish => return finish (← answerOf (IO.FS.readFile path))
  | .save path text finish => return finish (← answerOf (saveFile path text))

def userDirectory : IO (Option String) := do
  match ← IO.getEnv "XDG_CONFIG_HOME", ← IO.getEnv "HOME" with
  | some directory, home =>
    if directory.startsWith "/" then return some directory
    else return home.map (· ++ "/.config")
  | none, home => return home.map (· ++ "/.config")

end MetadataClient.CommandLine

def main (arguments : List String) : IO UInt32 := do
  let directory ← MetadataClient.CommandLine.userDirectory
  let task := MetadataClient.CommandLine.Task.ofArguments directory arguments
  let outcome ← MetadataClient.CommandLine.perform task
  IO.print outcome.printed
  outcome.failure.forM IO.eprintln
  return .ofNat outcome.status
