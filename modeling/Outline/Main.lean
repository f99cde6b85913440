import Outline.CommandLine.Run

namespace Outline

/-- How the program is called. -/
def usage : String :=
  "Usage: " ++ Report.programName ++ " [-v] [-c CONFIG] scan [-f FORMAT] [-w WORKERS] " ++
    "[--no-imports] [--progress] PATHS...\n       " ++ Report.programName ++ " languages\n"

/-- The reason for which a path could not be read. -/
def PathFault.ofError : IO.Error → PathFault
  | .inappropriateType .. => .notDirectory
  | .permissionDenied .. => .denied
  | _ => .missing

/-- Reads a file, or a directory with all that is in it. -/
partial def loadTree (path : String) : IO FileTree := do
  let place := (⟨path, ""⟩ : IO.FS.DirEntry).root
  if ← place.isDir then
    let entries ← place.readDir
    let nodes ← entries.toList.mapM fun entry => do
      let child := String.ofList (Path.join path.toList entry.fileName.toList)
      try
        return [(entry.fileName.toList, ← loadTree child)]
      catch _ => return []
    return .directory nodes.flatten
  else
    return .file (← IO.FS.readBinFile path).toList

/-- What a path leads to. -/
def lookPath (path : Text) : IO (Except PathFault FileTree) := do
  try
    return .ok (← loadTree (String.ofList path))
  catch fault => return .error (PathFault.ofError fault)

mutual

/-- The nodes at and below a node that has the given path, each with its own path. -/
def FileTree.nodes (path : Text) : FileTree → List (Text × FileTree)
  | .file bytes => [(path, .file bytes)]
  | .directory entries => (path, .directory entries) :: FileTree.nodesBelow path entries

/-- The nodes at and below the entries of a directory that has the given path. -/
def FileTree.nodesBelow (path : Text) : List (Text × FileTree) → List (Text × FileTree)
  | [] => []
  | (name, node) :: rest => FileTree.nodes (Path.join path name) node ++ FileTree.nodesBelow path rest

end

/-- A picture of what some paths, and the paths below them, lead to. -/
def takePicture (paths : List Text) : IO Disk := do
  let found ← paths.mapM fun path => do
    match ← lookPath path with
    | .error fault => return [(path, Except.error fault)]
    | .ok node => return (node.nodes path).map fun entry => (entry.1, Except.ok entry.2)
  let entries := found.flatten
  return fun path => (entries.lookup path).getD (.error .missing)

/-- The paths that a command looks at. -/
def CommandLine.Invocation.paths (invocation : CommandLine.Invocation) : List Text :=
  invocation.settings.toList ++
    match invocation.command with
    | .scan request => request.paths
    | .languages => []

end Outline

open Outline in
/-- Runs the command that the arguments give. -/
def main (arguments : List String) : IO UInt32 := do
  match CommandLine.read (arguments.map String.toList) with
  | .error .inquiry => IO.print usage; return 0
  | .error .misuse => IO.eprint usage; return 2
  | .ok invocation =>
    let disk ← takePicture invocation.paths
    let palette : Palette := if ← (← IO.getStdout).isTty then .coloured else .plain
    let response := CommandLine.run disk palette invocation
    IO.print response.out
    IO.eprint response.err
    return response.exit.toUInt32
