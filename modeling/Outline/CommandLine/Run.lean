import Outline.CommandLine.Arguments
import Outline.Config.Yaml
import Outline.FileTree.Collect
import Outline.Report.Screen
import Outline.Session.Paths
import Outline.Text.Quoted

namespace Outline.CommandLine

/-- What a command leaves behind: its exit code and what it printed. -/
structure Response where
  exit : Nat
  out : String
  err : String
deriving DecidableEq, Repr

namespace Response

/-- All went well. -/
def success (out : String) : Response :=
  ⟨0, out, ""⟩

/-- Nothing was done, for the reason given. -/
def failure (reason : String) : Response :=
  ⟨2, "", "Error: " ++ reason ++ "\n"⟩

end Response

/-- Loads the settings at a path. -/
def loadSettings (disk : Disk) (path : Text) : Except String Config :=
  let refused (reason : String) : Except String Config :=
    .error ("cannot load config " ++ String.ofList path ++ ": " ++ reason)
  match disk.read path with
  | .error fault => refused fault.message
  | .ok bytes =>
    match Utf8.decode bytes with
    | .error _ => refused PathFault.notText.message
    | .ok content =>
      match Config.load content with
      | .error fault => refused fault.message
      | .ok config => .ok config

/-- Settings with what the request sets itself. -/
def ScanRequest.adjust (request : ScanRequest) (config : Config) : Config :=
  { config with
    workers := request.workers.getD config.workers
    extractImports := config.extractImports && !request.withoutImports
    showProgress := config.showProgress || request.showProgress }

/-- The files that a path stands for: itself, or what a directory holds. -/
def filesAt (disk : Disk) (config : Config) (path : Text) : Except String (List Text) :=
  let refused (fault : PathFault) : Except String (List Text) :=
    .error ("cannot access path " ++ String.ofList (Text.quote path) ++ ": " ++ fault.message)
  match disk path with
  | .error fault => refused fault
  | .ok (.file _) => .ok [path]
  | .ok (.directory _) =>
    match collect disk config path with
    | .error fault => refused fault
    | .ok paths => .ok paths

/-- The directory that shown paths are relative to: the only path of the request, if it is one. -/
def baseOf (disk : Disk) : List Text → Text
  | [path] =>
    match disk path with
    | .ok (.directory _) => path
    | _ => []
  | _ => []

/-- Scans files under usable settings and reports them. -/
def reportOn (disk : Disk) (palette : Palette) (request : ScanRequest) (session : Session)
    (files : List Text) : Response :=
  let outcomes := (session.scanPaths disk .empty files).1
  let batch := (Batch.ofOutcomes outcomes).sortByPath
  let base := String.ofList (baseOf disk request.paths)
  let out :=
    if request.format = "json".toList then (Report.ofBatch base batch).text
    else Screen.text palette base batch
  ⟨if batch.faults.isEmpty then 0 else 1, out, ""⟩

/-- Runs a scan. -/
def runScan (disk : Disk) (palette : Palette) (settings : Option Text) (request : ScanRequest) :
    Response :=
  if request.format ≠ "pretty".toList ∧ request.format ≠ "json".toList then
    .failure ("invalid format " ++ String.ofList (Text.quote request.format) ++
      ", must be 'pretty' or 'json'")
  else
    match (settings.map (loadSettings disk)).getD (.ok {}) with
    | .error reason => .failure reason
    | .ok loaded =>
      let config := request.adjust loaded
      match request.paths.mapM (filesAt disk config) with
      | .error reason => .failure reason
      | .ok found =>
        if found.flatten.isEmpty then ⟨0, "", "Warning: no files to scan\n"⟩
        else
          match Session.start config (.full config) with
          | .error fault => .failure fault.message
          | .ok session => reportOn disk palette request session found.flatten

/-- The line of a language in the list of languages. -/
def languageLine (language : Language) : String :=
  "  " ++ Screen.padded 12 language.tag ++ " " ++ Screen.joined ", " language.extensions ++ "\n"

/-- The list of languages with their extensions. -/
def languageList : String :=
  "Supported languages:\n\n" ++ String.join (Language.all.map languageLine)

/-- Runs a command. -/
def run (disk : Disk) (palette : Palette) (invocation : Invocation) : Response :=
  match invocation.command with
  | .scan request => runScan disk palette invocation.settings request
  | .languages => .success languageList

end Outline.CommandLine
