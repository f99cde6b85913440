import Outline.Batch
import Outline.FileOutline.Codec
import Outline.Json.Printer
import Outline.Path

namespace Outline

/-- A file that could not be outlined, as the report tells it. The path is empty for a fault of no
file. -/
structure ReportedFault where
  kind : String
  file : String
  message : String
deriving DecidableEq, Repr

/-- The report of a batch. -/
structure Report where
  version : String
  /-- The directory that was scanned. -/
  base : String
  filesScanned : Nat
  declarations : Nat
  files : List FileOutline
  faults : List ReportedFault

namespace Report

/-- The name of the program. -/
def programName : String := "declscan"

/-- The version of the program. -/
def programVersion : String := "0.1.0"

/-- A path as it is shown: relative to the base, with `/` between its parts. The base itself is shown
by its name, and a path that is not below the base as it is. -/
def shownPath (base path : Text) : Text :=
  let shown :=
    if Path.components path = Path.components base then Path.fileName? path
    else Path.relative? base path
  match shown with
  | none | some [] => path
  | some text => text.map fun c => if c = '\\' then '/' else c

/-- The shown path as a string. -/
def shown (base path : String) : String :=
  String.ofList (shownPath base.toList path.toList)

/-- A fault as the report tells it. -/
def ofFault (base : String) (fault : Fault) : ReportedFault :=
  ⟨fault.tag, (fault.path?.map (shown base)).getD "", fault.message⟩

/-- The report of a batch that was scanned below `base`. -/
def ofBatch (base : String) (batch : Batch) : Report where
  version := programVersion
  base := base
  filesScanned := batch.total
  declarations := batch.totalDeclarations
  files := batch.files.map fun file => { file with path := shown base file.path }
  faults := batch.faults.map (ofFault base)

end Report

namespace ReportedFault

/-- A fault as an object; an empty path is left out. -/
def toJson (fault : ReportedFault) : Json :=
  .obj ([("kind", .str fault.kind)] ++ Json.fieldUnless (fault.file == "") "file" (.str fault.file) ++
    [("message", .str fault.message)])

/-- Reads a fault; a missing path is empty. -/
def ofJson? (value : Json) : Option ReportedFault := do
  let kind ← value.required? "kind" Json.str?
  let file ← value.optional? "file" "" Json.str?
  let message ← value.required? "message" Json.str?
  return ⟨kind, file, message⟩

end ReportedFault

namespace Report

/-- A report as an object; faults are left out when there are none. -/
def toJson (report : Report) : Json :=
  .obj ([("version", .str report.version), ("path", .str report.base),
    ("files_scanned", .nat report.filesScanned), ("declarations", .nat report.declarations),
    ("files", .arr (report.files.map FileOutline.toJson))] ++
    Json.fieldUnless report.faults.isEmpty "errors" (.arr (report.faults.map ReportedFault.toJson)))

/-- Reads a report from a document, which a reader of texts admits up to a depth only. -/
def ofJson? (value : Json) : Option Report := do
  let version ← value.required? "version" Json.str?
  let base ← value.required? "path" Json.str?
  let filesScanned ← value.required? "files_scanned" Json.word?
  let declarations ← value.required? "declarations" Json.word?
  let files ← value.required? "files" (Json.list? FileOutline.ofJson?)
  let faults ← value.optional? "errors" [] (Json.list? ReportedFault.ofJson?)
  return ⟨version, base, filesScanned, declarations, files, faults⟩

/-- The report as text, with a line end. -/
def text (report : Report) : String :=
  report.toJson.pretty ++ "\n"

end Report

end Outline
