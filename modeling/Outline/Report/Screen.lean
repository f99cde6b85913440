import Outline.Report.Basic
import Outline.Report.Paint

namespace Outline.Screen

/-- A word filled up with spaces to a width. -/
def padded (width : Nat) (word : String) : String :=
  word ++ String.ofList (Text.spaces (width - word.length))

/-- Words with a separator between them. -/
def joined (separator : String) (words : List String) : String :=
  String.ofList (Text.join separator.toList (words.map String.toList))

/-- The tone of a kind of declaration. -/
def toneOf (kind : Kind) : Tone :=
  if kind.isCallable then .green else if kind.isContainer then .cyan else .yellow

/-- A declaration on one line: indentation, kind, name, lines and modifiers. -/
def declarationLine (palette : Palette) (depth : Nat) (d : Declaration) : String :=
  String.ofList (Text.spaces (2 * depth)) ++
    palette.paint (toneOf d.kind) (padded 10 d.kind.tag) ++ " " ++
    palette.paint .bold d.name ++ " " ++
    palette.paint .dimmed (toString d.startLine ++ "-" ++ toString d.endLine) ++
    (if d.modifiers.words.isEmpty then ""
      else " " ++ palette.paint .dimmed ("[" ++ joined " " d.modifiers.words ++ "]"))

mutual

/-- The lines of a declaration and of what is inside it. -/
def declarationLines (palette : Palette) (depth : Nat) : Declaration → List String
  | ⟨entry, children⟩ =>
    declarationLine palette depth ⟨entry, children⟩ :: declarationListLines palette (depth + 1) children

/-- The lines of declarations one after the other. -/
def declarationListLines (palette : Palette) (depth : Nat) : List Declaration → List String
  | [] => []
  | d :: rest => declarationLines palette depth d ++ declarationListLines palette depth rest

end

/-- The lines of a file. -/
def fileLines (palette : Palette) (base : String) (file : FileOutline) : List String :=
  ("  " ++ palette.paint .boldBlue (Report.shown base file.path) ++ " " ++
    palette.paint .dimmed ("(" ++ file.language.tag ++ ")")) ::
  (declarationListLines palette 2 file.declarations ++
    (if file.imports.isEmpty then []
      else ["    " ++ palette.paint .dimmed "imports:" ++ " " ++ joined ", " file.imports]) ++
    file.warnings.map fun warning => "    " ++ palette.paint .yellow "WARN" ++ " " ++ warning)

/-- The lines of the faults, if there are any. -/
def faultLines (palette : Palette) (faults : List Fault) : List String :=
  if faults.isEmpty then []
  else
    ("  " ++ palette.paint .bold "Errors" ++ " (" ++ toString faults.length ++ "):") ::
    (faults.map fun fault =>
      "    " ++ palette.paint .red (padded 24 fault.tag) ++ " " ++ fault.message) ++ [""]

/-- The line that sums up a batch. -/
def summaryLine (palette : Palette) (batch : Batch) : String :=
  "  " ++
    (if batch.faults.isEmpty then palette.paint .green "✓ OK" else palette.paint .red "✗ ERRORS") ++
    "  Files: " ++ toString batch.files.length ++ "  Declarations: " ++
    toString batch.totalDeclarations ++
    (if batch.faults.isEmpty then ""
      else "  " ++ palette.paint .red ("(" ++ toString batch.faults.length ++ " failed)"))

/-- The lines of the whole report. -/
def lines (palette : Palette) (base : String) (batch : Batch) : List String :=
  ["", "  " ++ palette.paint .boldCyan Report.programName ++ " v" ++ Report.programVersion, "",
    "  " ++ palette.paint .dimmed "Scanning: " ++ base, ""] ++
  batch.files.flatMap (fun file => fileLines palette base file ++ [""]) ++
  faultLines palette batch.faults ++ [summaryLine palette batch, ""]

/-- The whole report as text. -/
def text (palette : Palette) (base : String) (batch : Batch) : String :=
  String.join ((lines palette base batch).map fun line => line ++ "\n")

end Outline.Screen
