import Outline.FileOutline.Basic
import Outline.Error

namespace Outline

/-- The outlines and faults of a number of files. -/
structure Batch where
  files : List FileOutline
  faults : List Fault

namespace Batch

/-- The path by which a fault is sorted; a fault of no file comes first. -/
def pathOf (fault : Fault) : String :=
  fault.path?.getD ""

/-- Outlines and faults, each in the order of the outcomes. -/
def ofOutcomes : List (Except Fault FileOutline) → Batch
  | [] => ⟨[], []⟩
  | .ok file :: rest =>
    let batch := ofOutcomes rest
    ⟨file :: batch.files, batch.faults⟩
  | .error fault :: rest =>
    let batch := ofOutcomes rest
    ⟨batch.files, fault :: batch.faults⟩

/-- Outlines and faults by path; those of one path keep their order. -/
def sortByPath (batch : Batch) : Batch where
  files := batch.files.mergeSort fun a b => decide (a.path ≤ b.path)
  faults := batch.faults.mergeSort fun a b => decide (pathOf a ≤ pathOf b)

/-- How many files there were. -/
def total (batch : Batch) : Nat :=
  batch.files.length + batch.faults.length

/-- How many declarations were found, nested ones included. -/
def totalDeclarations (batch : Batch) : Nat :=
  batch.files.foldr (fun file count => file.total + count) 0

/-- Whether a ceiling was hit in some file. -/
def hasWarnings (batch : Batch) : Bool :=
  batch.files.any fun file => !file.warnings.isEmpty

end Batch

end Outline
