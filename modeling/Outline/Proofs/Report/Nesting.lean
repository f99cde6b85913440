import Outline.Proofs.Declaration.Levels
import Outline.Proofs.Json.Reading
import Outline.Report.Basic

namespace Outline

namespace Json

@[simp]
theorem nesting_str (text : String) : (Json.str text).nesting = 0 := by
  rw [nesting]

@[simp]
theorem nesting_nat (n : Nat) : (Json.nat n).nesting = 0 := by
  rw [nat, nesting]

@[simp]
theorem nesting_arr (items : List Json) : (Json.arr items).nesting = nestingItems items + 1 := by
  rw [nesting]

@[simp]
theorem nesting_obj (fields : List (String × Json)) : (Json.obj fields).nesting = nestingFields fields + 1 := by
  rw [nesting]

@[simp]
theorem nestingFields_nil : nestingFields [] = 0 := by
  rw [nestingFields]

@[simp]
theorem nestingFields_cons (entry : String × Json) (fields : List (String × Json)) :
    nestingFields (entry :: fields) = max entry.2.nesting (nestingFields fields) := by
  rw [nestingFields]

@[simp]
theorem nestingFields_append (first second : List (String × Json)) :
    nestingFields (first ++ second) = max (nestingFields first) (nestingFields second) := by
  induction first with
  | nil => simp
  | cons entry fields ih => simp [ih, Nat.max_assoc]

@[simp]
theorem nestingFields_fieldUnless (omitted : Bool) (name : String) (value : Json) :
    nestingFields (fieldUnless omitted name value) = if omitted then 0 else value.nesting := by
  cases omitted <;> simp [fieldUnless]

@[simp]
theorem nesting_strs (words : List String) : (Json.strs words).nesting = 1 := by
  have hwords : nestingItems (words.map .str) ≤ 0 := by
    refine nestingItems_le_iff.2 fun item hitem => ?_
    obtain ⟨word, _, rfl⟩ := List.mem_map.1 hitem
    rw [nesting_str]
  rw [strs, nesting_arr]
  omega

end Json

namespace Declaration

/-- What a declaration nests besides its children is a list of modifiers. -/
theorem nestingFields_fields_le (entry : Entry) : Json.nestingFields entry.fields ≤ 1 := by
  have hmodifiers : (if entry.modifiers.words.isEmpty then 0 else 1) ≤ 1 := by
    split <;> decide
  cases hdocstring : entry.docstring <;> simpa [Entry.fields, hdocstring] using hmodifiers

/-- A level of declarations nests an object and a list; the last list may be missing. -/
theorem nestingItems_toJsonAll (declarations : List Declaration) :
    Json.nestingItems (toJsonAll declarations) ≤ 2 * depthAll declarations ∧
      2 * depthAll declarations ≤ Json.nestingItems (toJsonAll declarations) + 1 := by
  induction declarations using list_induction with
  | nil => simp [toJsonAll, depthAll, Json.nestingItems]
  | cons d rest ihchildren ihrest =>
    obtain ⟨entry, children⟩ := d
    have hfields := nestingFields_fields_le entry
    have hdepth : depthAll (⟨entry, children⟩ :: rest) = max (depthAll children + 1) (depthAll rest) :=
      depthAll_cons _ _
    have hitems : Json.nestingItems (toJsonAll (⟨entry, children⟩ :: rest)) =
        max (max (Json.nestingFields entry.fields)
          (if children.isEmpty then 0 else Json.nestingItems (toJsonAll children) + 1) + 1)
          (Json.nestingItems (toJsonAll rest)) := by
      rw [toJsonAll, Json.nestingItems, toJson, Json.nesting_obj, Json.nestingFields_append,
        Json.nestingFields_fieldUnless, Json.nesting_arr]
    have hinside : Json.nestingItems (toJsonAll children) ≤ 2 * depthAll children ∧
        2 * depthAll children ≤ Json.nestingItems (toJsonAll children) + 1 := ihchildren
    rw [hdepth, hitems]
    cases children with
    | nil =>
      rw [List.isEmpty_nil, if_pos rfl]
      rw [depthAll] at hinside ⊢
      omega
    | cons child children =>
      rw [List.isEmpty_cons, if_neg Bool.false_ne_true]
      omega

end Declaration

/-- An outline nests its declarations in an object and a list. -/
theorem FileOutline.nesting_toJson (file : FileOutline) :
    file.toJson.nesting = Json.nestingItems (Declaration.toJsonAll file.declarations) + 2 := by
  have hwords : ∀ omitted : Bool, (if omitted then 0 else 1) ≤ 1 := by decide
  have himports := hwords file.imports.isEmpty
  have hwarnings := hwords file.warnings.isEmpty
  have herror : Json.nestingFields (file.error.map fun message => ("error", Json.str message)).toList = 0 := by
    cases file.error <;> simp
  simp only [toJson, Json.nesting_obj, Json.nestingFields_append, Json.nestingFields_cons,
    Json.nestingFields_nil, Json.nestingFields_fieldUnless, Json.nesting_str, Json.nesting_arr,
    Json.nesting_strs, herror]
  omega

namespace Report

variable {report : Report}

theorem nestingItems_faults_le (faults : List ReportedFault) :
    Json.nestingItems (faults.map ReportedFault.toJson) ≤ 1 := by
  refine Json.nestingItems_le_iff.2 fun item hitem => ?_
  obtain ⟨fault, _, rfl⟩ := List.mem_map.1 hitem
  simp [ReportedFault.toJson]

theorem nesting_toJson (report : Report) : report.toJson.nesting =
    max (Json.nestingItems (report.files.map FileOutline.toJson) + 1)
      (if report.faults.isEmpty then 0
        else Json.nestingItems (report.faults.map ReportedFault.toJson) + 1) + 1 := by
  simp [toJson]

/-- A report nests at most four deeper than twice the depth of its outlines. -/
theorem nesting_toJson_le {depth : Nat} (hdepth : ∀ file ∈ report.files, file.depth ≤ depth) :
    report.toJson.nesting ≤ 2 * depth + 4 := by
  have hfiles : Json.nestingItems (report.files.map FileOutline.toJson) ≤ 2 * depth + 2 := by
    refine Json.nestingItems_le_iff.2 fun item hitem => ?_
    obtain ⟨file, hfile, rfl⟩ := List.mem_map.1 hitem
    have hitems := (Declaration.nestingItems_toJsonAll file.declarations).1
    have hbound : Declaration.depthAll file.declarations ≤ depth := hdepth file hfile
    rw [FileOutline.nesting_toJson]
    omega
  have hfaults := nestingItems_faults_le report.faults
  rw [nesting_toJson]
  split <;> omega

/-- It nests at least three deeper than that for every outline. -/
theorem le_nesting_toJson {file : FileOutline} (hfile : file ∈ report.files) :
    2 * file.depth + 3 ≤ report.toJson.nesting := by
  have hitems := (Declaration.nestingItems_toJsonAll file.declarations).2
  have hdepth : file.depth = Declaration.depthAll file.declarations := rfl
  have hmember : file.toJson.nesting ≤ Json.nestingItems (report.files.map FileOutline.toJson) :=
    Json.nestingItems_le_iff.1 (Nat.le_refl _) _ (List.mem_map_of_mem hfile)
  rw [FileOutline.nesting_toJson] at hmember
  rw [nesting_toJson]
  omega

end Report

end Outline
