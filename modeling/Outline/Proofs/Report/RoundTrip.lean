import Outline.Proofs.Declaration.RoundTrip
import Outline.Proofs.Report.Nesting
import Outline.Report.Basic

namespace Outline

theorem Language.ofJson?_tag (language : Language) : Language.ofJson? (.str language.tag) = some language := by
  cases language <;> rfl

namespace FileOutline

/-- The outline without the text of the file. -/
def withoutContent (file : FileOutline) : FileOutline :=
  { file with content := [] }

/-- An outline is read back from its document, apart from the text of the file. -/
theorem ofJson?_toJson {file : FileOutline} (hsized : Declaration.WordSized file.declarations) :
    ofJson? file.toJson = some file.withoutContent := by
  have hpath : file.toJson.required? "file_path" Json.str? = some file.path := rfl
  have hlanguage : file.toJson.required? "language" Language.ofJson? = some file.language :=
    Language.ofJson?_tag file.language
  have hdeclarations : file.toJson.required? "declarations" Declaration.ofItems? = some file.declarations := by
    change Declaration.ofItems? (.arr (Declaration.toJsonAll file.declarations)) = _
    rw [Declaration.ofItems?, Declaration.ofList?_toJsonAll hsized]
  have hfoundImports : file.toJson.field? "imports" =
      if file.imports.isEmpty then none else some (.strs file.imports) := by
    simp [toJson, List.lookup_append, List.lookup_cons]
  have himports : file.toJson.optional? "imports" [] (Json.list? Json.str?) = some file.imports :=
    Json.optional?_list hfoundImports (Json.list?_strs _)
  have herror : file.toJson.field? "error" = file.error.map .str := by
    simp [toJson, List.lookup_append, List.lookup_cons]
  have hfoundWarnings : file.toJson.field? "warnings" =
      if file.warnings.isEmpty then none else some (.strs file.warnings) := by
    simp [toJson, List.lookup_append, List.lookup_cons]
  have hwarnings : file.toJson.optional? "warnings" [] (Json.list? Json.str?) = some file.warnings :=
    Json.optional?_list hfoundWarnings (Json.list?_strs _)
  have hnamed : file.toJson.named fieldNames = file.toJson := rfl
  simp [ofJson?, hnamed, hpath, hlanguage, hdeclarations, himports, Json.optional?_nullable_str herror, hwarnings,
    withoutContent]

end FileOutline

/-- A fault is read back from its document. -/
theorem ReportedFault.ofJson?_toJson (fault : ReportedFault) : ofJson? fault.toJson = some fault := by
  have hkind : fault.toJson.required? "kind" Json.str? = some fault.kind := rfl
  have hfound : fault.toJson.field? "file" = if fault.file == "" then none else some (.str fault.file) := by
    simp [toJson, List.lookup_append, List.lookup_cons]
  have hfile : fault.toJson.optional? "file" "" Json.str? = some fault.file :=
    Json.optional?_of_omitted hfound (fun hempty => (eq_of_beq hempty).symm) rfl
  have hmessage : fault.toJson.required? "message" Json.str? = some fault.message := by
    simp [Json.required?, toJson, List.lookup_append, List.lookup_cons, Json.str?]
  simp [ofJson?, hkind, hfile, hmessage]

namespace Report

/-- The report without the texts of the files. -/
def withoutContents (report : Report) : Report :=
  { report with files := report.files.map FileOutline.withoutContent }

/-- The numbers of the report fit 64 bits. -/
structure WordSized (report : Report) : Prop where
  filesScanned_lt : report.filesScanned < UInt64.size
  declarations_lt : report.declarations < UInt64.size
  files : ∀ file ∈ report.files, Declaration.WordSized file.declarations

/-- A report is read back from its document, apart from the texts of the files. -/
theorem ofJson?_toJson {report : Report} (hsized : report.WordSized) :
    ofJson? report.toJson = some report.withoutContents := by
  have hversion : report.toJson.required? "version" Json.str? = some report.version := rfl
  have hbase : report.toJson.required? "path" Json.str? = some report.base := rfl
  have hscanned : report.toJson.required? "files_scanned" Json.word? = some report.filesScanned :=
    Json.word?_nat hsized.filesScanned_lt
  have hcount : report.toJson.required? "declarations" Json.word? = some report.declarations :=
    Json.word?_nat hsized.declarations_lt
  have hfiles : report.toJson.required? "files" (Json.list? FileOutline.ofJson?) =
      some (report.files.map FileOutline.withoutContent) :=
    Json.list?_arr_map fun file hfile => FileOutline.ofJson?_toJson (hsized.files file hfile)
  have hfound : report.toJson.field? "errors" =
      if report.faults.isEmpty then none else some (.arr (report.faults.map ReportedFault.toJson)) := by
    simp [toJson, List.lookup_cons]
  have hfaults : report.toJson.optional? "errors" [] (Json.list? ReportedFault.ofJson?) = some report.faults :=
    Json.optional?_list hfound (Json.list?_arr_map_self fun fault _ => fault.ofJson?_toJson)
  simp [ofJson?, hversion, hbase, hscanned, hcount, hfiles, hfaults, withoutContents]

end Report

/-- The counts and line numbers of the batch fit 64 bits. -/
structure Batch.WordSized (batch : Batch) : Prop where
  total_lt : batch.total < UInt64.size
  totalDeclarations_lt : batch.totalDeclarations < UInt64.size
  files : ∀ file ∈ batch.files, Declaration.WordSized file.declarations

namespace Report

theorem wordSized_ofBatch {batch : Batch} (hsized : batch.WordSized) (base : String) :
    (ofBatch base batch).WordSized where
  filesScanned_lt := hsized.total_lt
  declarations_lt := hsized.totalDeclarations_lt
  files := by
    intro file hfile
    obtain ⟨original, horiginal, rfl⟩ := List.mem_map.1 hfile
    exact hsized.files original horiginal

/-- Reads a report from the text of a document. -/
def read? (t : String) : Option Report :=
  (Json.read? t.toList).bind ofJson?

/-- A printed report is read back, apart from the texts of the files, if and only if its document nests no
deeper than the reader admits. -/
theorem read?_text {report : Report} (hsized : report.WordSized) :
    read? report.text =
      if report.toJson.nesting ≤ Json.nestingLimit then some report.withoutContents else none := by
  have hprinted : report.text.toList = Json.render 0 report.toJson ++ ['\n'] := by
    rw [text, Json.pretty, String.toList_append, String.toList_ofList]
    rfl
  rw [read?, hprinted, Json.read?_render report.toJson rfl]
  split
  · exact ofJson?_toJson hsized
  · rfl

/-- The report of a batch is read back from its document, apart from the texts of the files, and every
declaration from its own. Nothing is assumed but that the counts and line numbers are words. From print a
report is read back as long as its document nests 127 deep at most, which outlines of depth 61 never exceed
and outlines of depth 63 always do. -/
theorem ofBatch_roundTrip (base : String) {batch : Batch} (hsized : batch.WordSized) :
    ofJson? (ofBatch base batch).toJson = some (ofBatch base batch).withoutContents ∧
      (∀ d : Declaration, Declaration.WordSized [d] → Declaration.ofJson? d.toJson = some d) ∧
      read? (ofBatch base batch).text =
        (if (ofBatch base batch).toJson.nesting ≤ 127 then some (ofBatch base batch).withoutContents else none) ∧
      ((∀ file ∈ batch.files, file.depth ≤ 61) →
        read? (ofBatch base batch).text = some (ofBatch base batch).withoutContents) ∧
      ((∃ file ∈ batch.files, 63 ≤ file.depth) → read? (ofBatch base batch).text = none) := by
  have hword := wordSized_ofBatch hsized base
  have hread := read?_text hword
  rw [Json.nestingLimit] at hread
  refine ⟨ofJson?_toJson hword, fun d => Declaration.ofJson?_toJson, hread, fun hshallow => ?_, ?_⟩
  · have hdepth : ∀ file ∈ (ofBatch base batch).files, file.depth ≤ 61 := by
      intro file hfile
      obtain ⟨original, horiginal, rfl⟩ := List.mem_map.1 hfile
      exact hshallow original horiginal
    have hnesting := nesting_toJson_le hdepth
    rw [hread, if_pos (by omega)]
  · rintro ⟨file, hfile, hdeep⟩
    have hmember : { file with path := shown base file.path } ∈ (ofBatch base batch).files :=
      List.mem_map_of_mem hfile
    have hnesting := le_nesting_toJson hmember
    change 2 * file.depth + 3 ≤ _ at hnesting
    rw [hread, if_neg (by omega)]

/-- A class whose documentation is empty and whose modifiers are an empty and a foreign word, with a
method that has neither. -/
def sampleDeclaration : Declaration :=
  ⟨⟨.classType, "Größe\t\"x\"", 1, 4, .ofList ["é", "", "é"], some ""⟩,
    [⟨⟨.method, "", 2, 3, .empty, none⟩, []⟩]⟩

/-- One outlined file, a file that was not read, and a fault of no file. -/
def sampleBatch : Batch :=
  ⟨[⟨"src/a.py", .python, "class".toList, [sampleDeclaration], [], none, ["\x07"]⟩],
    [.undecodable "src/b.py" 7, .badConfig "workers"]⟩

theorem wordSized_sampleDeclaration : Declaration.WordSized [sampleDeclaration] := by
  have hnil := Declaration.wordSized_nil
  have hmethod : Declaration.WordSized sampleDeclaration.children :=
    Declaration.wordSized_cons_iff.2 ⟨⟨by decide, by decide⟩, hnil, hnil⟩
  exact Declaration.wordSized_cons_iff.2 ⟨⟨by decide, by decide⟩, hmethod, hnil⟩

theorem wordSized_sampleBatch : sampleBatch.WordSized where
  total_lt := by decide
  totalDeclarations_lt := by decide
  files := by simpa [sampleBatch] using wordSized_sampleDeclaration

/-- The report of these files is read back from its document and from print. -/
theorem ofBatch_roundTrip_sampleBatch :
    sampleBatch.WordSized ∧ Declaration.WordSized [sampleDeclaration] ∧
      ∃ report, ofJson? (ofBatch "src" sampleBatch).toJson = some report ∧
        read? (ofBatch "src" sampleBatch).text = some report ∧
        report.files.map FileOutline.content = [[]] ∧
        report.files.map FileOutline.declarations = [[sampleDeclaration]] ∧
        report.faults.map ReportedFault.file = ["b.py", ""] ∧
        Declaration.ofJson? sampleDeclaration.toJson = some sampleDeclaration := by
  obtain ⟨hreport, hdeclaration, -, hprinted, -⟩ := ofBatch_roundTrip "src" wordSized_sampleBatch
  have hshallow : ∀ file ∈ sampleBatch.files, file.depth ≤ 61 := by decide
  have hfaults : (ofBatch "src" sampleBatch).faults.map ReportedFault.file = ["b.py", ""] := by
    decide +kernel
  exact ⟨wordSized_sampleBatch, wordSized_sampleDeclaration, _, hreport, hprinted hshallow, rfl, rfl, hfaults,
    hdeclaration _ wordSized_sampleDeclaration⟩

end Report

end Outline
