import Outline.Proofs.Declaration.Levels
import Outline.Proofs.Json.Fields

namespace Outline

theorem Kind.ofJson?_tag (kind : Kind) : Kind.ofJson? (.str kind.tag) = some kind := by
  cases kind <;> rfl

namespace Modifiers

theorem insertWord_of_forall_lt {word : String} {words : List String} (h : ∀ other ∈ words, other < word) :
    insertWord word words = words ++ [word] := by
  induction words with
  | nil => rfl
  | cons head rest ih =>
    have hhead := h head List.mem_cons_self
    rw [insertWord, if_neg (String.lt_asymm hhead), if_pos hhead,
      ih fun other hother => h other (List.mem_cons_of_mem _ hother), List.cons_append]

/-- Words that arrive in increasing order, behind those of the set, are added at the end. -/
theorem words_insertAll {set : Modifiers} {words : List String}
    (h : (set.words ++ words).Pairwise (· < ·)) : (set.insertAll words).words = set.words ++ words := by
  induction words generalizing set with
  | nil => simp [insertAll]
  | cons word rest ih =>
    have hlast : (set.insert word).words = set.words ++ [word] :=
      insertWord_of_forall_lt fun other hother => (List.pairwise_append.1 h).2.2 other hother word List.mem_cons_self
    have hrest : ((set.insert word).insertAll rest).words = (set.insert word).words ++ rest :=
      ih (by simpa [hlast] using h)
    rw [hlast, List.append_assoc, List.singleton_append] at hrest
    exact hrest

/-- A set is the set of its words. -/
theorem ofList_words (set : Modifiers) : ofList set.words = set := by
  have h : (empty.insertAll set.words).words = empty.words ++ set.words :=
    words_insertAll (by simpa [empty] using set.increasing)
  cases set
  exact Modifiers.mk.injEq .. ▸ h

end Modifiers

/-- The lines of the entry are numbers that fit 64 bits. -/
structure Entry.WordSized (entry : Entry) : Prop where
  startLine_lt : entry.startLine < UInt64.size
  endLine_lt : entry.endLine < UInt64.size

/-- Every line number in the declarations, at any depth, fits 64 bits. -/
def Declaration.WordSized (declarations : List Declaration) : Prop :=
  ∀ d ∈ walkAll declarations, d.entry.WordSized

namespace Entry

/-- An entry is read back from its fields, with fields of other names behind them. -/
theorem ofJson?_fields {entry : Entry} (hsized : entry.WordSized) {others : List (String × Json)}
    (hothers : ∀ name ∈ fieldNames, others.lookup name = none) :
    ofJson? (.obj (entry.fields ++ others)) = some entry := by
  let document := Json.obj (entry.fields ++ others)
  have hkind : document.required? "kind" Kind.ofJson? = some entry.kind := Kind.ofJson?_tag entry.kind
  have hname : document.required? "name" Json.str? = some entry.name := rfl
  have hstart : document.required? "start_line" Json.word? = some entry.startLine :=
    Json.word?_nat hsized.startLine_lt
  have hend : document.required? "end_line" Json.word? = some entry.endLine :=
    Json.word?_nat hsized.endLine_lt
  have hfound : document.field? "modifiers" =
      if entry.modifiers.words.isEmpty then none else some (.strs entry.modifiers.words) := by
    simp [document, fields, List.lookup_append, List.lookup_cons, hothers "modifiers" (by decide)]
  have hmodifiers : document.optional? "modifiers" [] (Json.list? Json.str?) = some entry.modifiers.words :=
    Json.optional?_list hfound (Json.list?_strs _)
  have hdocstring : document.field? "docstring" = entry.docstring.map .str := by
    simp [document, fields, List.lookup_append, List.lookup_cons, hothers "docstring" (by decide)]
  change ofJson? document = some entry
  simp [ofJson?, hkind, hname, hstart, hend, hmodifiers, Json.optional?_nullable_str hdocstring,
    Modifiers.ofList_words]

end Entry

namespace Declaration

theorem childrenOf?_eq (fields : List (String × Json)) :
    childrenOf? fields = (Json.obj fields).optional? "children" [] ofItems? := by
  induction fields with
  | nil => rw [childrenOf?]; rfl
  | cons field rest ih =>
    obtain ⟨name, value⟩ := field
    rw [childrenOf?]
    by_cases hname : name = "children"
    · simp [Json.optional?, hname]
    · simp [Json.optional?, hname, ih, List.lookup_cons, beq_false_of_ne (Ne.symm hname)]

theorem wordSized_nil : WordSized [] := by
  simp [WordSized, walkAll]

theorem wordSized_cons_iff {d : Declaration} {rest : List Declaration} :
    WordSized (d :: rest) ↔ d.entry.WordSized ∧ WordSized d.children ∧ WordSized rest := by
  simp [WordSized, walkAll_cons, or_imp, forall_and]

/-- A declaration is read back if those inside it are. -/
theorem ofJson?_toJson_of_children {d : Declaration} (hsized : d.entry.WordSized)
    (hchildren : ofList? (toJsonAll d.children) = some d.children) : ofJson? d.toJson = some d := by
  obtain ⟨entry, children⟩ := d
  let rest := Json.fieldUnless children.isEmpty "children" (.arr (toJsonAll children))
  have hentry : Entry.ofJson? (.obj (entry.fields ++ rest)) = some entry := by
    refine Entry.ofJson?_fields hsized fun name hname => ?_
    have hne : name ≠ "children" := fun heq => absurd (heq ▸ hname) (by decide)
    simp [rest, hne]
  have hfound : (Json.obj (entry.fields ++ rest)).field? "children" =
      if children.isEmpty then none else some (.arr (toJsonAll children)) := by
    simp [rest, Entry.fields, List.lookup_append, List.lookup_cons]
  have hinside : childrenOf? (entry.fields ++ rest) = some children := by
    rw [childrenOf?_eq]
    exact Json.optional?_list hfound (by rw [ofItems?, hchildren])
  rw [toJson, ofJson?, hentry, hinside]

/-- Declarations are read back from their documents, at any depth. -/
theorem ofList?_toJsonAll {declarations : List Declaration} (hsized : WordSized declarations) :
    ofList? (toJsonAll declarations) = some declarations := by
  induction declarations using list_induction with
  | nil => rw [toJsonAll, ofList?]
  | cons d rest ihchildren ihrest =>
    obtain ⟨hentry, hchildren, hrest⟩ := wordSized_cons_iff.1 hsized
    rw [toJsonAll, ofList?, ofJson?_toJson_of_children hentry (ihchildren hchildren), ihrest hrest]

/-- A declaration is read back from its document. -/
theorem ofJson?_toJson {d : Declaration} (hsized : WordSized [d]) : ofJson? d.toJson = some d := by
  obtain ⟨hentry, hchildren, -⟩ := wordSized_cons_iff.1 hsized
  exact ofJson?_toJson_of_children hentry (ofList?_toJsonAll hchildren)

end Declaration

end Outline
