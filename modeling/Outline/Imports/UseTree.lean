import Outline.Imports.Basic

namespace Outline.Imports

/-- The pieces between commas outside braces, where `depth` braces are open. -/
def splitTopLevel (depth : Int) : Text → List Text
  | [] => [[]]
  | c :: t =>
    if c = ',' && depth == 0 then [] :: splitTopLevel depth t
    else
      let inner := if c = '{' then depth + 1 else if c = '}' then depth - 1 else depth
      match splitTopLevel inner t with
      | [] => [[c]]
      | piece :: pieces => (c :: piece) :: pieces

/-- No piece is longer than the text. -/
theorem length_le_of_mem_splitTopLevel {depth : Int} {t piece : Text}
    (h : piece ∈ splitTopLevel depth t) : piece.length ≤ t.length := by
  induction t generalizing depth piece with
  | nil => simp_all [splitTopLevel]
  | cons c t ih =>
    simp only [splitTopLevel] at h
    split at h
    · rcases List.mem_cons.1 h with rfl | h
      · simp
      · exact Nat.le_succ_of_le (ih h)
    · split at h
      · simp_all
      · next first pieces heq =>
        rcases List.mem_cons.1 h with rfl | h
        · simpa using ih (heq ▸ List.mem_cons_self)
        · exact Nat.le_succ_of_le (ih (heq ▸ List.mem_cons_of_mem _ h))

/-- The text inside the outermost braces, and what stands before them: from the first opening brace to
the last closing one. Without such a pair there is no inside. -/
def outerBraces? (tree : Text) : Option (Text × Option Text) :=
  match Text.cut? ['{'] tree with
  | none => none
  | some (head, rest) =>
    match Text.cut? ['}'] rest.reverse with
    | some (_, inside) => some (head, some inside.reverse)
    | none => some (head, none)

/-- A path below another one. -/
def joinPath (separator path head : Text) : Text :=
  let head := Text.stripEndAll separator (Text.trim head)
  if path.isEmpty then head else if head.isEmpty then path else path ++ separator ++ head

/-- The inside of the braces is shorter than the tree. -/
theorem length_lt_of_outerBraces? {tree head inside : Text}
    (h : outerBraces? tree = some (head, some inside)) : inside.length < tree.length := by
  unfold outerBraces? at h
  split at h
  · simp at h
  · next before rest hopen =>
    split at h
    · next after shown hclose =>
      simp only [Option.some.injEq, Prod.mk.injEq] at h
      obtain ⟨_, rfl⟩ := h
      have h₁ := congrArg List.length (Text.eq_of_cut?_eq_some hopen)
      have h₂ := congrArg List.length (Text.eq_of_cut?_eq_some hclose)
      simp only [List.length_append, List.length_cons, List.length_nil, List.length_reverse] at h₁ h₂ ⊢
      omega
    · simp at h

/-- The paths that a tree below `path` refers to. The word `self` stands for `path`, and aliases are
left out. -/
def expandTree (separator path tree : Text) : List Text :=
  let trimmed := Text.trim tree
  if trimmed.isEmpty then []
  else
    match _hbraces : outerBraces? trimmed with
    | some (head, some inside) =>
      (splitTopLevel 0 inside).attach.flatMap fun ⟨piece, _⟩ =>
        expandTree separator (joinPath separator path head) piece
    | some (_, none) => []
    | none =>
      let leaf := Text.trim (upTo " as ".toList trimmed)
      if leaf = "self".toList then if path.isEmpty then [] else [path]
      else [joinPath separator path leaf]
termination_by tree.length
decreasing_by
  have hpiece := length_le_of_mem_splitTopLevel ‹piece ∈ splitTopLevel 0 inside›
  have hinside := length_lt_of_outerBraces? _hbraces
  have htrim : trimmed.length ≤ tree.length := Text.length_trim_le tree
  omega

end Outline.Imports
