import Outline.Imports
import Outline.Proofs.Imports.Distinct
import Outline.Proofs.Text.Lines

namespace Outline

namespace Imports

open Text

theorem byLine_append (names : Text → List Text) {front : Text} (hfront : EndsLine front) (t : Text) :
    byLine names (front ++ t) =
      byLine names front ++ (byLine names t).filter fun name => name ∉ byLine names front := by
  rw [byLine, hfront.lines_append, List.flatMap_append, distinct_append]
  rfl

/-- The languages in which each line stands for itself. -/
def lineLanguages : List Language :=
  [.java, .csharp, .c, .cpp, .swift, .php, .julia, .r]

theorem exists_importsOf_eq_byLine {language : Language} (hlanguage : language ∈ lineLanguages) :
    ∃ names, ∀ t, importsOf language t = byLine names t := by
  simp only [lineLanguages, List.mem_cons, List.not_mem_nil, or_false] at hlanguage
  rcases hlanguage with rfl | rfl | rfl | rfl | rfl | rfl | rfl | rfl <;> exact ⟨_, fun _ => rfl⟩

/-- The imports of a text behind finished lines are those of the lines and then those of the text that the lines do
not have. Every list has each name once, and no name is empty or has white space at an end. Nothing is assumed of the
text; the lines before it end with a line feed. -/
theorem importsOf_append {language : Language} (hlanguage : language ∈ lineLanguages) :
    (∀ front, EndsLine front → ∀ t, importsOf language (front ++ t) =
      importsOf language front ++ (importsOf language t).filter fun name => name ∉ importsOf language front) ∧
    ∀ t, (importsOf language t).Nodup ∧ ∀ name ∈ importsOf language t, Solid name := by
  obtain ⟨names, hnames⟩ := exists_importsOf_eq_byLine hlanguage
  refine ⟨?_, ?_⟩
  · intro front hfront t
    rw [hnames, hnames, hnames, byLine_append names hfront]
  · intro t
    rw [hnames]
    exact ⟨nodup_distinct _, fun name => solid_of_mem_distinct⟩

/-- Lines with a group and a file that is loaded. -/
def groupLines : Text :=
  "use A\\\x7bB, C\x7d;\r\nrequire 'f';\n".toList

theorem importsOf_append_groupLines :
    .php ∈ lineLanguages ∧ EndsLine groupLines ∧
      importsOf .php (groupLines ++ "include ' f '; use D;\nuse A\\C, E as F;".toList) =
        ["A\\B", "A\\C", "f", "E"].map String.toList := by
  have hphp : .php ∈ lineLanguages := by decide
  have hends : EndsLine groupLines := by decide
  refine ⟨hphp, hends, ?_⟩
  rw [(importsOf_append hphp).1 groupLines hends]
  decide +kernel

end Imports

end Outline
