import Outline.Proofs.Extent.Shift
import Outline.Proofs.Scan.Step

namespace Outline

namespace Declaration

mutual

/-- The declaration and all inside it `k` lines further down. -/
def shift (k : Nat) : Declaration → Declaration
  | ⟨entry, children⟩ =>
    ⟨{ entry with startLine := entry.startLine + k, endLine := entry.endLine + k }, shiftAll k children⟩

/-- The declarations and all inside them `k` lines further down. -/
def shiftAll (k : Nat) : List Declaration → List Declaration
  | [] => []
  | d :: rest => shift k d :: shiftAll k rest

end

@[simp]
theorem shiftAll_nil (k : Nat) : shiftAll k [] = [] := rfl

@[simp]
theorem shiftAll_cons (k : Nat) (d : Declaration) (rest : List Declaration) :
    shiftAll k (d :: rest) = d.shift k :: shiftAll k rest := rfl

@[simp]
theorem endLine_shift (k : Nat) (d : Declaration) : (d.shift k).endLine = d.endLine + k := by
  cases d
  rfl

theorem shift_withChildren (k : Nat) (d : Declaration) (children : List Declaration) :
    (d.withChildren children).shift k = (d.shift k).withChildren (shiftAll k children) := by
  cases d
  rfl

mutual

theorem total_shift (k : Nat) : ∀ d : Declaration, (d.shift k).total = d.total
  | ⟨_, children⟩ => congrArg (1 + ·) (totalAll_shiftAll k children)

theorem totalAll_shiftAll (k : Nat) :
    ∀ declarations : List Declaration, totalAll (shiftAll k declarations) = totalAll declarations
  | [] => rfl
  | d :: rest => by rw [shiftAll_cons, totalAll, totalAll, total_shift k d, totalAll_shiftAll k rest]

end

mutual

theorem shift_zero : ∀ d : Declaration, d.shift 0 = d
  | ⟨entry, children⟩ => congrArg (Declaration.mk entry) (shiftAll_zero children)

theorem shiftAll_zero : ∀ declarations : List Declaration, shiftAll 0 declarations = declarations
  | [] => rfl
  | d :: rest => by rw [shiftAll_cons, shift_zero d, shiftAll_zero rest]

end

end Declaration

namespace Grammar

variable {grammar : Grammar} {index k : Nat} {heading : Heading} {attrs : Text} {pending : Pending}
  {extent : Extent} {window rest : List Text}

/-- What a line declares moves with the line. -/
theorem declaration?_shift :
    grammar.declaration? (index + k) attrs heading (extent.shift k) pending window =
      (grammar.declaration? index attrs heading extent pending window).map (Declaration.shift k) := by
  have hfirst : extent.headerEnd + k + 1 - (index + k) = extent.headerEnd + 1 - index := by omega
  have hlast : extent.last + k - (index + k) = extent.last - index := by omega
  have hline : max (index + k + 1) 1 = max (index + 1) 1 + k := by omega
  have hend : max (extent.last + k + 1) (max (index + 1) 1 + k) =
      max (extent.last + 1) (max (index + 1) 1) + k := by omega
  simp only [declaration?, Declaration.declare?, Extent.shift_headerEnd, Extent.shift_last,
    Extent.hasInterior_shift, hfirst, hlast, hline, hend]
  cases (Text.trim (String.ofList heading.name).toList).isEmpty <;> rfl

theorem interior_shift :
    grammar.interior (index + k) (extent.shift k) rest = grammar.interior index extent rest := by
  have hheader : extent.headerEnd + k - (index + k) = extent.headerEnd - index := by omega
  have hcount : grammar.interiorLast (extent.shift k) - (extent.headerEnd + k) =
      grammar.interiorLast extent - extent.headerEnd := by
    cases hwhole : (grammar.style == BlockStyle.indent || extent.isDegraded) <;>
      simp only [interiorLast, Extent.isDegraded_shift, Extent.shift_last, hwhole, if_true,
        Bool.false_eq_true, if_false] <;> omega
  simp only [interior, Extent.shift_headerEnd, hheader, hcount]

end Grammar

end Outline
