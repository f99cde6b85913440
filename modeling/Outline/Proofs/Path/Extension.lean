import Mathlib.Data.List.TakeWhile
import Outline.Language
import Outline.Proofs.Path.Pieces

namespace Outline

theorem Language.normalizeExtension_of_not_mem {extension : Text} (hdot : '.' ∉ extension) :
    normalizeExtension extension = Text.lower extension := by
  cases extension with
  | nil => rfl
  | cons c rest =>
    have hc : c ≠ '.' := fun h => hdot (h ▸ List.mem_cons_self)
    rw [normalizeExtension, List.dropWhile_cons_of_neg (by simpa using hc)]

namespace Path

theorem not_dot_mem_extension (path : Text) : '.' ∉ (extension? path).getD [] := by
  unfold extension?
  split
  · simp
  · dsimp only
    split
    · intro hmem
      have hstop := List.mem_takeWhile_imp (List.mem_reverse.1 hmem)
      simp at hstop
    · simp

theorem not_slash_mem_fileName {path name : Text} (hname : fileName? path = some name) : '/' ∉ name := by
  have hlast : Component.name name ∈ components path := by
    unfold fileName? at hname
    split at hname
    · next text hlast =>
      obtain rfl := Option.some.inj hname
      exact List.mem_of_getLast? hlast
    · simp at hname
  have hmem : Component.name name ∈ ((path.splitWhere (· == '/')).filter fun piece =>
      piece ≠ [] && piece ≠ ['.']).map Component.ofPiece := by
    unfold components at hlast
    dsimp only at hlast
    split at hlast
    · simpa using hlast
    · split at hlast
      · simpa using hlast
      · exact hlast
  obtain ⟨piece, hpiece, hname⟩ := List.mem_map.1 hmem
  unfold Component.ofPiece at hname
  split at hname
  · simp at hname
  · obtain rfl := Component.name.inj hname
    exact not_slash_mem_of_mem_splitWhere (List.mem_filter.1 hpiece).1

theorem not_slash_mem_extension (path : Text) : '/' ∉ (extension? path).getD [] := by
  unfold extension?
  split
  · simp
  · next name hname =>
    dsimp only
    split
    · intro hmem
      have hname' := (List.takeWhile_sublist _).mem (List.mem_reverse.1 hmem)
      exact not_slash_mem_fileName hname (List.mem_reverse.1 hname')
    · simp

/-- Every text without dots and slashes is an extension. -/
theorem extension?_of_not_mem {extension : Text} (hdot : '.' ∉ extension) (hslash : '/' ∉ extension) :
    extension? ('x' :: '.' :: extension) = some extension := by
  have hpieces : Text.splitWhere (· == '/') ('x' :: '.' :: extension) = ['x' :: '.' :: extension] := by
    apply splitWhere_of_not_slash
    simpa using hslash
  have hname : fileName? ('x' :: '.' :: extension) = some ('x' :: '.' :: extension) := by
    simp [fileName?, components, hpieces, Text.startsWhere, Component.ofPiece]
  have hall : ∀ c ∈ extension.reverse, decide (c ≠ '.') = true := by
    intro c hc
    exact decide_eq_true fun h => hdot (h ▸ List.mem_reverse.1 hc)
  have htaken : (('x' :: '.' :: extension).reverse.takeWhile (· ≠ '.')).reverse = extension := by
    rw [List.reverse_cons, List.reverse_cons, List.append_assoc, List.takeWhile_append_of_pos hall]
    simp
  rw [extension?, hname]
  dsimp only
  rw [htaken, if_pos (by simp)]

end Path

end Outline
