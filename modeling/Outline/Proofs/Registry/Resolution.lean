import Outline.Proofs.Path.Extension
import Outline.Registry

namespace Outline

namespace Config

/-- The languages that overrides give to an extension, in the order of the overrides. -/
def claimants (config : Config) (extension : Text) : List Language :=
  (config.extensionOverrides.filter fun entry =>
    Language.normalizeExtension entry.1.toList == Language.normalizeExtension extension).map Prod.snd

/-- Settings take the first override. -/
theorem languageOf?_eq_or (config : Config) (extension : Text) :
    config.languageOf? extension = (config.claimants extension).head?.or
      (Language.ofExtension? (Language.normalizeExtension extension)) := by
  rw [claimants, List.head?_map, List.head?_filter, languageOf?]
  cases config.extensionOverrides.find? fun entry =>
    Language.normalizeExtension entry.1.toList == Language.normalizeExtension extension <;> rfl

end Config

namespace Registry

/-- The registry takes the last override. -/
theorem override?_full (config : Config) (extension : Text) :
    (full config).override? (Language.normalizeExtension extension) =
      (config.claimants extension).getLast? := by
  rw [override?, full, empty, Config.claimants, List.getLast?_map, ← List.head?_reverse,
    ← List.filter_reverse, List.head?_filter, ← List.map_reverse, List.find?_map, Option.map_map]
  rfl

/-- The full registry gives a path the language of the last override of its extension, or else the
built-in one. -/
theorem languageOf_full_eq_ok_iff {config : Config} {path : Text} {language : Language} :
    (full config).languageOf path = .ok language ↔
      (config.claimants ((Path.extension? path).getD [])).getLast?.or
        (Language.ofExtension? (Language.normalizeExtension ((Path.extension? path).getD []))) =
          some language := by
  have hlower := Language.normalizeExtension_of_not_mem (Path.not_dot_mem_extension path)
  have hserved : ∀ chosen : Option Language,
      (chosen.filter fun language => ((full config).scanner? language).isSome) = chosen := by
    intro chosen
    cases chosen <;> rfl
  simp only [languageOf, ← hlower, override?_full, hserved]
  cases (config.claimants ((Path.extension? path).getD [])).getLast?.or
    (Language.ofExtension? (Language.normalizeExtension ((Path.extension? path).getD []))) <;> simp

/-- A path has a language for the full registry exactly if it has one for the settings. -/
theorem exists_languageOf_full_iff (config : Config) (path : Text) :
    (∃ language, (full config).languageOf path = .ok language) ↔
      ∃ language, config.languageOf? ((Path.extension? path).getD []) = some language := by
  simp only [languageOf_full_eq_ok_iff, config.languageOf?_eq_or]
  cases config.claimants ((Path.extension? path).getD []) with
  | nil => rfl
  | cons first rest => simp [List.getLast?_cons]

/-- Settings and registry give every path the same language exactly if, for every extension that a path can have, the
first and the last override name the same language. Whether a path has a language at all is never in dispute. -/
theorem languageOf_full_agrees_iff (config : Config) :
    (∀ path language, (full config).languageOf path = .ok language ↔
      config.languageOf? ((Path.extension? path).getD []) = some language) ↔
    ∀ extension : Text, '.' ∉ extension → '/' ∉ extension →
      (config.claimants extension).head? = (config.claimants extension).getLast? := by
  simp only [languageOf_full_eq_ok_iff, config.languageOf?_eq_or]
  constructor
  · intro hagree extension hdot hslash
    have hpath := hagree ('x' :: '.' :: extension)
    rw [Path.extension?_of_not_mem hdot hslash, Option.getD_some] at hpath
    have heq := Option.ext hpath
    cases hclaimants : config.claimants extension with
    | nil => rfl
    | cons first rest =>
      rw [hclaimants, List.head?_cons, List.getLast?_cons] at heq
      rw [List.head?_cons, List.getLast?_cons]
      exact heq.symm
  · intro hsame path language
    have hends := hsame _ (Path.not_dot_mem_extension path) (Path.not_slash_mem_extension path)
    rw [hends]

/-- Usable settings with two overrides that differ in case alone: the settings read a file with that
extension as one language and the registry as the other. -/
theorem not_languageOf_full_agrees_case :
    ¬ ∀ config : Config, config.validate = .ok config →
      ∀ path language, (full config).languageOf path = .ok language ↔
        config.languageOf? ((Path.extension? path).getD []) = some language := by
  intro hagree
  have hvalid : Config.validate { extensionOverrides := [("A", .python), ("a", .rust)] } =
      .ok { extensionOverrides := [("A", .python), ("a", .rust)] } := by
    rfl
  have hrust := (hagree _ hvalid "x.a".toList .rust).1 (by rfl)
  exact absurd hrust (by decide)

end Registry

end Outline
