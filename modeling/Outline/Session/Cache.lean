import Outline.FileOutline.Basic

namespace Outline

/-- What a kept result is found by: the path of a file and the language it was read as. -/
structure CacheKey where
  path : String
  language : Language
deriving DecidableEq, Repr

/-- Results by key. No key occurs twice. -/
structure Cache where
  entries : List (CacheKey × FileOutline)
  distinct : (entries.map Prod.fst).Nodup

namespace Cache

/-- No results. -/
def empty : Cache :=
  ⟨[], List.nodup_nil⟩

/-- How many results are kept. -/
def size (cache : Cache) : Nat :=
  cache.entries.length

/-- The result kept under a key. -/
def find? (cache : Cache) (key : CacheKey) : Option FileOutline :=
  (cache.entries.find? fun entry => entry.1 == key).map Prod.snd

theorem find?_eq_none_iff {cache : Cache} {key : CacheKey} :
    cache.find? key = none ↔ key ∉ cache.entries.map Prod.fst := by
  simp only [find?, Option.map_eq_none_iff, List.find?_eq_none, beq_iff_eq, List.mem_map, not_exists,
    not_and]

/-- Adds the result of a key that has none yet. -/
def add (cache : Cache) (key : CacheKey) (file : FileOutline) (absent : cache.find? key = none) :
    Cache where
  entries := (key, file) :: cache.entries
  distinct := List.nodup_cons.2 ⟨find?_eq_none_iff.1 absent, cache.distinct⟩

/-- Keeps a result unless its key has one already; the result that the key then has is given back. -/
def keep (cache : Cache) (key : CacheKey) (file : FileOutline) : FileOutline × Cache :=
  match h : cache.find? key with
  | some earlier => (earlier, cache)
  | none => (file, cache.add key file h)

@[simp]
theorem find?_empty (key : CacheKey) : empty.find? key = none := rfl

theorem find?_add (cache : Cache) (key other : CacheKey) (file : FileOutline)
    (absent : cache.find? key = none) :
    (cache.add key file absent).find? other = if key = other then some file else cache.find? other := by
  by_cases h : key = other <;> simp [find?, add, h]

theorem keep_of_find?_eq_some {cache : Cache} {key : CacheKey} {earlier : FileOutline}
    (h : cache.find? key = some earlier) (file : FileOutline) :
    cache.keep key file = (earlier, cache) := by
  unfold keep
  split
  · next found hfound => simp_all
  · next hnone => simp_all

theorem keep_of_find?_eq_none {cache : Cache} {key : CacheKey}
    (h : cache.find? key = none) (file : FileOutline) :
    cache.keep key file = (file, cache.add key file h) := by
  unfold keep
  split
  · next found hfound => simp_all
  · rfl

end Cache

end Outline
