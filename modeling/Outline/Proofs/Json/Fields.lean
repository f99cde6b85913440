import Outline.Declaration.Codec

namespace Outline.Json

@[simp]
theorem field?_obj (name : String) (fields : List (String × Json)) :
    (Json.obj fields).field? name = fields.lookup name := rfl

theorem lookup_singleton (name key : String) (value : Json) :
    [(name, value)].lookup key = if key = name then some value else none := by
  by_cases hkey : key = name
  · simp [hkey]
  · simp [List.lookup_cons, hkey, beq_false_of_ne hkey]

/-- A field that may have been left out is found under its own name only. -/
@[simp]
theorem lookup_fieldUnless (omitted : Bool) (name key : String) (value : Json) :
    (fieldUnless omitted name value).lookup key =
      if key = name then (if omitted then none else some value) else none := by
  cases omitted with
  | false => exact lookup_singleton name key value
  | true => simp [fieldUnless]

@[simp]
theorem lookup_toList_map (content : Option α) (name key : String) (write : α → Json) :
    (content.map fun x => (name, write x)).toList.lookup key =
      if key = name then content.map write else none := by
  cases content with
  | none => simp
  | some x => exact lookup_singleton name key (write x)

theorem word?_nat {n : Nat} (h : n < UInt64.size) : (Json.nat n).word? = some n :=
  if_pos h

/-- A list is read back if each of its items is. -/
theorem list?_arr_map {read : Json → Option β} {write : α → Json} {restore : α → β} {items : List α}
    (h : ∀ item ∈ items, read (write item) = some (restore item)) :
    list? read (.arr (items.map write)) = some (items.map restore) := by
  change (items.map write).mapM read = some (items.map restore)
  induction items with
  | nil => rfl
  | cons item rest ih =>
    have hitem := h item List.mem_cons_self
    have hrest := ih fun other hother => h other (List.mem_cons_of_mem _ hother)
    simp [hitem, hrest]

theorem list?_arr_map_self {read : Json → Option α} {write : α → Json} {items : List α}
    (h : ∀ item ∈ items, read (write item) = some item) : list? read (.arr (items.map write)) = some items := by
  have hmap : list? read (.arr (items.map write)) = some (items.map fun item => item) := list?_arr_map h
  rwa [List.map_id'] at hmap

theorem list?_strs (items : List String) : list? str? (.strs items) = some items :=
  list?_arr_map_self fun _ _ => rfl

variable {value : Json} {name : String}

/-- A field that is left out when its content is the one read from a missing field is read back. -/
theorem optional?_of_omitted {read : Json → Option α} {omitted : Bool} {written : Json} {absent content : α}
    (hfield : value.field? name = if omitted then none else some written)
    (habsent : omitted = true → absent = content) (hread : read written = some content) :
    value.optional? name absent read = some content := by
  cases omitted with
  | false => simp [optional?, hfield, hread]
  | true => simp [optional?, hfield, habsent rfl]

/-- A list that is left out when it is empty is read back. -/
theorem optional?_list {read : Json → Option (List α)} {written : Json} {items : List α}
    (hfield : value.field? name = if items.isEmpty then none else some written)
    (hread : read written = some items) : value.optional? name [] read = some items :=
  optional?_of_omitted hfield (fun hempty => (List.isEmpty_iff.1 hempty).symm) hread

/-- A text that may be absent is read back; the empty text is not an absent one. -/
theorem optional?_nullable_str {content : Option String} (hfield : value.field? name = content.map .str) :
    value.optional? name none (nullable? str?) = some content := by
  cases content with
  | none => simp [optional?, hfield]
  | some text => simp [optional?, hfield, nullable?, str?]

end Outline.Json
