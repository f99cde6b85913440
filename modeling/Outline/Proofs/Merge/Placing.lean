import Outline.Merge
import Outline.Proofs.Declaration.Levels

namespace Outline

section UpdateFirst

variable {α β : Type} {p : α → Bool} {change : α → α} {fresh : α} {items : List α}

theorem updateFirst_of_find?_eq_none (hnone : items.find? p = none) :
    updateFirst p change fresh items = items ++ [fresh] := by
  induction items with
  | nil => rfl
  | cons item rest ih =>
    rw [List.find?_cons] at hnone
    cases hitem : p item with
    | true => simp [hitem] at hnone
    | false =>
      rw [hitem] at hnone
      rw [updateFirst, hitem, ih hnone]
      rfl

/-- Nothing changes if the first item that satisfies `p` is one that stays as it is. -/
theorem updateFirst_eq_self {item : α} (hfirst : items.find? p = some item) (hsame : change item = item) :
    updateFirst p change fresh items = items := by
  induction items with
  | nil => cases hfirst
  | cons head rest ih =>
    rw [List.find?_cons] at hfirst
    cases hhead : p head with
    | true =>
      rw [hhead] at hfirst
      obtain rfl := Option.some.inj hfirst
      rw [updateFirst, hhead, hsame]
      rfl
    | false =>
      rw [hhead] at hfirst
      rw [updateFirst, hhead, ih hfirst]
      rfl

theorem mem_updateFirst {item : α} (hmem : item ∈ updateFirst p change fresh items) :
    item ∈ items ∨ (∃ old ∈ items, p old = true ∧ item = change old) ∨ items.find? p = none ∧ item = fresh := by
  induction items with
  | nil => exact .inr (.inr ⟨rfl, List.mem_singleton.1 hmem⟩)
  | cons head rest ih =>
    rw [updateFirst] at hmem
    cases hhead : p head with
    | true =>
      rw [hhead, if_pos rfl] at hmem
      rcases List.mem_cons.1 hmem with rfl | hmem
      · exact .inr (.inl ⟨head, List.mem_cons_self, hhead, rfl⟩)
      · exact .inl (List.mem_cons_of_mem _ hmem)
    | false =>
      rw [hhead, if_neg Bool.false_ne_true] at hmem
      rcases List.mem_cons.1 hmem with rfl | hmem
      · exact .inl List.mem_cons_self
      · rcases ih hmem with hold | ⟨old, hold, hp, rfl⟩ | ⟨hnone, rfl⟩
        · exact .inl (List.mem_cons_of_mem _ hold)
        · exact .inr (.inl ⟨old, List.mem_cons_of_mem _ hold, hp, rfl⟩)
        · exact .inr (.inr ⟨by rw [List.find?_cons, hhead, hnone], rfl⟩)

/-- What a change respects is the same for all items, if there is one to change. -/
theorem map_updateFirst {f : α → β} (hchange : ∀ item, f (change item) = f item)
    (hsome : items.find? p ≠ none) : (updateFirst p change fresh items).map f = items.map f := by
  induction items with
  | nil => exact absurd rfl hsome
  | cons head rest ih =>
    rw [List.find?_cons] at hsome
    cases hhead : p head with
    | true => rw [updateFirst, hhead, if_pos rfl, List.map_cons, List.map_cons, hchange]
    | false =>
      rw [hhead] at hsome
      rw [updateFirst, hhead, if_neg Bool.false_ne_true, List.map_cons, List.map_cons, ih hsome]

/-- What a change respects can still be found in an item for each that was there. -/
theorem exists_mem_updateFirst {f : α → β} (hchange : ∀ item, f (change item) = f item) {item : α}
    (hmem : item ∈ items) : ∃ item' ∈ updateFirst p change fresh items, f item' = f item := by
  cases hfind : items.find? p with
  | none =>
    rw [updateFirst_of_find?_eq_none hfind]
    exact ⟨item, List.mem_append_left _ hmem, rfl⟩
  | some target =>
    have hmap : (updateFirst p change fresh items).map f = items.map f := map_updateFirst hchange (by simp [hfind])
    have hvalue := List.mem_map_of_mem (f := f) hmem
    rw [← hmap] at hvalue
    exact List.mem_map.1 hvalue

/-- Who searches for something else finds the item that was there, changed or not. -/
theorem find?_updateFirst {q : α → Bool} (hchange : ∀ item, q (change item) = q item) {item : α}
    (hfirst : items.find? q = some item) :
    ∃ found, (updateFirst p change fresh items).find? q = some found ∧
      (found = item ∨ p item = true ∧ found = change item) := by
  induction items with
  | nil => cases hfirst
  | cons head rest ih =>
    rw [List.find?_cons] at hfirst
    rw [updateFirst]
    cases hq : q head with
    | true =>
      rw [hq] at hfirst
      obtain rfl := Option.some.inj hfirst
      cases hp : p head with
      | true => exact ⟨change head, by simp [hchange, hq], .inr ⟨rfl, rfl⟩⟩
      | false => exact ⟨head, by simp [hq], .inl rfl⟩
    | false =>
      rw [hq] at hfirst
      cases hp : p head with
      | true => exact ⟨item, by simp [hchange, hq, hfirst], .inl rfl⟩
      | false =>
        obtain ⟨found, hfound, hcases⟩ := ih hfirst
        exact ⟨found, by simp [hq, hfound], hcases⟩

/-- The item that was changed is found in its place. -/
theorem find?_updateFirst_self (hchange : ∀ item, p (change item) = p item) {item : α}
    (hfirst : items.find? p = some item) : (updateFirst p change fresh items).find? p = some (change item) := by
  induction items with
  | nil => cases hfirst
  | cons head rest ih =>
    rw [List.find?_cons] at hfirst
    rw [updateFirst]
    cases hp : p head with
    | true =>
      rw [hp] at hfirst
      obtain rfl := Option.some.inj hfirst
      simp [hchange, hp]
    | false =>
      rw [hp] at hfirst
      simp [hp, ih hfirst]

end UpdateFirst

section Fill

theorem insertWord_of_mem {word : String} {words : List String} (hmem : word ∈ words)
    (hincreasing : words.Pairwise (· < ·)) : insertWord word words = words := by
  induction words with
  | nil => cases hmem
  | cons head rest ih =>
    rw [List.pairwise_cons] at hincreasing
    rw [insertWord]
    rcases List.mem_cons.1 hmem with rfl | hmem
    · rw [if_neg (String.lt_irrefl _), if_neg (String.lt_irrefl _)]
    · have hlt := hincreasing.1 word hmem
      rw [if_neg (String.lt_asymm hlt), if_pos hlt, ih hmem hincreasing.2]

namespace Modifiers

theorem mem_insertAll {set : Modifiers} {words : List String} {word : String} :
    word ∈ (set.insertAll words).words ↔ word ∈ set.words ∨ word ∈ words := by
  induction words generalizing set with
  | nil => simp [insertAll]
  | cons head rest ih =>
    rw [insertAll, List.foldl_cons, ← insertAll, ih, insert, mem_insertWord, List.mem_cons]
    grind

theorem mem_union {set other : Modifiers} {word : String} :
    word ∈ (set.union other).words ↔ word ∈ set.words ∨ word ∈ other.words :=
  mem_insertAll

theorem insertAll_of_subset {set : Modifiers} {words : List String} (hsubset : ∀ word ∈ words, word ∈ set.words) :
    set.insertAll words = set := by
  induction words with
  | nil => rfl
  | cons head rest ih =>
    have hhead : set.insert head = set := by
      cases set
      simp only [insert, mk.injEq]
      exact insertWord_of_mem (hsubset head List.mem_cons_self) ‹_›
    rw [insertAll, List.foldl_cons, hhead]
    exact ih fun word hmem => hsubset word (List.mem_cons_of_mem _ hmem)

end Modifiers

/-- The entry has nothing to take from the other. -/
theorem Entry.fill_eq_self_iff {entry other : Entry} :
    entry.fill other = entry ↔ (∀ word ∈ other.modifiers.words, word ∈ entry.modifiers.words) ∧
      entry.docstring.or other.docstring = entry.docstring := by
  constructor
  · intro hfill
    refine ⟨fun word hword => ?_, congrArg Entry.docstring hfill⟩
    have hmodifiers : entry.modifiers.union other.modifiers = entry.modifiers := congrArg Entry.modifiers hfill
    rw [← hmodifiers]
    exact Modifiers.mem_union.2 (.inr hword)
  · rintro ⟨hmodifiers, hdocstring⟩
    rw [fill, hdocstring, Modifiers.union, Modifiers.insertAll_of_subset hmodifiers]

theorem Entry.fill_self (entry : Entry) : entry.fill entry = entry :=
  Entry.fill_eq_self_iff.2 ⟨fun _ => id, by cases entry.docstring <;> rfl⟩

theorem Entry.fill_fill (entry other : Entry) : (entry.fill other).fill other = entry.fill other := by
  refine Entry.fill_eq_self_iff.2 ⟨fun word hword => Modifiers.mem_union.2 (.inr hword), ?_⟩
  rw [fill, Option.or_assoc]
  cases other.docstring <;> simp

/-- What an entry has taken from one it still has after it has taken from another. -/
theorem Entry.fill_fill_of_fill_eq_self {entry other another : Entry} (hfill : entry.fill other = entry) :
    (entry.fill another).fill other = entry.fill another := by
  obtain ⟨hmodifiers, hdocstring⟩ := Entry.fill_eq_self_iff.1 hfill
  refine Entry.fill_eq_self_iff.2 ⟨fun word hword => Modifiers.mem_union.2 (.inl (hmodifiers word hword)), ?_⟩
  rw [fill]
  cases hentry : entry.docstring with
  | some doc => rfl
  | none =>
    rw [hentry, Option.none_or] at hdocstring
    rw [hdocstring, Option.or_none]

end Fill

namespace Declaration

/-- What the search for a declaration looks at: kind, name and lines. -/
def signature (d : Declaration) : Kind × String × Nat × Nat :=
  (d.kind, d.name, d.startLine, d.endLine)

/-- A declaration after it has absorbed another one. -/
def absorb (target other : Declaration) : Declaration :=
  ⟨target.entry.fill other.entry, merge target.children (other.children.filter target.admits)⟩

@[simp]
theorem signature_absorb (target other : Declaration) : (target.absorb other).signature = target.signature := rfl

theorem same_iff {a b : Declaration} :
    a.same b = true ↔ a.kind = b.kind ∧ a.name = b.name ∧ a.startLine ≤ b.endLine ∧ b.startLine ≤ a.endLine := by
  simp [same, and_assoc]

theorem contains_iff {a b : Declaration} :
    a.contains b = true ↔ a.startLine ≤ b.startLine ∧ b.endLine ≤ a.endLine := by
  simp [contains]

theorem same_congr {a b : Declaration} (h : a.signature = b.signature) (c : Declaration) : a.same c = b.same c := by
  simp only [signature, Prod.mk.injEq] at h
  obtain ⟨hkind, hname, hstart, hend⟩ := h
  rw [same, same, hkind, hname, hstart, hend]

theorem contains_congr {a b : Declaration} (h : a.signature = b.signature) (c : Declaration) :
    a.contains c = b.contains c := by
  simp only [signature, Prod.mk.injEq] at h
  obtain ⟨_, _, hstart, hend⟩ := h
  rw [contains, contains, hstart, hend]

theorem before_congr {a b a' b' : Declaration} (h : a.signature = b.signature) (h' : a'.signature = b'.signature) :
    a.before a' = b.before b' := by
  simp only [signature, Prod.mk.injEq] at h h'
  obtain ⟨_, hname, hstart, _⟩ := h
  obtain ⟨_, hname', hstart', _⟩ := h'
  rw [before, before, hname, hname', hstart, hstart']

section Sorting

theorem before_iff {a b : Declaration} :
    a.before b = true ↔ a.startLine < b.startLine ∨ a.startLine = b.startLine ∧ a.name ≤ b.name := by
  simp [before]

theorem before_trans (a b c : Declaration) (hab : a.before b = true) (hbc : b.before c = true) :
    a.before c = true := by
  rw [before_iff] at hab hbc ⊢
  rcases hab with hab | ⟨hab, hname⟩ <;> rcases hbc with hbc | ⟨hbc, hname'⟩
  · exact .inl (by omega)
  · exact .inl (by omega)
  · exact .inl (by omega)
  · exact .inr ⟨hab.trans hbc, String.le_trans hname hname'⟩

theorem before_total (a b : Declaration) : (a.before b || b.before a) = true := by
  rw [Bool.or_eq_true, before_iff, before_iff]
  rcases Nat.lt_trichotomy a.startLine b.startLine with hlt | heq | hlt
  · exact .inl (.inl hlt)
  · rcases String.le_total a.name b.name with hle | hle
    · exact .inl (.inr ⟨heq, hle⟩)
    · exact .inr (.inr ⟨heq.symm, hle⟩)
  · exact .inr (.inl hlt)

theorem pairwise_sorted (ds : List Declaration) : (sorted ds).Pairwise fun a b => a.before b = true :=
  List.pairwise_mergeSort before_trans before_total ds

theorem sorted_perm (ds : List Declaration) : (sorted ds).Perm ds :=
  List.mergeSort_perm ds before

theorem mem_sorted {d : Declaration} {ds : List Declaration} : d ∈ sorted ds ↔ d ∈ ds :=
  List.mem_mergeSort

theorem sorted_of_pairwise {ds : List Declaration} (h : ds.Pairwise fun a b => a.before b = true) : sorted ds = ds :=
  List.mergeSort_of_pairwise h

end Sorting

section Place

theorem placeAll_eq_foldl (admitted : Declaration → Bool) (merged others : List Declaration) :
    placeAll admitted merged others = (others.filter admitted).foldl place merged := by
  induction others generalizing merged with
  | nil => rw [placeAll]; rfl
  | cons other rest ih =>
    rw [placeAll, ih]
    cases hadmitted : admitted other with
    | true => rw [List.filter_cons_of_pos hadmitted, List.foldl_cons, if_pos rfl]
    | false => rw [List.filter_cons_of_neg (by simp [hadmitted]), if_neg Bool.false_ne_true]

theorem merge_eq (primary secondary : List Declaration) :
    merge primary secondary = sorted (secondary.foldl place primary) := by
  rw [merge, placeAll_eq_foldl, List.filter_eq_self.2 fun _ _ => rfl]

theorem place_eq (merged : List Declaration) (other : Declaration) :
    place merged other = updateFirst (fun d => d.same other) (fun d => d.absorb other) other merged := by
  cases other with
  | mk entry children =>
    rw [place]
    congr 1
    funext d
    rw [absorb, merge_eq, placeAll_eq_foldl]

variable {merged : List Declaration} {other d : Declaration}

theorem mem_merge {primary secondary : List Declaration} :
    d ∈ merge primary secondary ↔ d ∈ secondary.foldl place primary := by
  rw [merge_eq, mem_sorted]

/-- What is in a list after a declaration was put into it. -/
theorem mem_place (hmem : d ∈ place merged other) :
    d ∈ merged ∨ (∃ target ∈ merged, target.same other = true ∧ d = target.absorb other) ∨
      (∀ old ∈ merged, old.same other = false) ∧ d = other := by
  rw [place_eq] at hmem
  rcases mem_updateFirst hmem with hold | habsorbed | ⟨hnone, rfl⟩
  · exact .inl hold
  · exact .inr (.inl habsorbed)
  · exact .inr (.inr ⟨by simpa using hnone, rfl⟩)

theorem place_of_none (hnone : ∀ old ∈ merged, old.same other = false) : place merged other = merged ++ [other] := by
  rw [place_eq]
  exact updateFirst_of_find?_eq_none (List.find?_eq_none.2 fun old hmem => by simp [hnone old hmem])

/-- A declaration that is absorbed leaves kinds, names and lines as they are. -/
theorem map_signature_place (hsome : ∃ old ∈ merged, old.same other = true) :
    (place merged other).map signature = merged.map signature := by
  rw [place_eq]
  refine map_updateFirst (fun d => signature_absorb d other) ?_
  rw [ne_eq, List.find?_eq_none]
  intro hnone
  obtain ⟨old, hmem, hsame⟩ := hsome
  exact hnone old hmem hsame

/-- Putting a declaration in takes no kind, name and lines away. -/
theorem exists_signature_of_mem (hmem : d ∈ merged) (other : Declaration) :
    ∃ d' ∈ place merged other, d'.signature = d.signature := by
  rw [place_eq]
  exact exists_mem_updateFirst (fun d => signature_absorb d other) hmem

theorem same_of_find? {target : Declaration} (hfirst : (merged.find? fun d => d.same other) = some target) :
    target.same other = true :=
  List.find?_some (p := fun d : Declaration => d.same other) hfirst

/-- Who looks for a declaration finds the same one after another was put in, or what it has become by absorbing
that other. -/
theorem find?_place {target x : Declaration} (hfirst : (merged.find? fun d => d.same x) = some target)
    (other : Declaration) :
    ∃ found, ((place merged other).find? fun d => d.same x) = some found ∧
      (found = target ∨ target.same other = true ∧ found = target.absorb other) := by
  rw [place_eq]
  exact find?_updateFirst (fun d => same_congr (signature_absorb d other) x) hfirst

theorem find?_place_self {target : Declaration} (hfirst : (merged.find? fun d => d.same other) = some target) :
    ((place merged other).find? fun d => d.same other) = some (target.absorb other) := by
  rw [place_eq]
  exact find?_updateFirst_self (fun d => same_congr (signature_absorb d other) other) hfirst

/-- What every declaration keeps when it is put in is kept when all of them are. -/
theorem foldl_place_induction {motive : List Declaration → Prop} (others : List Declaration)
    (step : ∀ other ∈ others, ∀ merged, motive merged → motive (place merged other)) (hstart : motive merged) :
    motive (others.foldl place merged) := by
  induction others generalizing merged with
  | nil => exact hstart
  | cons other rest ih =>
    exact ih (fun next hmem => step next (List.mem_cons_of_mem _ hmem)) (step other List.mem_cons_self merged hstart)

/-- Merging changes nothing if no single declaration does and the list is in order. -/
theorem merge_eq_self {others : List Declaration} (hplace : ∀ other ∈ others, place merged other = merged)
    (hsorted : sorted merged = merged) : merge merged others = merged := by
  have hfold : others.foldl place merged = merged := by
    refine foldl_place_induction (motive := fun ds => ds = merged) others (fun other hmem ds hds => ?_) rfl
    rw [hds, hplace other hmem]
  rw [merge_eq, hfold, hsorted]

theorem sorted_merge (primary secondary : List Declaration) :
    sorted (merge primary secondary) = merge primary secondary := by
  rw [merge_eq]
  exact sorted_of_pairwise (pairwise_sorted _)

end Place

theorem mem_walkAll_of_mem_children {d inner : Declaration} {declarations : List Declaration}
    (hmem : d ∈ declarations) (hinner : inner ∈ walkAll d.children) : inner ∈ walkAll declarations := by
  induction declarations with
  | nil => cases hmem
  | cons first rest ih =>
    rw [walkAll_cons]
    rcases List.mem_cons.1 hmem with rfl | hmem
    · exact List.mem_cons_of_mem _ (List.mem_append_left _ hinner)
    · exact List.mem_cons_of_mem _ (List.mem_append_right _ (ih hmem))

/-- A property of declarations that passes from the children to the parent holds of every declaration. -/
theorem children_induction {motive : Declaration → Prop}
    (step : ∀ d : Declaration, (∀ child ∈ d.children, motive child) → motive d) (d : Declaration) : motive d := by
  have hall : ∀ ds : List Declaration, ∀ d ∈ ds, motive d := by
    intro ds
    induction ds using list_induction with
    | nil => exact fun _ hmem => absurd hmem List.not_mem_nil
    | cons first rest ihchildren ihrest =>
      intro d hmem
      rcases List.mem_cons.1 hmem with rfl | hmem
      · exact step d ihchildren
      · exact ihrest d hmem
  exact hall [d] d List.mem_cons_self

end Declaration

end Outline
