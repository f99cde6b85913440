import Mathlib.Data.List.TakeWhile
import Mathlib.Tactic.IntervalCases
import Outline.Json.Printer
import Outline.Json.Reader

namespace Outline.Json

namespace Reader

section Spaces

variable {c : Char} {t : Text}

theorem skipSpace_cons (h : (c == ' ' || c == '\n' || c == '\r' || c == '\t') = false) :
    skipSpace (c :: t) = c :: t := by
  simp only [skipSpace, List.dropWhile_cons, h]
  rfl

@[simp]
theorem skipSpace_newline (level : Nat) (t : Text) : skipSpace (newline level ++ t) = skipSpace t := by
  have hspaces : ∀ count : Nat, skipSpace (Text.spaces count ++ t) = skipSpace t := by
    intro count
    induction count with
    | zero => rfl
    | succ count ih =>
      rw [Text.spaces, List.replicate_succ]
      exact ih
  exact hspaces (2 * level)

@[simp]
theorem skipSpace_space (t : Text) : skipSpace (' ' :: t) = skipSpace t := rfl

end Spaces

section Strings

/-- A control character is written as a letter behind a backslash, or as its number. -/
theorem escapeChar_control {n : Nat} (hsmall : n < 0x20) :
    (∃ letter, letter ≠ 'u' ∧ escapeChar (Char.ofNat n) = ['\\', letter] ∧
      unescape? letter = some (Char.ofNat n)) ∨
    ∃ x y, escapeChar (Char.ofNat n) = ['\\', 'u', '0', '0', x, y] ∧ hexCode? ['0', '0', x, y] = some n := by
  interval_cases n
  case «8» => exact .inl ⟨'b', by decide, rfl, rfl⟩
  case «9» => exact .inl ⟨'t', by decide, rfl, rfl⟩
  case «10» => exact .inl ⟨'n', by decide, rfl, rfl⟩
  case «12» => exact .inl ⟨'f', by decide, rfl, rfl⟩
  case «13» => exact .inl ⟨'r', by decide, rfl, rfl⟩
  all_goals exact .inr ⟨_, _, rfl, rfl⟩

/-- An escape is read as the character that it was written for. -/
theorem string?_escapeChar (c : Char) (t : Text) :
    string? (escapeChar c ++ t) = (string? t).map (push c) := by
  by_cases hsmall : c.toNat < 0x20
  · have hcontrol := escapeChar_control hsmall
    rw [Char.ofNat_toNat] at hcontrol
    obtain ⟨letter, hletter, hescape, hread⟩ | ⟨x, y, hescape, hcode⟩ := hcontrol
    · rw [hescape]
      simp [string?, hletter, hread]
    · have hvalid : c.toNat.isValidChar := c.valid
      rw [hescape]
      simp only [List.cons_append, List.nil_append, string?, hcode, Option.bind_some, if_pos hvalid,
        Char.ofNat_toNat]
  by_cases hquote : c = '"'
  · rw [hquote]
    rfl
  by_cases hbackslash : c = '\\'
  · rw [hbackslash]
    rfl
  -- Every other character stands for itself.
  have hne : ∀ d : Char, d.toNat < 0x20 → c ≠ d := fun d hd heq => hsmall (heq ▸ hd)
  have hplain : escapeChar c = [c] := by
    simp only [escapeChar, if_neg hquote, if_neg hbackslash, if_neg hsmall, if_neg (hne '\n' (by decide)),
      if_neg (hne '\r' (by decide)), if_neg (hne '\t' (by decide)), if_neg (hne '\x08' (by decide)),
      if_neg (hne '\x0c' (by decide))]
  rw [hplain, List.singleton_append]
  simp [string?, hbackslash, hsmall]

/-- A string is read back, whatever characters it has. -/
theorem string?_quoted (s t : Text) : string? (s.flatMap escapeChar ++ '"' :: t) = some (s, t) := by
  induction s with
  | nil => rfl
  | cons c s ih =>
    rw [List.flatMap_cons, List.append_assoc, string?_escapeChar, ih]
    rfl

end Strings

end Reader

section Numbers

/-- The digits of a number before and behind the point. -/
structure Digits (mantissa : Int) (scale : Nat) (whole fraction : Text) : Prop where
  numberText_eq : numberText mantissa scale =
    (if mantissa < 0 then ['-'] else []) ++ whole ++ (if fraction.isEmpty then [] else '.' :: fraction)
  whole_ne_nil : whole ≠ []
  head_ne_zero : 1 < whole.length → whole.head? ≠ some '0'
  isDigit_whole : ∀ c ∈ whole, c.isDigit
  isDigit_fraction : ∀ c ∈ fraction, c.isDigit
  length_fraction : fraction.length = scale
  value : Nat.ofDigitChars 10 (whole ++ fraction) 0 = mantissa.natAbs

theorem ofDigitChars_replicate_zero (count : Nat) (digits : Text) :
    Nat.ofDigitChars 10 (List.replicate count '0' ++ digits) 0 = Nat.ofDigitChars 10 digits 0 := by
  induction count with
  | zero => simp
  | succ count ih => simpa [List.replicate_succ, Nat.ofDigitChars] using ih

/-- The digits of a number begin with a zero only if the number is zero. -/
theorem head_toDigits_ne_zero {n : Nat} (hpos : 0 < n) : (Nat.toDigits 10 n).head? ≠ some '0' := by
  induction n using Nat.strongRecOn with
  | ind n ih =>
    by_cases hsmall : n < 10
    · rw [Nat.toDigits_of_lt_base hsmall]
      interval_cases n <;> decide
    · have hquotient : 0 < n / 10 := Nat.div_pos (by omega) (by decide)
      have hdigits : Nat.toDigits 10 n = Nat.toDigits 10 (n / 10) ++ Nat.toDigits 10 (n % 10) := by
        rw [Nat.toDigits_append_toDigits (by decide) hquotient (Nat.mod_lt n (by decide)), Nat.div_add_mod]
      have hhead := ih (n / 10) (by omega) hquotient
      have hsome : Nat.toDigits 10 (n / 10) ≠ [] := Nat.toDigits_ne_nil
      obtain ⟨d, rest, hrest⟩ := List.exists_cons_of_ne_nil hsome
      rw [hdigits, hrest]
      rwa [hrest] at hhead

/-- Every number is printed by its digits, with zeros in front where the scale asks for them. -/
theorem exists_digits (mantissa : Int) (scale : Nat) : ∃ whole fraction, Digits mantissa scale whole fraction := by
  let digits := Nat.toDigits 10 mantissa.natAbs
  let padded := List.replicate (scale + 1 - digits.length) '0' ++ digits
  have hlength : scale + 1 ≤ padded.length := by
    simp only [padded, List.length_append, List.length_replicate]
    omega
  have hdigit : ∀ c ∈ padded, c.isDigit := by
    intro c hc
    rcases List.mem_append.1 hc with hc | hc
    · rw [List.eq_of_mem_replicate hc]
      decide
    · exact Nat.isDigit_of_mem_toDigits (by decide) (by decide) hc
  have hwhole : (padded.take (padded.length - scale)).length = padded.length - scale :=
    List.length_take_of_le (Nat.sub_le _ _)
  have hfraction : (padded.drop (padded.length - scale)).length = scale := by
    rw [List.length_drop]
    omega
  have hhead : 1 < (padded.take (padded.length - scale)).length →
      (padded.take (padded.length - scale)).head? ≠ some '0' := by
    intro hlong
    -- Zeros are put in front of one digit only.
    have hpadded : padded = digits := by
      have hnone : scale + 1 - digits.length = 0 := by
        simp only [padded, List.length_append, List.length_replicate, List.length_take] at hlong
        omega
      simp only [padded, hnone, List.replicate_zero, List.nil_append]
    have hpos : 0 < mantissa.natAbs := by
      refine Nat.pos_of_ne_zero fun hzero => ?_
      have hone : padded.length = 1 := by simp [hpadded, digits, hzero]
      omega
    rw [List.head?_take, if_neg (by omega), hpadded]
    exact head_toDigits_ne_zero hpos
  refine ⟨padded.take (padded.length - scale), padded.drop (padded.length - scale), ?_, ?_, hhead, ?_, ?_,
    hfraction, ?_⟩
  · simp [numberText, padded, digits]
  · exact List.ne_nil_of_length_pos (by omega)
  · exact fun c hc => hdigit c (List.mem_of_mem_take hc)
  · exact fun c hc => hdigit c (List.mem_of_mem_drop hc)
  · rw [List.take_append_drop, ofDigitChars_replicate_zero]
    exact Nat.ofDigitChars_ten_toDigits

/-- A number ends before the text: it goes on neither with a digit nor with a point. -/
def EndsNumber (rest : Text) : Prop :=
  ∀ c ∈ rest.head?, c.isDigit = false ∧ c ≠ '.'

theorem takeWhile_digits {digits rest : Text} (hdigits : ∀ c ∈ digits, c.isDigit)
    (hrest : ∀ c ∈ rest.head?, c.isDigit = false) :
    (digits ++ rest).takeWhile Char.isDigit = digits ∧ (digits ++ rest).dropWhile Char.isDigit = rest := by
  have hstop : rest.takeWhile Char.isDigit = [] ∧ rest.dropWhile Char.isDigit = rest := by
    cases rest with
    | nil => exact ⟨rfl, rfl⟩
    | cons c rest => simp [hrest c rfl]
  rw [List.takeWhile_append_of_pos hdigits, List.dropWhile_append_of_pos hdigits, hstop.1, hstop.2,
    List.append_nil]
  exact ⟨rfl, rfl⟩

theorem Digits.decimal?_eq {mantissa : Int} {scale : Nat} {whole fraction : Text}
    (digits : Digits mantissa scale whole fraction) :
    Reader.decimal? (decide (mantissa < 0)) (whole ++ fraction) scale = some (.number mantissa scale) := by
  simp only [Reader.decimal?, digits.value]
  by_cases hneg : mantissa < 0
  · have hne : (mantissa.natAbs == 0) = false := by simpa using fun hzero : mantissa = 0 => by omega
    have hvalue : -(mantissa.natAbs : Int) = mantissa := by omega
    rw [decide_eq_true hneg, hne, if_pos rfl, hvalue]
    rfl
  · have hvalue : (mantissa.natAbs : Int) = mantissa := by omega
    rw [decide_eq_false hneg, if_neg Bool.false_ne_true, hvalue]
    rfl

/-- The digits of a number are read back, and the point with the digits behind it. -/
theorem Digits.unsigned?_eq {mantissa : Int} {scale : Nat} {whole fraction rest : Text}
    (digits : Digits mantissa scale whole fraction) (hrest : EndsNumber rest) :
    Reader.unsigned? (decide (mantissa < 0))
        (whole ++ ((if fraction.isEmpty then [] else '.' :: fraction) ++ rest)) =
      some (.number mantissa scale, rest) := by
  have htail : ∀ c ∈ ((if fraction.isEmpty then [] else '.' :: fraction) ++ rest).head?, c.isDigit = false := by
    intro c hc
    cases fraction with
    | nil => exact (hrest c hc).1
    | cons d fraction =>
      have hpoint : '.' = c := by simpa using hc
      exact hpoint ▸ by decide
  obtain ⟨htake, hdrop⟩ := takeWhile_digits digits.isDigit_whole htail
  have hsome : whole.isEmpty = false := by simpa using digits.whole_ne_nil
  have hhead : (decide (1 < whole.length) && whole.head? == some '0') = false := by
    simpa using digits.head_ne_zero
  have hdecimal := digits.decimal?_eq
  have hscale := digits.length_fraction
  simp only [Reader.unsigned?, htake, hdrop, hsome, hhead]
  subst hscale
  cases fraction with
  | nil =>
    rw [List.append_nil] at hdecimal
    rw [Bool.or_self, if_neg Bool.false_ne_true, List.isEmpty_nil, if_pos rfl, List.nil_append]
    split
    · next tail =>
      exact absurd rfl (hrest '.' rfl).2
    · exact congrArg (Option.map (·, rest)) hdecimal
  | cons d fraction =>
    obtain ⟨htake', hdrop'⟩ := takeWhile_digits digits.isDigit_fraction fun c hc => (hrest c hc).1
    rw [Bool.or_self, if_neg Bool.false_ne_true, List.isEmpty_cons, if_neg Bool.false_ne_true, List.cons_append]
    simp only [htake', hdrop', List.isEmpty_cons, Bool.false_eq_true, if_false, hdecimal, Option.map_some]

/-- A number is read back up to where it ends. -/
theorem number?_numberText (mantissa : Int) (scale : Nat) {rest : Text} (hrest : EndsNumber rest) :
    Reader.number? (numberText mantissa scale ++ rest) = some (.number mantissa scale, rest) := by
  obtain ⟨whole, fraction, digits⟩ := exists_digits mantissa scale
  have hunsigned := digits.unsigned?_eq hrest
  rw [digits.numberText_eq]
  by_cases hneg : mantissa < 0
  · rw [decide_eq_true hneg] at hunsigned
    rw [if_pos hneg, List.append_assoc, List.append_assoc]
    exact hunsigned
  · rw [decide_eq_false hneg] at hunsigned
    rw [if_neg hneg, List.append_assoc, List.append_assoc, List.nil_append, Reader.number?, hunsigned]
    obtain ⟨d, others, rfl⟩ := List.exists_cons_of_ne_nil digits.whole_ne_nil
    intro t hminus
    have hdigit := digits.isDigit_whole d List.mem_cons_self
    rw [(List.cons.inj hminus).1] at hdigit
    exact absurd hdigit (by decide)

end Numbers

section Nesting

mutual

/-- How deep lists and objects nest in a value. -/
def nesting : Json → Nat
  | .null | .bool _ | .number _ _ | .str _ => 0
  | .arr items => nestingItems items + 1
  | .obj fields => nestingFields fields + 1

/-- How deep they nest in the items of a list. -/
def nestingItems : List Json → Nat
  | [] => 0
  | item :: items => max (nesting item) (nestingItems items)

/-- How deep they nest in the fields of an object. -/
def nestingFields : List (String × Json) → Nat
  | [] => 0
  | entry :: fields => max (nesting entry.2) (nestingFields fields)

end

variable {room : Nat}

theorem nestingItems_le_iff {items : List Json} :
    nestingItems items ≤ room ↔ ∀ item ∈ items, item.nesting ≤ room := by
  induction items with
  | nil => simp [nestingItems]
  | cons item items ih => simp [nestingItems, ih]

theorem nestingFields_le_iff {fields : List (String × Json)} :
    nestingFields fields ≤ room ↔ ∀ entry ∈ fields, entry.2.nesting ≤ room := by
  induction fields with
  | nil => simp [nestingFields]
  | cons entry fields ih => rw [nestingFields, Nat.max_le, ih, List.forall_mem_cons]

/-- A property that passes from what is inside a list or an object to the whole holds of every value. -/
theorem inside_induction {P : Json → Prop} (null : P .null) (bool : ∀ b, P (.bool b))
    (number : ∀ mantissa scale, P (.number mantissa scale)) (str : ∀ text, P (.str text))
    (arr : ∀ items, (∀ item ∈ items, P item) → P (.arr items))
    (obj : ∀ fields, (∀ entry ∈ fields, P entry.2) → P (.obj fields)) (v : Json) : P v :=
  @Json.rec P (fun items => ∀ item ∈ items, P item) (fun fields => ∀ entry ∈ fields, P entry.2)
    (fun entry => P entry.2) null bool number str arr obj (fun _ hmem => absurd hmem List.not_mem_nil)
    (fun _ _ hitem hitems => List.forall_mem_cons.2 ⟨hitem, hitems⟩)
    (fun _ hmem => absurd hmem List.not_mem_nil)
    (fun _ _ hentry hfields => List.forall_mem_cons.2 ⟨hentry, hfields⟩) (fun _ _ hvalue => hvalue) v

end Nesting

namespace Reader

section Parts

variable {α : Type} {part? : Reader α} {close : Char} {write : α → Text} {fits : α → Prop} [DecidablePred fits]
  {level outer fuel : Nat} {rest : Text}

/-- Parts on lines of their own, with commas between them. -/
def lined (level : Nat) (write : α → Text) (part : α) (parts : List α) : Text :=
  newline level ++ (write part ++ parts.flatMap fun other => ',' :: (newline level ++ write other))

/-- A part is read back from its line, if it fits. -/
def ReadsBack (part? : Reader α) (level : Nat) (write : α → Text) (fits : α → Prop) [DecidablePred fits]
    (part : α) : Prop :=
  ∀ rest, EndsNumber rest →
    part? (newline level ++ (write part ++ rest)) = if fits part then some (part, rest) else none

theorem endsNumber_newline : EndsNumber (newline level ++ rest) := by
  simp [EndsNumber, newline]

theorem parts?_lined (hcomma : close ≠ ',') (hclose : ∀ t, skipSpace (close :: t) = close :: t) {part : α}
    {parts : List α} (hread : ∀ x ∈ part :: parts, ReadsBack part? level write fits x)
    (hfuel : parts.length < fuel) :
    parts? part? close fuel (lined level write part parts ++ (newline outer ++ close :: rest)) =
      if ∀ x ∈ part :: parts, fits x then some (part :: parts, rest) else none := by
  obtain ⟨hpart, hparts⟩ := List.forall_mem_cons.1 hread
  simp only [List.forall_mem_cons, lined, List.append_assoc]
  induction parts generalizing part fuel with
  | nil =>
    obtain ⟨fuel, rfl⟩ := Nat.exists_eq_add_of_lt hfuel
    have hclosed : skipSpace (newline outer ++ close :: rest) = close :: rest := by
      rw [skipSpace_newline, hclose]
    rw [List.flatMap_nil, List.nil_append, parts?, hpart _ endsNumber_newline]
    by_cases hfits : fits part <;> simp [hfits, hclosed, hcomma]
  | cons next parts ih =>
    obtain ⟨fuel, rfl⟩ := Nat.exists_eq_add_of_lt hfuel
    have hless : parts.length < (next :: parts).length + fuel := by
      rw [List.length_cons]
      omega
    obtain ⟨hnext, hlater⟩ := List.forall_mem_cons.1 hparts
    have hothers := ih hparts hless hnext hlater
    have hends : EndsNumber (',' :: (newline level ++ (write next ++ ((parts.flatMap fun other =>
        ',' :: (newline level ++ write other)) ++ (newline outer ++ close :: rest))))) := by
      simp [EndsNumber]
    rw [List.flatMap_cons, List.cons_append, List.cons_append, List.append_assoc, List.append_assoc, parts?,
      hpart _ hends]
    have hskip : ∀ t : Text, skipSpace (',' :: t) = ',' :: t := fun _ => skipSpace_cons rfl
    by_cases hfits : fits part
    · simp only [hfits, if_true, Option.bind_eq_bind, Option.bind_some, hskip, hothers, true_and,
        List.forall_mem_cons]
      by_cases hall : fits next ∧ ∀ x ∈ parts, fits x
      · rw [if_pos hall, if_pos hall]
        rfl
      · rw [if_neg hall, if_neg hall]
        rfl
    · simp [hfits]

theorem length_lt_lined (part : α) (parts : List α) : parts.length < (lined level write part parts).length := by
  have hparts : parts.length ≤ (parts.flatMap fun other => ',' :: (newline level ++ write other)).length := by
    induction parts with
    | nil => exact Nat.zero_le _
    | cons next parts ih =>
      simp only [List.flatMap_cons, List.length_append, List.length_cons]
      omega
  have hline : 0 < (newline level).length := Nat.succ_pos _
  simp only [lined, List.length_append]
  omega

/-- Parts are read back from their lines, if all of them fit. -/
theorem enclosed?_lined (hcomma : close ≠ ',') (hclose : ∀ t, skipSpace (close :: t) = close :: t) {part : α}
    {parts : List α} (hopens : ∀ t, ∃ c, c ≠ close ∧ ∃ tail, skipSpace (write part ++ t) = c :: tail)
    (hread : ∀ x ∈ part :: parts, ReadsBack part? level write fits x) :
    enclosed? part? close (lined level write part parts ++ (newline outer ++ close :: rest)) =
      if ∀ x ∈ part :: parts, fits x then some (part :: parts, rest) else none := by
  obtain ⟨c, hc, tail, htail⟩ := hopens ((parts.flatMap fun other => ',' :: (newline level ++ write other)) ++
    (newline outer ++ close :: rest))
  have hskip : skipSpace (lined level write part parts ++ (newline outer ++ close :: rest)) = c :: tail := by
    rw [lined, List.append_assoc, List.append_assoc, skipSpace_newline, htail]
  have hfuel : parts.length < (lined level write part parts ++ (newline outer ++ close :: rest)).length := by
    rw [List.length_append]
    exact Nat.lt_add_right _ (length_lt_lined part parts)
  rw [enclosed?, hskip]
  dsimp only
  rw [if_neg hc, parts?_lined hcomma hclose hread hfuel]

end Parts

section Values

variable {level outer room : Nat} {rest t : Text}

theorem value?_newline : value? room (newline level ++ t) = value? room t := by
  cases room <;> simp only [value?, skipSpace_newline]

theorem value?_space : value? room (' ' :: t) = value? room t := by
  cases room <;> rfl

/-- A field as it stands on its line. -/
def fieldText (level : Nat) (entry : String × Json) : Text :=
  quoted entry.1 ++ (": ".toList ++ render level entry.2)

theorem render_arr_cons (level : Nat) (item : Json) (items : List Json) :
    render level (.arr (item :: items)) =
      '[' :: (lined (level + 1) (render (level + 1)) item items ++ (newline level ++ [']'])) := by
  have hitems : ∀ items : List Json, renderItems (level + 1) items =
      items.flatMap fun other => ',' :: (newline (level + 1) ++ render (level + 1) other) := by
    intro items
    induction items with
    | nil => rw [renderItems, List.flatMap_nil]
    | cons item items ih => simp only [renderItems, ih, List.flatMap_cons, List.cons_append, List.append_assoc]
  simp only [render, hitems, lined, List.cons_append, List.append_assoc]

theorem render_obj_cons (level : Nat) (entry : String × Json) (fields : List (String × Json)) :
    render level (.obj (entry :: fields)) =
      '\x7b' :: (lined (level + 1) (fieldText (level + 1)) entry fields ++ (newline level ++ ['\x7d'])) := by
  have hfields : ∀ fields : List (String × Json), renderFields (level + 1) fields =
      fields.flatMap fun other => ',' :: (newline (level + 1) ++ fieldText (level + 1) other) := by
    intro fields
    induction fields with
    | nil => rw [renderFields, List.flatMap_nil]
    | cons entry fields ih =>
      simp only [renderFields, ih, List.flatMap_cons, fieldText, List.cons_append, List.append_assoc]
  simp only [render, hfields, lined, fieldText, List.cons_append, List.append_assoc]

/-- A field is read back from its line if its value is. -/
theorem field?_fieldText {value? : Reader Json} (fits : Json → Prop) [DecidablePred fits]
    {entry : String × Json} (hread : ∀ rest, EndsNumber rest →
      value? (' ' :: (render level entry.2 ++ rest)) = if fits entry.2 then some (entry.2, rest) else none) :
    ReadsBack (field? value?) level (fieldText level) (fun entry => fits entry.2) entry := by
  intro rest hrest
  have hopens : skipSpace (newline level ++ (fieldText level entry ++ rest)) =
      '"' :: (entry.1.toList.flatMap escapeChar ++ '"' :: ':' :: ' ' :: (render level entry.2 ++ rest)) := by
    rw [skipSpace_newline, fieldText, quoted]
    simp only [List.cons_append, List.append_assoc, List.nil_append]
    exact skipSpace_cons rfl
  have hcolon : ∀ t, skipSpace (':' :: t) = ':' :: t := fun _ => skipSpace_cons rfl
  simp only [field?, hopens, string?_quoted, Option.bind_eq_bind, Option.bind_some, hcolon, hread rest hrest]
  by_cases hfits : fits entry.2 <;> simp [hfits]

/-- The reader of what is inside a list or an object. -/
def inside? : (room : Nat) → Option (Reader Json)
  | 0 => none
  | room + 1 => some (value? room)

theorem value?_of_cons {c : Char} {t : Text} (hspace : skipSpace (c :: t) = c :: t) :
    value? room (c :: t) = valueBy? (inside? room) (c :: t) := by
  cases room <;> simp only [value?, hspace, inside?]

/-- A number begins with its sign or with a digit. -/
theorem exists_numberText_eq (mantissa : Int) (scale : Nat) :
    ∃ c rest, numberText mantissa scale = c :: rest ∧ ∀ d, d ≠ '-' → d.isDigit = false → c ≠ d := by
  obtain ⟨whole, fraction, hdigits⟩ := exists_digits mantissa scale
  obtain ⟨c, others, rfl⟩ := List.exists_cons_of_ne_nil hdigits.whole_ne_nil
  rw [hdigits.numberText_eq]
  by_cases hsign : mantissa < 0
  · refine ⟨'-', _, by rw [if_pos hsign]; rfl, fun d hminus _ => hminus.symm⟩
  · refine ⟨c, _, by rw [if_neg hsign]; rfl, fun d _ hdigit heq => ?_⟩
    have hc := hdigits.isDigit_whole c List.mem_cons_self
    rw [heq, hdigit] at hc
    exact Bool.false_ne_true hc

/-- The text of a value does not begin with white space or with a closing mark. -/
theorem exists_render_eq_cons (level : Nat) (v : Json) :
    ∃ c tail, render level v = c :: tail ∧ c ≠ ']' ∧ ∀ t, skipSpace (c :: t) = c :: t := by
  cases v with
  | null => exact ⟨'n', _, rfl, by decide, fun _ => rfl⟩
  | bool b => cases b <;> exact ⟨_, _, rfl, by decide, fun _ => rfl⟩
  | number mantissa scale =>
    obtain ⟨c, tail, htext, hc⟩ := exists_numberText_eq mantissa scale
    refine ⟨c, tail, htext, hc ']' (by decide) (by decide), fun t => skipSpace_cons ?_⟩
    simp [hc ' ' (by decide) (by decide), hc '\n' (by decide) (by decide), hc '\r' (by decide) (by decide),
      hc '\t' (by decide) (by decide)]
  | str text => exact ⟨'"', _, rfl, by decide, fun _ => rfl⟩
  | arr items => cases items <;> exact ⟨'[', _, rfl, by decide, fun _ => rfl⟩
  | obj fields => cases fields <;> exact ⟨'\x7b', _, rfl, by decide, fun _ => rfl⟩

theorem valueBy?_number {inside? : Option (Reader Json)} {mantissa : Int} {scale : Nat}
    (hrest : EndsNumber rest) :
    valueBy? inside? (numberText mantissa scale ++ rest) = some (.number mantissa scale, rest) := by
  obtain ⟨c, tail, htext, hc⟩ := exists_numberText_eq mantissa scale
  have hread := number?_numberText mantissa scale hrest
  rw [htext, List.cons_append] at hread ⊢
  rw [valueBy?, if_neg (hc _ (by decide) (by decide)), if_neg (hc _ (by decide) (by decide)),
    if_neg (hc _ (by decide) (by decide)), if_neg (hc _ (by decide) (by decide)),
    if_neg (hc _ (by decide) (by decide)), if_neg (hc _ (by decide) (by decide)), hread]

theorem value?_eq_valueBy? (level : Nat) (v : Json) :
    value? room (render level v ++ rest) = valueBy? (inside? room) (render level v ++ rest) := by
  obtain ⟨c, tail, htext, _, hspace⟩ := exists_render_eq_cons level v
  rw [htext, List.cons_append]
  exact value?_of_cons (hspace _)

theorem valueBy?_none_arr (level : Nat) (items : List Json) (rest : Text) :
    valueBy? (inside? 0) (render level (.arr items) ++ rest) =
      if (Json.arr items).nesting ≤ 0 then some (.arr items, rest) else none := by
  cases items <;> rfl

theorem valueBy?_none_obj (level : Nat) (fields : List (String × Json)) (rest : Text) :
    valueBy? (inside? 0) (render level (.obj fields) ++ rest) =
      if (Json.obj fields).nesting ≤ 0 then some (.obj fields, rest) else none := by
  cases fields <;> rfl

/-- A list is read back if its items are. -/
theorem valueBy?_arr {items : List Json} (hread : ∀ x ∈ items, ∀ rest, EndsNumber rest →
      value? room (render (level + 1) x ++ rest) = if x.nesting ≤ room then some (x, rest) else none) :
    valueBy? (inside? (room + 1)) (render level (.arr items) ++ rest) =
      if ∀ x ∈ items, x.nesting ≤ room then some (.arr items, rest) else none := by
  cases items with
  | nil =>
    rw [if_pos fun _ hmem => absurd hmem List.not_mem_nil]
    rfl
  | cons item items =>
    have hlined : enclosed? (value? room) ']' (lined (level + 1) (render (level + 1)) item items ++
        (newline level ++ ']' :: rest)) =
          if ∀ x ∈ item :: items, x.nesting ≤ room then some (item :: items, rest) else none := by
      refine enclosed?_lined (by decide) (fun t => skipSpace_cons rfl) (fun t => ?_) fun x hx rest hrest => ?_
      · obtain ⟨c, tail, htext, hc, hspace⟩ := exists_render_eq_cons (level + 1) item
        rw [htext, List.cons_append]
        exact ⟨c, hc, _, hspace _⟩
      · rw [value?_newline, hread x hx rest hrest]
    rw [render_arr_cons, List.cons_append, List.append_assoc, List.append_assoc, List.singleton_append]
    change (enclosed? (value? room) ']' _).map _ = _
    rw [hlined]
    split <;> rfl

/-- An object is read back if the values of its fields are. -/
theorem valueBy?_obj {fields : List (String × Json)} (hread : ∀ x ∈ fields, ∀ rest, EndsNumber rest →
      value? room (render (level + 1) x.2 ++ rest) = if x.2.nesting ≤ room then some (x.2, rest) else none) :
    valueBy? (inside? (room + 1)) (render level (.obj fields) ++ rest) =
      if ∀ x ∈ fields, x.2.nesting ≤ room then some (.obj fields, rest) else none := by
  cases fields with
  | nil =>
    rw [if_pos fun _ hmem => absurd hmem List.not_mem_nil]
    rfl
  | cons entry fields =>
    have hlined : enclosed? (field? (value? room)) '\x7d' (lined (level + 1) (fieldText (level + 1)) entry fields ++
        (newline level ++ '\x7d' :: rest)) =
          if ∀ x ∈ entry :: fields, x.2.nesting ≤ room then some (entry :: fields, rest) else none := by
      refine enclosed?_lined (by decide) (fun t => skipSpace_cons rfl) (fun t => ?_) fun x hx => ?_
      · exact ⟨'"', by decide, _, skipSpace_cons rfl⟩
      · refine field?_fieldText (fun v => v.nesting ≤ room) fun rest hrest => ?_
        rw [value?_space, hread x hx rest hrest]
    rw [render_obj_cons, List.cons_append, List.append_assoc, List.append_assoc, List.singleton_append]
    change (enclosed? (field? (value? room)) '\x7d' _).map _ = _
    rw [hlined]
    split <;> rfl

/-- A value is read back from its text if and only if it nests no deeper than there is room for. -/
theorem value?_render (v : Json) : ∀ (room level : Nat) (rest : Text), EndsNumber rest →
    value? room (render level v ++ rest) = if v.nesting ≤ room then some (v, rest) else none := by
  induction v using inside_induction with
  | null =>
    intro room level rest _
    simp only [nesting, Nat.zero_le, if_true, value?_eq_valueBy?]
    rfl
  | bool b =>
    intro room level rest _
    simp only [nesting, Nat.zero_le, if_true, value?_eq_valueBy?]
    cases b <;> rfl
  | number mantissa scale =>
    intro room level rest hrest
    simp only [nesting, Nat.zero_le, if_true, value?_eq_valueBy?]
    exact valueBy?_number hrest
  | str text =>
    intro room level rest _
    rw [value?_eq_valueBy?]
    simp only [nesting, Nat.zero_le, if_true, render, quoted, List.cons_append, List.append_assoc,
      List.nil_append, valueBy?, string?_quoted, Option.map_some, String.ofList_toList]
  | arr items ih =>
    intro room level rest _
    rw [value?_eq_valueBy?]
    cases room with
    | zero => exact valueBy?_none_arr level items rest
    | succ room =>
      simp only [nesting, Nat.succ_le_succ_iff, nestingItems_le_iff]
      exact valueBy?_arr fun x hx rest hrest => ih x hx room (level + 1) rest hrest
  | obj fields ih =>
    intro room level rest _
    rw [value?_eq_valueBy?]
    cases room with
    | zero => exact valueBy?_none_obj level fields rest
    | succ room =>
      simp only [nesting, Nat.succ_le_succ_iff, nestingFields_le_iff]
      exact valueBy?_obj fun x hx rest hrest => ih x hx room (level + 1) rest hrest

end Values

end Reader

theorem endsNumber_of_blank {t : Text} (hblank : Reader.skipSpace t = []) : EndsNumber t := by
  intro c hc
  rw [Reader.skipSpace, List.dropWhile_eq_nil_iff] at hblank
  have hspace := hblank c (List.mem_of_mem_head? hc)
  simp only [Bool.or_eq_true, beq_iff_eq] at hspace
  obtain ((rfl | rfl) | rfl) | rfl := hspace <;> decide

/-- A printed document with white space behind it is read back if and only if it nests no deeper than the
limit of the reader. -/
theorem read?_render (v : Json) {t : Text} (hblank : Reader.skipSpace t = []) :
    read? (render 0 v ++ t) = if v.nesting ≤ nestingLimit then some v else none := by
  rw [read?, Reader.value?_render v nestingLimit 0 t (endsNumber_of_blank hblank)]
  split
  · simp [hblank]
  · rfl

end Outline.Json
