import Outline.Config.Codec
import Outline.Yaml.Basic

namespace Outline

namespace Yaml

/-- The value of digits in a base; no digits are no number. -/
def digits? (base : Nat) (t : Text) : Option Nat := do
  guard (!t.isEmpty)
  t.foldlM (fun n c => do
    let digit ← hexValue? c
    guard (digit < base)
    return base * n + digit) 0

/-- A natural number that fits 64 bits, if it does. -/
def asWord? (n : Nat) : Option Nat :=
  if n < UInt64.size then some n else none

/-- Digits after a mark of their base. -/
def basedDigits? (t : Text) : Option Nat :=
  match t with
  | '0' :: 'x' :: rest => digits? 16 rest
  | '0' :: 'o' :: rest => digits? 8 rest
  | '0' :: 'b' :: rest => digits? 2 rest
  | _ => none

/-- A natural number that fits 64 bits: decimal without needless zeros, or with a mark of its base.
A plus may stand before it. -/
def wordOf? (t : Text) : Option Nat :=
  let unsigned := (Text.strip? ['+'] t).getD t
  match basedDigits? unsigned with
  | some n => asWord? n
  | none =>
    if 1 < unsigned.length && unsigned.startsWhere (· == '0') then none
    else (digits? 10 unsigned).bind asWord?

/-- Whether a scalar can stand for a value of a type: it is plain, or a literal block with the tag
of the type. -/
def stands (type : String) (style : Style) (tag : Option Tag) : Bool :=
  style == .plain ||
    (style == .literal && tag == some (Utf8.encode ("tag:yaml.org,2002:" ++ type).toList))

/-- Reads a natural number that fits 64 bits. -/
def word? (document value : Yaml) : Option Nat := do
  match ← document.resolve? value with
  | .scalar _ style tag text => if stands "int" style tag then wordOf? text else none
  | _ => none

/-- Reads a truth value. -/
def bool? (document value : Yaml) : Option Bool := do
  match ← document.resolve? value with
  | .scalar _ style tag text =>
    if !stands "bool" style tag then none
    else if ["true", "True", "TRUE"].contains (String.ofList text) then some true
    else if ["false", "False", "FALSE"].contains (String.ofList text) then some false
    else none
  | _ => none

/-- Reads a text, which is a scalar of any style. -/
def text? (document value : Yaml) : Option String := do
  match ← document.resolve? value with
  | .scalar _ _ _ text => some (String.ofList text)
  | _ => none

/-- Reads the fields of a mapping whose keys are texts; an absent value has none. -/
def fields? (document value : Yaml) : Option (List (String × Yaml)) := do
  match ← document.resolve? value with
  | .mapping _ fields => fields.mapM fun field => (document.text? field.1).map fun key => (key, field.2)
  | .scalar _ style _ text => if style == .plain && text.isEmpty then some [] else none
  | _ => none

/-- Reads a record, which is a mapping in which no field of the record occurs twice. -/
def record? (names : List String) (document value : Yaml) : Option (List (String × Yaml)) := do
  let fields ← document.fields? value
  guard (names.all fun name => (fields.filter fun field => field.1 == name).length ≤ 1)
  return fields

/-- Reads a field of a record; a missing field has the value `standard`. -/
def setting? (fields : List (String × Yaml)) (name : String) (standard : α) (read : Yaml → Option α) :
    Option α :=
  match fields.lookup name with
  | some value => read value
  | none => some standard

/-- The name that a local tag gives. -/
def localName? : Tag → Option String
  | 0x21 :: rest =>
    match Utf8.decode (if rest.isEmpty then [0x21] else rest) with
    | .ok name => some (String.ofList name)
    | .error _ => none
  | _ => none

/-- Whether a scalar says that there is no value. -/
def isNull (style : Style) (text : Text) : Bool :=
  style == .plain && ["", "~", "null", "Null", "NULL"].contains (String.ofList text)

end Yaml

/-- Reads a language by its name, which is the text of a scalar or else its local tag, with no text
beside it. -/
def Language.ofYaml? (document value : Yaml) : Option Language := do
  match ← document.resolve? value with
  | .scalar _ style tag text =>
    match tag.bind Yaml.localName? with
    | some name => if Yaml.isNull style text then Language.ofTag? name else none
    | none => Language.ofTag? (String.ofList text)
  | _ => none

/-- Reads limits; what is missing has its default. -/
def Limits.ofYaml? (document value : Yaml) : Option Limits := do
  let fields ← Yaml.record? Limits.fieldNames document value
  let standard : Limits := {}
  let limit? := fun name usual => Yaml.setting? fields name usual document.word?
  let maxBlockSpan ← limit? "max_block_span" standard.maxBlockSpan
  let maxIterations ← limit? "max_iterations" standard.maxIterations
  let fallbackSpan ← limit? "fallback_span" standard.fallbackSpan
  let openerLookahead ← limit? "opener_lookahead" standard.openerLookahead
  let maxDepth ← limit? "max_depth" standard.maxDepth
  let maxDeclarations ← limit? "max_declarations" standard.maxDeclarations
  return ⟨⟨maxBlockSpan, maxIterations, fallbackSpan, openerLookahead⟩, maxDepth, maxDeclarations⟩

namespace Config

/-- Reads the overrides of extensions. -/
def overridesOfYaml? (document value : Yaml) : Option (List (String × Language)) := do
  let entries ← (← document.fields? value).mapM fun field =>
    (Language.ofYaml? document field.2).map fun language => (field.1, language)
  return overridesOf entries

/-- Reads a configuration, usable or not; what is missing has its default, and unknown names are
ignored. -/
def ofYaml? (document : Yaml) : Option Config := do
  let fields ← Yaml.record? fieldNames document document
  let standard : Config := {}
  let workers ← Yaml.setting? fields "workers" standard.workers document.word?
  let overrides ← Yaml.setting? fields "extension_overrides" [] (overridesOfYaml? document)
  let extractImports ← Yaml.setting? fields "extract_imports" standard.extractImports document.bool?
  let showProgress ← Yaml.setting? fields "show_progress" standard.showProgress document.bool?
  let cache ← Yaml.setting? fields "cache" standard.cache document.bool?
  let limits ← Yaml.setting? fields "limits" standard.limits (Limits.ofYaml? document)
  return ⟨workers, overrides, extractImports, showProgress, cache, limits⟩

/-- Why a text is no configuration. -/
inductive LoadFault where
  /-- The text cannot be read as settings. -/
  | malformed
  /-- The settings are unusable. -/
  | unusable (fault : Fault)
deriving DecidableEq, Repr

/-- The reason in words. -/
def LoadFault.message : LoadFault → String
  | .malformed => "malformed settings"
  | .unusable fault => fault.message

/-- Reads a usable configuration. A blank text has the default of every setting. -/
def load (t : Text) : Except LoadFault Config :=
  match if Text.isBlankText t then some {} else (Yaml.parse? t).bind ofYaml? with
  | none => .error .malformed
  | some config =>
    match config.validate with
    | .error fault => .error (.unusable fault)
    | .ok usable => .ok usable

end Config

end Outline
