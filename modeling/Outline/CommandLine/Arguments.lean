import Outline.Text.Basic

namespace Outline.CommandLine

/-- An option. -/
inductive Switch where
  | verbose
  | config
  | format
  | workers
  | noImports
  | progress
  | help
  | version
deriving DecidableEq, Repr

namespace Switch

/-- The name after two dashes. -/
def long : Switch → String
  | .verbose => "verbose"
  | .config => "config"
  | .format => "format"
  | .workers => "workers"
  | .noImports => "no-imports"
  | .progress => "progress"
  | .help => "help"
  | .version => "version"

/-- The letter after one dash. -/
def short? : Switch → Option Char
  | .verbose => some 'v'
  | .config => some 'c'
  | .format => some 'f'
  | .workers => some 'w'
  | .help => some 'h'
  | .version => some 'V'
  | .noImports | .progress => none

/-- Whether the option has a value. -/
def takesValue : Switch → Bool
  | .config | .format | .workers => true
  | _ => false

/-- Whether the option asks for information and ends the reading of arguments. -/
def isInquiry : Switch → Bool
  | .help | .version => true
  | _ => false

/-- The options before the subcommand. -/
def ofProgram : List Switch := [.verbose, .config, .help, .version]

/-- The options of the subcommand that scans. -/
def ofScan : List Switch := [.format, .workers, .noImports, .progress, .verbose, .config, .help]

/-- The options of the subcommand that lists languages. -/
def ofLanguages : List Switch := [.verbose, .config, .help]

end Switch

/-- What an argument contributes. -/
inductive Item where
  | flag (switch : Switch)
  | setting (switch : Switch) (value : Text)
  | word (text : Text)
deriving DecidableEq, Repr

/-- Why arguments do not lead to a command. -/
inductive Refusal where
  /-- They ask for information about the program. -/
  | inquiry
  /-- They are wrong. -/
  | misuse
deriving DecidableEq, Repr

/-- A count written in decimal digits, with or without a plus, that fits 64 bits. -/
def count? (t : Text) : Option Nat := do
  let digits := (Text.strip? ['+'] t).getD t
  guard (!digits.isEmpty && digits.all isAsciiDigit)
  let n := digits.foldl (fun n c => 10 * n + (c.toNat - '0'.toNat)) 0
  if n < UInt64.size then some n else none

namespace Item

/-- The option that an item sets. -/
def switch? : Item → Option Switch
  | .flag switch | .setting switch _ => some switch
  | .word _ => none

/-- Whether the value of an item can be what it stands for: paths are not empty, and workers are
counted. -/
def isWellFormed : Item → Bool
  | .setting .config value => !value.isEmpty
  | .setting .workers value => (count? value).isSome
  | .word text => !text.isEmpty
  | _ => true

/-- Whether all values are well formed and no option is set twice. -/
def areSound (items : List Item) : Bool :=
  items.all isWellFormed && decide (items.filterMap switch?).Nodup

/-- Whether an option is set. -/
def isSet (switch : Switch) (items : List Item) : Bool :=
  items.any fun item => item.switch? == some switch

/-- The value of an option. -/
def valueOf? (switch : Switch) (items : List Item) : Option Text :=
  items.findSome? fun
    | .setting other value => if other = switch then some value else none
    | _ => none

/-- The arguments that are no options. -/
def words (items : List Item) : List Text :=
  items.filterMap fun
    | .word text => some text
    | _ => none

end Item

/-- How an argument reads before the options in use are known. -/
inductive Shape where
  /-- `--` alone. -/
  | terminator
  /-- A name after two dashes, with the value after an equals sign. -/
  | long (name : Text) (value : Option Text)
  /-- Letters after one dash. -/
  | short (letters : Text)
  | word

/-- The shape of an argument. A dash alone is a word. -/
def shapeOf (argument : Text) : Shape :=
  match argument with
  | ['-', '-'] => .terminator
  | '-' :: '-' :: rest =>
    match Text.cut? ['='] rest with
    | some (name, value) => .long name (some value)
    | none => .long rest none
  | '-' :: c :: rest => .short (c :: rest)
  | _ => .word

/-- What an argument that holds options does to the items read so far, latest first. -/
inductive Effect where
  /-- The items are extended. -/
  | items (items : List Item)
  /-- The items are extended, and the next argument is the value of an option. -/
  | awaiting (switch : Switch) (items : List Item)

/-- Adds an item that is checked at once. -/
def addChecked (item : Item) (items : List Item) : Except Refusal (List Item) :=
  if Item.areSound (item :: items) then .ok (item :: items) else .error .misuse

/-- Adds a flag; one that asks for information ends the reading. -/
def addFlag (switch : Switch) (items : List Item) : Except Refusal (List Item) :=
  if !Item.areSound items then .error .misuse
  else if switch.isInquiry then .error .inquiry
  else addChecked (.flag switch) items

/-- Waits for the value of an option in the next argument. -/
def await (switch : Switch) (items : List Item) : Except Refusal Effect :=
  if Item.areSound items then .ok (.awaiting switch items) else .error .misuse

/-- Reads an option by its long name. -/
def readLong (switches : List Switch) (name : Text) (value : Option Text) (items : List Item) :
    Except Refusal Effect :=
  match switches.find? fun switch => switch.long.toList == name with
  | none => .error .misuse
  | some switch =>
    match switch.takesValue, value with
    | true, some value => (addChecked (.setting switch value) items).map .items
    | true, none => await switch items
    | false, some _ => .error .misuse
    | false, none => (addFlag switch items).map .items

/-- Reads options by their letters. What follows an option with a value is its value, less an equals
sign. -/
def readShort (switches : List Switch) : Text → List Item → Except Refusal Effect
  | [], items => .ok (.items items)
  | letter :: rest, items =>
    match switches.find? fun switch => switch.short? == some letter with
    | none => .error .misuse
    | some switch =>
      if switch.takesValue then
        if rest.isEmpty then await switch items
        else (addChecked (.setting switch ((Text.strip? ['='] rest).getD rest)) items).map .items
      else
        match addFlag switch items with
        | .error refusal => .error refusal
        | .ok items => readShort switches rest items

/-- Reads the arguments of one level into items, latest first, and gives back what it leaves. The
program's own level ends at the first word, which names a subcommand; a subcommand may take words. -/
def readItems (switches : List Switch) (stopAtWord takesWords : Bool) (items : List Item) :
    List Text → Except Refusal (List Item × List Text)
  | [] => .ok (items, [])
  | argument :: rest =>
    let proceed : Except Refusal Effect → Except Refusal (List Item × List Text)
      | .error refusal => .error refusal
      | .ok (.items items) => readItems switches stopAtWord takesWords items rest
      | .ok (.awaiting switch items) =>
        match rest with
        | [] => .error .misuse
        | value :: rest =>
          match shapeOf value with
          | .word => readItems switches stopAtWord takesWords (.setting switch value :: items) rest
          | _ => .error .misuse
    match shapeOf argument with
    | .long name value => proceed (readLong switches name value items)
    | .short letters => proceed (readShort switches letters items)
    | .terminator =>
      if takesWords || rest.isEmpty then .ok ((rest.map Item.word).reverse ++ items, [])
      else .error .misuse
    | .word =>
      if stopAtWord then .ok (items, argument :: rest)
      else if takesWords then readItems switches stopAtWord takesWords (.word argument :: items) rest
      else .error .misuse

/-- What to scan and how. -/
structure ScanRequest where
  paths : List Text
  format : Text
  workers : Option Nat
  withoutImports : Bool
  showProgress : Bool
deriving DecidableEq, Repr

/-- A subcommand with its options. -/
inductive Command where
  | scan (request : ScanRequest)
  | languages
deriving DecidableEq, Repr

/-- A command with the path of the settings it runs under. -/
structure Invocation where
  settings : Option Text
  command : Command
deriving DecidableEq, Repr

/-- The arguments of one level, in order, if all are sound. -/
def readLevel (switches : List Switch) (takesWords : Bool) (arguments : List Text) :
    Except Refusal (List Item) :=
  match readItems switches false takesWords [] arguments with
  | .error refusal => .error refusal
  | .ok (items, _) => if Item.areSound items then .ok items.reverse else .error .misuse

/-- The request that the items after `scan` make; there must be something to scan. -/
def scanRequest (items : List Item) : Except Refusal ScanRequest :=
  if (Item.words items).isEmpty then .error .misuse
  else
    .ok ⟨Item.words items, (Item.valueOf? .format items).getD "pretty".toList,
      (Item.valueOf? .workers items).bind count?, Item.isSet .noImports items,
      Item.isSet .progress items⟩

/-- Reads a subcommand and its arguments. -/
def readCommand : List Text → Except Refusal Invocation
  | [] => .error .misuse
  | name :: arguments =>
    if name = "scan".toList then do
      let items ← readLevel Switch.ofScan true arguments
      let request ← scanRequest items
      return ⟨Item.valueOf? .config items, .scan request⟩
    else if name = "languages".toList then do
      let items ← readLevel Switch.ofLanguages false arguments
      return ⟨Item.valueOf? .config items, .languages⟩
    else if name = "help".toList then
      match arguments with
      | [] => .error .inquiry
      | [topic] =>
        if ["scan", "languages", "help"].contains (String.ofList topic) then .error .inquiry
        else .error .misuse
      | _ => .error .misuse
    else .error .misuse

/-- Reads all arguments. Settings named after the subcommand win over those named before it. -/
def read (arguments : List Text) : Except Refusal Invocation := do
  let (items, rest) ← readItems Switch.ofProgram true false [] arguments
  let invocation ← readCommand rest
  if Item.areSound items then
    return { invocation with settings := invocation.settings.or (Item.valueOf? .config items) }
  else .error .misuse

end Outline.CommandLine
