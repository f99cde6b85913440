import Outline.Json.Basic

namespace Outline.Json

/-- Reads something from the front of a text. What follows it is left over. -/
abbrev Reader (α : Type) := Text → Option (α × Text)

namespace Reader

/-- Passes over the white space that may stand between the parts of a document. -/
def skipSpace (t : Text) : Text :=
  t.dropWhile fun c => c == ' ' || c == '\n' || c == '\r' || c == '\t'

section Strings

/-- The number that hexadecimal digits denote. -/
def hexCode? (digits : Text) : Option Nat :=
  digits.foldlM (fun n c => (hexValue? c).map (16 * n + ·)) 0

/-- The character that an escape of one letter stands for. -/
def unescape? : Char → Option Char
  | '"' => some '"'
  | '\\' => some '\\'
  | '/' => some '/'
  | 'b' => some '\x08'
  | 'f' => some '\x0c'
  | 'n' => some '\n'
  | 'r' => some '\r'
  | 't' => some '\t'
  | _ => none

/-- The character that two halves of an escaped pair stand for. -/
def paired? (high low : Nat) : Option Char :=
  if 0xD800 ≤ high && high < 0xDC00 && 0xDC00 ≤ low && low < 0xE000 then
    some (Char.ofNat (0x10000 + (high - 0xD800) * 0x400 + (low - 0xDC00)))
  else none

/-- Puts a character in front of what was read. -/
def push (c : Char) (read : Text × Text) : Text × Text :=
  (c :: read.1, read.2)

/-- Reads the characters of a string up to and with its closing quote. -/
def string? : Reader Text
  | [] => none
  | '"' :: rest => some ([], rest)
  | '\\' :: 'u' :: a :: b :: c :: d :: rest =>
    (hexCode? [a, b, c, d]).bind fun code =>
      if code.isValidChar then (string? rest).map (push (Char.ofNat code))
      else
        match rest with
        | '\\' :: 'u' :: e :: f :: g :: h :: rest =>
          ((hexCode? [e, f, g, h]).bind (paired? code)).bind fun found => (string? rest).map (push found)
        | _ => none
  | '\\' :: c :: rest => (unescape? c).bind fun found => (string? rest).map (push found)
  | c :: rest => if c.toNat < 0x20 then none else (string? rest).map (push c)

end Strings

section Numbers

/-- The number with that sign, those digits, and the last `scale` of them behind the point. A zero has no
sign. -/
def decimal? (negative : Bool) (digits : Text) (scale : Nat) : Option Json :=
  let n := Nat.ofDigitChars 10 digits 0
  if negative && n == 0 then none else some (.number (if negative then -(n : Int) else n) scale)

/-- Reads a number after its sign. -/
def unsigned? (negative : Bool) : Reader Json := fun t =>
  let whole := t.takeWhile Char.isDigit
  if whole.isEmpty || (1 < whole.length && whole.head? == some '0') then none
  else
    match t.dropWhile Char.isDigit with
    | '.' :: rest =>
      let fraction := rest.takeWhile Char.isDigit
      if fraction.isEmpty then none
      else (decimal? negative (whole ++ fraction) fraction.length).map (·, rest.dropWhile Char.isDigit)
    | rest => (decimal? negative whole 0).map (·, rest)

/-- Reads a number without an exponent. -/
def number? : Reader Json
  | '-' :: t => unsigned? true t
  | t => unsigned? false t

end Numbers

section Values

/-- Reads the ending of a word that stands for a value. -/
def word? (ending : Text) (value : Json) : Reader Json := fun t =>
  (Text.strip? ending t).map (value, ·)

/-- Reads parts with commas between them up to and with the mark that closes them. -/
def parts? (part? : Reader α) (close : Char) : (fuel : Nat) → Reader (List α)
  | 0, _ => none
  | fuel + 1, t => do
    let (part, rest) ← part? t
    match skipSpace rest with
    | [] => failure
    | c :: rest =>
      if c = ',' then
        let (others, rest) ← parts? part? close fuel rest
        return (part :: others, rest)
      else if c = close then return ([part], rest)
      else failure

/-- Reads parts that may be none, after the mark that opens them. -/
def enclosed? (part? : Reader α) (close : Char) : Reader (List α) := fun t =>
  match skipSpace t with
  | [] => none
  | c :: rest => if c = close then some ([], rest) else parts? part? close t.length t

/-- Reads a name in quotes, the colon behind it, and a value. -/
def field? (value? : Reader Json) : Reader (String × Json) := fun t =>
  match skipSpace t with
  | '"' :: rest => do
    let (name, rest) ← string? rest
    match skipSpace rest with
    | ':' :: rest =>
      let (value, rest) ← value? rest
      return ((String.ofList name, value), rest)
    | _ => failure
  | _ => none

/-- Reads a value by its first character. Lists and objects are refused if there is no reader for the
values inside them. -/
def valueBy? (inside? : Option (Reader Json)) : Reader Json
  | [] => none
  | c :: rest =>
    if c = '"' then (string? rest).map fun read => (.str (String.ofList read.1), read.2)
    else if c = '[' then
      inside?.bind fun inside => (enclosed? inside ']' rest).map fun read => (.arr read.1, read.2)
    else if c = '\x7b' then
      inside?.bind fun inside => (enclosed? (field? inside) '\x7d' rest).map fun read => (.obj read.1, read.2)
    else if c = 'n' then word? "ull".toList .null rest
    else if c = 't' then word? "rue".toList (.bool true) rest
    else if c = 'f' then word? "alse".toList (.bool false) rest
    else number? (c :: rest)

/-- Reads a value in which lists and objects nest at most `room` deep. -/
def value? : (room : Nat) → Reader Json
  | 0 => fun t => valueBy? none (skipSpace t)
  | room + 1 => fun t => valueBy? (some (value? room)) (skipSpace t)

end Values

end Reader

/-- How deep lists and objects may nest in a document that is read. -/
def nestingLimit : Nat := 127

/-- Reads a document. -/
def read? (t : Text) : Option Json := do
  let (value, rest) ← Reader.value? nestingLimit t
  guard (Reader.skipSpace rest).isEmpty
  return value

end Outline.Json
