import Outline.Json.Basic

namespace Outline.Json

/-- A hexadecimal digit. -/
private def hexDigit (n : Nat) : Char :=
  if n < 10 then Char.ofNat (48 + n) else Char.ofNat (87 + n)

/-- A character as it stands inside a string. -/
def escapeChar (c : Char) : Text :=
  if c = '"' then ['\\', '"']
  else if c = '\\' then ['\\', '\\']
  else if c = '\n' then ['\\', 'n']
  else if c = '\r' then ['\\', 'r']
  else if c = '\t' then ['\\', 't']
  else if c = '\x08' then ['\\', 'b']
  else if c = '\x0c' then ['\\', 'f']
  else if c.toNat < 0x20 then ['\\', 'u', '0', '0', hexDigit (c.toNat / 16), hexDigit (c.toNat % 16)]
  else [c]

/-- A string in quotes. -/
def quoted (s : String) : Text :=
  '"' :: s.toList.flatMap escapeChar ++ ['"']

/-- A number in decimal notation. -/
def numberText (mantissa : Int) (scale : Nat) : Text :=
  let digits := (toString mantissa.natAbs).toList
  let padded := List.replicate (scale + 1 - digits.length) '0' ++ digits
  let whole := padded.take (padded.length - scale)
  let fraction := padded.drop (padded.length - scale)
  (if mantissa < 0 then ['-'] else []) ++ whole ++
    (if fraction.isEmpty then [] else '.' :: fraction)

/-- A line break followed by the indentation of a level. -/
def newline (level : Nat) : Text :=
  '\n' :: Text.spaces (2 * level)

mutual

/-- The text of a value that starts on a line indented by `level`. -/
def render (level : Nat) : Json → Text
  | .null => "null".toList
  | .bool true => "true".toList
  | .bool false => "false".toList
  | .number mantissa scale => numberText mantissa scale
  | .str value => quoted value
  | .arr [] => "[]".toList
  | .arr (item :: items) =>
    '[' :: newline (level + 1) ++ render (level + 1) item ++ renderItems (level + 1) items ++
      newline level ++ [']']
  | .obj [] => ['\x7b', '\x7d']
  | .obj (entry :: fields) =>
    '\x7b' :: newline (level + 1) ++ quoted entry.1 ++ ": ".toList ++ render (level + 1) entry.2 ++
      renderFields (level + 1) fields ++ newline level ++ ['\x7d']

/-- The items of a list after the first. -/
def renderItems (level : Nat) : List Json → Text
  | [] => []
  | item :: items => ',' :: newline level ++ render level item ++ renderItems level items

/-- The fields of an object after the first. -/
def renderFields (level : Nat) : List (String × Json) → Text
  | [] => []
  | entry :: fields =>
    ',' :: newline level ++ quoted entry.1 ++ ": ".toList ++ render level entry.2 ++
      renderFields level fields

end

/-- The whole document as text. -/
def pretty (value : Json) : String :=
  String.ofList (render 0 value)

end Outline.Json
