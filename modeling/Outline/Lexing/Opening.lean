import Outline.Lexing.Lexicon

namespace Outline

/-- The identifier that ends right before a position, back to front, given what precedes the position
back to front. -/
def nameBefore (before : Text) : Text :=
  before.takeWhile isNameChar

namespace StringRule

/-- The opening of a fenced literal with one of its openers. -/
def openFence? (before rest : Text) (minHashes : Nat) (triple : Bool) (opener : Text) :
    Option (Nat × LexState) :=
  match Text.strip? opener rest with
  | none => none
  | some after =>
    if !opener.isEmpty && !(nameBefore before).isEmpty then none
    else
      let fence := after.takeWhile (· == '#')
      let body := after.dropWhile (· == '#')
      if fence.length < minHashes then none
      else if triple && Text.startsWith ['"', '"', '"'] body then
        some (opener.length + fence.length + 3, .literal (['"', '"', '"'] ++ fence) false true)
      else if Text.startsWith ['"'] body then
        some (opener.length + fence.length + 1, .literal ('"' :: fence) false true)
      else none

/-- Encodings that may stand right before a tagged literal, back to front. -/
def encodingMarks : List Text :=
  [[], ['8', 'u'], ['L'], ['u'], ['U']]

/-- The opening of a tagged literal. The tag has at most sixteen bytes and holds no white space, closing
parenthesis or backslash. -/
def openTag? (before rest : Text) : Option (Nat × LexState) :=
  match Text.strip? ['R', '"'] rest with
  | none => none
  | some after =>
    if !encodingMarks.contains (nameBefore before) then none
    else
      match Text.cut? ['('] after with
      | none => none
      | some (tag, _) =>
        if Text.byteSize tag > 16 || tag.any (fun c => isBlank c || c == ')' || c == '\\') then none
        else some (tag.length + 3, .literal (')' :: tag ++ ['"']) false true)

/-- The opening of a literal by one rule. -/
def open? (before rest : Text) : StringRule → Option (Nat × LexState)
  | .quoted opener close escapes multiline =>
    if Text.startsWith opener rest then some (opener.length, .literal close escapes multiline) else none
  | .fenced openers minHashes triple =>
    openers.findSome? (openFence? before rest minHashes triple)
  | .tagged => openTag? before rest

end StringRule

/-- How many characters a character literal takes whose opening quote stands before `after`. -/
def charLiteralLength? (after : Text) : Option Nat :=
  match after with
  | [] => none
  | '\\' :: escaped =>
    -- the quote that closes an escape comes among the ten characters after the escaped one
    ((escaped.drop 1).take 10).findIdx? (· == '\'') |>.map (· + 4)
  | '\'' :: _ => none
  | _ :: '\'' :: _ => some 3
  | _ => none

end Outline
