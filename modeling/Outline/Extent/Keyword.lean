import Outline.Extent.Basic

namespace Outline

/-- Words that open a block. -/
def blockWords : List Text :=
  ["function".toList, "macro".toList, "module".toList, "baremodule".toList, "struct".toList,
    "begin".toList, "if".toList, "for".toList, "while".toList, "let".toList, "try".toList,
    "quote".toList, "do".toList]

/-- What a reader of words remembers. -/
structure WordScan where
  /-- Blocks that are open. -/
  depth : Nat
  /-- Brackets that are open. -/
  brackets : Nat
  /-- The word before, when only white space has followed it. -/
  previous : Text
  /-- The word being read, back to front. -/
  word : Text
  /-- Whether the word being read follows a dot. -/
  afterDot : Bool
  /-- The character before. -/
  lastChar : Char
  /-- Whether the depth has come back to zero on this line. -/
  closed : Bool

namespace WordScan

/-- Whether a complete word opens a block. -/
def opens (previous word : Text) : Bool :=
  blockWords.contains word ||
    (word == "type".toList && (previous == "abstract".toList || previous == "primitive".toList))

/-- Takes account of the word that ends here, if there is one. -/
def endWord (scan : WordScan) : WordScan :=
  if scan.word.isEmpty then scan
  else
    let word := scan.word.reverse
    let active := scan.brackets == 0 && !scan.afterDot
    let opening := active && opens scan.previous word
    let closing := active && !opening && word == "end".toList && 0 < scan.depth
    let depth := if opening then scan.depth + 1 else if closing then scan.depth - 1 else scan.depth
    { scan with depth := depth, previous := word, word := [], closed := closing && depth == 0 }

/-- Takes account of a character that belongs to no word. -/
def passOver (scan : WordScan) (c : Char) : WordScan :=
  let brackets :=
    if isOpenBracket c then scan.brackets + 1
    else if isCloseBracket c then scan.brackets - 1
    else scan.brackets
  { scan with
    brackets := brackets, previous := if isBlank c then scan.previous else [], lastChar := c }

/-- The scan after one more character; once closed it does not change. -/
def step (scan : WordScan) (c : Char) : WordScan :=
  if scan.closed then scan
  else if isNameChar c then
    { scan with
      afterDot := if scan.word.isEmpty then scan.lastChar == '.' else scan.afterDot
      word := c :: scan.word
      lastChar := c }
  else
    let ended := scan.endWord
    if ended.closed then ended else ended.passOver c

/-- Reads the words of the code of a line. -/
def readLine (depth brackets : Nat) (previous : Text) (code : Text) : WordScan :=
  (code ++ [' ']).foldl step ⟨depth, brackets, previous, [], false, ' ', false⟩

end WordScan

namespace BlockRules

/-- Follows the words from line `index` on until every block is closed. -/
def keywordBody (rules : BlockRules) (start last : Nat) :
    (index iterations : Nat) → LexState → (depth brackets : Nat) → (previous : Text) →
      List Text → Extent
  | _, _, _, _, _, _, [] => rules.fallback start last start .unterminated
  | index, iterations, state, depth, brackets, previous, line :: rest =>
    if rules.exceeds start index iterations then rules.fallback start last start .ceilingHit
    else
      let reading := rules.lexicon.readLine state line
      let scan := WordScan.readLine depth brackets previous reading.codeText
      if scan.depth = 0 then
        if index = start then .single start else ⟨start, index, .matched⟩
      else
        keywordBody rules start last (index + 1)
          (iterations + max (Text.byteSize reading.codeText) 1) reading.state scan.depth scan.brackets
          scan.previous rest

/-- The extent of a declaration with a body closed by `end`. -/
def keywordExtent (rules : BlockRules) (start : Nat) (window : List Text) : Extent :=
  rules.keywordBody start (start + window.length - 1) start 0 .code 0 0 [] window

end BlockRules

end Outline
