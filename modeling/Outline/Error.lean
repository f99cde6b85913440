import Outline.Text.Basic

namespace Outline

/-- Why a file was not outlined, or a configuration refused. -/
inductive Fault where
  /-- No scanner serves the extension of the path. -/
  | unsupported (path extension : String)
  /-- The file is not UTF-8; the number of bytes before the fault is known. -/
  | undecodable (path : String) (offset : Nat)
  /-- The file could not be read; the reason is the text of the operating system. -/
  | unreadable (path reason : String)
  /-- The scanner broke down on the file. -/
  | brokenScanner (path message : String)
  /-- The configuration is unusable. -/
  | badConfig (message : String)
deriving DecidableEq, Repr

namespace Fault

/-- The word that names the cause in documents and on screen. -/
def tag : Fault → String
  | .unsupported .. => "unsupported_language"
  | .undecodable .. => "decode_error"
  | .unreadable .. => "io_error"
  | .brokenScanner .. => "internal_scanner_error"
  | .badConfig .. => "config_error"

/-- The file that the fault belongs to. -/
def path? : Fault → Option String
  | .unsupported path _ | .undecodable path _ | .unreadable path _ | .brokenScanner path _ => some path
  | .badConfig _ => none

/-- The fault in words. -/
def message : Fault → String
  | .unsupported path extension => path ++ ": no scanner for extension '" ++ extension ++ "'"
  | .undecodable path offset => path ++ ": invalid UTF-8 at byte " ++ toString offset
  | .unreadable path reason => path ++ ": " ++ reason
  | .brokenScanner path message => path ++ ": scanner failed: " ++ message
  | .badConfig message => "invalid configuration: " ++ message

end Fault

end Outline
