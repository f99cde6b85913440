import Outline.Text.Basic

namespace Outline

/-- A file with its bytes, or a directory with its entries by name. -/
inductive FileTree where
  | file (bytes : List UInt8)
  | directory (entries : List (Text × FileTree))
deriving Inhabited

/-- Why a path does not lead to what was asked for. -/
inductive PathFault where
  /-- Nothing has this path. -/
  | missing
  /-- A piece before the last is no directory. -/
  | notDirectory
  /-- A file was asked for. -/
  | isDirectory
  /-- The user may not read it. -/
  | denied
  /-- A piece or the path is longer than names may be. -/
  | tooLong
  /-- The path holds a character that no name can have. -/
  | hasNul
  /-- The bytes of the file are no text. -/
  | notText
deriving DecidableEq, Repr

namespace PathFault

/-- The reason in the words of the operating system. -/
def message : PathFault → String
  | .missing => "No such file or directory (os error 2)"
  | .notDirectory => "Not a directory (os error 20)"
  | .isDirectory => "Is a directory (os error 21)"
  | .denied => "Permission denied (os error 13)"
  | .tooLong => "File name too long (os error 36)"
  | .hasNul => "file name contained an unexpected NUL byte"
  | .notText => "stream did not contain valid UTF-8"

end PathFault

/-- What each path leads to. -/
abbrev Disk := Text → Except PathFault FileTree

/-- The bytes of the file that a path leads to. -/
def Disk.read (disk : Disk) (path : Text) : Except PathFault (List UInt8) :=
  match disk path with
  | .error fault => .error fault
  | .ok (.directory _) => .error .isDirectory
  | .ok (.file bytes) => .ok bytes

namespace FileTree

/-- Whether the node is a directory. -/
def isDirectory : FileTree → Bool
  | .file _ => false
  | .directory _ => true

/-- A directory without entries. It also stands for every directory outside of the tree. -/
def emptyDirectory : FileTree :=
  .directory []

/-- Bytes that a name may have at most. -/
def longestName : Nat := 255

/-- Bytes that a path may have at most. -/
def longestPath : Nat := 4095

/-- Follows the pieces of a path from `node`, whose ancestors are given from the nearest on. -/
def follow (ancestors : List FileTree) (node : FileTree) : List Text → Except PathFault FileTree
  | [] => .ok node
  | piece :: rest =>
    match node with
    | .file _ => .error .notDirectory
    | .directory entries =>
      if piece = [] ∨ piece = ['.'] then follow ancestors node rest
      else if piece = ['.', '.'] then
        match ancestors with
        | [] => follow [] emptyDirectory rest
        | parent :: older => follow older parent rest
      else if longestName < piece.byteSize then .error .tooLong
      else
        match entries.lookup piece with
        | none => .error .missing
        | some child => follow (node :: ancestors) child rest

/-- What a path leads to when the tree is the working directory. Outside of the tree all directories
are empty. -/
def disk (tree : FileTree) : Disk := fun path =>
  if path.elem '\x00' then .error .hasNul
  else if longestPath < path.byteSize then .error .tooLong
  else
    match path with
    | [] => .error .missing
    | '/' :: rest => follow [] emptyDirectory (Text.splitWhere (· == '/') rest)
    | _ => follow [] tree (path.splitWhere (· == '/'))

/-- A node at the end of a way of new directories. -/
def grow (node : FileTree) (names : List Text) : FileTree :=
  names.foldr (fun name tree => .directory [(name, tree)]) node

mutual

/-- Puts a node at the end of a way of names, with the directories that it needs. What stands there
already stays. -/
def insert (node : FileTree) (names : List Text) : FileTree → FileTree
  | .file bytes => .file bytes
  | .directory entries =>
    match names with
    | [] => .directory entries
    | name :: rest => .directory (insertEntry node name rest entries)

/-- Puts a node below the entry of that name, which is added if it is missing. -/
def insertEntry (node : FileTree) (name : Text) (rest : List Text) :
    List (Text × FileTree) → List (Text × FileTree)
  | [] => [(name, grow node rest)]
  | (other, child) :: entries =>
    if other = name then (other, insert node rest child) :: entries
    else (other, child) :: insertEntry node name rest entries

end

end FileTree

end Outline
