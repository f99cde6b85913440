import Outline.Config.Basic
import Outline.FileTree.Basic
import Outline.Path

namespace Outline

namespace FileTree

/-- Names of directories that hold what others wrote or what a build made. -/
def foreignDirectories : List Text :=
  ["target".toList, "node_modules".toList, "vendor".toList]

/-- Whether directories of that name are not entered. -/
def isPassedOver (name : Text) : Bool :=
  name.startsWhere (· == '.') || foreignDirectories.elem name

mutual

/-- The paths of all files at and below a node that has the given path. -/
def files (path : Text) : FileTree → List Text
  | .file _ => [path]
  | .directory entries =>
    ((filesByName path entries).mergeSort fun a b => Text.le a.1 b.1).flatMap Prod.snd

/-- For each entry of a directory its name and the paths of the files at and below it. -/
def filesByName (path : Text) : List (Text × FileTree) → List (Text × List Text)
  | [] => []
  | (name, node) :: rest =>
    (name, if node.isDirectory && isPassedOver name then [] else files (Path.join path name) node) ::
      filesByName path rest

end

end FileTree

/-- Whether the extension of a path has a language. -/
def Config.covers (config : Config) (path : Text) : Bool :=
  (config.languageOf? ((Path.extension? path).getD [])).isSome

/-- The files at and below `root` that have a language, in the order of the walk. -/
def collect (disk : Disk) (config : Config) (root : Text) : Except PathFault (List Text) :=
  match disk root with
  | .error fault => .error fault
  | .ok node => .ok ((node.files root).filter config.covers)

end Outline
