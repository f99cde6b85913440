import Outline.FileTree.Basic
import Outline.Session.Basic

namespace Outline

/-- Reads the file that a path leads to. -/
def Source.read (disk : Disk) (path : Text) : Except Fault Source :=
  match disk.read path with
  | .error fault => .error (.unreadable (String.ofList path) fault.message)
  | .ok bytes => .ok ⟨String.ofList path, bytes, none⟩

namespace Session

/-- Outlines the file that a path leads to. -/
def scanPath (session : Session) (disk : Disk) (cache : Cache) (path : Text) :
    Except Fault FileOutline × Cache :=
  match Source.read disk path with
  | .error fault => (.error fault, cache)
  | .ok source => session.scan cache source

/-- Outlines files by path, one after the other. -/
def scanPaths (session : Session) (disk : Disk) (cache : Cache) :
    List Text → List (Except Fault FileOutline) × Cache
  | [] => ([], cache)
  | path :: rest =>
    let first := session.scanPath disk cache path
    let others := session.scanPaths disk first.2 rest
    (first.1 :: others.1, others.2)

end Session

end Outline
