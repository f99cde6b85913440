import Outline.Registry
import Outline.Session.Cache
import Outline.Text.Utf8

namespace Outline

/-- A file to scan: its path, its bytes and, if the caller knows it, its language. -/
structure Source where
  path : String
  bytes : List UInt8
  language? : Option Language := none

/-- A file whose text and language are known. -/
structure Job where
  path : String
  language : Language
  content : Text

/-- The key under which the result of a job is kept. -/
def Job.key (job : Job) : CacheKey :=
  ⟨job.path, job.language⟩

/-- A usable configuration with the scanners that work under it. -/
structure Session where
  config : Config
  registry : Registry

namespace Session

/-- Starts a session, unless the configuration is unusable. -/
def start (config : Config) (registry : Registry) : Except Fault Session :=
  match config.validate with
  | .error fault => .error fault
  | .ok usable => .ok ⟨usable, registry⟩

/-- Decodes the bytes of a file and chooses its language: the one that the caller gave, else the one
of its path. -/
def prepare (session : Session) (source : Source) : Except Fault Job :=
  match Utf8.decode source.bytes with
  | .error offset => .error (.undecodable source.path offset)
  | .ok decoded =>
    let content := decoded.dropOrderMark
    match source.language? with
    | some language => .ok ⟨source.path, language, content⟩
    | none =>
      match session.registry.languageOf source.path.toList with
      | .error fault => .error fault
      | .ok language => .ok ⟨source.path, language, content⟩

/-- Outlines the text of a job. -/
def perform (session : Session) (job : Job) : Except Fault FileOutline :=
  match session.registry.scanner? job.language with
  | none => .error (.unsupported job.path job.language.tag)
  | some scanner =>
    match scanner.outline job.path session.config.extractImports job.content with
    | .error message => .error (.brokenScanner job.path message)
    | .ok file => .ok file

/-- The kept result of a job, if results are kept. -/
def kept? (session : Session) (cache : Cache) (job : Job) : Option FileOutline :=
  if session.config.cache then cache.find? job.key else none

/-- Keeps the result of a job, if results are kept; gives back the result that is then valid. -/
def remember (session : Session) (cache : Cache) (job : Job) (file : FileOutline) :
    FileOutline × Cache :=
  if session.config.cache then cache.keep job.key file else (file, cache)

/-- Outlines a file, or tells why it cannot be outlined. -/
def scan (session : Session) (cache : Cache) (source : Source) : Except Fault FileOutline × Cache :=
  match session.prepare source with
  | .error fault => (.error fault, cache)
  | .ok job =>
    match session.kept? cache job with
    | some file => (.ok file, cache)
    | none =>
      match session.perform job with
      | .error fault => (.error fault, cache)
      | .ok file =>
        let kept := session.remember cache job file
        (.ok kept.1, kept.2)

/-- Outlines files one after the other. -/
def scanAll (session : Session) (cache : Cache) :
    List Source → List (Except Fault FileOutline) × Cache
  | [] => ([], cache)
  | source :: rest =>
    let first := session.scan cache source
    let others := session.scanAll first.2 rest
    (first.1 :: others.1, others.2)

end Session

end Outline
