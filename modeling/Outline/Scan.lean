import Outline.Grammar.Basic
import Outline.Pending
import Outline.Text.Lines

namespace Outline

/-- What an outline run has done so far. -/
structure Progress where
  /-- Declarations found. -/
  emitted : Nat
  /-- What was cut short, in the order it happened. -/
  warnings : List String
  /-- The lines of the headings whose extents were guessed, in the order in which they were met. -/
  guesses : List Nat
  /-- Whether the limit of declarations has stopped the run. -/
  exhausted : Bool
  /-- Whether a container was left closed because of its depth. -/
  depthWarned : Bool
deriving DecidableEq, Repr

namespace Progress

/-- Nothing has been done. -/
def start : Progress :=
  ⟨0, [], [], false, false⟩

/-- Records a warning. -/
def warn (progress : Progress) (message : String) : Progress :=
  { progress with warnings := progress.warnings ++ [message] }

/-- Counts a declaration. -/
def emit (progress : Progress) : Progress :=
  { progress with emitted := progress.emitted + 1 }

/-- Stops the run at a line because the limit of declarations is reached. -/
def exhaust (progress : Progress) (limits : Limits) (index : Nat) : Progress :=
  { progress.warn ("declaration limit of " ++ toString limits.maxDeclarations ++ " reached at line " ++
      toString (index + 1) ++ "; remaining declarations skipped") with exhausted := true }

/-- Records an extent that is a guess, and warns of it. -/
def noteExtent (progress : Progress) (index : Nat) (heading : Heading) (extent : Extent) : Progress :=
  if extent.isDegraded then
    let reason := if extent.outcome == .ceilingHit then "exceeds the scan limits" else "is never closed"
    { progress.warn ("line " ++ toString (index + 1) ++ ": body of " ++ heading.rule.kind.tag ++ " '" ++
        String.ofList heading.name ++ "' " ++ reason ++ "; assuming it ends at line " ++
        toString (extent.last + 1)) with guesses := progress.guesses ++ [index] }
  else progress

/-- Warns, the first time, of a container that is nested too deeply to be outlined. -/
def noteDepth (progress : Progress) (limits : Limits) (parent : Declaration) : Progress :=
  if progress.depthWarned then progress
  else
    { progress.warn ("line " ++ toString parent.startLine ++ ": nesting deeper than " ++
        toString limits.maxDepth ++ " levels inside '" ++ parent.name ++ "' not scanned") with
      depthWarned := true }

end Progress

/-- What carries over from one line to the next. -/
structure Carry where
  lex : LexState
  /-- Brackets that undeclared lines have left open. -/
  brackets : Nat
  pending : Pending

namespace Carry

/-- Nothing carries over. -/
def start : Carry :=
  ⟨.code, 0, .empty⟩

/-- Whether the next line cannot declare anything. -/
def isInside (carry : Carry) : Bool :=
  !carry.lex.inCode || 0 < carry.brackets

end Carry

/-- What a line is before any rule is tried on it. -/
inductive Prelude where
  /-- A blank line. -/
  | blank
  /-- Documentation or an attribute, which takes some of the following lines too. -/
  | absorbed (pending : Pending) (further : Nat)
  /-- Code, perhaps behind a documentation block. -/
  | code (pending : Pending) (lead rest : Text)

namespace Grammar

/-- A line that is no documentation comment: an attribute, a documenting string, or code. -/
def preludeOfCode (grammar : Grammar) (pending : Pending) (lead rest line : Text)
    (following : List Text) : Prelude :=
  let trimmed := Text.trim line
  if grammar.attributes.startsAttribute trimmed then
    let collected := AttributeStyle.collect line following
    .absorbed (pending.pushModifier collected.1) collected.2
  else if grammar.docs.precedingString && Text.startsWith ['"', '"', '"'] trimmed then
    match collectStringDoc? line following with
    | some (text, further) => .absorbed (Pending.empty.pushDoc text) further
    | none => .code pending lead rest
  else .code pending lead rest

/-- What a line is, given what waits and the lines after it. -/
def preludeOf (grammar : Grammar) (pending : Pending) (line : Text) (following : List Text) : Prelude :=
  let trimmed := Text.trim line
  if trimmed.isEmpty then .blank
  else if grammar.docs.startsBlockDoc trimmed then
    match grammar.docs.codeAfterBlockDoc? line with
    | some (lead, rest) =>
      grammar.preludeOfCode (pending.pushDoc (grammar.docs.collectBlockDoc line []).1) lead rest line
        following
    | none =>
      let collected := grammar.docs.collectBlockDoc line following
      .absorbed (pending.pushDoc collected.1) collected.2
  else
    match grammar.docs.docLine? trimmed with
    | some text => .absorbed (pending.pushDoc text) 0
    | none => grammar.preludeOfCode pending [] line line following

/-- Carries over a line that declares nothing. -/
def passOver (grammar : Grammar) (carry : Carry) (line : Text) : Carry :=
  let reading := grammar.lexicon.readLine carry.lex line
  let brackets :=
    if grammar.bracketContinuations then (reading.codeText.foldl bracketStep carry.brackets).toNat
    else carry.brackets
  ⟨reading.state, brackets, carry.pending⟩

/-- What waits after a line of code that declares nothing: comments let it wait on. -/
def pendingAfter (grammar : Grammar) (pending : Pending) (lead line : Text) : Pending :=
  if !lead.isEmpty || !grammar.isComment (Text.trim line) then .empty else pending

/-- The declaration that a line begins, without what stands inside it. -/
def declaration? (grammar : Grammar) (index : Nat) (attrs : Text) (heading : Heading) (extent : Extent)
    (pending : Pending) (window : List Text) : Option Declaration :=
  let modifiers := pending.modifiers ++ grammar.attributes.inline (attrs ++ heading.before) ++
    wordsIn grammar.modifiers heading.before
  let docstring :=
    if grammar.docs.bodyString then
      if extent.hasInterior then
        bodyDocstring? (windowOf window (extent.headerEnd + 1 - index) (extent.last - index))
      else none
    else pending.doc?
  (Declaration.declare? heading.rule.kind (String.ofList heading.name) (index + 1) (extent.last + 1)).map
    fun d => (d.withDocstring (docstring.map String.ofList)).withModifiers (modifiers.map String.ofList)

/-- The last line of the interior. A closing delimiter that was found has a line of its own. -/
def interiorLast (grammar : Grammar) (extent : Extent) : Nat :=
  if grammar.style == .indent || extent.isDegraded then extent.last else extent.last - 1

end Grammar

/-- Keeps the lines of a child inside the interior of its parent. -/
def Declaration.clampInto (first last : Nat) (child : Declaration) : Declaration :=
  let startLine := min (max child.startLine first) last
  let endLine := min (max child.endLine startLine) last
  ⟨{ child.entry with startLine := startLine, endLine := endLine }, child.children⟩

namespace Grammar

/-- The lines inside a declaration, and the number of the first, when they are to be outlined. `rest`
are the lines after the line of the declaration. -/
def interior (grammar : Grammar) (index : Nat) (extent : Extent) (rest : List Text) : List Text :=
  (rest.drop (extent.headerEnd - index)).take (grammar.interiorLast extent - extent.headerEnd)

/-- Outlines a window of lines whose first line has the given index. -/
def scanLines (grammar : Grammar) (limits : Limits) (depth index : Nat) (carry : Carry)
    (progress : Progress) (window : List Text) : List Declaration × Progress :=
  match window with
  | [] => ([], progress)
  | line :: rest =>
    if progress.exhausted then ([], progress)
    else if carry.isInside then
      scanLines grammar limits depth (index + 1) (grammar.passOver carry line) progress rest
    else
      match grammar.preludeOf carry.pending line rest with
      | .blank => scanLines grammar limits depth (index + 1) carry progress rest
      | .absorbed pending further =>
        scanLines grammar limits depth (index + 1 + further) { carry with pending := pending } progress
          (rest.drop further)
      | .code pending lead code =>
        let parts := grammar.attributes.splitLeading code
        let skipped := fun (waiting : Pending) =>
          grammar.passOver { carry with pending := grammar.pendingAfter waiting lead line } line
        match grammar.heading? (Text.byteSize (lead ++ parts.1)) parts.2 with
        | none => scanLines grammar limits depth (index + 1) (skipped pending) progress rest
        | some heading =>
          if limits.maxDeclarations ≤ progress.emitted then ([], progress.exhaust limits index)
          else
            let extent := grammar.extent limits heading.rule.body index (line :: rest)
            let noted := progress.noteExtent index heading extent
            match grammar.declaration? index parts.1 heading extent pending (line :: rest) with
            | none => scanLines grammar limits depth (index + 1) (skipped .empty) noted rest
            | some declared =>
              let inner :=
                if heading.rule.kind.isContainer && extent.hasInterior then
                  if limits.maxDepth ≤ depth + 1 then ([], noted.emit.noteDepth limits declared)
                  else
                    scanLines grammar limits (depth + 1) (extent.headerEnd + 1) .start noted.emit
                      (grammar.interior index extent rest)
                else ([], noted.emit)
              let children := inner.1.map
                (Declaration.clampInto (extent.headerEnd + 2) (grammar.interiorLast extent + 1))
              let later :=
                scanLines grammar limits depth (extent.last + 1) .start inner.2
                  (rest.drop (extent.last - index))
              (declared.withChildren children :: later.1, later.2)
termination_by window.length
decreasing_by
  all_goals simp only [interior, List.length_cons, List.length_drop, List.length_take]
  all_goals omega

/-- Outlines a text: its declarations, and what was cut short. Sums are unbounded. -/
def scan (grammar : Grammar) (limits : Limits) (t : Text) : List Declaration × List String :=
  let result := grammar.scanLines limits 0 0 .start .start (Text.lines t)
  (result.1, result.2.warnings)

/-- Outlines a window of lines as a machine does that adds 64-bit words: the run breaks down where a search
with checked sums does, which is at a guess whose sum is no word (`guesses_noteExtent_fit_iff`). -/
def scanLines? (grammar : Grammar) (limits : Limits) (depth index : Nat) (carry : Carry)
    (progress : Progress) (window : List Text) : Option (List Declaration × Progress) :=
  let result := grammar.scanLines limits depth index carry progress window
  if result.2.guesses.all fun line => line + limits.fallbackSpan < UInt64.size then some result else none

/-- Outlines a text as a machine does: it finds what `scan` finds, unless the run breaks down. -/
def scan? (grammar : Grammar) (limits : Limits) (t : Text) : Option (List Declaration × List String) :=
  (grammar.scanLines? limits 0 0 .start .start (Text.lines t)).map fun result =>
    (result.1, result.2.warnings)

end Grammar

end Outline
