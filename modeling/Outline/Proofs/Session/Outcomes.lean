import Outline.Proofs.Scan.Guesses
import Outline.Proofs.Session.Isolation
import Outline.Proofs.Text.Decoding

namespace Outline

namespace Text

/-- `c` is the text `t` less one byte order mark at its head, or `t` itself if it has none there. -/
def Unmarked (t c : Text) : Prop :=
  t = '\uFEFF' :: c ∨ c = t ∧ ∀ rest : Text, t ≠ '\uFEFF' :: rest

theorem unmarked_dropOrderMark (t : Text) : Unmarked t t.dropOrderMark := by
  unfold dropOrderMark
  split
  · exact .inl rfl
  · next hhead => exact .inr ⟨rfl, hhead⟩

theorem Unmarked.eq_dropOrderMark {t c : Text} (hunmarked : Unmarked t c) : c = t.dropOrderMark := by
  obtain rfl | ⟨rfl, hhead⟩ := hunmarked
  · rfl
  · obtain hmark | ⟨heq, _⟩ := unmarked_dropOrderMark c
    · exact absurd hmark (hhead _)
    · exact heq.symm

end Text

namespace Scanner

variable {scanner : Scanner} {withImports : Bool} {content : Text}

/-- A scanner that works by a grammar does not break down over a text that is short enough for the span. -/
theorem scan_ofGrammar_of_fits (limits : Limits) (language : Language) (content : Text)
    (hfits : (Text.lines content).length + limits.fallbackSpan ≤ UInt64.size) :
    (ofGrammar limits language).scan content = .ok (language.grammar.scan limits content) := by
  rw [ofGrammar]
  dsimp only
  rw [Grammar.scan?_of_fits hfits]

/-- A scanner breaks down over the declarations, or over the imports if they are asked for. -/
theorem parse_eq_error_iff {message : String} : scanner.parse withImports content = .error message ↔
    scanner.scan content = .error message ∨ (∃ found, scanner.scan content = .ok found) ∧
      withImports = true ∧ scanner.imports content = .error message := by
  rw [parse]
  cases scanner.scan content with
  | error other => simp
  | ok found =>
    cases withImports with
    | false => simp
    | true => cases scanner.imports content <;> simp

theorem parse_of_ok {declarations : List Declaration} {warnings names : List String}
    (hscan : scanner.scan content = .ok (declarations, warnings))
    (himports : withImports = true → scanner.imports content = .ok names) :
    scanner.parse withImports content = .ok ⟨declarations, if withImports then names else [], warnings⟩ := by
  rw [parse, hscan]
  cases withImports with
  | false => rfl
  | true =>
    dsimp only
    rw [if_pos rfl, himports rfl, if_pos rfl]

end Scanner

namespace Registry

/-- The extension by which the language of a path is looked up. -/
def extensionOf (path : Text) : Text :=
  Text.lower ((Path.extension? path).getD [])

/-- The language of an extension, if it has a scanner. An override wins over the built-in assignment. -/
def served? (registry : Registry) (extension : Text) : Option Language :=
  ((registry.override? extension).or (Language.ofExtension? extension)).filter fun language =>
    (registry.scanner? language).isSome

theorem languageOf_eq (registry : Registry) (path : Text) : registry.languageOf path =
    match registry.served? (extensionOf path) with
    | some language => .ok language
    | none => .error (.unsupported (String.ofList path) (String.ofList (extensionOf path))) := rfl

end Registry

namespace Session

variable {session : Session} {cache : Cache} {source : Source} {t : Text} {language : Language}

/-- The language that a file is read as: the one that was given, or else that of its extension. -/
def languageFor? (session : Session) (source : Source) : Option Language :=
  source.language?.or (session.registry.served? (Registry.extensionOf source.path.toList))

/-- The result that is kept of a file in a language, if results are kept. -/
def keptAs? (session : Session) (cache : Cache) (path : String) (language : Language) : Option FileOutline :=
  if session.config.cache then cache.find? ⟨path, language⟩ else none

/-- How the scan of a file ends. -/
inductive Ends (session : Session) (cache : Cache) (source : Source) : Except Fault FileOutline → Prop where
  /-- Its bytes encode no text. -/
  | undecodable {offset : Nat} (hbytes : ¬ Utf8.Valid source.bytes)
      (hoffset : Utf8.IsLongestValid source.bytes offset) :
      Ends session cache source (.error (.undecodable source.path offset))
  /-- It is text without a language. -/
  | unread (hbytes : Utf8.Valid source.bytes) (hlanguage : session.languageFor? source = none) :
      Ends session cache source
        (.error (.unsupported source.path (String.ofList (Registry.extensionOf source.path.toList))))
  /-- It has a language, and a result is kept of it. -/
  | kept {language : Language} {file : FileOutline} (hbytes : Utf8.Valid source.bytes)
      (hlanguage : session.languageFor? source = some language)
      (hkept : session.keptAs? cache source.path language = some file) : Ends session cache source (.ok file)
  /-- Nothing is kept of it, and its language has no scanner. -/
  | unserved {language : Language} (hbytes : Utf8.Valid source.bytes)
      (hlanguage : session.languageFor? source = some language)
      (hkept : session.keptAs? cache source.path language = none)
      (hscanner : session.registry.scanner? language = none) :
      Ends session cache source (.error (.unsupported source.path language.tag))
  /-- The scanner breaks down on its text. -/
  | broken {t c : Text} {language : Language} {scanner : Scanner} {message : String}
      (hbytes : Utf8.encode t = source.bytes) (hunmarked : Text.Unmarked t c)
      (hlanguage : session.languageFor? source = some language)
      (hkept : session.keptAs? cache source.path language = none)
      (hscanner : session.registry.scanner? language = some scanner)
      (hparse : scanner.parse session.config.extractImports c = .error message) :
      Ends session cache source (.error (.brokenScanner source.path message))
  /-- The scanner finds what is in its text. -/
  | outlined {t c : Text} {language : Language} {scanner : Scanner} {found : Findings}
      (hbytes : Utf8.encode t = source.bytes) (hunmarked : Text.Unmarked t c)
      (hlanguage : session.languageFor? source = some language)
      (hkept : session.keptAs? cache source.path language = none)
      (hscanner : session.registry.scanner? language = some scanner)
      (hparse : scanner.parse session.config.extractImports c = .ok found) :
      Ends session cache source (.ok ⟨source.path, scanner.language, c, found.declarations, found.imports, none,
        found.warnings⟩)

section Steps

/-- A file of text is read as its language. -/
theorem prepare_of_encode (hbytes : Utf8.encode t = source.bytes) : session.prepare source =
    match session.languageFor? source with
    | some language => .ok ⟨source.path, language, t.dropOrderMark⟩
    | none => .error (.unsupported source.path (String.ofList (Registry.extensionOf source.path.toList))) := by
  rw [prepare, Utf8.decode_eq_ok_iff.2 hbytes, languageFor?]
  cases source.language? with
  | some language => rfl
  | none =>
    dsimp only
    rw [Registry.languageOf_eq, Option.none_or]
    cases session.registry.served? (Registry.extensionOf source.path.toList) with
    | some language => rfl
    | none =>
      dsimp only
      rw [String.ofList_toList]

/-- Where nothing was kept, the result of the scanner is the valid one. -/
theorem fst_remember {job : Job} (hkept : session.kept? cache job = none) (file : FileOutline) :
    (session.remember cache job file).1 = file := by
  rw [remember]
  rw [kept?] at hkept
  split at hkept
  · rw [if_pos ‹_›, Cache.fst_keep, hkept, Option.getD_none]
  · rw [if_neg ‹_›]

/-- A file of text whose language is known is what is kept of it, or what the scanner makes of it. -/
theorem scan_of_encode (hbytes : Utf8.encode t = source.bytes)
    (hlanguage : session.languageFor? source = some language) :
    (session.scan cache source).1 = match session.keptAs? cache source.path language with
      | some file => .ok file
      | none => session.perform ⟨source.path, language, t.dropOrderMark⟩ := by
  have hjob : session.prepare source = .ok ⟨source.path, language, t.dropOrderMark⟩ := by
    rw [prepare_of_encode hbytes, hlanguage]
  have hsame : session.kept? cache ⟨source.path, language, t.dropOrderMark⟩ =
      session.keptAs? cache source.path language := rfl
  rw [scan_of_prepare hjob, conclude]
  cases hkept : session.keptAs? cache source.path language with
  | some file => rw [hsame, hkept]
  | none =>
    rw [hkept] at hsame
    rw [hsame]
    dsimp only
    cases session.perform ⟨source.path, language, t.dropOrderMark⟩ with
    | error fault => rfl
    | ok file => exact congrArg Except.ok (fst_remember hsame file)

end Steps

/-- A scan ends in one way. -/
theorem Ends.eq {outcome : Except Fault FileOutline} (hends : session.Ends cache source outcome) :
    (session.scan cache source).1 = outcome := by
  cases hends with
  | undecodable hbytes hoffset =>
    rw [scan, prepare, Utf8.decode_eq_error_iff.2 ⟨hbytes, hoffset⟩]
  | unread hbytes hlanguage =>
    obtain ⟨t, hbytes⟩ := hbytes
    rw [scan, prepare_of_encode hbytes, hlanguage]
  | kept hbytes hlanguage hkept =>
    obtain ⟨t, hbytes⟩ := hbytes
    rw [scan_of_encode hbytes hlanguage, hkept]
  | unserved hbytes hlanguage hkept hscanner =>
    obtain ⟨t, hbytes⟩ := hbytes
    rw [scan_of_encode hbytes hlanguage, hkept]
    dsimp only [perform]
    rw [hscanner]
  | broken hbytes hunmarked hlanguage hkept hscanner hparse =>
    rw [hunmarked.eq_dropOrderMark] at hparse
    rw [scan_of_encode hbytes hlanguage, hkept]
    dsimp only [perform]
    rw [hscanner]
    dsimp only [Scanner.outline]
    rw [hparse]
  | outlined hbytes hunmarked hlanguage hkept hscanner hparse =>
    obtain rfl := hunmarked.eq_dropOrderMark
    rw [scan_of_encode hbytes hlanguage, hkept]
    dsimp only [perform]
    rw [hscanner]
    dsimp only [Scanner.outline]
    rw [hparse]

/-- A scan ends. -/
theorem exists_ends (session : Session) (cache : Cache) (source : Source) :
    ∃ outcome, session.Ends cache source outcome := by
  cases hdecoded : Utf8.decode source.bytes with
  | error offset =>
    obtain ⟨hbytes, hoffset⟩ := Utf8.decode_eq_error_iff.1 hdecoded
    exact ⟨_, .undecodable hbytes hoffset⟩
  | ok t =>
    have hbytes := Utf8.decode_eq_ok_iff.1 hdecoded
    cases hlanguage : session.languageFor? source with
    | none => exact ⟨_, .unread ⟨t, hbytes⟩ hlanguage⟩
    | some language =>
      cases hkept : session.keptAs? cache source.path language with
      | some file => exact ⟨_, .kept ⟨t, hbytes⟩ hlanguage hkept⟩
      | none =>
        cases hscanner : session.registry.scanner? language with
        | none => exact ⟨_, .unserved ⟨t, hbytes⟩ hlanguage hkept hscanner⟩
        | some scanner =>
          have hunmarked := Text.unmarked_dropOrderMark t
          cases hparse : scanner.parse session.config.extractImports t.dropOrderMark with
          | error message => exact ⟨_, .broken hbytes hunmarked hlanguage hkept hscanner hparse⟩
          | ok found => exact ⟨_, .outlined hbytes hunmarked hlanguage hkept hscanner hparse⟩

theorem ends_iff {outcome : Except Fault FileOutline} :
    session.Ends cache source outcome ↔ (session.scan cache source).1 = outcome := by
  constructor
  · exact Ends.eq
  · rintro rfl
    obtain ⟨outcome, hends⟩ := session.exists_ends cache source
    rwa [hends.eq]

/-- How the scan of a file ends, by what is the case with it. -/
structure Explains (session : Session) (cache : Cache) (source : Source) (outcome : Except Fault FileOutline) :
    Prop where
  /-- It is undecodable exactly if its bytes encode no text. -/
  undecodable_iff : (∃ path offset, outcome = .error (.undecodable path offset)) ↔ ¬ Utf8.Valid source.bytes
  /-- The offset is the length of the longest part from the front that encodes a text. -/
  offset_iff : ∀ offset, outcome = .error (.undecodable source.path offset) ↔
    ¬ Utf8.Valid source.bytes ∧ Utf8.IsLongestValid source.bytes offset
  /-- If they do, it is unsupported exactly if no language was given and its extension has none with a scanner, or
  nothing is kept of it in its language and that has no scanner. -/
  unsupported_iff : Utf8.Valid source.bytes → ∀ extension,
    (outcome = .error (.unsupported source.path extension) ↔
      (session.languageFor? source = none ∧
        extension = String.ofList (Registry.extensionOf source.path.toList)) ∨
      ∃ language, session.languageFor? source = some language ∧
        session.keptAs? cache source.path language = none ∧
          session.registry.scanner? language = none ∧ extension = language.tag)
  /-- If something is kept of it in its language, that is the outcome. -/
  kept : Utf8.Valid source.bytes → ∀ language file, session.languageFor? source = some language →
    session.keptAs? cache source.path language = some file → outcome = .ok file
  /-- If not, it is internal exactly if the scanner breaks down on its text less one byte order mark, over the
  declarations or, if they are asked for, over the imports. -/
  brokenScanner_iff : ∀ t c language scanner, Utf8.encode t = source.bytes → Text.Unmarked t c →
    session.languageFor? source = some language → session.keptAs? cache source.path language = none →
      session.registry.scanner? language = some scanner → ∀ message,
        (outcome = .error (.brokenScanner source.path message) ↔
          scanner.scan c = .error message ∨ (∃ found, scanner.scan c = .ok found) ∧
            session.config.extractImports = true ∧ scanner.imports c = .error message)
  /-- And if it does not, the outcome is what is in this text. -/
  outlined : ∀ t c language scanner declarations warnings names, Utf8.encode t = source.bytes →
    Text.Unmarked t c → session.languageFor? source = some language →
      session.keptAs? cache source.path language = none →
        session.registry.scanner? language = some scanner →
          scanner.scan c = .ok (declarations, warnings) →
            (session.config.extractImports = true → scanner.imports c = .ok names) →
              outcome = .ok ⟨source.path, scanner.language, c, declarations,
                if session.config.extractImports then names else [], none, warnings⟩
  /-- A fault names the file. -/
  path?_eq : ∀ fault, outcome = .error fault → fault.path? = some source.path

/-- Every scan of a file, whatever is kept, ends as its bytes, its language, what is kept of it and its
scanner tell, in this order. Nothing is assumed of the scanners, of the kept results or of the bytes; a part
of the work that breaks down yields the fault of this file. -/
theorem scan_explained (session : Session) (cache : Cache) (source : Source) :
    session.Explains cache source (session.scan cache source).1 where
  undecodable_iff := by
    simp only [← ends_iff]
    constructor
    · rintro ⟨path, offset, hends⟩
      cases hends with
      | undecodable hbytes _ => exact hbytes
    · intro hbytes
      obtain ⟨offset, hoffset⟩ := Utf8.exists_isLongestValid hbytes
      exact ⟨source.path, offset, .undecodable hbytes hoffset⟩
  offset_iff offset := by
    rw [← ends_iff]
    constructor
    · intro hends
      cases hends with
      | undecodable hbytes hoffset => exact ⟨hbytes, hoffset⟩
    · exact fun ⟨hbytes, hoffset⟩ => .undecodable hbytes hoffset
  unsupported_iff hbytes extension := by
    rw [← ends_iff]
    constructor
    · intro hends
      cases hends with
      | unread _ hlanguage => exact .inl ⟨hlanguage, rfl⟩
      | unserved _ hlanguage hkept hscanner => exact .inr ⟨_, hlanguage, hkept, hscanner, rfl⟩
    · rintro (⟨hlanguage, rfl⟩ | ⟨language, hlanguage, hkept, hscanner, rfl⟩)
      · exact .unread hbytes hlanguage
      · exact .unserved hbytes hlanguage hkept hscanner
  kept hbytes _ _ hlanguage hkept := Ends.eq (.kept hbytes hlanguage hkept)
  brokenScanner_iff t c language scanner hbytes hunmarked hlanguage hkept hscanner message := by
    rw [← Scanner.parse_eq_error_iff]
    constructor
    · intro hbroken
      cases hparse : scanner.parse session.config.extractImports c with
      | error other =>
        have hother := Ends.eq (.broken hbytes hunmarked hlanguage hkept hscanner hparse)
        rw [hbroken] at hother
        cases hother
        rfl
      | ok found =>
        have hfound := Ends.eq (.outlined hbytes hunmarked hlanguage hkept hscanner hparse)
        rw [hbroken] at hfound
        cases hfound
    · exact fun hparse => Ends.eq (.broken hbytes hunmarked hlanguage hkept hscanner hparse)
  outlined _ _ _ _ _ _ _ hbytes hunmarked hlanguage hkept hscanner hscan himports :=
    Ends.eq (.outlined hbytes hunmarked hlanguage hkept hscanner (Scanner.parse_of_ok hscan himports))
  path?_eq fault hfault := by
    cases ends_iff.2 hfault <;> rfl

/-- Of what is wrong with a file its bytes come first: a character that is cut off, in a file whose extension
no language has, is reported with the byte before it. In a file with that name that holds no more than a byte
order mark it is the extension that is reported. A file of a language that begins with such a mark is outlined
as the text behind the mark. -/
theorem scan_explained_cutOff :
    (scan ⟨{}, .full {}⟩ .empty ⟨"a.xyz", [0x61, 0xE2, 0x82], none⟩).1 = .error (.undecodable "a.xyz" 1) ∧
      (scan ⟨{}, .full {}⟩ .empty ⟨"a.xyz", [0xEF, 0xBB, 0xBF], none⟩).1 = .error (.unsupported "a.xyz" "xyz") ∧
      ∃ file, (scan ⟨{}, .full {}⟩ .empty ⟨"a.py", [0xEF, 0xBB, 0xBF, 0x78, 0x3D, 0x31], none⟩).1 = .ok file ∧
        file.content = "x=1".toList ∧ file.declarations.map Declaration.name = ["x"] := by
  refine ⟨?_, ?_, ?_⟩
  · have hbytes : Utf8.decode [0x61, 0xE2, 0x82] = .error 1 := by rfl
    exact ((scan_explained _ _ ⟨"a.xyz", [0x61, 0xE2, 0x82], none⟩).offset_iff 1).2 (Utf8.decode_eq_error_iff.1 hbytes)
  · have hbytes : Utf8.encode ['\uFEFF'] = [0xEF, 0xBB, 0xBF] := by decide
    have hlanguage : languageFor? ⟨{}, .full {}⟩ ⟨"a.xyz", [0xEF, 0xBB, 0xBF], none⟩ = none := by decide +kernel
    exact ((scan_explained _ _ ⟨"a.xyz", [0xEF, 0xBB, 0xBF], none⟩).unsupported_iff ⟨_, hbytes⟩ "xyz").2
      (.inl ⟨hlanguage, by decide +kernel⟩)
  · have hbytes : Utf8.encode ('\uFEFF' :: "x=1".toList) = [0xEF, 0xBB, 0xBF, 0x78, 0x3D, 0x31] := by decide
    have hlanguage : languageFor? ⟨{}, .full {}⟩ ⟨"a.py", [0xEF, 0xBB, 0xBF, 0x78, 0x3D, 0x31], none⟩ =
        some .python := by decide +kernel
    have hscan := Scanner.scan_ofGrammar_of_fits {} .python "x=1".toList (by decide)
    have hexplained := scan_explained ⟨{}, .full {}⟩ .empty
      ⟨"a.py", [0xEF, 0xBB, 0xBF, 0x78, 0x3D, 0x31], none⟩
    have houtlined := hexplained.outlined _ _ .python (Scanner.ofGrammar {} .python) _ _ _ hbytes (.inl rfl)
      hlanguage rfl rfl hscan (fun _ => rfl)
    refine ⟨_, houtlined, rfl, ?_⟩
    decide +kernel

end Session

end Outline
