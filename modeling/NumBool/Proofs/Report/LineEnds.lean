import NumBool.Proofs.Report.Verdict
import NumBool.Proofs.Text.Utf8
import NumBool.Proofs.Token.LineEnds

/-!
# A text and the file that holds it

A program may be given as a text or as a file.  Reading a file turns its line ends into
single line feeds, so if lines end in a carriage return and a line feed, the parser is given
two different texts.  They have the same tokens on the same lines
(`Token.scanFrom_dropReturns`), and neither the reader nor the reports look at more of a
token than its kind and its line.  So both are judged alike.
-/

namespace NumBool

open Text

/-- A parse error without the offset of its token. -/
def ParseError.withoutOffset : ParseError → ParseError
  | unexpected token => unexpected token.withoutOffset
  | error => error

/-- No report tells an offset. -/
theorem ParseError.message_withoutOffset (e : ParseError) :
    e.withoutOffset.message = e.message := by
  cases e with
  | illegal _ _ | tooManyDigits _ | unexpected _ | unexpectedEnd => rfl

/-- Two computations that agree up to a part of their errors. -/
theorem mapError_eq_mapError_iff {α ε δ : Type} {f : ε → δ} {x y : Except ε α} :
    x.mapError f = y.mapError f ↔
      (∃ a, x = .ok a ∧ y = .ok a) ∨ ∃ e e', x = .error e ∧ y = .error e' ∧ f e = f e' := by
  cases x with
  | ok a =>
      cases y with
      | ok b => simp [Except.mapError, eq_comm]
      | error e => simp [Except.mapError]
  | error e =>
      cases y with
      | ok b => simp [Except.mapError]
      | error e' => simp [Except.mapError]

namespace Phrase

theorem parseScan_withoutOffsets (scan : Token.Scan) :
    parseScan scan.withoutOffsets = (parseScan scan).mapError ParseError.withoutOffset := by
  refine parseScan_map Token.withoutOffset _ (fun _ => rfl) (fun _ => rfl) rfl rfl ?_
  rw [Token.Scan.withoutOffsets]
  cases scan.ending with
  | finished _ | illegal _ _ | tooManyDigits _ _ => rfl

/-- Uniform line ends change no more than the offsets. -/
theorem parse_unifyNewlines {source : String} (h : Paired source.toList) :
    (parse (String.ofList (unifyNewlines source.toList))).mapError ParseError.withoutOffset =
      (parse source).mapError ParseError.withoutOffset := by
  rw [parse, parse, ← parseScan_withoutOffsets, ← parseScan_withoutOffsets, Token.scan, Token.scan,
    String.toList_ofList, unifyNewlines_of_paired h, Token.scanFrom_dropReturns h]

end Phrase

namespace Report

/-- An error without the offset of its token. -/
def Error.withoutOffset : Error → Error
  | parse error => parse error.withoutOffset
  | error => error

theorem Error.message_eq_of_withoutOffset_eq {e e' : Error}
    (h : e.withoutOffset = e'.withoutOffset) : e.message = e'.message := by
  have hmessage : ∀ e : Error, e.withoutOffset.message = e.message := by
    intro e
    cases e with
    | parse error => exact error.message_withoutOffset
    | file _ | nullInPath | nullInEncoding | encoding _ | decode _ | encode _ | store _ | check _
      | nothingToWrite => rfl
  rw [← hmessage e, h, hmessage]

/-- Texts that are parsed alike are judged alike. -/
theorem judge_alike {text text' : String}
    (h : (Phrase.parse text).mapError ParseError.withoutOffset =
      (Phrase.parse text').mapError ParseError.withoutOffset) :
    (judge {} text).1.mapError Error.withoutOffset =
      (judge {} text').1.mapError Error.withoutOffset := by
  rcases mapError_eq_mapError_iff.mp h with ⟨program, hleft, hright⟩ | ⟨e, e', hleft, hright, he⟩
  · rw [judge, judge, hleft, hright]
  · rw [judge, judge, hleft, hright]
    exact congrArg (fun e => Except.error (Error.parse e)) he

/-- The text of a file that holds the UTF-8 form of a text. -/
theorem readFile_encode {codecs : Registry} {disk : Disk} {encoding path : String}
    {text : List Char} (hencoding : hasNull encoding = false) (hpath : hasNull path = false)
    (hcodec : codecs encoding = .ok Codec.utf8.coding)
    (hread : disk.read path = .ok (Utf8.encode text)) :
    readFile codecs disk encoding path = .ok (unifyNewlines text) := by
  have hdecode : Codec.utf8.coding.decode (Utf8.encode text) = .ok text :=
    Utf8.decode_encode text
  simp [readFile, hencoding, hpath, hread, hcodec, hdecode]

/-- A text that names no file and a file that holds it are judged alike. -/
theorem verdict_alike {codecs : Registry} {disk disk' : Disk} {encoding' text path : String}
    (encoding : String) (hpaired : Paired text.toList)
    (hnoFile : ¬ (hasNull text = false ∧ disk.isFile text = true))
    (hencoding : hasNull encoding' = false) (hcodec : codecs encoding' = .ok Codec.utf8.coding)
    (hpath : hasNull (Disk.Path.ofText path).text = false)
    (hread : disk'.read (Disk.Path.ofText path).text = .ok (Utf8.encode text.toList)) :
    (verdict codecs disk encoding (.text text)).mapError Error.withoutOffset =
      (verdict codecs disk' encoding' (.path path)).mapError Error.withoutOffset := by
  have htext : readSource codecs disk encoding (.text text) = .ok ("<string>", text) := by
    rw [readSource, if_neg]
    simpa using hnoFile
  have hfile : readSource codecs disk' encoding' (.path path) =
      .ok ((Disk.Path.ofText path).text, String.ofList (unifyNewlines text.toList)) := by
    simp only [readSource, readFile_encode hencoding hpath hcodec hread]
    rfl
  rw [verdict, verdict, htext, hfile]
  exact judge_alike (Phrase.parse_unifyNewlines hpaired).symm

/-- How a check ends, and the counts it leaves, by the verdict on its source. -/
theorem Writer.check_ends (platform : Platform) (writer : Writer) (source : Source)
    (world : World) :
    (∀ counters,
      verdict platform.codecs world.disk writer.settings.encoding source = .ok counters →
      (writer.check platform source world).1 = .ok () ∧
        (writer.check platform source world).2.1.counters = some counters) ∧
    ∀ e, verdict platform.codecs world.disk writer.settings.encoding source = .error e →
      (writer.check platform source world).1 = .error e := by
  obtain ⟨after, around, hcheck, -, -, hcounters, -⟩ :=
    writer.check_eq_verdict platform source world
  rw [hcheck]
  constructor
  · intro counters hverdict
    exact ⟨by rw [hverdict]; rfl, hcounters counters hverdict⟩
  · intro e hverdict
    rw [hverdict]
    rfl

/-- A program given as a text and the same program in a file get the same counts, or fail
with the same error, if the text is not itself the name of a file.  Lines may end in a line
feed or in a carriage return and a line feed.  The errors agree up to the offset of a token,
which no report tells. -/
theorem Writer.check_text_alike_file (platform : Platform) {text path : String}
    (writer writer' : Writer) {world world' : World} (hpaired : Paired text.toList)
    (hnoFile : ¬ (hasNull text = false ∧ world.disk.isFile text = true))
    (hencoding : hasNull writer'.settings.encoding = false)
    (hcodec : platform.codecs writer'.settings.encoding = .ok Codec.utf8.coding)
    (hpath : hasNull (Disk.Path.ofText path).text = false)
    (hread : world'.disk.read (Disk.Path.ofText path).text = .ok (Utf8.encode text.toList)) :
    (∃ counters,
      (writer.check platform (.text text) world).1 = .ok () ∧
      (writer'.check platform (.path path) world').1 = .ok () ∧
      (writer.check platform (.text text) world).2.1.counters = some counters ∧
      (writer'.check platform (.path path) world').2.1.counters = some counters) ∨
    ∃ e e',
      (writer.check platform (.text text) world).1 = .error e ∧
      (writer'.check platform (.path path) world').1 = .error e' ∧
      e.withoutOffset = e'.withoutOffset ∧ e.message = e'.message := by
  have halike := verdict_alike writer.settings.encoding hpaired hnoFile hencoding
    hcodec hpath hread
  obtain ⟨hok, herror⟩ := writer.check_ends platform (.text text) world
  obtain ⟨hok', herror'⟩ := writer'.check_ends platform (.path path) world'
  rcases mapError_eq_mapError_iff.mp halike with
    ⟨counters, hleft, hright⟩ | ⟨e, e', hleft, hright, he⟩
  · obtain ⟨hend, hcounters⟩ := hok counters hleft
    obtain ⟨hend', hcounters'⟩ := hok' counters hright
    exact .inl ⟨counters, hend, hend', hcounters, hcounters'⟩
  · exact .inr ⟨e, e', herror e hleft, herror' e' hright, he,
      Error.message_eq_of_withoutOffset_eq he⟩

/-- A comment that goes up to a carriage return, one across two lines, and a mistake on the
third line. -/
def brokenLines : String := "num a; // a\r\n/*\r\n*/ a = ;\r\n"

/-- A disk with a file that holds these lines. -/
def brokenFile : World where
  disk := ⟨[], [(["p"], .file (Utf8.encode brokenLines.toList))]⟩

theorem Writer.check_text_alike_file_broken_lines :
    Paired brokenLines.toList ∧
    ¬ (hasNull brokenLines = false ∧ brokenFile.disk.isFile brokenLines = true) ∧
    brokenFile.disk.read "/p" = .ok (Utf8.encode brokenLines.toList) ∧
    (check (.standard .sound) { output := .standard } (.text brokenLines) brokenFile).1 =
      .error (.parse (.unexpected ⟨.mark .semicolon, 3, 24⟩)) ∧
    ∃ e,
      (check (.standard .sound) { output := .standard } (.path "/p") brokenFile).1 = .error e ∧
      e.message = "Syntax error at ';' (type: ;) on line 3" := by
  have hpaired : Paired brokenLines.toList := by decide +kernel
  have hnoFile : ¬ (hasNull brokenLines = false ∧ brokenFile.disk.isFile brokenLines = true) := by
    decide +kernel
  have hread : brokenFile.disk.read "/p" = .ok (Utf8.encode brokenLines.toList) := by
    decide +kernel
  have htext : (check (.standard .sound) { output := .standard } (.text brokenLines) brokenFile).1 =
      .error (.parse (.unexpected ⟨.mark .semicolon, 3, 24⟩)) := by decide +kernel
  refine ⟨hpaired, hnoFile, hread, htext, ?_⟩
  have hpath : hasNull (Disk.Path.ofText "/p").text = false := by decide +kernel
  have halike := check_text_alike_file (.standard .sound) { output := .standard }
    { output := .standard } hpaired hnoFile (by decide +kernel)
    Codec.registry_utf8 hpath hread
  rcases halike with ⟨_, hok, -⟩ | ⟨e, e', herror, herror', -, hmessage⟩
  · rw [htext] at hok
    simp at hok
  · rw [htext] at herror
    obtain rfl := Except.error.inj herror
    exact ⟨e', herror', hmessage.symm⟩

end Report

end NumBool
