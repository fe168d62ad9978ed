import NumBool.Cli
import NumBool.Proofs.Report.Verdict

/-!
# The ways in which a run ends

`Ends` lists the ways in which a run on a source and an output can end, each with what
it needs and with what it leaves behind.  Every run ends in one of them (`ends_runOn`),
unless its arguments are no call of the program (`run_cases`).

The verdict on the source decides most of it.  An error in the source escapes if the
program does not expect it: the path has a name that is too long, the bytes are no text,
or the text has a number that is too long (`Escapes`).
-/

namespace NumBool

namespace Report

/-- Something has been said on the standard error output. -/
def World.Reports (before after : World) : Prop :=
  ∃ messages, messages ≠ "" ∧ after.err = before.err ++ messages

theorem World.reports_log {before after : World}
    (h : ∃ messages, after.err = before.err ++ messages) (line : String) :
    before.Reports (after.log line) := by
  obtain ⟨messages, hmessages⟩ := h
  refine ⟨messages ++ line ++ "\n", ?_, ?_⟩
  · intro hempty
    have hsize := congrArg String.length hempty
    simp at hsize
  · rw [World.log, hmessages]
    simp only [String.append_assoc]

end Report

namespace Cli

open Report Disk Text

/-- The arguments ask for a check of this source with this output. -/
def IsCall (args : List String) (source output : String) : Prop :=
  source ≠ "-h" ∧ source ≠ "--help" ∧
    (args = [source] ∧ output = "-" ∨ args = [source, output])

/-- The path of a source, as it is written. -/
def sourcePath (source : String) : String :=
  (Path.ofText source).text

/-- The source is a file with these bytes. -/
def Holds (disk : Disk) (source : String) (bytes : List UInt8) : Prop :=
  hasNull (sourcePath source) = false ∧ disk.find (sourcePath source) = .ok (.file bytes)

/-- The source is a file whose bytes stand for a program that passes the check with these
counts. -/
def Accepted (disk : Disk) (source : String) (counters : Counters) : Prop :=
  ∃ (bytes : List UInt8) (text : List Char) (program : Phrase.Program),
    Holds disk source bytes ∧ Utf8.decode bytes = .ok text ∧
      Phrase.parse (String.ofList (unifyNewlines text)) = .ok program ∧
      (check program.toNode).result = .ok counters

/-- The place of an output file. -/
def outputPlace (disk : Disk) (output : String) : Place :=
  (Path.ofText output).resolve disk.cwd

/-- The bytes of the line of some counts. -/
def lineBytes (counters : Counters) : List UInt8 :=
  Utf8.encode (counters.format ++ "\n").toList

/-- The output has received the line of the counts, and nothing else has changed: the
line is printed, or it is all that the output file holds. -/
def Delivered (counters : Counters) (output : String) (before after : World) : Prop :=
  (output = "-" →
    after.out = before.out ++ (counters.format ++ "\n") ∧ after.disk = before.disk) ∧
  (output ≠ "-" →
    after.out = before.out ∧
      after.disk.item? (outputPlace before.disk output) =
        some (.file (lineBytes counters)) ∧
      KeepsFiles [outputPlace before.disk output] before.disk after.disk)

/-- The output file has been opened, and the device has failed behind the first bytes of the
line.  The file holds these bytes, and no other file has changed. -/
def Broken (device : Device) (counters : Counters) (output : String) (before after : World) :
    Prop :=
  ∃ opened count e, before.disk.OpensTo (outputPlace before.disk output) opened ∧
    device opened (outputPlace before.disk output) (lineBytes counters) = some (count, e) ∧
    after.disk.item? (outputPlace before.disk output) =
      some (.file ((lineBytes counters).take count)) ∧
    KeepsFiles [outputPlace before.disk output] before.disk after.disk

/-! ## The arguments -/

theorem IsCall.unique {args : List String} {source output source' output' : String}
    (h : IsCall args source output) (h' : IsCall args source' output') :
    source = source' ∧ output = output' := by
  rcases h.2.2 with ⟨rfl, rfl⟩ | rfl
  · rcases h'.2.2 with ⟨hargs, rfl⟩ | hargs
    · exact ⟨List.head_eq_of_cons_eq hargs, rfl⟩
    · simp at hargs
  · rcases h'.2.2 with ⟨hargs, rfl⟩ | hargs
    · simp at hargs
    · simpa using hargs

theorem run_of_isCall {args : List String} {source output : String}
    (h : IsCall args source output) (device : Device) (debug : Bool) (world : World) :
    run device args debug world = runOn device source output debug world := by
  rcases h with ⟨hshort, hlong, ⟨rfl, rfl⟩ | rfl⟩
  · simp [run, hshort, hlong]
  · simp [run, hshort, hlong]

theorem run_of_not_isCall {args : List String} (h : ∀ source output, ¬ IsCall args source output)
    (device : Device) (debug : Bool) (world : World) :
    run device args debug world = (.exit 1 none, world.log usage) := by
  unfold run
  split
  · next source =>
      refine if_pos ?_
      by_contra hhelp
      simp only [Bool.or_eq_true, decide_eq_true_eq, not_or] at hhelp
      exact h source "-" ⟨hhelp.1, hhelp.2, .inl ⟨rfl, rfl⟩⟩
  · next source output =>
      refine if_pos ?_
      by_contra hhelp
      simp only [Bool.or_eq_true, decide_eq_true_eq, not_or] at hhelp
      exact h source output ⟨hhelp.1, hhelp.2, .inr rfl⟩
  · rfl

theorem IsCall.hasNull_output {args : List String} {source output : String}
    (h : IsCall args source output) (hargs : ∀ arg ∈ args, hasNull arg = false)
    (houtput : output ≠ "-") : hasNull output = false := by
  rcases h.2.2 with ⟨-, hdash⟩ | rfl
  · exact absurd hdash houtput
  · exact hargs output (by simp)

/-! ## The source -/

theorem verdict_of_holds {disk : Disk} {source : String} {bytes : List UInt8}
    (h : Holds disk source bytes) :
    verdict Codec.registry disk "utf-8" (.path source) =
      match Utf8.decode bytes with
      | .error e => .error (.decode e)
      | .ok text => (judge {} (String.ofList (unifyNewlines text))).1 := by
  obtain ⟨hnull, hfind⟩ := h
  have hencoding : hasNull "utf-8" = false := by decide +kernel
  have hread : readFile Codec.registry disk "utf-8" (sourcePath source) =
      match Utf8.decode bytes with
      | .error e => .error (.decode e)
      | .ok text => .ok (unifyNewlines text) := by
    simp only [readFile, hencoding, hnull, Disk.read, hfind, Codec.registry_utf8, Codec.coding,
      Codec.decode]
    rfl
  have hsource : readSource Codec.registry disk "utf-8" (.path source) =
      (readFile Codec.registry disk "utf-8" (sourcePath source)).map
        fun text => (sourcePath source, String.ofList text) := rfl
  rw [verdict, hsource, hread]
  cases Utf8.decode bytes with
  | error e => rfl
  | ok text => rfl

/-- What a file comes to: its bytes are no text, its text is no program, its program
breaks a rule of the language, or it is accepted. -/
theorem verdict_cases {disk : Disk} {source : String} {bytes : List UInt8}
    (h : Holds disk source bytes) :
    (∃ e, Utf8.decode bytes = .error e ∧
      verdict Codec.registry disk "utf-8" (.path source) = .error (.decode e)) ∨
    (∃ text e, Utf8.decode bytes = .ok text ∧
      Phrase.parse (String.ofList (unifyNewlines text)) = .error e ∧
      verdict Codec.registry disk "utf-8" (.path source) = .error (.parse e)) ∨
    (∃ error,
      verdict Codec.registry disk "utf-8" (.path source) = .error (.check (.semantic error))) ∨
    (∃ counters, Accepted disk source counters ∧
      verdict Codec.registry disk "utf-8" (.path source) = .ok counters) := by
  rw [verdict_of_holds h]
  cases hdecode : Utf8.decode bytes with
  | error e => exact .inl ⟨e, rfl, rfl⟩
  | ok text =>
      rcases judge_cases (String.ofList (unifyNewlines text)) with
        ⟨program, counters, hparse, hcheck, hjudge⟩ | ⟨e, hparse, hjudge⟩ | ⟨error, hjudge⟩
      · exact .inr (.inr (.inr
          ⟨counters, ⟨bytes, text, program, h, hdecode, hparse, hcheck⟩, hjudge⟩))
      · exact .inr (.inl ⟨text, e, rfl, hparse, hjudge⟩)
      · exact .inr (.inr (.inl ⟨error, hjudge⟩))

theorem Accepted.verdict {disk : Disk} {source : String} {counters : Counters}
    (h : Accepted disk source counters) :
    Report.verdict Codec.registry disk "utf-8" (.path source) = .ok counters := by
  obtain ⟨bytes, text, program, hholds, hdecode, hparse, hcheck⟩ := h
  rw [verdict_of_holds hholds, hdecode]
  simp [judge, hparse, Checker.check, hcheck]

/-! ## The ways in which a run ends -/

/-- An error in the source that the program does not expect: a path with a name that is too
long, bytes that are no text, or a number with too many digits. -/
inductive Escapes (disk : Disk) (source : String) : Error → Prop
  | nameTooLong (hnull : hasNull (sourcePath source) = false)
      (h : disk.find (sourcePath source) = .error .nameTooLong) :
      Escapes disk source (.file ⟨.nameTooLong, sourcePath source⟩)
  | undecodable {bytes : List UInt8} {e : DecodeError} (h : Holds disk source bytes)
      (hdecode : Utf8.decode bytes = .error e) : Escapes disk source (.decode e)
  | tooManyDigits {bytes : List UInt8} {text : List Char} {digits : Nat}
      (h : Holds disk source bytes) (hdecode : Utf8.decode bytes = .ok text)
      (hparse : Phrase.parse (String.ofList (unifyNewlines text)) =
        .error (.tooManyDigits digits)) :
      Escapes disk source (.parse (.tooManyDigits digits))

/-- How a run on a source and an output ends, and the world that it leaves. -/
inductive Ends (device : Device) (source output : String) (world : World) :
    Ending → World → Prop
  /-- An error in the source escapes. -/
  | escaped {e : Error} {around : World} (h : Escapes world.disk source e) :
      Ends device source output world (.escaped e) around
  /-- The output is no path. -/
  | noPath {around : World} (houtput : output ≠ "-") (hnull : hasNull output = true) :
      Ends device source output world (.escaped .nullInPath) around
  /-- The source is no file, or it is not accepted. -/
  | rejected {trace : Option Error} {around : World}
      (h : ∀ counters, ¬ Accepted world.disk source counters)
      (hescapes : ∀ e, ¬ Escapes world.disk source e)
      (hdisk : around.disk = world.disk) (hout : around.out = world.out)
      (herr : world.Reports around) :
      Ends device source output world (.exit 1 trace) around
  /-- The output cannot be opened. -/
  | unwritten {counters : Counters} {trace : Option Error} {around : World}
      (h : Accepted world.disk source counters) (houtput : output ≠ "-")
      (hopens : ¬ world.disk.Opens (outputPlace world.disk output))
      (hdisk : KeepsFiles [] world.disk around.disk) (hout : around.out = world.out)
      (herr : world.Reports around) :
      Ends device source output world (.exit 1 trace) around
  /-- The output is opened and does not take the whole line. -/
  | broken {counters : Counters} {trace : Option Error} {around : World}
      (h : Accepted world.disk source counters) (houtput : output ≠ "-")
      (hbroken : Broken device counters output world around) (hout : around.out = world.out)
      (herr : world.Reports around) :
      Ends device source output world (.exit 1 trace) around
  /-- The line of the counts is written. -/
  | delivered {counters : Counters} {around : World} (h : Accepted world.disk source counters)
      (hline : Delivered counters output world around) :
      Ends device source output world (.exit 0 none) around

/-- A report checks the source with a new writer, and then writes if that succeeds. -/
theorem report_eq (device : Device) {output : String} {world : World} {target : Output}
    (houtput : Output.ofText world.disk.cwd output = .ok target) (source : String) :
    ∃ (after : Writer) (around : World), after.output = target ∧ after.settings = {} ∧
      (∀ counters, verdict Codec.registry world.disk "utf-8" (.path source) = .ok counters →
        after.counters = some counters) ∧
      world.OnlyLogs around ∧
      report device source output world =
        match verdict Codec.registry world.disk "utf-8" (.path source) with
        | .error e => (.error e, around)
        | .ok _ =>
          match after.write (.standard device) around with
          | (.error e, world) => (.error e, world)
          | (.ok _, world) => (.ok (), world) := by
  obtain ⟨after, around, hcheck, htarget, hsettings, hcounters, hlogs⟩ :=
    Writer.check_eq_verdict (.standard device) { output := target } (.path source) world
  refine ⟨after, around, htarget, hsettings, hcounters, hlogs, ?_⟩
  have hcodecs : (Platform.standard device).codecs = Codec.registry := rfl
  unfold report
  simp only [houtput, hcheck, hcodecs]
  cases verdict Codec.registry world.disk "utf-8" (.path source) with
  | error e => rfl
  | ok counters => rfl

/-- Where the source is a file, its verdict decides whether an error escapes. -/
theorem escapes_iff_of_holds {disk : Disk} {source : String} {bytes : List UInt8} {e : Error}
    (h : Holds disk source bytes) :
    Escapes disk source e ↔
      verdict Codec.registry disk "utf-8" (.path source) = .error e ∧ e.isExpected = false := by
  constructor
  · intro hescapes
    cases hescapes with
    | nameTooLong _ hfind =>
        rw [h.2] at hfind
        simp at hfind
    | undecodable hholds hdecode =>
        rw [verdict_of_holds hholds, hdecode]
        exact ⟨rfl, rfl⟩
    | tooManyDigits hholds hdecode hparse =>
        rw [verdict_of_holds hholds, hdecode]
        exact ⟨by simp [judge, hparse], rfl⟩
  · rintro ⟨hverdict, hexpected⟩
    rcases verdict_cases h with ⟨d, hdecode, hend⟩ | ⟨text, p, hdecode, hparse, hend⟩ |
      ⟨error, hend⟩ | ⟨counters, -, hend⟩
    all_goals rw [hend] at hverdict
    · obtain rfl := Except.error.inj hverdict
      exact .undecodable h hdecode
    · obtain rfl := Except.error.inj hverdict
      cases p with
      | tooManyDigits digits => exact .tooManyDigits h hdecode hparse
      | _ => simp [Error.isExpected] at hexpected
    · obtain rfl := Except.error.inj hverdict
      simp [Error.isExpected] at hexpected
    · simp at hverdict

theorem Escapes.unique {disk : Disk} {source : String} {e e' : Error}
    (h : Escapes disk source e) (h' : Escapes disk source e') : e = e' := by
  -- A file has one verdict; without a file only a name can be at fault.
  by_cases hholds : ∃ bytes, Holds disk source bytes
  · obtain ⟨bytes, hbytes⟩ := hholds
    have hverdict := ((escapes_iff_of_holds hbytes).mp h).1
    rw [((escapes_iff_of_holds hbytes).mp h').1] at hverdict
    exact (Except.error.inj hverdict).symm
  · cases h with
    | undecodable hbytes _ => exact absurd ⟨_, hbytes⟩ hholds
    | tooManyDigits hbytes _ _ => exact absurd ⟨_, hbytes⟩ hholds
    | nameTooLong _ _ =>
        cases h' with
        | undecodable hbytes _ => exact absurd ⟨_, hbytes⟩ hholds
        | tooManyDigits hbytes _ _ => exact absurd ⟨_, hbytes⟩ hholds
        | nameTooLong _ _ => rfl

theorem Accepted.not_escapes {disk : Disk} {source : String} {counters : Counters}
    (h : Accepted disk source counters) (e : Error) : ¬ Escapes disk source e := by
  intro hescapes
  obtain ⟨bytes, -, -, hholds, -⟩ := id h
  have hverdict := ((escapes_iff_of_holds hholds).mp hescapes).1
  rw [h.verdict] at hverdict
  simp at hverdict

theorem Accepted.unique {disk : Disk} {source : String} {counters counters' : Counters}
    (h : Accepted disk source counters) (h' : Accepted disk source counters') :
    counters = counters' := by
  have hverdict := h.verdict
  rw [h'.verdict] at hverdict
  exact (Except.ok.inj hverdict).symm

theorem accepted_of_verdict {disk : Disk} {source : String} {bytes : List UInt8}
    {counters : Counters} (h : Holds disk source bytes)
    (hverdict : verdict Codec.registry disk "utf-8" (.path source) = .ok counters) :
    Accepted disk source counters := by
  rcases verdict_cases h with ⟨e, -, hend⟩ | ⟨text, e, -, -, hend⟩ | ⟨error, hend⟩ |
    ⟨counted, haccepted, hend⟩
  all_goals rw [hend] at hverdict
  · simp at hverdict
  · simp at hverdict
  · simp at hverdict
  · obtain rfl := Except.ok.inj hverdict
    exact haccepted

/-- How the program answers to the end of a report. -/
def answer (debug : Bool) : Except Error Unit × World → Ending × World
  | (.ok (), world) => (.exit 0 none, world.log "✓ 检查成功!")
  | (.error e, world) =>
    if e.isExpected then
      (.exit 1 (if debug then some e else none), world.log (failureLine e))
    else (.escaped e, world)

theorem runFile_eq (device : Device) (source output : String) (debug : Bool) (world : World) :
    ∃ line, runFile device source output debug world =
      answer debug (report device source output (world.log line)) := by
  refine ⟨s!"[semcheck] 开始检查 {((Path.ofText source).absolute world.disk.cwd).text}", ?_⟩
  unfold runFile answer
  rfl

/-- A run stops with the verdict on a source that is not accepted. -/
theorem ends_of_verdict_error {source : String} {world around : World} {bytes : List UInt8}
    {e : Error} (h : Holds world.disk source bytes)
    (hverdict : verdict Codec.registry world.disk "utf-8" (.path source) = .error e)
    (hlogs : world.OnlyLogs around) (device : Device) (output : String) (debug : Bool) :
    Ends device source output world (answer debug (.error e, around)).1
      (answer debug (.error e, around)).2 := by
  cases hexpected : e.isExpected with
  | false =>
      rw [answer, if_neg (by simp [hexpected])]
      exact .escaped ((escapes_iff_of_holds h).mpr ⟨hverdict, hexpected⟩)
  | true =>
      -- The verdict is the only error of the source, and it is an expected one.
      rw [answer, if_pos hexpected]
      refine .rejected ?_ ?_ hlogs.disk hlogs.out (World.reports_log hlogs.err _)
      · intro counters haccepted
        rw [haccepted.verdict] at hverdict
        simp at hverdict
      · intro other hescapes
        obtain ⟨hother, hunexpected⟩ := (escapes_iff_of_holds h).mp hescapes
        rw [hverdict] at hother
        obtain rfl := Except.error.inj hother
        rw [hexpected] at hunexpected
        simp at hunexpected

/-- A run writes the counts of a source that is accepted. -/
theorem ends_of_accepted {source output : String} {world around : World} {counters : Counters}
    {writer : Writer} (h : Accepted world.disk source counters)
    (hcounters : writer.counters = some counters) (hsettings : writer.settings = {})
    (htarget : writer.output =
      if output = "-" then .standard else .file (outputPlace world.disk output))
    (hlogs : world.OnlyLogs around) (device : Device) (debug : Bool) :
    Ends device source output world
      (answer debug (match writer.write (.standard device) around with
        | (.error e, world) => (.error e, world)
        | (.ok _, world) => (.ok (), world))).1
      (answer debug (match writer.write (.standard device) around with
        | (.error e, world) => (.error e, world)
        | (.ok _, world) => (.ok (), world))).2 := by
  by_cases houtput : output = "-"
  · rw [if_pos houtput] at htarget
    have hwrite : writer.write (.standard device) around =
        (.ok true, around.print (counters.format ++ "\n")) := by
      rw [Writer.write, hcounters, htarget]
    rw [hwrite]
    refine .delivered h ⟨?_, fun hne => absurd houtput hne⟩
    intro _
    refine ⟨?_, hlogs.disk⟩
    change around.out ++ (counters.format ++ "\n") = _
    rw [hlogs.out]
  · rw [if_neg houtput] at htarget
    have hends := writer.write_ends (.standard device) around
    generalize writer.write (.standard device) around = written at hends
    obtain ⟨ending, after⟩ := written
    simp only at hends
    cases hends with
    | refused hnone => simp [hcounters] at hnone
    | printed _ hstandard => simp [htarget] at hstandard
    | kept _ hprotects _ => simp [Writer.Protects, hsettings] at hprotects
    | unopened _ hplace _ hcause hkeeps =>
        rw [htarget] at hplace
        obtain rfl := Output.file.inj hplace
        rw [hlogs.disk] at hcause hkeeps
        cases hcause with
        | file hopens =>
            exact .unwritten h houtput hopens hkeeps hlogs.out (World.reports_log hlogs.err _)
        | null hnull => exact absurd hnull (by rw [hsettings]; decide +kernel)
    | opened hheld hplace _ hopens htakes hkeeps hitem hout herr =>
        rw [htarget] at hplace
        obtain rfl := Output.file.inj hplace
        rw [hcounters] at hheld
        obtain rfl := Option.some.inj hheld
        rw [hsettings] at htakes
        rw [hlogs.disk] at hopens hkeeps
        have hwords : ∃ messages, after.err = world.err ++ messages := by
          obtain ⟨first, hfirst⟩ := hlogs.err
          obtain ⟨second, hsecond⟩ := herr
          exact ⟨first ++ second, by rw [hsecond, hfirst, String.append_assoc]⟩
        -- the name of the encoding is known, and UTF-8 has bytes for every line
        cases htakes with
        | unknown hcodec => simp [Platform.standard, Codec.registry_utf8] at hcodec
        | refused hcodec hencode =>
            obtain rfl := Except.ok.inj (Codec.registry_utf8.symm.trans hcodec)
            simp [Codec.coding, Codec.encode] at hencode
        | broken hcodec hencode hdevice =>
            obtain rfl := Except.ok.inj (Codec.registry_utf8.symm.trans hcodec)
            obtain rfl := Except.ok.inj hencode
            exact .broken h houtput ⟨_, _, _, hopens, hdevice, hitem, hkeeps⟩
              (hout.trans hlogs.out) (World.reports_log hwords _)
        | stored hcodec hencode hdevice =>
            obtain rfl := Except.ok.inj (Codec.registry_utf8.symm.trans hcodec)
            obtain rfl := Except.ok.inj hencode
            exact .delivered h ⟨fun hdash => absurd hdash houtput,
              fun _ => ⟨hout.trans hlogs.out, hitem, hkeeps⟩⟩

/-- A run on a source that is a file. -/
theorem ends_runFile {source : String} {world : World} {bytes : List UInt8}
    (h : Holds world.disk source bytes) (device : Device) (output : String) (debug : Bool) :
    Ends device source output world (runFile device source output debug world).1
      (runFile device source output debug world).2 := by
  obtain ⟨line, hrun⟩ := runFile_eq device source output debug world
  have hstart := (World.OnlyLogs.refl world).log line
  rw [hrun]
  -- The output is looked at before the source is read.
  by_cases hnull : output ≠ "-" ∧ hasNull output = true
  · have hreport : report device source output (world.log line) =
        (.error .nullInPath, world.log line) := by
      simp [report, Output.ofText, Output.ofPath, hnull.1, hnull.2]
    rw [hreport]
    exact .noPath hnull.1 hnull.2
  · have houtput : Output.ofText (world.log line).disk.cwd output =
        .ok (if output = "-" then .standard else .file (outputPlace world.disk output)) := by
      by_cases hdash : output = "-"
      · simp [Output.ofText, hdash]
      · have hpath : hasNull output = false := by
          by_contra hnot
          exact hnull ⟨hdash, by simpa using hnot⟩
        simp [Output.ofText, Output.ofPath, hdash, hpath, outputPlace, World.log]
    obtain ⟨writer, around, htarget, hsettings, hcounters, hlogs, hreport⟩ :=
      report_eq device houtput source
    have hall := hstart.trans hlogs
    rw [hreport]
    cases hverdict : verdict Codec.registry (world.log line).disk "utf-8" (.path source) with
    | error e => exact ends_of_verdict_error h hverdict hall device output debug
    | ok counters =>
        exact ends_of_accepted (accepted_of_verdict h hverdict) (hcounters counters hverdict)
          hsettings htarget hall device debug

/-- A run on a source that is no file, and whose path is short enough. -/
theorem ends_of_not_holds {source : String} {world : World}
    (h : ∀ bytes, ¬ Holds world.disk source bytes)
    (hshort : hasNull (sourcePath source) = true ∨
      world.disk.find (sourcePath source) ≠ .error .nameTooLong)
    (device : Device) (output line : String) :
    Ends device source output world (.exit 1 none) (world.log line) := by
  have hlogs := World.OnlyLogs.refl world
  refine .rejected ?_ ?_ rfl rfl (World.reports_log hlogs.err line)
  · rintro counters ⟨bytes, -, -, hholds, -⟩
    exact h bytes hholds
  · intro e hescapes
    cases hescapes with
    | nameTooLong hnull hfind =>
        rcases hshort with htrue | hne
        · rw [hnull] at htrue
          simp at htrue
        · exact hne hfind
    | undecodable hholds _ => exact h _ hholds
    | tooManyDigits hholds _ _ => exact h _ hholds

theorem not_holds_of_find {disk : Disk} {source : String} {found : Except Cause Item}
    (hfind : disk.find (sourcePath source) = found) (h : ∀ bytes, found ≠ .ok (.file bytes))
    (bytes : List UInt8) : ¬ Holds disk source bytes := by
  rintro ⟨-, hfile⟩
  exact h bytes (hfind.symm.trans hfile)

/-- Every run on a source and an output ends in one of the ways. -/
theorem ends_runOn (device : Device) (source output : String) (debug : Bool) (world : World) :
    Ends device source output world (runOn device source output debug world).1
      (runOn device source output debug world).2 := by
  have hpath : (Path.ofText source).text = sourcePath source := rfl
  unfold runOn
  simp only [hpath]
  cases hnull : hasNull (sourcePath source) with
  | true =>
      rw [sourceExists, if_pos hnull]
      refine ends_of_not_holds ?_ (.inl hnull) device output _
      rintro bytes ⟨hfalse, -⟩
      rw [hnull] at hfalse
      simp at hfalse
  | false =>
      have hexists : sourceExists world.disk (sourcePath source) =
          world.disk.exists? (sourcePath source) := by simp [sourceExists, hnull]
      rw [hexists]
      generalize hfind : world.disk.find (sourcePath source) = found
      rcases found with cause | bytes | _
      · have hnot := not_holds_of_find hfind (by simp)
        cases cause with
        | nameTooLong =>
            simp only [Disk.exists?, hfind]
            exact .escaped (.nameTooLong hnull hfind)
        | _ =>
            simp only [Disk.exists?, hfind]
            exact ends_of_not_holds hnot (.inr (by simp [hfind])) device output _
      · simp only [Disk.exists?, Disk.isFile, hfind, if_true]
        exact ends_runFile ⟨hnull, hfind⟩ device output debug
      · simp only [Disk.exists?, Disk.isFile, hfind, Bool.false_eq_true, if_false]
        exact ends_of_not_holds (not_holds_of_find hfind (by simp)) (.inr (by simp [hfind])) device
          output _

/-- A run ends in one of the ways, or its arguments are no call of the program. -/
theorem run_cases (device : Device) (args : List String) (debug : Bool) (world : World) :
    ∃ ending around, run device args debug world = (ending, around) ∧
      ((∃ source output, IsCall args source output ∧
          Ends device source output world ending around) ∨
        (∀ source output, ¬ IsCall args source output) ∧
          ending = .exit 1 none ∧ around = world.log usage) := by
  by_cases hcall : ∃ source output, IsCall args source output
  · obtain ⟨source, output, hcall⟩ := hcall
    exact ⟨_, _, run_of_isCall hcall device debug world,
      .inl ⟨source, output, hcall, ends_runOn device source output debug world⟩⟩
  · have hnot : ∀ source output, ¬ IsCall args source output :=
      fun source output h => hcall ⟨source, output, h⟩
    exact ⟨_, _, run_of_not_isCall hnot device debug world, .inr ⟨hnot, rfl, rfl⟩⟩

end Cli

end NumBool
