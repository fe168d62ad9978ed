import NumBool.Proofs.Report.Session
import NumBool.Proofs.Report.Verdict
import NumBool.Text.HostName

/-!
# What a writer holds and where it goes

A writer that holds counts holds those of the last check that succeeded, with the name of
its source; checks that failed since then could not read their source, or the writer would
hold nothing.  Every call keeps this (`Session.HoldsLast.step`), so it is true after every
run (`Session.HoldsLast.run`).

A write puts out the line of what the writer holds, or leaves the surroundings as they are,
or fails on its way to the file (`WriteEnds`); in no case does a file change that is not the
output.  A file receives what the encoding gives out for the line, which need not be all of
it: the encoding is never told that the text has ended.  With an encoding that waits for the
end, such as that of host names, the file stays empty and the write is still taken for a
success (`Session.write_hostName_leaves_empty`).
-/

namespace NumBool.Report

open Disk Text

/-! ## Checks -/

namespace Session

variable {platform : Platform}

theorem run_append (platform : Platform) (s : Session) (calls more : List Call) :
    s.run platform (calls ++ more) = (s.run platform calls).run platform more :=
  List.foldl_append ..

/-- How a check of a source would end. -/
def ending (platform : Platform) (s : Session) (source : Source) : Except Error Unit :=
  (s.writer.check platform source s.world).1

/-- Among some calls, the check of a source after the calls `before` is the last one that
succeeds. -/
structure LastSuccess (platform : Platform) (s : Session) (calls before : List Call)
    (source : Source) : Prop where
  succeeds : (s.run platform before).ending platform source = .ok ()
  last : ∃ after, calls = before ++ .check source :: after ∧
    ∀ middle other rest, after = middle ++ .check other :: rest →
      (s.run platform (before ++ .check source :: middle)).ending platform other ≠ .ok ()

theorem lastSuccess_append_check {s : Session} {calls : List Call} {source : Source}
    (h : (s.run platform calls).ending platform source = .ok ()) :
    s.LastSuccess platform (calls ++ [.check source]) calls source :=
  ⟨h, [], rfl, fun middle other rest hnil => by simp at hnil⟩

theorem LastSuccess.append {s : Session} {calls before : List Call} {source : Source}
    (h : s.LastSuccess platform calls before source) {call : Call}
    (hcall : ∀ other, call = .check other → (s.run platform calls).ending platform other ≠ .ok ()) :
    s.LastSuccess platform (calls ++ [call]) before source := by
  obtain ⟨after, rfl, hafter⟩ := h.last
  refine ⟨h.succeeds, after ++ [call], by simp, ?_⟩
  intro middle other rest hsplit
  rcases List.eq_nil_or_concat rest with rfl | ⟨rest, last, rfl⟩
  · obtain ⟨rfl, hlast⟩ := List.append_inj' hsplit rfl
    exact hcall other (List.cons.inj hlast).1
  · refine hafter middle other rest ?_
    rw [List.concat_eq_append, ← List.cons_append, ← List.append_assoc] at hsplit
    exact (List.append_inj' hsplit rfl).1

/-- What the writer holds after some calls, if anything, is the name and the counts of the
last check that succeeded. -/
def HoldsLast (platform : Platform) (s : Session) (calls : List Call) : Prop :=
  ∀ counters, (s.run platform calls).writer.counters = some counters →
    ∃ before source, s.LastSuccess platform calls before source ∧
      Passes platform.codecs (s.run platform before).world.disk s.writer.settings.encoding source
        (s.run platform calls).writer.sourceName counters

theorem step_settings (platform : Platform) (s : Session) (call : Call) :
    (s.step platform call).writer.output = s.writer.output ∧
      (s.step platform call).writer.settings = s.writer.settings := by
  cases call with
  | write => exact ⟨rfl, rfl⟩
  | check source =>
      obtain ⟨after, around, hcheck, houtput, hsettings, -⟩ :=
        s.writer.check_eq_verdict platform source s.world
      simp only [step, hcheck]
      exact ⟨houtput, hsettings⟩

theorem run_settings (platform : Platform) (s : Session) (calls : List Call) :
    (s.run platform calls).writer.output = s.writer.output ∧
      (s.run platform calls).writer.settings = s.writer.settings := by
  induction calls generalizing s with
  | nil => exact ⟨rfl, rfl⟩
  | cons call calls ih =>
      obtain ⟨houtput, hsettings⟩ := ih (s.step platform call)
      obtain ⟨hfirst, hfirst'⟩ := s.step_settings platform call
      exact ⟨houtput.trans hfirst, hsettings.trans hfirst'⟩

/-- One more call keeps what is known of the writer. -/
theorem HoldsLast.step {s : Session} {calls : List Call} (h : s.HoldsLast platform calls)
    (call : Call) : s.HoldsLast platform (calls ++ [call]) := by
  intro counters hcounters
  have hrun : s.run platform (calls ++ [call]) = (s.run platform calls).step platform call :=
    run_append platform s calls [call]
  rw [hrun] at hcounters ⊢
  cases call with
  | write =>
      obtain ⟨before, source, hlast, hpasses⟩ := h counters hcounters
      exact ⟨before, source, hlast.append (by simp), hpasses⟩
  | check source =>
      cases hcheck : (s.run platform calls).writer.check platform source
          (s.run platform calls).world with
      | mk answer rest =>
          obtain ⟨after, around⟩ := rest
          have hending : (s.run platform calls).ending platform source = answer :=
            congrArg Prod.fst hcheck
          have hwriter : ((s.run platform calls).step platform (.check source)).writer = after := by
            simp only [Session.step, hcheck]
          rw [hwriter] at hcounters ⊢
          rcases Writer.check_cases hcheck with
            ⟨e, rfl, -, rfl, -⟩ | ⟨e, -, -, hnone⟩ | ⟨rfl, counted, hcounted, hpasses⟩
          · -- the source could not be read, so the writer is the one before the call
            obtain ⟨before, earlier, hlast, hpasses⟩ := h counters hcounters
            refine ⟨before, earlier, hlast.append ?_, hpasses⟩
            rintro other hother hsuccess
            obtain rfl := Call.check.inj hother
            rw [hending] at hsuccess
            simp at hsuccess
          · rw [hnone] at hcounters
            simp at hcounters
          · rw [hcounted] at hcounters
            obtain rfl := Option.some.inj hcounters
            rw [(s.run_settings platform calls).2] at hpasses
            exact ⟨calls, source, lastSuccess_append_check hending, hpasses⟩

theorem HoldsLast.run {s : Session} (h : s.HoldsLast platform []) (calls : List Call) :
    s.HoldsLast platform calls := by
  induction calls using List.reverseRecOn with
  | nil => exact h
  | append_singleton calls call ih => exact ih.step call

theorem holdsLast_start (platform : Platform) (output : Output) (settings : Settings)
    (world : World) : (start output settings world).HoldsLast platform [] := by
  intro counters hcounters
  simp [start, Session.run] at hcounters

end Session

/-! ## Deliveries -/

/-- What a new writer is told about its output: nothing, a name, or a path. -/
inductive Destination where
  | unnamed
  | name (text : String)
  | path (text : String)
  deriving DecidableEq, Repr

namespace Destination

/-- The output that a new writer gets. -/
def output (cwd : Place) : Destination → Except Error Output
  | unnamed => .ok .standard
  | name text => Output.ofText cwd text
  | path text => Output.ofPath cwd text

/-- Where the file is that takes the line.  There is none for nothing and for a dash. -/
def place? (cwd : Place) : Destination → Option Place
  | unnamed => none
  | name text => if text = "-" then none else some ((Path.ofText text).resolve cwd)
  | path text => some ((Path.ofText text).resolve cwd)

end Destination

/-- The place of the file that an output is. -/
def Output.place? : Output → Option Place
  | standard => none
  | file place => some place

theorem Destination.place?_eq {destination : Destination} {cwd : Place} {output : Output}
    (h : destination.output cwd = .ok output) : destination.place? cwd = output.place? := by
  have hpath : ∀ text, Output.ofPath cwd text = .ok output →
      output = .file ((Path.ofText text).resolve cwd) := by
    intro text htext
    rw [Output.ofPath] at htext
    split at htext
    · simp at htext
    · exact (Except.ok.inj htext).symm
  cases destination with
  | unnamed =>
      obtain rfl := Except.ok.inj h
      rfl
  | path text =>
      rw [hpath text h]
      rfl
  | name text =>
      rw [Destination.output, Output.ofText] at h
      split at h
      · next hdash =>
          obtain rfl := Except.ok.inj h
          rw [Destination.place?, if_pos hdash]
          rfl
      · next hdash =>
          rw [hpath text h, Destination.place?, if_neg hdash]
          rfl

/-- The encoding, if there is one, gives out all bytes of a text before the text has ended. -/
def WritesWhole (codecs : Registry) (encoding : String) (text : List Char) : Prop :=
  ∀ coding, codecs encoding = .ok coding → coding.encode text false = coding.encode text true

/-- The encodings of this library hold nothing back. -/
theorem writesWhole_registry (encoding : String) (text : List Char) :
    WritesWhole Codec.registry encoding text := by
  intro coding hcoding
  rw [Codec.registry] at hcoding
  cases hcodec : Codec.ofName encoding with
  | error e => simp [hcodec, Except.map] at hcoding
  | ok codec =>
      rw [hcodec] at hcoding
      obtain rfl := Except.ok.inj hcoding
      rfl

/-- A line has been printed if there is no place for it.  Otherwise the file at the place holds
what the encoding gives out for the line, be it before or after the text has `ended`, and
nothing has been printed. -/
def Received (codecs : Registry) (place? : Option Place) (encoding : String) (ended : Bool)
    (line : String) (before after : World) : Prop :=
  match place? with
  | none => after.out = before.out ++ line ∧ after.disk = before.disk
  | some place =>
    after.out = before.out ∧
      ∃ coding bytes, codecs encoding = .ok coding ∧
        coding.encode line.toList ended = .ok bytes ∧
        after.disk.item? place = some (.file bytes)

/-- A line that no encoding holds back has been received as a whole. -/
theorem Received.of_writesWhole {codecs : Registry} {place? : Option Place}
    {encoding line : String} {before after : World}
    (h : Received codecs place? encoding false line before after)
    (hwhole : WritesWhole codecs encoding line.toList) :
    Received codecs place? encoding true line before after := by
  cases place? with
  | none => exact h
  | some place =>
      obtain ⟨hout, coding, bytes, hcoding, hencode, hitem⟩ := h
      refine ⟨hout, coding, bytes, hcoding, ?_, hitem⟩
      rw [← hwhole coding hcoding, hencode]

namespace Writer

variable {platform : Platform} {writer : Writer} {world around : World}

theorem received_of_write (h : writer.write platform world = (.ok true, around)) :
    ∃ counters, writer.counters = some counters ∧
      Received platform.codecs writer.output.place? writer.settings.encoding false
        (counters.format ++ "\n") world around := by
  have hends := write_ends_of_eq h
  generalize hending : (Except.ok true : Except Error Bool) = ending at hends
  cases hends with
  | refused | kept | unopened => simp at hending
  | printed hcounters houtput =>
      rw [houtput]
      exact ⟨_, hcounters, rfl, rfl⟩
  | opened hcounters houtput _ _ htakes _ hitem hout =>
      rw [houtput]
      cases htakes with
      | unknown | refused | broken => simp [Except.map] at hending
      | stored hcodec hencode _ => exact ⟨_, hcounters, hout, _, _, hcodec, hencode, hitem⟩

/-- A write leaves the file alone exactly if the writer holds counts and the file may not
be replaced. -/
theorem write_eq_false_iff :
    (writer.write platform world).1 = .ok false ↔
      writer.counters ≠ none ∧ writer.Protects world := by
  have hends := writer.write_ends platform world
  generalize (writer.write platform world).1 = ending at hends
  generalize (writer.write platform world).2 = after at hends
  cases hends with
  | refused hnone => simp [hnone]
  | printed _ houtput => simp [Protects, houtput]
  | kept hcounters hprotects _ => simp [hcounters, hprotects]
  | unopened _ _ hreplaces _ _ => simp [hreplaces]
  | opened _ _ hreplaces _ htakes => cases htakes <;> simp [Except.map, hreplaces]

theorem onlyLogs_of_write_eq_false (h : writer.write platform world = (.ok false, around)) :
    world.OnlyLogs around := by
  have hends := write_ends_of_eq h
  generalize hending : (Except.ok false : Except Error Bool) = ending at hends
  cases hends with
  | refused | printed | unopened => simp at hending
  | kept _ _ message => exact (World.OnlyLogs.refl world).log message
  | opened _ _ _ _ htakes => cases htakes <;> simp [Except.map] at hending

/-- No file changes but the one at the output. -/
theorem write_keepsFiles (platform : Platform) (writer : Writer) (world : World) :
    KeepsFiles writer.output.place?.toList world.disk (writer.write platform world).2.disk := by
  have hends := writer.write_ends platform world
  generalize (writer.write platform world).1 = ending at hends
  generalize (writer.write platform world).2 = after at hends
  cases hends with
  | refused | printed | kept => exact .refl _ world.disk
  | @unopened _ _ _ disk _ _ _ _ hkeeps => exact hkeeps.trans (.refl _ disk)
  | opened _ houtput _ _ _ hkeeps =>
      rw [houtput]
      exact hkeeps

end Writer

/-- What a writer holds after any calls is what the last check that succeeded gave, with the
name of its source, and a write puts out exactly the line of this.  It prints the line if the
writer was made for nothing or for a dash.  Otherwise the file at the path holds what the
encoding gives out for the line before the text has ended, which is the whole line unless the
encoding holds something back.  A write that leaves the file alone, or that finds nothing to
write, changes nothing on the disk and prints nothing, and no write changes another file.  This
is so on every platform. -/
theorem Session.write_delivers_last_success (platform : Platform) {destination : Destination}
    {output : Output} (settings : Settings) {world : World}
    (houtput : destination.output world.disk.cwd = .ok output) (calls : List Call) {s : Session}
    (hs : s = (start output settings world).run platform calls) :
    (∀ counters, s.writer.counters = some counters →
      ∃ before source, (start output settings world).LastSuccess platform calls before source ∧
        Passes platform.codecs ((start output settings world).run platform before).world.disk
          settings.encoding source s.writer.sourceName counters) ∧
    (∀ around, s.writer.write platform s.world = (.ok true, around) →
      ∃ counters, s.writer.counters = some counters ∧
        Received platform.codecs (destination.place? world.disk.cwd) settings.encoding false
          (counters.format ++ "\n") s.world around ∧
        (WritesWhole platform.codecs settings.encoding (counters.format ++ "\n").toList →
          Received platform.codecs (destination.place? world.disk.cwd) settings.encoding true
            (counters.format ++ "\n") s.world around)) ∧
    (∀ around, s.writer.write platform s.world = (.ok false, around) →
      around.disk = s.world.disk ∧ around.out = s.world.out) ∧
    ((s.writer.write platform s.world).1 = .ok false ↔
      s.writer.counters ≠ none ∧ settings.overwrite = false ∧
        ∃ place, destination.place? world.disk.cwd = some place ∧
          s.world.disk.exists? place.text = .ok true) ∧
    (∀ around, s.writer.write platform s.world = (.error .nothingToWrite, around) →
      s.writer.counters = none ∧ around = s.world) ∧
    KeepsFiles (destination.place? world.disk.cwd).toList s.world.disk
      (s.writer.write platform s.world).2.disk := by
  have hplace := Destination.place?_eq houtput
  have hholds := (holdsLast_start platform output settings world).run calls
  obtain ⟨htarget, hsettings⟩ := (start output settings world).run_settings platform calls
  rw [HoldsLast, ← hs] at hholds
  rw [← hs] at htarget hsettings
  have htarget : s.writer.output = output := htarget
  have hsettings : s.writer.settings = settings := hsettings
  rw [hplace]
  refine ⟨hholds, ?_, ?_, ?_, fun around => Writer.eq_of_write_refused, ?_⟩
  · intro around hwrite
    obtain ⟨counters, hcounters, hreceived⟩ := Writer.received_of_write hwrite
    rw [htarget, hsettings] at hreceived
    exact ⟨counters, hcounters, hreceived, hreceived.of_writesWhole⟩
  · intro around hwrite
    have honly := Writer.onlyLogs_of_write_eq_false hwrite
    exact ⟨honly.disk, honly.out⟩
  · rw [Writer.write_eq_false_iff, Writer.Protects, hsettings, htarget]
    cases output with
    | standard => simp [Output.place?]
    | file place => simp [Output.place?]
  · have hkeeps := s.writer.write_keepsFiles platform s.world
    rwa [htarget] at hkeeps

/-- A file with a program, and the file that is to be replaced. -/
def twoFiles : World where
  disk := ⟨[], [(["p"], .file (Utf8.encode "bool b;".toList)), (["r"], .file [0x6f])]⟩

/-- A check of the program, one of a text that is no program, the first one again, and one
of a file that is missing. -/
def fourChecks : List Call :=
  [.check (.path "p"), .check (.text "bool"), .check (.path "p"), .check (.path "gone")]

/-- A writer for the second file after these checks. -/
def afterFourChecks : Session :=
  (Session.start (.file ["r"]) {} twoFiles).run (.standard .sound) fourChecks

theorem Session.write_delivers_last_success_fourChecks :
    Destination.output twoFiles.disk.cwd (.path "r") = .ok (.file ["r"]) ∧
    afterFourChecks.writer.counters = some { declarations := 1 } ∧
    (∃ before source,
      (start (.file ["r"]) {} twoFiles).LastSuccess (.standard .sound) fourChecks before source ∧
      Passes Codec.registry
        ((start (.file ["r"]) {} twoFiles).run (.standard .sound) before).world.disk "utf-8"
        source "p" { declarations := 1 }) ∧
    ∃ around,
      afterFourChecks.writer.write (.standard .sound) afterFourChecks.world = (.ok true, around) ∧
      Received Codec.registry (some ["r"]) "utf-8" true "\x7bVAR:1, WHILE:0, IF:0, OP:0\x7d\n"
        afterFourChecks.world around := by
  have houtput : Destination.output twoFiles.disk.cwd (.path "r") = .ok (.file ["r"]) := by
    decide +kernel
  have hplace : Destination.place? twoFiles.disk.cwd (.path "r") = some ["r"] := by
    decide +kernel
  have hcounters : afterFourChecks.writer.counters = some { declarations := 1 } := by
    decide +kernel
  have hname : afterFourChecks.writer.sourceName = "p" := by decide +kernel
  have hline : Counters.format { declarations := 1 } ++ "\n" =
      "\x7bVAR:1, WHILE:0, IF:0, OP:0\x7d\n" := by decide +kernel
  obtain ⟨around, hwrite⟩ : ∃ around,
      afterFourChecks.writer.write (.standard .sound) afterFourChecks.world =
        (.ok true, around) := by
    have hfirst : (afterFourChecks.writer.write (.standard .sound) afterFourChecks.world).1 =
        .ok true := by decide +kernel
    generalize afterFourChecks.writer.write (.standard .sound) afterFourChecks.world = written
      at hfirst
    exact ⟨written.2, Prod.ext hfirst rfl⟩
  obtain ⟨hlast, htrue, -⟩ :=
    write_delivers_last_success (.standard .sound) {} houtput fourChecks (s := afterFourChecks) rfl
  obtain ⟨before, source, hsuccess, hpasses⟩ := hlast _ hcounters
  obtain ⟨counters, hheld, -, hreceived⟩ := htrue around hwrite
  rw [hcounters] at hheld
  obtain rfl := Option.some.inj hheld
  have hreceived := hreceived (writesWhole_registry _ _)
  rw [hname] at hpasses
  rw [hplace, hline] at hreceived
  exact ⟨houtput, hcounters, ⟨before, source, hsuccess, hpasses⟩, around, hwrite, hreceived⟩

/-- The platform on which host names are an encoding too. -/
def namingPlatform : Platform :=
  ⟨HostName.registry, .sound⟩

/-- A writer of host names after a check that has passed. -/
def afterNaming : Session :=
  (Session.start (.file ["r"]) { encoding := "idna" } twoFiles).run namingPlatform
    [.check (.text "num a;")]

/-- The line is one label, which is held back: the file is empty after a write that is taken for
a success, and does not hold the line. -/
theorem Session.write_hostName_leaves_empty :
    afterNaming.writer.counters = some { declarations := 1 } ∧
    (afterNaming.writer.write namingPlatform afterNaming.world).1 = .ok true ∧
    (afterNaming.writer.write namingPlatform afterNaming.world).2.disk.item? ["r"] =
      some (.file []) ∧
    ¬ Received HostName.registry (some ["r"]) "idna" true
      "\x7bVAR:1, WHILE:0, IF:0, OP:0\x7d\n" afterNaming.world
      (afterNaming.writer.write namingPlatform afterNaming.world).2 := by
  have hempty : (afterNaming.writer.write namingPlatform afterNaming.world).2.disk.item? ["r"] =
      some (.file []) := by decide +kernel
  refine ⟨by decide +kernel, by decide +kernel, hempty, ?_⟩
  have hregistry : HostName.registry "idna" = .ok HostName.coding := if_pos rfl
  rintro ⟨-, coding, bytes, hcoding, hencode, hitem⟩
  rw [hregistry] at hcoding
  obtain rfl := Except.ok.inj hcoding
  have hbytes : HostName.coding.encode "\x7bVAR:1, WHILE:0, IF:0, OP:0\x7d\n".toList true ≠
      .ok [] := by decide +kernel
  rw [hempty] at hitem
  obtain rfl := Item.file.inj (Option.some.inj hitem)
  exact hbytes hencode

end NumBool.Report
