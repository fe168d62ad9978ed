import NumBool.Proofs.Disk.Tree
import NumBool.Proofs.Report.Deliveries

/-!
# Writes that fail

A write that fails before its output has been opened leaves every file as it was.  Opening the
output empties it, and what comes behind that can fail too: the name may give no encoding, the
encoding may have no bytes for the line, and the device may not take them all (`Takes`).  The
output then holds a beginning of the line, mostly none of it, and what it held before is lost
(`Writer.write_error_cases`).

This does not happen to a file that may not be replaced.  The output is opened then only if its
path leads nowhere, and on a disk that is a tree there is no file at its place.
-/

namespace NumBool.Report

open Disk Text

/-- Whether the error arises behind the opening of an output. -/
def Error.isBehindOpening : Error → Bool
  | .encoding _ | .encode _ | .store _ => true
  | _ => false

/-- The output has been opened and holds no more than a beginning of the line; all other files are
as they were. -/
structure Spoilt (platform : Platform) (encoding : String) (place : Place) (line : String)
    (before after : Disk) (e : Error) : Prop where
  takes : ∃ opened bytes, before.OpensTo place opened ∧
    Takes platform opened encoding place line (.error e) bytes ∧
    after.item? place = some (.file bytes)
  keeps : KeepsFiles [place] before after

theorem Unopened.isBehindOpening {disk : Disk} {encoding : String} {place : Place} {e : Error}
    (h : Unopened disk encoding place e) : e.isBehindOpening = false := by
  cases h with
  | file _ | null _ => rfl

theorem Takes.isBehindOpening {platform : Platform} {opened : Disk} {encoding : String}
    {place : Place} {line : String} {e : Error} {bytes : List UInt8}
    (h : Takes platform opened encoding place line (.error e) bytes) :
    e.isBehindOpening = true := by
  cases h with
  | unknown _ | refused _ _ | broken _ _ _ => rfl

/-- An output that is opened although it may not be replaced is at a path that leads nowhere. -/
theorem Writer.exists?_of_not_protects {writer : Writer} {world : World} {place : Place}
    {opened : Disk} (houtput : writer.output = .file place)
    (hreplaces : ¬ writer.Protects world) (hopens : world.disk.OpensTo place opened)
    (hkept : writer.settings.overwrite = false) : world.disk.exists? place.text = .ok false := by
  obtain ⟨present, hpresent⟩ := hopens.exists?
  cases present with
  | false => exact hpresent
  | true => exact absurd ⟨hkept, place, houtput, hpresent⟩ hreplaces

/-- What a write that fails can do to the files: nothing, or spoil the output.  The output could
be replaced then, or its path led nowhere. -/
theorem Writer.write_error_cases {platform : Platform} {writer : Writer} {world around : World}
    {e : Error} (h : writer.write platform world = (.error e, around)) :
    (e.isBehindOpening = false ∧ KeepsFiles [] world.disk around.disk) ∨
    ∃ counters place, writer.counters = some counters ∧ writer.output = .file place ∧
      e.isBehindOpening = true ∧
      Spoilt platform writer.settings.encoding place (counters.format ++ "\n") world.disk
        around.disk e ∧
      (writer.settings.overwrite = false → world.disk.exists? place.text = .ok false) := by
  have hends := write_ends_of_eq h
  generalize hending : (Except.error e : Except Error Bool) = ending at hends
  cases hends with
  | refused _ =>
      obtain rfl := Except.error.inj hending
      exact .inl ⟨rfl, .refl [] world.disk⟩
  | printed | kept => simp at hending
  | unopened _ _ _ hcause hkeeps =>
      obtain rfl := Except.error.inj hending
      exact .inl ⟨hcause.isBehindOpening, hkeeps⟩
  | @opened counters place opened ending bytes around hcounters houtput hreplaces hopens htakes
      hkeeps hitem _ _ =>
      cases ending with
      | ok _ => simp [Except.map] at hending
      | error cause =>
          obtain rfl := Except.error.inj hending
          exact .inr ⟨counters, place, hcounters, houtput, htakes.isBehindOpening,
            ⟨⟨opened, bytes, hopens, htakes, hitem⟩, hkeeps⟩,
            exists?_of_not_protects houtput hreplaces hopens⟩

theorem Destination.isProper {destination : Destination} {cwd place : Place}
    (hcwd : cwd.IsProper) (h : destination.output cwd = .ok (.file place)) :
    place.IsProper := by
  have hplace : destination.place? cwd = some place := Destination.place?_eq h
  cases destination with
  | unnamed => simp [Destination.place?] at hplace
  | path text =>
      obtain rfl := Option.some.inj hplace
      exact isProper_resolve hcwd text
  | name text =>
      rw [Destination.place?] at hplace
      split at hplace
      · simp at hplace
      · obtain rfl := Option.some.inj hplace
        exact isProper_resolve hcwd text

/-- A write that fails leaves all files as they were, unless it may replace its output and fails
behind the opening of it.  In that case the name gives no encoding, or the encoding has no bytes
for the line, or the device does not take all of them; the output holds what it has taken, and
all other files are as they were. -/
theorem failed_write_keeps_files (platform : Platform) {destination : Destination} {cwd : Place}
    (hcwd : cwd.IsProper) {writer : Writer}
    (houtput : destination.output cwd = .ok writer.output)
    {world around : World} (htree : world.disk.IsTree) {e : Error}
    (hwrite : writer.write platform world = (.error e, around)) :
    (writer.settings.overwrite = false ∨ e.isBehindOpening = false →
      KeepsFiles [] world.disk around.disk) ∧
    (e.isBehindOpening = true → ∃ counters place, writer.counters = some counters ∧
      writer.output = .file place ∧
      Spoilt platform writer.settings.encoding place (counters.format ++ "\n") world.disk
        around.disk e) := by
  rcases Writer.write_error_cases hwrite with ⟨hbefore, hkeeps⟩ |
    ⟨counters, place, hcounters, hplace, hbehind, hspoilt, hnew⟩
  · exact ⟨fun _ => hkeeps, fun hbehind => by simp [hbefore] at hbehind⟩
  · refine ⟨?_, fun _ => ⟨counters, place, hcounters, hplace, hspoilt⟩⟩
    intro hprotected
    have hkept : writer.settings.overwrite = false :=
      hprotected.resolve_right (by simp [hbehind])
    rw [hplace] at houtput
    have hnone := htree.item?_eq_none_of_exists? (Destination.isProper hcwd houtput) (hnew hkept)
    -- there was no file at the output, so none has been spoilt
    intro other _ bytes hbytes
    refine hspoilt.keeps other ?_ bytes hbytes
    rw [List.mem_singleton]
    rintro rfl
    rw [hnone] at hbytes
    simp at hbytes

/-- A disk with one file. -/
def oneFile : World where
  disk := ⟨[], [(["r"], .file [0x6f])]⟩

/-- A writer after a check that has passed, with that file on the disk. -/
def afterPassing (place : Place) (settings : Settings) : Session :=
  (Session.start (.file place) settings oneFile).run (.standard .sound) [.check (.text "num a;")]

/-- The settings of a writer that may replace no file, with an encoding that there is not. -/
def strayEncoding : Settings where
  encoding := "none"
  overwrite := false

/-- A file is made below a new directory and stays empty, and the other file is kept. -/
theorem failed_write_keeps_files_newDirectory :
    Destination.output [] (.name "d/n") = .ok (.file ["d", "n"]) ∧ oneFile.disk.IsTree ∧
    ∃ around, (afterPassing ["d", "n"] strayEncoding).writer.write (.standard .sound)
        (afterPassing ["d", "n"] strayEncoding).world =
        (.error (.encoding (.unknown "none")), around) ∧
      KeepsFiles [] oneFile.disk around.disk ∧ around.disk.item? ["d", "n"] = some (.file []) := by
  have houtput : Destination.output [] (.name "d/n") =
      .ok (afterPassing ["d", "n"] strayEncoding).writer.output := by decide +kernel
  have htree : oneFile.disk.IsTree := isTree_of_items (by decide +kernel)
  have hdisk : (afterPassing ["d", "n"] strayEncoding).world.disk = oneFile.disk := by
    decide +kernel
  obtain ⟨around, hwrite⟩ : ∃ around,
      (afterPassing ["d", "n"] strayEncoding).writer.write (.standard .sound)
        (afterPassing ["d", "n"] strayEncoding).world =
        (.error (.encoding (.unknown "none")), around) := by
    have hfirst : ((afterPassing ["d", "n"] strayEncoding).writer.write (.standard .sound)
        (afterPassing ["d", "n"] strayEncoding).world).1 =
          .error (.encoding (.unknown "none")) := by decide +kernel
    exact ⟨_, Prod.ext hfirst rfl⟩
  obtain ⟨hkeeps, hspoilt⟩ :=
    failed_write_keeps_files (.standard .sound) isProper_nil houtput (hdisk ▸ htree) hwrite
  obtain ⟨_, place, -, hplace, ⟨⟨_, _, -, htakes, hempty⟩, -⟩⟩ := hspoilt rfl
  obtain rfl := Output.file.inj hplace
  cases htakes
  rw [← hdisk]
  exact ⟨houtput, hdisk ▸ htree, around, hwrite, hkeeps (.inl rfl), hempty⟩

/-- How a write to the file that there is ends, and what the file holds then. -/
def rewritten (encoding : String) (device : Device) : Except Error Bool × Option Item :=
  let session := afterPassing ["r"] { encoding }
  let (ending, around) := session.writer.write (.standard device) session.world
  (ending, around.disk.item? ["r"])

/-- The file at the output is lost in a write that fails: for the name of the encoding, for the
encoding, and for want of room. -/
theorem failed_write_empties_output :
    (∀ encoding device, (afterPassing ["r"] { encoding }).Reachable (.standard device)) ∧
    oneFile.disk.item? ["r"] = some (.file [0x6f]) ∧
    rewritten "none" .sound = (.error (.encoding (.unknown "none")), some (.file [])) ∧
    rewritten "undefined" .sound =
      (.error (.encode (.stated "undefined encoding")), some (.file [])) ∧
    rewritten "utf-8" (.limited 1) =
      (.error (.store ⟨28, "No space left on device"⟩), some (.file [0x7b])) := by
  refine ⟨?_, rfl, ?_, ?_, ?_⟩
  · intro encoding device
    exact ⟨.file ["r"], { encoding }, oneFile, [.check (.text "num a;")], rfl⟩
  · decide +kernel
  · decide +kernel
  · decide +kernel

end NumBool.Report
