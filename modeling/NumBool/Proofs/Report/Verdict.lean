import NumBool.Proofs.Check.Safety
import NumBool.Proofs.Disk.Frame
import NumBool.Proofs.Disk.Names
import NumBool.Report.Writer

/-!
# What a check and a write come to

A check reads its source, parses the text and checks the tree; what it comes to depends
on the disk and the encodings alone (`verdict`), and not on what the writer has done
before.  It leaves the disk and the standard output as they are (`Writer.check_eq_verdict`).

A write to a file makes the directories above the file and opens it, which empties it
(`Disk.OpensTo`).  What the file holds then is decided by the encoding and by the device
(`Takes`): all bytes of the line, some of them, or none.  Before the file is opened no file
changes, and after that none but this one, so a write can end in five ways (`WriteEnds`).
-/

namespace NumBool

/-- The directories above a place can be made, and a file at the place can be opened, which
gives the disk `opened`. -/
def Disk.OpensTo (disk : Disk) (place : Disk.Place) (opened : Disk) : Prop :=
  ∃ made, disk.makeDirectories place.dropLast.reverse = (.ok (), made) ∧
    made.write place [] = .ok opened

/-- The directories above a place can be made, and a file at the place can be opened. -/
def Disk.Opens (disk : Disk) (place : Disk.Place) : Prop :=
  ∃ opened, disk.OpensTo place opened

theorem Disk.OpensTo.unique {disk opened opened' : Disk} {place : Disk.Place}
    (h : disk.OpensTo place opened) (h' : disk.OpensTo place opened') : opened = opened' := by
  obtain ⟨made, hmade, hopen⟩ := h
  obtain ⟨made', hmade', hopen'⟩ := h'
  rw [hmade] at hmade'
  obtain rfl := (Prod.mk.inj hmade').2
  rw [hopen] at hopen'
  exact Except.ok.inj hopen'

/-- A file that can be opened has a path that can be looked up. -/
theorem Disk.OpensTo.exists? {disk opened : Disk} {place : Disk.Place}
    (h : disk.OpensTo place opened) : ∃ present, disk.exists? place.text = .ok present := by
  obtain ⟨made, -, hopen⟩ := h
  exact exists?_of_reach (write_eq_ok_iff.mp hopen).1 disk

namespace Report

open Disk Text

/-- The second world is the first one with more messages. -/
structure World.OnlyLogs (before after : World) : Prop where
  disk : after.disk = before.disk
  out : after.out = before.out
  err : ∃ messages, after.err = before.err ++ messages

theorem World.OnlyLogs.refl (world : World) : world.OnlyLogs world :=
  ⟨rfl, rfl, "", String.append_empty.symm⟩

theorem World.OnlyLogs.log {before after : World} (h : before.OnlyLogs after) (line : String) :
    before.OnlyLogs (after.log line) := by
  obtain ⟨messages, hmessages⟩ := h.err
  refine ⟨h.disk, h.out, messages ++ line ++ "\n", ?_⟩
  rw [World.log, hmessages]
  simp only [String.append_assoc]

theorem World.OnlyLogs.trans {a b c : World} (hab : a.OnlyLogs b) (hbc : b.OnlyLogs c) :
    a.OnlyLogs c := by
  obtain ⟨first, hfirst⟩ := hab.err
  obtain ⟨second, hsecond⟩ := hbc.err
  refine ⟨hbc.disk.trans hab.disk, hbc.out.trans hab.out, first ++ second, ?_⟩
  rw [hsecond, hfirst, String.append_assoc]

/-! ## Checks -/

/-- A text is judged in the same way whatever the checker has seen before. -/
theorem judge_fst (checker : Checker) (text : String) :
    (judge checker text).1 = (judge {} text).1 := by
  unfold judge
  cases Phrase.parse text with
  | error e => rfl
  | ok program =>
      simp only [Checker.check]
      cases (NumBool.check program.toNode).result with
      | ok counters => rfl
      | error failure => rfl

/-- What a source on a disk is judged to be. -/
def verdict (codecs : Registry) (disk : Disk) (encoding : String) (source : Source) :
    Except Error Counters :=
  match readSource codecs disk encoding source with
  | .error e => .error e
  | .ok (_, text) => (judge {} text).1

/-- A check ends as its source is judged, keeps the counts if there are any, and changes
nothing around it but for its messages. -/
theorem Writer.check_eq_verdict (platform : Platform) (writer : Writer) (source : Source)
    (world : World) :
    ∃ (after : Writer) (around : World),
      writer.check platform source world =
        ((verdict platform.codecs world.disk writer.settings.encoding source).map fun _ => (),
          after, around) ∧
      after.output = writer.output ∧ after.settings = writer.settings ∧
      (∀ counters, verdict platform.codecs world.disk writer.settings.encoding source =
        .ok counters → after.counters = some counters) ∧
      world.OnlyLogs around := by
  unfold Writer.check verdict
  cases readSource platform.codecs world.disk writer.settings.encoding source with
  | error e => exact ⟨writer, world, rfl, rfl, rfl, by simp, .refl world⟩
  | ok read =>
      obtain ⟨name, text⟩ := read
      have hjudge := judge_fst writer.checker text
      cases hend : judge writer.checker text with
      | mk ending checker =>
          have hending : ending = (judge {} text).1 := by rw [← hjudge, hend]
          simp only [hend, ← hending]
          cases ending with
          | ok counters =>
              refine ⟨_, _, rfl, rfl, rfl, ?_, ((World.OnlyLogs.refl world).log _).log _⟩
              intro counted hcounted
              obtain rfl := Except.ok.inj hcounted
              rfl
          | error e =>
              exact ⟨_, _, rfl, rfl, rfl, by simp, ((World.OnlyLogs.refl world).log _).log _⟩

/-- A parsed text passes the check or breaks a rule of the language. -/
theorem judge_cases (text : String) :
    (∃ program counters, Phrase.parse text = .ok program ∧
      (NumBool.check program.toNode).result = .ok counters ∧ (judge {} text).1 = .ok counters) ∨
    (∃ e, Phrase.parse text = .error e ∧ (judge {} text).1 = .error (.parse e)) ∨
    (∃ error, (judge {} text).1 = .error (.check (.semantic error))) := by
  unfold judge
  cases hparse : Phrase.parse text with
  | error e => exact .inr (.inl ⟨e, rfl, rfl⟩)
  | ok program =>
      have hshaped := Grammar.shaped_of_parse hparse
      rcases Check.check_result_of_shaped hshaped with ⟨counters, hok⟩ | ⟨error, herror, -⟩
      · exact .inl ⟨program, counters, rfl, hok, by simp [Checker.check, hok]⟩
      · exact .inr (.inr ⟨error, by simp [Checker.check, herror]⟩)

/-! ## Writes -/

section Takes

variable (platform : Platform) (opened : Disk) (encoding : String) (place : Place) (line : String)

/-- What becomes of a line for an open file: how the work on it ends, and the bytes that the
file then holds. -/
inductive Takes : Except Error Unit → List UInt8 → Prop
  /-- The name gives no encoding. -/
  | unknown {e : CodecError} (hcodec : platform.codecs encoding = .error e) :
      Takes (.error (.encoding e)) []
  /-- The line has no bytes in the encoding. -/
  | refused {coding : Coding} {e : EncodeError} (hcodec : platform.codecs encoding = .ok coding)
      (hencode : coding.encode line.toList false = .error e) : Takes (.error (.encode e)) []
  /-- Some of the bytes are stored, and then the device fails. -/
  | broken {coding : Coding} {bytes : List UInt8} {count : Nat} {e : StoreError}
      (hcodec : platform.codecs encoding = .ok coding)
      (hencode : coding.encode line.toList false = .ok bytes)
      (hdevice : platform.device opened place bytes = some (count, e)) :
      Takes (.error (.store e)) (bytes.take count)
  /-- All bytes that the encoding gives out are stored. -/
  | stored {coding : Coding} {bytes : List UInt8} (hcodec : platform.codecs encoding = .ok coding)
      (hencode : coding.encode line.toList false = .ok bytes)
      (hdevice : platform.device opened place bytes = none) : Takes (.ok ()) bytes

/-- Behind the opening of a file, only this file changes. -/
theorem Writer.fillFile_cases (world : World) :
    (∃ e, world.disk.write place [] = .error e ∧
      fillFile platform encoding place line world = (.error (.file e), world)) ∨
    ∃ opened ending bytes disk, world.disk.write place [] = .ok opened ∧
      Takes platform opened encoding place line ending bytes ∧
      fillFile platform encoding place line world = (ending, { world with disk }) ∧
      KeepsFiles [place] world.disk disk ∧ disk.item? place = some (.file bytes) := by
  unfold fillFile
  cases hopen : world.disk.write place [] with
  | error e => exact .inl ⟨e, rfl, rfl⟩
  | ok opened =>
      obtain ⟨-, hitem, hopened⟩ := write_eq_ok_iff.mp hopen
      have hplace := ne_nil_of_item? hitem
      have hkeeps : KeepsFiles [place] world.disk opened := by
        rw [hopened]
        exact keepsFiles_put world.disk hplace _
      have hempty : opened.item? place = some (.file []) := by
        rw [hopened, item?_put world.disk hplace, if_pos rfl]
      have hfull : ∀ bytes, KeepsFiles [place] world.disk (opened.put place (.file bytes)) ∧
          (opened.put place (.file bytes)).item? place = some (.file bytes) := by
        intro bytes
        refine ⟨?_, by rw [item?_put opened hplace, if_pos rfl]⟩
        intro other hother old hold
        exact keepsFiles_put opened hplace _ other hother old (hkeeps other hother old hold)
      refine .inr ⟨opened, ?_⟩
      cases hcodec : platform.codecs encoding with
      | error e => exact ⟨_, _, opened, rfl, .unknown hcodec, rfl, hkeeps, hempty⟩
      | ok coding =>
          cases hencode : coding.encode line.toList false with
          | error e =>
              refine ⟨_, _, opened, rfl, .refused hcodec hencode, ?_, hkeeps, hempty⟩
              simp only [hencode]
          | ok bytes =>
              cases hdevice : platform.device opened place bytes with
              | none =>
                  refine ⟨_, _, _, rfl, .stored hcodec hencode hdevice, ?_, hfull bytes⟩
                  simp only [hencode, store, hdevice]
              | some failure =>
                  obtain ⟨count, e⟩ := failure
                  refine ⟨_, _, _, rfl, .broken hcodec hencode hdevice, ?_,
                    hfull (bytes.take count)⟩
                  simp only [hencode, store, hdevice]

end Takes

/-- Why an output is not opened. -/
inductive Unopened (disk : Disk) (encoding : String) (place : Place) : Error → Prop
  /-- A directory above it cannot be made, or no file can be opened at the place. -/
  | file {e : FileError} (h : ¬ disk.Opens place) : Unopened disk encoding place (.file e)
  /-- The name of the encoding can be no name. -/
  | null (h : hasNull encoding = true) : Unopened disk encoding place .nullInEncoding

theorem Unopened.ne_nothingToWrite {disk : Disk} {encoding : String} {place : Place} {e : Error}
    (h : Unopened disk encoding place e) : e ≠ .nothingToWrite := by
  cases h with
  | file _ | null _ => simp

/-- Until a file is opened no file changes, and then only this one. -/
theorem Writer.writeFile_cases (platform : Platform) (settings : Settings) (place : Place)
    (line : String) (world : World) :
    (∃ e disk, Unopened world.disk settings.encoding place e ∧
      writeFile platform settings place line world = (.error e, { world with disk }) ∧
      KeepsFiles [] world.disk disk) ∨
    ∃ opened ending bytes disk, world.disk.OpensTo place opened ∧
      Takes platform opened settings.encoding place line ending bytes ∧
      writeFile platform settings place line world = (ending, { world with disk }) ∧
      KeepsFiles [place] world.disk disk ∧ disk.item? place = some (.file bytes) := by
  have hmade := keepsFiles_makeDirectories world.disk place.dropLast.reverse
  unfold writeFile
  cases hdirs : world.disk.makeDirectories place.dropLast.reverse with
  | mk ending made =>
      rw [hdirs] at hmade
      cases ending with
      | error e =>
          refine .inl ⟨_, made, .file ?_, rfl, hmade⟩
          rintro ⟨opened, made', hdirs', -⟩
          rw [hdirs] at hdirs'
          simp at hdirs'
      | ok _ =>
          cases hnull : hasNull settings.encoding with
          | true => exact .inl ⟨_, made, .null hnull, rfl, hmade⟩
          | false =>
              simp only [Bool.false_eq_true, if_false]
              rcases fillFile_cases platform settings.encoding place line
                  { world with disk := made } with
                ⟨e, hopen, hfill⟩ |
                ⟨opened, ending, bytes, disk, hopen, htakes, hfill, hkeeps, hitem⟩
              · refine .inl ⟨_, made, .file ?_, hfill, hmade⟩
                rintro ⟨opened, made', hdirs', hopen'⟩
                rw [hdirs] at hdirs'
                obtain ⟨-, rfl⟩ := Prod.mk.inj hdirs'
                rw [hopen] at hopen'
                simp at hopen'
              · exact .inr ⟨opened, ending, bytes, disk, ⟨made, hdirs, hopen⟩, htakes, hfill,
                  hmade.trans hkeeps, hitem⟩

/-- The file at the output stays because it may not be replaced. -/
def Writer.Protects (writer : Writer) (world : World) : Prop :=
  writer.settings.overwrite = false ∧
    ∃ place, writer.output = .file place ∧ world.disk.exists? place.text = .ok true

/-- The ways in which a write can end. -/
inductive WriteEnds (platform : Platform) (writer : Writer) (world : World) :
    Except Error Bool → World → Prop
  /-- There are no counts. -/
  | refused (hnone : writer.counters = none) :
      WriteEnds platform writer world (.error .nothingToWrite) world
  | printed {counters : Counters} (hcounters : writer.counters = some counters)
      (houtput : writer.output = .standard) :
      WriteEnds platform writer world (.ok true) (world.print (counters.format ++ "\n"))
  | kept {counters : Counters} (hcounters : writer.counters = some counters)
      (hprotects : writer.Protects world) (message : String) :
      WriteEnds platform writer world (.ok false) (world.log message)
  | unopened {counters : Counters} {place : Place} {e : Error} {disk : Disk}
      (hcounters : writer.counters = some counters) (houtput : writer.output = .file place)
      (hreplaces : ¬ writer.Protects world)
      (hcause : Unopened world.disk writer.settings.encoding place e)
      (hkeeps : KeepsFiles [] world.disk disk) :
      WriteEnds platform writer world (.error e) { world with disk }
  | opened {counters : Counters} {place : Place} {opened : Disk} {ending : Except Error Unit}
      {bytes : List UInt8} {around : World}
      (hcounters : writer.counters = some counters) (houtput : writer.output = .file place)
      (hreplaces : ¬ writer.Protects world) (hopens : world.disk.OpensTo place opened)
      (htakes : Takes platform opened writer.settings.encoding place (counters.format ++ "\n")
        ending bytes)
      (hkeeps : KeepsFiles [place] world.disk around.disk)
      (hitem : around.disk.item? place = some (.file bytes)) (hout : around.out = world.out)
      (herr : ∃ messages, around.err = world.err ++ messages) :
      WriteEnds platform writer world (ending.map fun _ => true) around

theorem Writer.write_ends (platform : Platform) (writer : Writer) (world : World) :
    WriteEnds platform writer world (writer.write platform world).1
      (writer.write platform world).2 := by
  unfold write
  cases hcounters : writer.counters with
  | none => exact .refused hcounters
  | some counters =>
      cases houtput : writer.output with
      | standard => exact .printed hcounters houtput
      | file place =>
          have hprotects : ∀ present, world.disk.exists? place.text = .ok present →
              (writer.Protects world ↔ (present && !writer.settings.overwrite) = true) := by
            intro present hexists
            simp [Protects, houtput, hexists, and_comm]
          dsimp only
          cases hexists : world.disk.exists? place.text with
          | error e =>
              refine .unopened hcounters houtput ?_ (.file ?_) (.refl [] world.disk)
              · rintro ⟨-, other, hother, hpresent⟩
                rw [houtput] at hother
                obtain rfl := Output.file.inj hother
                rw [hexists] at hpresent
                simp at hpresent
              · rintro ⟨opened, hopens⟩
                obtain ⟨present, hpresent⟩ := hopens.exists?
                rw [hexists] at hpresent
                simp at hpresent
          | ok present =>
              simp only
              split
              · next hkeep => exact .kept hcounters ((hprotects present hexists).mpr hkeep) _
              · next hkeep =>
                  have hreplaces := mt (hprotects present hexists).mp hkeep
                  rcases writeFile_cases platform writer.settings place (counters.format ++ "\n")
                    world with ⟨e, disk, hcause, hwrite, hkeeps⟩ |
                      ⟨opened, ending, bytes, disk, hopens, htakes, hwrite, hkeeps, hitem⟩
                  · rw [hwrite]
                    exact .unopened hcounters houtput hreplaces hcause hkeeps
                  · rw [hwrite]
                    cases ending with
                    | error e =>
                        exact .opened hcounters houtput hreplaces hopens htakes hkeeps hitem rfl
                          ⟨"", String.append_empty.symm⟩
                    | ok _ =>
                        exact .opened hcounters houtput hreplaces hopens htakes hkeeps hitem rfl
                          ⟨_, String.append_assoc⟩

theorem Writer.write_ends_of_eq {platform : Platform} {writer : Writer} {world around : World}
    {ending : Except Error Bool} (h : writer.write platform world = (ending, around)) :
    WriteEnds platform writer world ending around := by
  have hends := writer.write_ends platform world
  rwa [h] at hends

/-- A write that finds nothing to write changes nothing. -/
theorem Writer.eq_of_write_refused {platform : Platform} {writer : Writer} {world around : World}
    (h : writer.write platform world = (.error .nothingToWrite, around)) :
    writer.counters = none ∧ around = world := by
  have hends := write_ends_of_eq h
  generalize hending : (Except.error .nothingToWrite : Except Error Bool) = ending at hends
  cases hends with
  | refused hnone => exact ⟨hnone, rfl⟩
  | printed | kept => simp at hending
  | unopened _ _ _ hcause _ =>
      exact absurd (Except.error.inj hending).symm hcause.ne_nothingToWrite
  | opened _ _ _ _ htakes => cases htakes <;> simp [Except.map] at hending

end Report

end NumBool
