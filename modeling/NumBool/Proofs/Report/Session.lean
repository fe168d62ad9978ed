import NumBool.Proofs.Report.Verdict

/-!
# A writer over many calls

A session is a writer between two calls, with its surroundings and with the ends of
all the checks it has made.  A writer holds counts or holds none, and a write that
finds none is refused and leaves the surroundings as they are.

A check replaces what the writer holds only when it knows the text of its source.  A
source that cannot be opened or decoded leaves the writer as it was, so what it holds
is decided by the last check that came as far as the text (`Session.lastRead?`), which
need not be the last check.  `Session.Decided` states this for one session; every call
keeps it (`Session.Decided.step`), hence every run does (`Session.Decided.run`).
-/

namespace NumBool.Report

/-- Whether the error arises before the text of a source is known. -/
def Error.isUnread : Error → Bool
  | .file _ | .nullInPath | .nullInEncoding | .encoding _ | .decode _ => true
  | .parse _ | .check _ | .encode _ | .store _ | .nothingToWrite => false

section Reading

variable {codecs : Text.Registry} {disk : Disk} {encoding : String} {e : Error}

theorem isUnread_of_readFile {path : String} (h : readFile codecs disk encoding path = .error e) :
    e.isUnread = true := by
  unfold readFile at h
  repeat' split at h
  -- the branch in which the text is known has no error
  all_goals cases h
  all_goals rfl

theorem isUnread_of_map_readFile {α : Type} {path : String} {f : List Char → α}
    (h : (readFile codecs disk encoding path).map f = .error e) : e.isUnread = true := by
  cases hread : readFile codecs disk encoding path with
  | ok text =>
      rw [hread] at h
      simp [Except.map] at h
  | error e' =>
      rw [hread] at h
      obtain rfl := Except.error.inj h
      exact isUnread_of_readFile hread

theorem isUnread_of_readSource {source : Source}
    (h : readSource codecs disk encoding source = .error e) : e.isUnread = true := by
  cases source with
  | path path => exact isUnread_of_map_readFile h
  | text text =>
      rw [readSource] at h
      split at h
      · exact isUnread_of_map_readFile h
      · simp at h

end Reading

theorem isUnread_of_judge {checker : Checker} {text : String} {e : Error}
    (h : (judge checker text).1 = .error e) : e.isUnread = false := by
  unfold judge at h
  split at h
  · obtain rfl := Except.error.inj h
    rfl
  split at h
  · simp at h
  · obtain rfl := Except.error.inj h
    rfl

/-- A source on a disk has a name, and its text is a program that passes the check. -/
def Passes (codecs : Text.Registry) (disk : Disk) (encoding : String) (source : Source)
    (name : String) (counters : Counters) : Prop :=
  ∃ text program, readSource codecs disk encoding source = .ok (name, text) ∧
    Phrase.parse text = .ok program ∧ (NumBool.check program.toNode).result = .ok counters

theorem exists_of_judge_eq_ok {checker : Checker} {text : String} {counters : Counters}
    (h : (judge checker text).1 = .ok counters) :
    ∃ program, Phrase.parse text = .ok program ∧
      (NumBool.check program.toNode).result = .ok counters := by
  rw [judge_fst] at h
  rcases judge_cases text with
    ⟨program, counted, hparse, hresult, hjudge⟩ | ⟨e, -, hjudge⟩ | ⟨error, hjudge⟩
  · rw [hjudge] at h
    obtain rfl := Except.ok.inj h
    exact ⟨program, hparse, hresult⟩
  · simp [hjudge] at h
  · simp [hjudge] at h

/-- What a check can do: fail before it knows the text and change nothing, fail after that
and leave the writer without counts, or succeed and leave it with the name and the counts of
a source that passes. -/
theorem Writer.check_cases {platform : Platform} {writer after : Writer} {source : Source}
    {world around : World} {ending : Except Error Unit}
    (h : writer.check platform source world = (ending, after, around)) :
    (∃ e, ending = .error e ∧ e.isUnread = true ∧ after = writer ∧ around = world) ∨
    (∃ e, ending = .error e ∧ e.isUnread = false ∧ after.counters = none) ∨
    (ending = .ok () ∧ ∃ counters, after.counters = some counters ∧
      Passes platform.codecs world.disk writer.settings.encoding source after.sourceName
        counters) := by
  unfold check at h
  split at h
  · next e hread =>
      obtain ⟨rfl, rfl, rfl⟩ := h
      exact .inl ⟨e, rfl, isUnread_of_readSource hread, rfl, rfl⟩
  · next name text hread =>
      simp only at h
      split at h
      · next counters checker hjudge =>
          obtain ⟨rfl, rfl, rfl⟩ := h
          obtain ⟨program, hparse, hresult⟩ := exists_of_judge_eq_ok (congrArg Prod.fst hjudge)
          exact .inr (.inr ⟨rfl, counters, rfl, text, program, hread, hparse, hresult⟩)
      · next e checker hjudge =>
          obtain ⟨rfl, rfl, rfl⟩ := h
          exact .inr (.inl ⟨e, rfl, isUnread_of_judge (congrArg Prod.fst hjudge), rfl⟩)

/-- A write is refused exactly if the writer holds no counts; then it changes nothing. -/
theorem Writer.write_eq_refused_iff {platform : Platform} {writer : Writer} {world : World} :
    writer.write platform world = (.error .nothingToWrite, world) ↔ writer.counters = none := by
  constructor
  · intro h
    exact (eq_of_write_refused h).1
  · intro h
    rw [write, h]

/-- One call of a writer. -/
inductive Call where
  | check (source : Source)
  | write
  deriving DecidableEq, Repr

/-- A writer with its surroundings, and how its checks have ended, in order. -/
structure Session where
  writer : Writer
  world : World
  checks : List (Except Error Unit)

namespace Session

/-- A new writer. -/
def start (output : Output) (settings : Settings) (world : World) : Session :=
  ⟨{ output, settings }, world, []⟩

def step (platform : Platform) (s : Session) : Call → Session
  | .check source =>
    let (ending, writer, world) := s.writer.check platform source s.world
    ⟨writer, world, s.checks ++ [ending]⟩
  | .write => { s with world := (s.writer.write platform s.world).2 }

def run (platform : Platform) (s : Session) (calls : List Call) : Session :=
  calls.foldl (step platform) s

/-- Some sequence of calls on a new writer leads to the session. -/
def Reachable (platform : Platform) (s : Session) : Prop :=
  ∃ (output : Output) (settings : Settings) (world : World) (calls : List Call),
    s = (start output settings world).run platform calls

/-- Whether a check that ended so knew the text of its source. -/
def wasRead : Except Error Unit → Bool
  | .ok () => true
  | .error e => !e.isUnread

/-- How the last check that knew its text has ended. -/
def lastRead? (s : Session) : Option (Except Error Unit) :=
  (s.checks.filter wasRead).getLast?

/-- The writer holds counts exactly if the last check that knew its text succeeded. -/
def Decided (s : Session) : Prop :=
  s.writer.counters.isSome = true ↔ s.lastRead? = some (.ok ())

theorem decided_start (output : Output) (settings : Settings) (world : World) :
    (start output settings world).Decided := by
  simp [Decided, start, lastRead?]

theorem lastRead?_of_wasRead {s t : Session} {ending : Except Error Unit}
    (hchecks : t.checks = s.checks ++ [ending]) (h : wasRead ending = true) :
    t.lastRead? = some ending := by
  rw [lastRead?, hchecks, List.filter_append, List.filter_cons_of_pos h]
  simp

theorem lastRead?_of_not_wasRead {s t : Session} {ending : Except Error Unit}
    (hchecks : t.checks = s.checks ++ [ending]) (h : wasRead ending = false) :
    t.lastRead? = s.lastRead? := by
  rw [lastRead?, hchecks, List.filter_append, List.filter_cons_of_neg (by simp [h])]
  simp [lastRead?]

/-- Every call keeps what decides the counts. -/
theorem Decided.step {s : Session} (h : s.Decided) (platform : Platform) (call : Call) :
    (s.step platform call).Decided := by
  cases call with
  | write => exact h
  | check source =>
      cases hcheck : s.writer.check platform source s.world with
      | mk ending rest =>
          obtain ⟨after, around⟩ := rest
          have hstep : s.step platform (.check source) =
              ⟨after, around, s.checks ++ [ending]⟩ := by
            simp only [Session.step, hcheck]
          rw [hstep, Decided]
          rcases Writer.check_cases hcheck with
            ⟨e, rfl, hunread, rfl, rfl⟩ | ⟨e, rfl, hunread, hnone⟩ |
            ⟨rfl, counters, hsome, -⟩
          · rw [lastRead?_of_not_wasRead (s := s) rfl (by simp [wasRead, hunread])]
            exact h
          · rw [lastRead?_of_wasRead (s := s) rfl (by simp [wasRead, hunread]), hnone]
            simp
          · rw [lastRead?_of_wasRead (s := s) rfl rfl, hsome]
            simp

theorem Decided.run {s : Session} (h : s.Decided) (platform : Platform) (calls : List Call) :
    (s.run platform calls).Decided := by
  induction calls generalizing s with
  | nil => exact h
  | cons call calls ih => exact ih (h.step platform call)

section Reachable

variable {platform : Platform} {s : Session}

theorem Reachable.decided (h : s.Reachable platform) : s.Decided := by
  rcases h with ⟨output, settings, world, calls, rfl⟩
  exact (decided_start output settings world).run platform calls

theorem Reachable.write_refused_iff (h : s.Reachable platform) :
    s.writer.write platform s.world = (.error .nothingToWrite, s.world) ↔
      s.lastRead? ≠ some (.ok ()) := by
  have hdecided : s.writer.counters.isSome = true ↔ s.lastRead? = some (.ok ()) := h.decided
  rw [Writer.write_eq_refused_iff, Ne, ← hdecided, Option.not_isSome_iff_eq_none]

/-- After a failed check a write is refused and changes nothing, if the check knew the
text of its source.  If the source could not be read, the check before it decides: the
write is refused exactly if no check that knew its text has succeeded since the last
one that failed.  This is so on every platform, whatever encodings there are and whatever
their errors. -/
theorem write_after_failed_check (hs : s.Reachable platform) {e : Error}
    (he : s.checks.getLast? = some (.error e)) :
    (e.isUnread = false →
      s.writer.write platform s.world = (.error .nothingToWrite, s.world)) ∧
    (e.isUnread = true →
      (s.writer.write platform s.world = (.error .nothingToWrite, s.world) ↔
        s.lastRead? ≠ some (.ok ()))) := by
  constructor
  · intro hread
    obtain ⟨before, hchecks⟩ := List.getLast?_eq_some_iff.mp he
    have hlast : s.lastRead? = some (.error e) :=
      lastRead?_of_wasRead (s := { s with checks := before }) hchecks (by simp [wasRead, hread])
    rw [hs.write_refused_iff, hlast]
    simp
  · intro _
    exact hs.write_refused_iff

end Reachable

/-- A writer that has checked one text, with nothing on the disk. -/
def afterChecks (sources : List Source) : Session :=
  (start .standard {} { disk := ⟨[], []⟩ }).run (.standard .sound) (sources.map .check)

theorem write_after_unfinished_text :
    (afterChecks [.text "num a;", .text "num"]).checks.getLast? =
      some (.error (.parse .unexpectedEnd)) ∧
    (afterChecks [.text "num a;", .text "num"]).writer.write (.standard .sound)
        (afterChecks [.text "num a;", .text "num"]).world =
      (.error .nothingToWrite, (afterChecks [.text "num a;", .text "num"]).world) := by
  have hlast : (afterChecks [.text "num a;", .text "num"]).checks.getLast? =
      some (.error (.parse .unexpectedEnd)) := by rfl
  have hreachable : (afterChecks [.text "num a;", .text "num"]).Reachable (.standard .sound) :=
    ⟨_, _, _, _, rfl⟩
  exact ⟨hlast, (write_after_failed_check hreachable hlast).1 rfl⟩

/-- The counts of an earlier check are written after one whose file is missing. -/
theorem write_after_missing_file :
    (afterChecks [.text "num a;", .path "gone.txt"]).Reachable (.standard .sound) ∧
    (afterChecks [.text "num a;", .path "gone.txt"]).checks.getLast? =
      some (.error (.file ⟨.notFound, "gone.txt"⟩)) ∧
    ((afterChecks [.text "num a;", .path "gone.txt"]).writer.write (.standard .sound)
        (afterChecks [.text "num a;", .path "gone.txt"]).world).1 = .ok true ∧
    ((afterChecks [.text "num a;", .path "gone.txt"]).writer.write (.standard .sound)
        (afterChecks [.text "num a;", .path "gone.txt"]).world).2.out =
      "\x7bVAR:1, WHILE:0, IF:0, OP:0\x7d\n" := by
  refine ⟨⟨_, _, _, _, rfl⟩, ?_, ?_, ?_⟩
  · rfl
  · rfl
  · decide +kernel

end Session

end NumBool.Report
