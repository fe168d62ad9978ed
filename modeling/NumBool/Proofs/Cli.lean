import NumBool.Proofs.Cli.Ends

/-!
# What a run comes to

What holds of all runs is read off the ways in which a run ends.  A run ends with a
status, unless an error in its source escapes or its output is no path.  A run that ends
with status 0 has written exactly the line of the counts; one that ends with status 1 has
changed no file, unless its output was opened and did not take the whole line.
-/

namespace NumBool.Cli

open Report Disk Text

/-! ## What the ways come to -/

section Ends

variable {device : Device} {source output : String} {world around : World} {ending : Ending}

theorem Ends.escaped_iff (h : Ends device source output world ending around)
    (hnull : output ≠ "-" → hasNull output = false) (e : Error) :
    ending = .escaped e ↔ Escapes world.disk source e := by
  cases h with
  | escaped hescapes =>
      constructor
      · rintro ⟨⟩
        exact hescapes
      · intro hother
        rw [hescapes.unique hother]
  | noPath houtput htrue =>
      rw [hnull houtput] at htrue
      simp at htrue
  | rejected _ hnot _ _ _ => exact iff_of_false (by simp) (hnot e)
  | unwritten haccepted _ _ _ _ _ => exact iff_of_false (by simp) (haccepted.not_escapes e)
  | broken haccepted _ _ _ _ => exact iff_of_false (by simp) (haccepted.not_escapes e)
  | delivered haccepted _ => exact iff_of_false (by simp) (haccepted.not_escapes e)

/-- A run without an error that escapes ends well on a source that is accepted, or
reports what is wrong. -/
theorem Ends.status (h : Ends device source output world ending around)
    (hescaped : ∀ e, ending ≠ .escaped e) :
    (∃ counters, Accepted world.disk source counters ∧ ending = .exit 0 none) ∨
      ∃ trace, ending = .exit 1 trace ∧ world.Reports around := by
  cases h with
  | escaped _ => exact absurd rfl (hescaped _)
  | noPath _ _ => exact absurd rfl (hescaped _)
  | rejected _ _ _ _ herr => exact .inr ⟨_, rfl, herr⟩
  | unwritten _ _ _ _ _ herr => exact .inr ⟨_, rfl, herr⟩
  | broken _ _ _ _ herr => exact .inr ⟨_, rfl, herr⟩
  | delivered haccepted _ => exact .inl ⟨_, haccepted, rfl⟩

end Ends

/-! ## The results -/

/-- The errors that escape are those in the source that the program does not expect.  A
run without one ends with status 0 and its source is accepted, or it ends with status 1
and a message. -/
theorem run_ending (device : Device) (args : List String) (debug : Bool) (world : World)
    (hargs : ∀ arg ∈ args, hasNull arg = false) :
    (∀ e, (run device args debug world).1 = .escaped e ↔
      ∃ source output, IsCall args source output ∧ Escapes world.disk source e) ∧
    ((∀ source output e, IsCall args source output → ¬ Escapes world.disk source e) →
      (∃ source output counters, IsCall args source output ∧
        Accepted world.disk source counters ∧ (run device args debug world).1 = .exit 0 none) ∨
      ∃ trace, (run device args debug world).1 = .exit 1 trace ∧
        world.Reports (run device args debug world).2) := by
  obtain ⟨ending, around, hrun, hends | ⟨hnot, rfl, rfl⟩⟩ := run_cases device args debug world
  · obtain ⟨source, output, hcall, hends⟩ := hends
    have hiff := hends.escaped_iff (hcall.hasNull_output hargs)
    rw [hrun]
    refine ⟨?_, ?_⟩
    · intro e
      constructor
      · intro h
        exact ⟨source, output, hcall, (hiff e).mp h⟩
      · rintro ⟨source', output', hcall', hescapes⟩
        obtain ⟨rfl, rfl⟩ := hcall.unique hcall'
        exact (hiff e).mpr hescapes
    · intro hquiet
      have hescaped : ∀ e, ending ≠ .escaped e :=
        fun e h => hquiet source output e hcall ((hiff e).mp h)
      rcases hends.status hescaped with ⟨counters, haccepted, hzero⟩ | hone
      · exact .inl ⟨source, output, counters, hcall, haccepted, hzero⟩
      · exact .inr hone
  · rw [hrun]
    refine ⟨?_, ?_⟩
    · intro e
      refine iff_of_false (by simp) ?_
      rintro ⟨source, output, hcall, -⟩
      exact hnot source output hcall
    · intro _
      exact .inr ⟨none, rfl, World.reports_log (World.OnlyLogs.refl world).err usage⟩

/-- A disk with one file, in the working directory. -/
def worldWith (name : String) (bytes : List UInt8) : World :=
  { disk := ⟨[], [([name], .file bytes)]⟩ }

/-- A character that starts no token: the run reports it. -/
theorem run_ending_illegalCharacter :
    (∀ source output e, IsCall ["a.txt"] source output →
      ¬ Escapes (worldWith "a.txt" [0xe2, 0x82, 0xac]).disk source e) ∧
    ∃ trace, (run .sound ["a.txt"] false (worldWith "a.txt" [0xe2, 0x82, 0xac])).1 = .exit 1 trace ∧
      (worldWith "a.txt" [0xe2, 0x82, 0xac]).Reports
        (run .sound ["a.txt"] false (worldWith "a.txt" [0xe2, 0x82, 0xac])).2 := by
  have hcall : IsCall ["a.txt"] "a.txt" "-" := ⟨by decide, by decide, .inl ⟨rfl, rfl⟩⟩
  have hholds : Holds (worldWith "a.txt" [0xe2, 0x82, 0xac]).disk "a.txt" [0xe2, 0x82, 0xac] :=
    ⟨by decide +kernel, by decide +kernel⟩
  have hverdict : verdict Codec.registry (worldWith "a.txt" [0xe2, 0x82, 0xac]).disk "utf-8"
      (.path "a.txt") = .error (.parse (.illegal '€' 1)) := by decide +kernel
  have hquiet : ∀ source output e, IsCall ["a.txt"] source output →
      ¬ Escapes (worldWith "a.txt" [0xe2, 0x82, 0xac]).disk source e := by
    intro source output e hother hescapes
    obtain ⟨rfl, -⟩ := hcall.unique hother
    obtain ⟨herror, hexpected⟩ := (escapes_iff_of_holds hholds).mp hescapes
    obtain rfl := Except.error.inj (hverdict.symm.trans herror)
    simp [Error.isExpected] at hexpected
  refine ⟨hquiet, ?_⟩
  rcases (run_ending .sound ["a.txt"] false _ (by decide +kernel)).2 hquiet with
    ⟨source, output, counters, hother, haccepted, -⟩ | hone
  · obtain ⟨rfl, -⟩ := hcall.unique hother
    simp [haccepted.verdict] at hverdict
  · exact hone

/-- Bytes that are no text: their error escapes. -/
theorem run_escapes_undecodable :
    (∀ arg ∈ ["bad.txt"], hasNull arg = false) ∧
    (run .sound ["bad.txt"] false (worldWith "bad.txt" [0xff])).1 =
      .escaped (.decode (.invalid "utf-8" 0xff 0 1 "invalid start byte")) := by
  decide +kernel

end NumBool.Cli
