import RingTape.CommandLine.Answer
import RingTape.Proofs.Carets
import RingTape.Text.Unsigned

namespace RingTape
namespace CommandLine
namespace Verdict

/-!
# Telling reports apart

Two verdicts report an interrupt, and one reports a timeout.  No other report
reads like these, whatever name the program was called by, with colors and
without.  The notice on an interrupt is told from other reports by a colon
that it does not have.  The report of a timeout is told from those that begin
with the name by its last character, and from the report of a step limit by
a letter.
-/

variable {program : String} {timeout : Option Nat} {color : Bool} {verdict : Verdict}

theorem report_stepLimit (palette : Palette) (limit : Nat) :
    (result (.failed (.stepLimit limit))).report program timeout palette =
      "Execution aborted: step limit exceeded (" ++ toString limit ++ ")" ++ "\n" := rfl

theorem report_device (palette : Palette) (position : Nat) (failure : DeviceFailure) :
    (result (.failed (.device position failure))).report program timeout palette =
      program ++ ": " ++ palette.error.paint (RunError.device position failure).message ++ "\n" :=
  rfl

theorem report_timedOut (palette : Palette) :
    timedOut.report program timeout palette =
      "Execution aborted: wall-clock timeout exceeded (" ++ toString (timeout.getD 0) ++ " ms)" ++
        "\n" := by
  have ending : " ms)\n" = " ms)" ++ "\n" := by decide
  rw [@String.append_assoc _ " ms)", ← ending]
  rfl

theorem report_lost (palette : Palette) :
    lost.report program timeout palette =
      program ++ ": interpreter thread exited unexpectedly" ++ "\n" := by
  have ending : ": interpreter thread exited unexpectedly\n" =
      ": interpreter thread exited unexpectedly" ++ "\n" := by decide
  rw [String.append_assoc, ← ending]
  rfl

/-- The notice on an interrupt has no colon. -/
theorem notMem_notice :
    ':' ∉ (interrupted.report program timeout (.forColor color)).toList := by
  have absent : ∀ color, ':' ∉
      ("\n" ++ (Palette.forColor color).notice.paint "Execution interrupted" ++ "\n").toList := by
    decide
  exact absent color

theorem notMem_invalidInput {position : Nat} {mode : Mode} :
    ':' ∉ ((result (.failed (.invalidInput position mode))).report program timeout
      (.forColor color)).toList := by
  have absent : ∀ color, ':' ∉
      ((Palette.forColor color).error.paint "Invalid input given, terminated" ++ "\n").toList := by
    decide
  exact absent color

theorem mem_stepLimit {palette : Palette} {limit : Nat} :
    ':' ∈ ((result (.failed (.stepLimit limit))).report program timeout palette).toList := by
  have front : ':' ∈ "Execution aborted: step limit exceeded (".toList := by decide
  rw [report_stepLimit]
  simp only [String.toList_append]
  exact List.mem_append_left _ (List.mem_append_left _ (List.mem_append_left _ front))

theorem mem_device {palette : Palette} {position : Nat} {failure : DeviceFailure} :
    ':' ∈ ((result (.failed (.device position failure))).report program timeout
      palette).toList := by
  have between : ':' ∈ ": ".toList := by decide
  rw [report_device]
  simp only [String.toList_append]
  exact List.mem_append_left _ (List.mem_append_left _ (List.mem_append_right _ between))

theorem mem_timedOut {palette : Palette} :
    ':' ∈ (timedOut.report program timeout palette).toList := by
  have front : ':' ∈ "Execution aborted: wall-clock timeout exceeded (".toList := by decide
  rw [report_timedOut]
  simp only [String.toList_append]
  exact List.mem_append_left _ (List.mem_append_left _ (List.mem_append_left _ front))

theorem mem_lost {palette : Palette} :
    ':' ∈ (lost.report program timeout palette).toList := by
  have behind : ':' ∈ ": interpreter thread exited unexpectedly".toList := by decide
  rw [report_lost]
  simp only [String.toList_append]
  exact List.mem_append_left _ (List.mem_append_right _ behind)

/-- Only two verdicts report an interrupt. -/
theorem eq_of_report_interrupted
    (same : verdict.report program timeout (.forColor color) =
      interrupted.report program timeout (.forColor color)) :
    verdict = interrupted ∨ verdict = result .interrupted := by
  have absent : ':' ∉ (verdict.report program timeout (.forColor color)).toList := by
    rw [same]
    exact notMem_notice
  cases verdict with
  | result how =>
    cases how with
    | completed =>
      have other : ∀ color, "" ≠
          "\n" ++ (Palette.forColor color).notice.paint "Execution interrupted" ++ "\n" := by decide
      exact absurd same (other color)
    | interrupted => exact .inr rfl
    | failed error =>
      cases error with
      | invalidInput position mode =>
        have other : ∀ color,
            (Palette.forColor color).error.paint "Invalid input given, terminated" ++ "\n" ≠
              "\n" ++ (Palette.forColor color).notice.paint "Execution interrupted" ++ "\n" := by
          decide
        exact absurd same (other color)
      | stepLimit limit => exact absurd mem_stepLimit absent
      | device position failure => exact absurd mem_device absent
  | interrupted => exact .inl rfl
  | timedOut => exact absurd mem_timedOut absent
  | lost => exact absurd mem_lost absent

/-- Of the two reports that begin alike, one has a letter that the other does
not have. -/
theorem letter_timedOut {palette : Palette} :
    'w' ∈ (timedOut.report program timeout palette).toList := by
  have front : 'w' ∈ "Execution aborted: wall-clock timeout exceeded (".toList := by decide
  rw [report_timedOut]
  simp only [String.toList_append]
  exact List.mem_append_left _ (List.mem_append_left _ (List.mem_append_left _ front))

theorem letter_stepLimit {palette : Palette} {limit : Nat} :
    'w' ∉ ((result (.failed (.stepLimit limit))).report program timeout palette).toList := by
  have front : 'w' ∉ "Execution aborted: step limit exceeded (".toList := by decide
  have number : 'w' ∉ (toString limit).toList := by
    rw [Text.toList_toString]
    exact Text.notMem_numeral (by decide) limit
  rw [report_stepLimit]
  simp only [String.toList_append, List.mem_append, not_or]
  exact ⟨⟨⟨front, number⟩, by decide⟩, by decide⟩

/-- The last character that a report of one line shows. -/
def lastShown (report : String) : Option Char := report.toList.dropLast.getLast?

theorem lastShown_line {text : String} : lastShown (text ++ "\n") = text.toList.getLast? := by
  have feed : "\n".toList = ['\n'] := by decide
  rw [lastShown, String.toList_append, feed, List.dropLast_concat]

theorem getLast?_append {front behind : String} {last : Char}
    (ends : behind.toList.getLast? = some last) :
    (front ++ behind).toList.getLast? = some last := by
  rw [String.toList_append, List.getLast?_append, ends, Option.some_or]

theorem getLast?_failure (failure : DeviceFailure) :
    failure.message.toList.getLast? = some 'l' ∨ failure.message.toList.getLast? = some 'd' := by
  cases failure with
  | sinkFull => exact .inl (by decide)
  | flushFailed => exact .inr (by decide)
  | inputFailed => exact .inr (by decide)

theorem getLast?_colored (bold : Bool) (red green blue : Nat) (text : String) :
    ((Style.colored bold red green blue).paint text).toList.getLast? = some 'm' := by
  have closing : "\x1b[0m".toList.getLast? = some 'm' := by decide
  exact getLast?_append closing

/-- The report of a device failure ends with the failure or with the end of
its style. -/
theorem lastShown_device {palette : Palette} {position : Nat} {failure : DeviceFailure} :
    lastShown ((result (.failed (.device position failure))).report program timeout palette) ≠
      some ')' := by
  have message {last : Char} (ends : failure.message.toList.getLast? = some last) :
      (RunError.device position failure).message.toList.getLast? = some last :=
    getLast?_append ends
  rw [report_device, lastShown_line]
  cases palette.error with
  | plain =>
    rw [RingTape.Report.paint_plain]
    rcases getLast?_failure failure with letter | letter <;>
      rw [getLast?_append (message letter)] <;> decide
  | colored bold red green blue =>
    rw [getLast?_append (getLast?_colored bold red green blue _)]
    decide

theorem lastShown_lost {palette : Palette} :
    lastShown (lost.report program timeout palette) = some 'y' := by
  rw [report_lost, lastShown_line]
  exact getLast?_append (by decide)

theorem lastShown_timedOut {palette : Palette} :
    lastShown (timedOut.report program timeout palette) = some ')' := by
  rw [report_timedOut, lastShown_line]
  exact getLast?_append (by decide)

/-- Only one verdict reports a timeout. -/
theorem eq_of_report_timedOut
    (same : verdict.report program timeout (.forColor color) =
      timedOut.report program timeout (.forColor color)) :
    verdict = timedOut := by
  have colon : ':' ∈ (verdict.report program timeout (.forColor color)).toList := by
    rw [same]
    exact mem_timedOut
  have last : lastShown (verdict.report program timeout (.forColor color)) = some ')' := by
    rw [same]
    exact lastShown_timedOut
  cases verdict with
  | result how =>
    cases how with
    | completed => cases colon
    | interrupted => exact absurd colon (@notMem_notice program timeout color)
    | failed error =>
      cases error with
      | invalidInput position mode => exact absurd colon notMem_invalidInput
      | stepLimit limit => exact absurd (same ▸ letter_timedOut) letter_stepLimit
      | device position failure => exact absurd last lastShown_device
  | interrupted => exact absurd colon notMem_notice
  | timedOut => rfl
  | lost =>
    rw [lastShown_lost] at last
    cases last

end Verdict
end CommandLine
end RingTape
