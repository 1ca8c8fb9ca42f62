namespace RingTape

/-!
# Scripted input

An input script is what a reader will meet, in order: stretches of bytes and
failures of the device.  Reading takes one record at a time.  A record ends
with the first line feed, which belongs to it, or at the end of the script;
the borders between stretches do not count.  A failure that is met in the
middle of a record ends it too: the failure is then used up, together with
the bytes that were read before it.
-/

/-- How an input device fails. -/
inductive InputFailure where
  /-- The device reports malformed data. -/
  | invalidData
  /-- The device fails for any other reason. -/
  | other
  deriving DecidableEq, Repr

/-- One part of an input script. -/
inductive InputSegment where
  | bytes (content : List UInt8)
  | failure (reason : InputFailure)
  deriving DecidableEq, Repr

/-- What a reader will meet, in order. -/
abbrev InputScript := List InputSegment

/-- What one reading takes from a script. -/
inductive InputRecord where
  /-- The bytes through the line feed, or to the end of the script. -/
  | line (content : List UInt8)
  /-- A failure, and the bytes that are lost with it. -/
  | failed (lost : List UInt8) (reason : InputFailure)
  deriving DecidableEq, Repr

/-- The bytes that are used up with a record. -/
def InputRecord.bytes : InputRecord → List UInt8
  | line content => content
  | failed lost _ => lost

namespace InputScript

/-- The byte that ends a record. -/
def lineFeed : UInt8 := 10

/-- Take one record, with `taken` read already. -/
def takeRecordAfter (taken : List UInt8) : InputScript → InputRecord × InputScript
  | [] => (.line taken, [])
  | .failure reason :: rest => (.failed taken reason, rest)
  | .bytes content :: rest =>
    match content.dropWhile (· != lineFeed) with
    | [] => takeRecordAfter (taken ++ content) rest
    | ending :: remaining =>
      (.line (taken ++ content.takeWhile (· != lineFeed) ++ [ending]), .bytes remaining :: rest)

/-- The first record of a script, and the script after it. -/
def takeRecord (script : InputScript) : InputRecord × InputScript :=
  takeRecordAfter [] script

/-- The bytes of a script, its failures left out. -/
def content (script : InputScript) : List UInt8 :=
  script.flatMap fun
    | .bytes content => content
    | .failure _ => []

/-- How many bytes a script still holds. -/
def unread (script : InputScript) : Nat :=
  script.content.length

/-- Whether the next record ends before the script does.  A reader of a
device that stays open would wait otherwise. -/
def holdsRecord (script : InputScript) : Bool :=
  script.any fun
    | .bytes content => content.contains lineFeed
    | .failure _ => true

/-- A script of bytes alone. -/
def ofBytes (content : List UInt8) : InputScript := [.bytes content]

theorem content_takeRecordAfter (taken : List UInt8) (script : InputScript) :
    (takeRecordAfter taken script).1.bytes ++ (takeRecordAfter taken script).2.content =
      taken ++ script.content := by
  induction script generalizing taken with
  | nil => simp [takeRecordAfter, InputRecord.bytes, content]
  | cons segment rest ih =>
    cases segment with
    | failure reason => simp [takeRecordAfter, InputRecord.bytes, content]
    | bytes stretch =>
      have whole := List.takeWhile_append_dropWhile (p := (· != lineFeed)) (l := stretch)
      unfold takeRecordAfter
      split
      · next ended => simpa [content] using ih (taken ++ stretch)
      · next ending remaining found =>
        rw [found] at whole
        simp only [InputRecord.bytes, content, List.flatMap_cons, List.append_assoc,
          List.singleton_append]
        rw [← List.cons_append, ← List.append_assoc (stretch.takeWhile _), whole]

/-- Taking a record loses no byte and changes no order. -/
theorem content_takeRecord (script : InputScript) :
    (takeRecord script).1.bytes ++ (takeRecord script).2.content = script.content :=
  content_takeRecordAfter [] script

end InputScript
end RingTape
