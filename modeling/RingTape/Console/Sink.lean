namespace RingTape

/-!
# Output that can fail

A sink keeps the bytes that it has accepted.  It may have a capacity: a
write that exceeds it is accepted as far as there is room and then fails.
It may also run out of flushes.  A successful flush makes everything that
was accepted before it visible; a failing one makes nothing visible, and
nothing that was accepted is ever taken back.
-/

/-- A receiver of bytes, with what it has received so far. -/
structure Sink where
  accepted : Array UInt8 := #[]
  /-- The number of bytes that can be accepted in total. -/
  capacity : Option Nat := none
  /-- The number of flushes that will still succeed. -/
  flushesLeft : Option Nat := none
  /-- The number of flushes that have succeeded. -/
  flushes : Nat := 0
  /-- The number of bytes that the last of them made visible. -/
  visible : Nat := 0

namespace Sink

/-- How many of `wanted` further bytes are accepted after `held` of them. -/
def room (capacity : Option Nat) (held wanted : Nat) : Nat :=
  match capacity with
  | none => wanted
  | some capacity => min wanted (capacity - held)

/-- Accept what there is room for.  The answer is the number of bytes that
were accepted, so the write failed if it is less than all. -/
def write (sink : Sink) (content : List UInt8) : Nat × Sink :=
  match sink with
  | ⟨accepted, capacity, flushesLeft, flushes, visible⟩ =>
    let count := room capacity accepted.size content.length
    (count, ⟨accepted ++ content.take count, capacity, flushesLeft, flushes, visible⟩)

theorem toList_accepted_write (sink : Sink) (content : List UInt8) :
    (sink.write content).2.accepted.toList =
      sink.accepted.toList ++ content.take (sink.write content).1 := by
  simp [write]

/-- A sink without a capacity accepts everything. -/
theorem write_of_unbounded {sink : Sink} (unbounded : sink.capacity = none)
    (content : List UInt8) : (sink.write content).1 = content.length := by
  simp [write, unbounded, room]

/-- Make what was accepted visible, if a flush is left. -/
def flush (sink : Sink) : Bool × Sink :=
  match sink.flushesLeft with
  | some 0 => (false, sink)
  | some (left + 1) =>
    (true, { sink with
      flushesLeft := some left, flushes := sink.flushes + 1, visible := sink.accepted.size })
  | none =>
    (true, { sink with flushes := sink.flushes + 1, visible := sink.accepted.size })

@[simp]
theorem accepted_flush (sink : Sink) : sink.flush.2.accepted = sink.accepted := by
  unfold flush
  split <;> rfl

end Sink
end RingTape
