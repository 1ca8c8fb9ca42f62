import RingTape.Program.Nesting

namespace RingTape
namespace Program

/-!
# Three accounts of the open loops agree

In a balanced program the stack of `openAfter`, the search of
`matchingEnd?` and the counts of `depthAt` describe the same loops.  The
link between the stack and the search is `matchingEnd?_of_openAfter`: for a
loop on the stack, the search that began at its bracket continues at the
current position, with one level for each loop above it.  Everything else
follows from this, from the number of open loops, and from the fact that a
search leaves the stack as it found it (`openAfter_of_closingFrom`).
-/

variable {program : Program}

section Counting

private theorem take_succ_eq (count : Nat) :
    program.toList.take (count + 1) =
      program.toList.take count ++ program[count]?.toList := by
  rw [List.take_add_one, Array.getElem?_toList]

/-- The stack is as high as the counts say. -/
theorem length_openAfter_add (balanced : Balanced program.toList) (count : Nat) :
    (program.openAfter count).length + closes (program.toList.take count) =
      opens (program.toList.take count) := by
  induction count with
  | zero => rfl
  | succ count ih =>
    have bound := balanced.1 (count + 1)
    rw [take_succ_eq] at bound ⊢
    cases here : program[count]? with
    | none =>
      rw [openAfter_succ_none here, Option.toList_none, List.append_nil]
      exact ih
    | some instruction =>
      rw [here] at bound
      simp only [opens, closes, Option.toList_some, List.count_append] at bound ih ⊢
      cases instruction with
      | command action =>
        rw [openAfter_succ_command here]
        simpa using ih
      | loopStart =>
        rw [openAfter_succ_loopStart here, List.length_cons]
        simp only [List.count_singleton_self, List.count_cons_of_ne, ne_eq, reduceCtorEq,
          not_false_eq_true, List.count_nil]
        omega
      | loopEnd =>
        rw [openAfter_succ_loopEnd here, List.length_tail]
        simp only [List.count_singleton_self, List.count_cons_of_ne, ne_eq, reduceCtorEq,
          not_false_eq_true, List.count_nil] at bound ⊢
        omega

theorem length_openAfter (balanced : Balanced program.toList) (position : Nat) :
    (program.openAfter position).length = program.depthAt position := by
  have sum := length_openAfter_add balanced position
  rw [depthAt]
  omega

/-- No loop is open at the end. -/
theorem openAfter_of_size_le (balanced : Balanced program.toList) {position : Nat}
    (past : program.size ≤ position) : program.openAfter position = [] := by
  have sum := length_openAfter_add balanced position
  have whole : program.toList.take position = program.toList :=
    List.take_of_length_le (by simpa only [Array.length_toList] using past)
  rw [whole] at sum
  have total := balanced.2
  exact List.eq_nil_of_length_eq_zero (by omega)

end Counting

section Searching

/-- A search finds an end as long as it is inside an open loop. -/
theorem exists_closingFrom (balanced : Balanced program.toList) {depth position : Nat}
    (inside : depth < (program.openAfter position).length) :
    ∃ close, program.closingFrom depth position = some close := by
  -- The search moves to the right, so the rest of the program bounds it.
  induction remaining : program.size - position generalizing depth position with
  | zero =>
    have past : program.size ≤ position := Nat.sub_eq_zero_iff_le.mp remaining
    rw [openAfter_of_size_le balanced past] at inside
    exact absurd inside (Nat.not_lt_zero depth)
  | succ rest ih =>
    have left : program.size - (position + 1) = rest := by omega
    cases here : program[position]? with
    | none =>
      have past : program.size ≤ position := Array.getElem?_eq_none_iff.mp here
      omega
    | some instruction =>
      cases instruction with
      | command action =>
        rw [closingFrom_command depth here]
        exact ih (by rwa [openAfter_succ_command here]) left
      | loopStart =>
        rw [closingFrom_loopStart depth here]
        refine ih ?_ left
        rw [openAfter_succ_loopStart here, List.length_cons]
        exact Nat.succ_lt_succ inside
      | loopEnd =>
        cases depth with
        | zero => exact ⟨position, closingFrom_zero_loopEnd here⟩
        | succ depth =>
          rw [closingFrom_succ_loopEnd depth here]
          refine ih ?_ left
          rw [openAfter_succ_loopEnd here, List.length_tail]
          omega

/-- The loops below those that a search counts are still open where it
ends, and they are all that is open there. -/
theorem openAfter_of_closingFrom {depth position close : Nat} {inner outer : List Nat}
    (found : program.closingFrom depth position = some close)
    (stack : program.openAfter position = inner ++ outer) (height : inner.length = depth) :
    program[close]? = some .loopEnd ∧ program.openAfter close = outer := by
  induction remaining : program.size - position generalizing depth position inner with
  | zero =>
    have past : program.size ≤ position := Nat.sub_eq_zero_iff_le.mp remaining
    rw [closingFrom_none depth (Array.getElem?_eq_none_iff.mpr past)] at found
    cases found
  | succ rest ih =>
    have left : program.size - (position + 1) = rest := by omega
    cases here : program[position]? with
    | none =>
      have past : program.size ≤ position := Array.getElem?_eq_none_iff.mp here
      omega
    | some instruction =>
      cases instruction with
      | command action =>
        rw [closingFrom_command depth here] at found
        exact ih found (by rw [openAfter_succ_command here, stack]) height left
      | loopStart =>
        rw [closingFrom_loopStart depth here] at found
        have deeper : program.openAfter (position + 1) = (position :: inner) ++ outer := by
          rw [openAfter_succ_loopStart here, stack, List.cons_append]
        exact ih found deeper (congrArg Nat.succ height) left
      | loopEnd =>
        cases inner with
        | nil =>
          cases height
          rw [List.length_nil, closingFrom_zero_loopEnd here] at found
          cases found
          exact ⟨here, stack⟩
        | cons start inner =>
          cases height
          rw [List.length_cons, closingFrom_succ_loopEnd _ here] at found
          refine ih found ?_ rfl left
          rw [openAfter_succ_loopEnd here, stack, List.cons_append, List.tail_cons]

/-- A loop on the stack began before the position, and the search for its
end continues there, one level deep for each loop above it. -/
theorem matchingEnd?_of_openAfter {position start : Nat} {inner outer : List Nat}
    (stack : program.openAfter position = inner ++ start :: outer) :
    start < position ∧ program[start]? = some .loopStart ∧
      program.matchingEnd? start = program.closingFrom inner.length position := by
  induction position generalizing inner with
  | zero =>
    simp only [openAfter] at stack
    exact absurd stack (List.append_ne_nil_of_right_ne_nil inner (List.cons_ne_nil start outer)).symm
  | succ position ih =>
    cases here : program[position]? with
    | none =>
      rw [openAfter_succ_none here] at stack
      rcases ih stack with ⟨before, opening, search⟩
      have past : program[position + 1]? = none :=
        Array.getElem?_eq_none (Nat.le_succ_of_le (Array.getElem?_eq_none_iff.mp here))
      rw [closingFrom_none _ here] at search
      rw [closingFrom_none _ past]
      exact ⟨Nat.lt_succ_of_lt before, opening, search⟩
    | some instruction =>
      cases instruction with
      | command action =>
        rw [openAfter_succ_command here] at stack
        rcases ih stack with ⟨before, opening, search⟩
        rw [closingFrom_command _ here] at search
        exact ⟨Nat.lt_succ_of_lt before, opening, search⟩
      | loopStart =>
        rw [openAfter_succ_loopStart here] at stack
        cases inner with
        | nil =>
          have top := (List.cons.inj stack).1
          cases top
          exact ⟨Nat.lt_succ_self _, here, rfl⟩
        | cons top inner =>
          rcases ih (List.cons.inj stack).2 with ⟨before, opening, search⟩
          rw [closingFrom_loopStart _ here] at search
          exact ⟨Nat.lt_succ_of_lt before, opening, search⟩
      | loopEnd =>
        rw [openAfter_succ_loopEnd here] at stack
        cases full : program.openAfter position with
        | nil =>
          rw [full, List.tail_nil] at stack
          exact absurd stack
            (List.append_ne_nil_of_right_ne_nil inner (List.cons_ne_nil start outer)).symm
        | cons top below =>
          rw [full, List.tail_cons] at stack
          have higher : program.openAfter position = (top :: inner) ++ start :: outer := by
            rw [full, stack, List.cons_append]
          rcases ih higher with ⟨before, opening, search⟩
          rw [List.length_cons, closingFrom_succ_loopEnd _ here] at search
          exact ⟨Nat.lt_succ_of_lt before, opening, search⟩

/-- Every loop has an end, and it lies inside the program. -/
theorem exists_matchingEnd? (balanced : Balanced program.toList) {start : Nat}
    (opening : program[start]? = some .loopStart) :
    ∃ close, program.matchingEnd? start = some close ∧ close < program.size := by
  have open_ : (program.openAfter (start + 1)).length = (program.openAfter start).length + 1 := by
    rw [openAfter_succ_loopStart opening, List.length_cons]
  have inside : 0 < (program.openAfter (start + 1)).length := by omega
  rcases exists_closingFrom balanced inside with ⟨close, found⟩
  exact ⟨close, found, (lt_of_closingFrom found).2⟩

/-- At the end of a loop the stack names the bracket that this end belongs
to, above the loops around that bracket. -/
theorem exists_openAfter_of_loopEnd (balanced : Balanced program.toList) {position : Nat}
    (ending : program[position]? = some .loopEnd) :
    ∃ start, program[start]? = some .loopStart ∧
      program.matchingEnd? start = some position ∧
      program.openAfter position = start :: program.openAfter start := by
  have before := length_openAfter_add balanced position
  have after := length_openAfter_add balanced (position + 1)
  rw [openAfter_succ_loopEnd ending, take_succ_eq, ending] at after
  simp only [opens, closes, Option.toList_some, List.count_append, List.count_singleton_self,
    List.count_cons_of_ne, ne_eq, reduceCtorEq, not_false_eq_true, List.count_nil] at before after
  cases stack : program.openAfter position with
  | nil =>
    rw [stack] at before after
    simp only [List.tail_nil, List.length_nil] at before after
    omega
  | cons start outer =>
    have highest : program.openAfter position = [] ++ start :: outer := stack
    rcases matchingEnd?_of_openAfter highest with ⟨_, opening, search⟩
    rw [List.length_nil, closingFrom_zero_loopEnd ending] at search
    have entered : program.openAfter (start + 1) = [] ++ start :: program.openAfter start :=
      openAfter_succ_loopStart opening
    have same := (openAfter_of_closingFrom search entered rfl).2
    exact ⟨start, opening, search, stack.symm.trans same⟩

/-- No two loops have the same end. -/
theorem eq_of_matchingEnd? {first second close : Nat}
    (firstOpening : program[first]? = some .loopStart)
    (secondOpening : program[second]? = some .loopStart)
    (firstFound : program.matchingEnd? first = some close)
    (secondFound : program.matchingEnd? second = some close) : first = second := by
  have entered {start : Nat} (opening : program[start]? = some .loopStart) :
      program.openAfter (start + 1) = [] ++ start :: program.openAfter start :=
    openAfter_succ_loopStart opening
  have firstStack := (openAfter_of_closingFrom firstFound (entered firstOpening) rfl).2
  have secondStack := (openAfter_of_closingFrom secondFound (entered secondOpening) rfl).2
  exact (List.cons.inj (firstStack.symm.trans secondStack)).1

end Searching

section Agreement

theorem lt_of_mem_openAfter {position start : Nat} (member : start ∈ program.openAfter position) :
    start < position := by
  rcases List.append_of_mem member with ⟨inner, outer, stack⟩
  exact (matchingEnd?_of_openAfter stack).1

/-- A loop that is around a position is on the stack there. -/
theorem mem_openAfter_of_le {position start close : Nat} (before : start < position)
    (opening : program[start]? = some .loopStart)
    (found : program.matchingEnd? start = some close) (around : position ≤ close) :
    start ∈ program.openAfter position := by
  induction position with
  | zero => exact absurd before (Nat.not_lt_zero start)
  | succ position ih =>
    rcases Nat.lt_succ_iff_lt_or_eq.mp before with earlier | same
    · have member := ih earlier (Nat.le_of_succ_le around)
      cases here : program[position]? with
      | none => rwa [openAfter_succ_none here]
      | some instruction =>
        cases instruction with
        | command action => rwa [openAfter_succ_command here]
        | loopStart =>
          rw [openAfter_succ_loopStart here]
          exact List.mem_cons_of_mem position member
        | loopEnd =>
          rw [openAfter_succ_loopEnd here]
          cases stack : program.openAfter position with
          | nil =>
            rw [stack] at member
            cases member
          | cons top below =>
            rw [stack] at member
            rcases List.mem_cons.mp member with innermost | lower
            · -- The innermost loop ends here, and this one ends further on.
              subst innermost
              have highest : program.openAfter position = [] ++ start :: below := stack
              have search := (matchingEnd?_of_openAfter highest).2.2
              rw [List.length_nil, closingFrom_zero_loopEnd here, found] at search
              have ends := Option.some.inj search
              omega
            · exact lower
    · subst same
      rw [openAfter_succ_loopStart opening]
      exact List.mem_cons_self

theorem mem_openAfter_iff (balanced : Balanced program.toList) {position start : Nat} :
    start ∈ program.openAfter position ↔ start ∈ program.loopsAround position := by
  rw [mem_loopsAround_iff]
  constructor
  · intro member
    rcases List.append_of_mem member with ⟨inner, outer, stack⟩
    rcases matchingEnd?_of_openAfter stack with ⟨before, opening, search⟩
    have inside : inner.length < (program.openAfter position).length := by
      rw [stack, List.length_append, List.length_cons]
      omega
    rcases exists_closingFrom balanced inside with ⟨close, found⟩
    exact ⟨before, opening, close, search.trans found, (lt_of_closingFrom found).1⟩
  · rintro ⟨before, opening, close, found, around⟩
    exact mem_openAfter_of_le before opening found around

/-- Loops further down the stack began earlier. -/
theorem pairwise_openAfter (position : Nat) : (program.openAfter position).Pairwise (· > ·) := by
  induction position with
  | zero => exact List.Pairwise.nil
  | succ position ih =>
    cases here : program[position]? with
    | none => rwa [openAfter_succ_none here]
    | some instruction =>
      cases instruction with
      | command action => rwa [openAfter_succ_command here]
      | loopStart =>
        rw [openAfter_succ_loopStart here]
        exact List.pairwise_cons.mpr ⟨fun start member => lt_of_mem_openAfter member, ih⟩
      | loopEnd =>
        rw [openAfter_succ_loopEnd here]
        exact ih.tail

/-- The stack, read from its bottom, lists the loops around a position. -/
theorem reverse_openAfter (balanced : Balanced program.toList) (position : Nat) :
    (program.openAfter position).reverse = program.loopsAround position := by
  have ascending : (program.openAfter position).reverse.Pairwise (· < ·) :=
    List.pairwise_reverse.mpr (pairwise_openAfter position)
  have listed : (program.loopsAround position).Pairwise (· < ·) :=
    List.pairwise_lt_range.filter _
  have distinct {starts : List Nat} (sorted : starts.Pairwise (· < ·)) : starts.Nodup :=
    sorted.imp fun less => Nat.ne_of_lt less
  refine List.Perm.eq_of_pairwise ?_ ascending listed ?_
  · intro first second _ _ less greater
    exact absurd less (Nat.lt_asymm greater)
  · apply (List.perm_ext_iff_of_nodup (distinct ascending) (distinct listed)).mpr
    intro start
    rw [List.mem_reverse, mem_openAfter_iff balanced]

end Agreement
end Program
end RingTape
