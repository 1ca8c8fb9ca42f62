import Mathlib.Data.List.Induction
import RingTape.Proofs.FileLines

namespace RingTape

/-!
# The last assignments of a settings file

Reading lines leaves two things behind: whether the section `run` is open,
and the text that each key was given last.  Both are read off some lines and
then off the lines that follow, so a change of neighbouring lines is without
effect as soon as it is without effect from where it stands
(`Settings.Alike`).

What the reader finds is what stands in the file: the section is open where
`InRun` says so (`openBehind_iff_inRun`), and the text found for a key is its
last value (`lookup?_eq_some_iff`).  The second holds for any key, while an
edit keeps the last values only of keys that settings have
(`lookup?_of_sameButForEdits`).
-/

namespace FileLine

variable {opened : Bool} {line : List Char}

/-- Whether the section `run` is open behind a line. -/
def opens (opened : Bool) : FileLine → Bool
  | header name => name == "run".toList
  | assignment _ _ => opened
  | ignored => opened

theorem assignments_append (opened : Bool) (first second : List FileLine) :
    assignments opened (first ++ second) =
      assignments opened first ++ assignments (first.foldl opens opened) second := by
  induction first generalizing opened with
  | nil => rfl
  | cons line rest ih =>
    rw [List.cons_append, List.foldl_cons]
    cases line with
    | header name => exact ih _
    | assignment key value =>
      rw [assignments, assignments, opens, ih]
      split
      · rfl
      · rfl
    | ignored => exact ih _

theorem opens_of_isHeader (heads : Heads line Settings.runName) :
    opens opened (ofText line) = true := by
  rw [ofText_of_heads heads]
  rfl

theorem opens_of_noHeader (noHeader : ¬ IsHeader line) : opens opened (ofText line) = opened := by
  rcases header_or_keyLine_or_ignored line with
    ⟨name, heads, -⟩ | ⟨_, _, -, same⟩ | ⟨-, -, same⟩
  · exact absurd ⟨name, heads⟩ noHeader
  · rw [same]; rfl
  · rw [same]; rfl

theorem opens_iff :
    opens opened (ofText line) = true ↔
      Heads line Settings.runName ∨ opened = true ∧ ¬ IsHeader line := by
  by_cases isHeader : IsHeader line
  · obtain ⟨name, heads⟩ := isHeader
    rw [ofText_of_heads heads, opens, beq_iff_eq, ← ofText_eq_header_iff, ofText_of_heads heads]
    constructor
    · rintro rfl
      exact .inl rfl
    · rintro (same | ⟨-, noHeader⟩)
      · exact header.inj same
      · exact absurd ⟨name, heads⟩ noHeader
  · rw [opens_of_noHeader isHeader]
    constructor
    · exact fun inside => .inr ⟨inside, isHeader⟩
    · rintro (heads | ⟨inside, -⟩)
      · exact absurd ⟨_, heads⟩ isHeader
      · exact inside

end FileLine

namespace Settings

open FileLine (Heads IsHeader IsComment Writes IsKeyLine Assigns ofText opens)

theorem lastAssigned?_append (first second : List (String × String)) (key : String) :
    lastAssigned? (first ++ second) key =
      (lastAssigned? second key).or (lastAssigned? first key) := by
  rw [lastAssigned?, List.reverse_append, List.find?_append, Option.map_or]
  rfl

/-! ## Reading some lines -/

/-- Whether the section `run` is open behind some lines. -/
def openBehind (opened : Bool) (lines : List (List Char)) : Bool :=
  (lines.map ofText).foldl opens opened

/-- The text that some lines give a key last. -/
def lookup? (opened : Bool) (lines : List (List Char)) (key : String) : Option String :=
  lastAssigned? (FileLine.assignments opened (lines.map ofText)) key

variable {opened : Bool} {line other : List Char} {lines before old new : List (List Char)}

theorem openBehind_append (opened : Bool) (first second : List (List Char)) :
    openBehind opened (first ++ second) = openBehind (openBehind opened first) second := by
  rw [openBehind, List.map_append, List.foldl_append]
  rfl

theorem lookup?_append (opened : Bool) (first second : List (List Char)) (key : String) :
    lookup? opened (first ++ second) key =
      (lookup? (openBehind opened first) second key).or (lookup? opened first key) := by
  rw [lookup?, List.map_append, FileLine.assignments_append, lastAssigned?_append]
  rfl

theorem openBehind_cons (opened : Bool) (line : List Char) (lines : List (List Char)) :
    openBehind opened (line :: lines) = openBehind (opens opened (ofText line)) lines := rfl

theorem lookup?_cons (opened : Bool) (line : List Char) (lines : List (List Char)) (key : String) :
    lookup? opened (line :: lines) key =
      (lookup? (opens opened (ofText line)) lines key).or (lookup? opened [line] key) :=
  lookup?_append opened [line] lines key

theorem openBehind_of_noHeaders (noHeaders : ∀ line ∈ lines, ¬ IsHeader line) :
    openBehind opened lines = opened := by
  induction lines with
  | nil => rfl
  | cons line rest ih =>
    rw [openBehind_cons, FileLine.opens_of_noHeader (noHeaders line List.mem_cons_self)]
    exact ih fun line member => noHeaders line (List.mem_cons_of_mem _ member)

/-! ## One line -/

theorem lookup?_of_assignment {key value : List Char} {name : String}
    (read : ofText line = .assignment key value) :
    lookup? opened [line] name =
      if opened = true ∧ key = name.toList then some (String.ofList value) else none := by
  have same : (String.ofList key == name) = decide (key = name.toList) := by
    rw [Bool.eq_iff_iff, beq_iff_eq, decide_eq_true_eq, ← String.toList_inj, String.toList_ofList]
  rw [lookup?, List.map_singleton, read]
  cases opened with
  | false => rfl
  | true =>
    simp only [FileLine.assignments, lastAssigned?, if_true, List.reverse_singleton,
      List.find?_singleton, same, decide_eq_true_eq, true_and]
    exact apply_ite _ _ _ _

theorem lookup?_of_isHeader (isHeader : IsHeader line) (name : String) :
    lookup? opened [line] name = none := by
  obtain ⟨title, heads⟩ := isHeader
  rw [lookup?, List.map_singleton, FileLine.ofText_of_heads heads]
  rfl

theorem lookup?_of_ignored (read : ofText line = .ignored) (name : String) :
    lookup? opened [line] name = none := by
  rw [lookup?, List.map_singleton, read]
  rfl

/-- A key line says nothing about other keys. -/
theorem lookup?_of_ne {key written : List Char} {name : String}
    (keyLine : IsKeyLine line key written) (different : key ≠ name.toList) :
    lookup? opened [line] name = none := by
  rw [lookup?_of_assignment (FileLine.ofText_of_isKeyLine keyLine), if_neg]
  exact fun both => different both.2

/-- A line in the section `run` gives a key the value that it assigns. -/
theorem lookup?_singleton_eq_some_iff {key value : String} :
    lookup? opened [line] key = some value ↔
      opened = true ∧ Assigns line key.toList value.toList := by
  rw [← FileLine.ofText_eq_assignment_iff]
  cases read : ofText line with
  | header name =>
    rw [lookup?_of_isHeader ⟨name, FileLine.ofText_eq_header_iff.mp read⟩]
    exact ⟨nofun, nofun⟩
  | ignored =>
    rw [lookup?_of_ignored read]
    exact ⟨nofun, nofun⟩
  | assignment found text =>
    rw [lookup?_of_assignment read, Option.ite_none_right_eq_some, Option.some.injEq, and_assoc,
      FileLine.assignment.injEq, ← String.toList_inj, String.toList_ofList]

/-- Outside the section `run` nothing is assigned. -/
theorem lookup?_closed (noHeaders : ∀ line ∈ lines, ¬ IsHeader line) (name : String) :
    lookup? false lines name = none := by
  induction lines with
  | nil => rfl
  | cons line rest ih =>
    rw [lookup?_cons, FileLine.opens_of_noHeader (noHeaders line List.mem_cons_self),
      ih fun line member => noHeaders line (List.mem_cons_of_mem _ member), Option.none_or]
    exact Option.eq_none_iff_forall_ne_some.mpr fun value found =>
      nomatch (lookup?_singleton_eq_some_iff.mp found).1

/-! ## The reader finds what stands in the file -/

theorem inRun_append_singleton :
    InRun (lines ++ [line]) ↔ Heads line runName ∨ InRun lines ∧ ¬ IsHeader line := by
  constructor
  · rintro ⟨before, header, after, whole, heads, noHeaders⟩
    rcases List.eq_nil_or_concat after with rfl | ⟨after, last, rfl⟩
    · obtain ⟨-, rfl⟩ := List.append_singleton_inj.mp whole
      exact .inl heads
    · rw [List.concat_eq_append] at noHeaders
      rw [List.concat_eq_append, ← List.cons_append, ← List.append_assoc] at whole
      obtain ⟨rfl, rfl⟩ := List.append_singleton_inj.mp whole
      exact .inr ⟨⟨before, header, after, rfl, heads, fun line member =>
        noHeaders line (List.mem_append_left _ member)⟩,
        noHeaders line (List.mem_append_right _ List.mem_cons_self)⟩
  · rintro (heads | ⟨⟨before, header, after, rfl, heads, noHeaders⟩, noHeader⟩)
    · exact ⟨lines, line, [], rfl, heads, nofun⟩
    · refine ⟨before, header, after ++ [line], ?_, heads, fun other member => ?_⟩
      · rw [List.append_assoc, List.cons_append]
      · rcases List.mem_append.mp member with earlier | now
        · exact noHeaders other earlier
        · rw [List.mem_singleton.mp now]
          exact noHeader

/-- The reader takes the section `run` to be open where it is. -/
theorem openBehind_iff_inRun (lines : List (List Char)) :
    openBehind false lines = true ↔ InRun lines := by
  induction lines using List.reverseRecOn with
  | nil =>
    refine ⟨nofun, ?_⟩
    rintro ⟨before, header, after, whole, -⟩
    exact absurd whole.symm (List.append_ne_nil_of_right_ne_nil before (List.cons_ne_nil _ _))
  | append_singleton lines line ih =>
    rw [openBehind_append, openBehind_cons, inRun_append_singleton, ← ih]
    exact FileLine.opens_iff

instance (lines : List (List Char)) : Decidable (InRun lines) :=
  decidable_of_iff _ (openBehind_iff_inRun lines)

theorem setsAt_append_singleton {index : Nat} {key value : List Char} :
    SetsAt (lines ++ [line]) index key value ↔
      SetsAt lines index key value ∨
        index = lines.length ∧ InRun lines ∧ Assigns line key value := by
  rw [SetsAt, SetsAt]
  rcases Nat.lt_trichotomy index lines.length with earlier | now | later
  · rw [List.take_append_of_le_length (Nat.le_of_lt earlier), List.getElem?_append_left earlier]
    refine ⟨.inl, fun either => either.resolve_right fun last => ?_⟩
    exact Nat.ne_of_lt earlier last.1
  · subst now
    rw [List.take_left, List.getElem?_concat_length, List.getElem?_eq_none (Nat.le_refl _)]
    constructor
    · rintro ⟨inRun, found, ⟨⟩, assigns⟩
      exact .inr ⟨rfl, inRun, assigns⟩
    · rintro (⟨-, found, ⟨⟩, -⟩ | ⟨-, inRun, assigns⟩)
      exact ⟨inRun, line, rfl, assigns⟩
  · rw [List.getElem?_eq_none (Nat.le_of_lt later), List.getElem?_eq_none]
    · constructor
      · rintro ⟨-, found, ⟨⟩, -⟩
      · rintro (⟨-, found, ⟨⟩, -⟩ | ⟨same, -⟩)
        exact absurd same (Nat.ne_of_gt later)
    · rw [List.length_append, List.length_singleton]
      exact later

theorem SetsAt.lt {index : Nat} {key value : List Char} (sets : SetsAt lines index key value) :
    index < lines.length := by
  obtain ⟨-, found, present, -⟩ := sets
  exact (List.getElem?_eq_some_iff.mp present).1

/-- A line that assigns a value in the section `run` makes it the last one,
and any other line leaves the last value as it is. -/
theorem lastValue_append_singleton {key value : List Char} :
    LastValue (lines ++ [line]) key value ↔
      InRun lines ∧ Assigns line key value ∨
        (¬ ∃ value, InRun lines ∧ Assigns line key value) ∧ LastValue lines key value := by
  constructor
  · rintro ⟨index, sets, last⟩
    rcases setsAt_append_singleton.mp sets with earlier | ⟨-, now⟩
    · refine .inr ⟨?_, index, earlier, fun later other following sets =>
        last later other following (setsAt_append_singleton.mpr (.inl sets))⟩
      rintro ⟨other, now⟩
      exact last lines.length other earlier.lt (setsAt_append_singleton.mpr (.inr ⟨rfl, now⟩))
    · exact .inl now
  · rintro (now | ⟨none, index, earlier, last⟩)
    · refine ⟨lines.length, setsAt_append_singleton.mpr (.inr ⟨rfl, now⟩),
        fun later other following sets => ?_⟩
      rcases setsAt_append_singleton.mp sets with sets | ⟨rfl, -⟩
      · exact Nat.lt_asymm following sets.lt
      · exact Nat.lt_irrefl _ following
    · refine ⟨index, setsAt_append_singleton.mpr (.inl earlier),
        fun later other following sets => ?_⟩
      rcases setsAt_append_singleton.mp sets with sets | ⟨-, now⟩
      · exact last later other following sets
      · exact none ⟨other, now⟩

/-- The reader finds the last value of each key. -/
theorem lookup?_eq_some_iff (lines : List (List Char)) {key value : String} :
    lookup? false lines key = some value ↔ LastValue lines key.toList value.toList := by
  induction lines using List.reverseRecOn with
  | nil =>
    refine ⟨nofun, ?_⟩
    rintro ⟨index, sets, -⟩
    exact absurd sets.lt (Nat.not_lt_zero index)
  | append_singleton lines line ih =>
    have unassigned : lookup? (openBehind false lines) [line] key = none ↔
        ¬ ∃ value, InRun lines ∧ Assigns line key.toList value := by
      rw [Option.eq_none_iff_forall_ne_some, ← openBehind_iff_inRun]
      constructor
      · rintro none ⟨value, inRun, assigns⟩
        refine none (String.ofList value) (lookup?_singleton_eq_some_iff.mpr ⟨inRun, ?_⟩)
        rw [String.toList_ofList]
        exact assigns
      · exact fun none value found => none ⟨_, lookup?_singleton_eq_some_iff.mp found⟩
    rw [lookup?_append, Option.or_eq_some_iff, lookup?_singleton_eq_some_iff, unassigned, ih,
      openBehind_iff_inRun, lastValue_append_singleton]

/-! ## Edits -/

/-- Some lines and others open the section `run` alike and give the keys of
settings the same last values. -/
structure Alike (opened : Bool) (old new : List (List Char)) : Prop where
  openBehind : openBehind opened old = openBehind opened new
  lookup? (setting : Setting) :
    lookup? opened old (setting.key .file) = lookup? opened new (setting.key .file)

theorem alike_of_ofText_eq (same : ofText line = ofText other) : Alike opened [line] [other] where
  openBehind := by rw [openBehind_cons, openBehind_cons, same]
  lookup? setting := by
    rw [Settings.lookup?, Settings.lookup?, List.map_singleton, List.map_singleton, same]

/-- A line may be added if it keeps the section as it is and gives no setting
a value. -/
theorem alike_add (opens : opens opened (ofText line) = opened)
    (silent : ∀ setting : Setting, lookup? opened [line] (setting.key .file) = none) :
    Alike opened [] [line] where
  openBehind := opens.symm
  lookup? setting := (silent setting).symm

theorem alike_add_ignored (read : ofText line = .ignored) : Alike opened [] [line] :=
  alike_add (by rw [read]; rfl) fun setting => lookup?_of_ignored read _

/-- A line may be dropped if a line behind it gives the same key a value. -/
theorem alike_superseded {later key written final : List Char} {between : List (List Char)}
    (keyLine : IsKeyLine line key written) (again : IsKeyLine later key final)
    (inRun : openBehind opened (line :: between) = true) :
    Alike opened (between ++ [later]) (line :: (between ++ [later])) := by
  have unchanged : opens opened (ofText line) = opened :=
    FileLine.opens_of_noHeader keyLine.noHeader
  rw [openBehind_cons, unchanged] at inRun
  constructor
  case openBehind => rw [openBehind_cons, unchanged]
  case lookup? =>
    intro setting
    rw [lookup?_cons, unchanged, lookup?_append, inRun]
    by_cases same : key = (setting.key .file).toList
    · -- Whatever the first line gives this key, the later line replaces it.
      rw [lookup?_of_assignment (FileLine.ofText_of_isKeyLine again), if_pos ⟨rfl, same⟩]
      rfl
    · rw [lookup?_of_ne keyLine same, Option.or_none]

/-- Another section may stand inside the section `run`. -/
theorem alike_split {header name back : List Char} {inner : List (List Char)}
    (heads : Heads header name) (different : name ≠ runName)
    (noHeaders : ∀ line ∈ inner, ¬ IsHeader line) (reopens : Heads back runName) :
    Alike true [] (header :: (inner ++ [back])) := by
  have closes : opens true (ofText header) = false := by
    rw [FileLine.ofText_of_heads heads]
    exact beq_eq_false_iff_ne.mpr different
  constructor
  case openBehind =>
    rw [openBehind_cons, closes, openBehind_append, openBehind_of_noHeaders noHeaders,
      openBehind_cons, FileLine.opens_of_isHeader reopens]
  case lookup? =>
    intro setting
    rw [lookup?_cons, closes, lookup?_append, openBehind_of_noHeaders noHeaders,
      lookup?_of_isHeader ⟨_, reopens⟩, lookup?_closed noHeaders, lookup?_of_isHeader ⟨_, heads⟩]
    rfl

/-- Lines for different keys may change places. -/
theorem alike_swapped {first second key written text : List Char} {otherKey : List Char}
    (one : IsKeyLine first key written) (two : IsKeyLine second otherKey text)
    (different : key ≠ otherKey) : Alike opened [first, second] [second, first] := by
  have firstKeeps : openBehind opened [first] = opened :=
    FileLine.opens_of_noHeader one.noHeader
  have secondKeeps : openBehind opened [second] = opened :=
    FileLine.opens_of_noHeader two.noHeader
  constructor
  case openBehind =>
    change openBehind opened ([first] ++ [second]) = openBehind opened ([second] ++ [first])
    rw [openBehind_append, openBehind_append, firstKeeps, secondKeeps, firstKeeps]
  case lookup? =>
    intro setting
    change lookup? opened ([first] ++ [second]) _ = lookup? opened ([second] ++ [first]) _
    rw [lookup?_append, lookup?_append, firstKeeps, secondKeeps]
    by_cases same : key = (setting.key .file).toList
    · rw [lookup?_of_ne two fun again => different (same.trans again.symm), Option.none_or,
        Option.or_none]
    · rw [lookup?_of_ne one same, Option.none_or, Option.or_none]

/-- From where an edit stands, the old lines and the new ones are alike. -/
theorem Edit.alike (edit : Edit before old new) : Alike (openBehind false before) old new := by
  cases edit with
  | blank blank =>
    apply alike_add_ignored
    rw [ofText, Text.trim_eq_nil_iff.mpr blank]
    rfl
  | comment comment => exact alike_add_ignored (FileLine.ofText_of_isComment comment)
  | unassigned noHeader absent =>
    exact alike_add_ignored (FileLine.ofText_of_notMem noHeader absent)
  | otherKey keyLine other =>
    exact alike_add (FileLine.opens_of_noHeader keyLine.noHeader) fun setting =>
      lookup?_of_ne keyLine (other setting)
  | outside outside noHeader =>
    rw [← openBehind_iff_inRun, Bool.not_eq_true] at outside
    rw [outside]
    exact alike_add (FileLine.opens_of_noHeader noHeader) fun setting =>
      lookup?_closed (by simpa using noHeader) _
  | superseded keyLine again inRun =>
    rw [← openBehind_iff_inRun, openBehind_append] at inRun
    exact alike_superseded keyLine again inRun
  | reopened inRun heads =>
    rw [(openBehind_iff_inRun before).mpr inRun]
    exact alike_add (FileLine.opens_of_isHeader heads) fun setting =>
      lookup?_of_isHeader ⟨_, heads⟩ _
  | split inRun heads different noHeaders reopens =>
    rw [(openBehind_iff_inRun before).mpr inRun]
    exact alike_split heads different noHeaders reopens
  | swapped one two different => exact alike_swapped one two different
  | padded one two =>
    exact alike_of_ofText_eq
      ((FileLine.ofText_of_padded one).trans (FileLine.ofText_of_padded two).symm)
  | respaced keyLine writes =>
    apply alike_of_ofText_eq
    rw [FileLine.ofText_of_isKeyLine keyLine,
      FileLine.ofText_of_isKeyLine (keyLine.respaced writes)]
  | quoted keyLine bare writes =>
    apply alike_of_ofText_eq
    rw [FileLine.ofText_of_isKeyLine keyLine, FileLine.ofText_of_isKeyLine (keyLine.quoted writes),
      FileLine.unquoted_of_not_isQuoted bare, FileLine.unquoted_quote]

theorem lookup?_of_retouched {lines other : List (List Char)} (retouched : Retouched lines other)
    (setting : Setting) :
    lookup? false lines (setting.key .file) = lookup? false other (setting.key .file) := by
  obtain ⟨after, edit⟩ := retouched
  rw [lookup?_append, lookup?_append, lookup?_append, lookup?_append, edit.alike.openBehind,
    edit.alike.lookup?]

/-- Edits, made and undone, keep what the reader finds for the settings. -/
theorem lookup?_of_sameButForEdits {content other : String} (same : SameButForEdits content other)
    (setting : Setting) :
    lookup? false (fileLines content) (setting.key .file) =
      lookup? false (fileLines other) (setting.key .file) := by
  unfold SameButForEdits at same
  generalize fileLines content = lines at same ⊢
  generalize fileLines other = others at same ⊢
  induction same with
  | rel _ _ retouched => exact lookup?_of_retouched retouched setting
  | refl _ => rfl
  | symm _ _ _ ih => exact ih.symm
  | trans _ _ _ _ _ first second => exact first.trans second

theorem lastValue_of_sameButForEdits {content other : String}
    (same : SameButForEdits content other) (setting : Setting) (value : String) :
    LastValue (fileLines content) (setting.key .file).toList value.toList ↔
      LastValue (fileLines other) (setting.key .file).toList value.toList := by
  rw [← lookup?_eq_some_iff, ← lookup?_eq_some_iff, lookup?_of_sameButForEdits same]

end Settings
end RingTape
