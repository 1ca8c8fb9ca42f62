import RingTape.Settings.Grammar

namespace RingTape
namespace FileLine

/-!
# What the reader makes of a line

The reader of settings files trims a line, looks at its first and last
characters and cuts it at the first equals sign.  Here each of these steps is
matched with what stands on the untrimmed line: the reader finds a header
where there is one (`ofText_eq_header_iff`), an assignment where a key line
assigns a value (`ofText_eq_assignment_iff`), and skips every other line.

What is written behind a key decides alone, with the key, whether the line
is a header or a comment.  So a key line stays a key line when its blanks
change or its text is put in quotes.
-/

variable {line other key written value name : List Char}

/-! ## Headers and comments -/

theorem trimmed_bracketed (name : List Char) : Text.Trimmed ('[' :: (name ++ [']'])) where
  first := by
    rintro character ⟨⟩
    decide
  last := by
    rw [← List.cons_append, List.getLast?_concat]
    rintro character ⟨⟩
    decide

theorem heads_iff_trim : Heads line name ↔ Text.trim line = '[' :: (name ++ [']']) := by
  constructor
  · exact fun heads => Text.trim_eq_iff.mpr ⟨trimmed_bracketed name, heads⟩
  · exact fun same => (Text.trim_eq_iff.mp same).2

theorem isHeader_iff :
    IsHeader line ↔
      (Text.trim line).head? = some '[' ∧ (Text.trim line).getLast? = some ']' := by
  rw [← Text.exists_between_iff (by decide)]
  exact exists_congr fun _ => heads_iff_trim

theorem isComment_iff : IsComment line ↔ (Text.trim line).head? = some '#' := by
  rw [Text.head?_trim, List.find?_eq_some_iff_append]
  constructor
  · rintro ⟨before, rest, blank, rfl⟩
    refine ⟨rfl, before, rest, rfl, fun character member => ?_⟩
    rw [blank character member]
    rfl
  · rintro ⟨-, before, rest, rfl, blank⟩
    refine ⟨before, rest, fun character member => ?_, rfl⟩
    simpa using blank character member

/-! ## Keys and what is written for them -/

theorem writes_iff :
    Writes line key written ↔
      ∃ left right, Text.cutOnce? '=' line = some (left, right) ∧
        Text.trim left = key ∧ Text.trim right = written := by
  constructor
  · rintro ⟨keyTrimmed, textTrimmed, left, right, whole, absent, aroundKey, aroundText⟩
    exact ⟨left, right, Text.cutOnce?_eq_some_iff.mpr ⟨whole, absent⟩,
      Text.trim_eq_iff.mpr ⟨keyTrimmed, aroundKey⟩,
      Text.trim_eq_iff.mpr ⟨textTrimmed, aroundText⟩⟩
  · rintro ⟨left, right, cut, rfl, rfl⟩
    obtain ⟨whole, absent⟩ := Text.eq_of_cutOnce? cut
    exact ⟨Text.trimmed_trim left, Text.trimmed_trim right, left, right, whole, absent,
      Text.padded_trim left, Text.padded_trim right⟩

/-- Blanks around a line belong to the key and to the text. -/
theorem Writes.of_padded (writes : Writes line key written) (padded : Text.Padded line other) :
    Writes other key written := by
  obtain ⟨before, after, starts, ends, rfl⟩ := padded
  obtain ⟨keyTrimmed, textTrimmed, left, right, rfl, absent, aroundKey, aroundText⟩ := writes
  refine ⟨keyTrimmed, textTrimmed, before ++ left, right ++ after, ?_, ?_,
    aroundKey.prepend starts, aroundText.append ends⟩
  · rw [List.append_assoc, List.append_assoc, List.cons_append]
  · rw [List.mem_append, not_or]
    exact ⟨starts.notMem (by decide), absent⟩

/-- A line writes one text behind one key. -/
theorem Writes.unique {otherKey otherText : List Char} (first : Writes line key written)
    (second : Writes line otherKey otherText) : key = otherKey ∧ written = otherText := by
  obtain ⟨left, right, cut, rfl, rfl⟩ := writes_iff.mp first
  obtain ⟨_, _, again, rfl, rfl⟩ := writes_iff.mp second
  rw [cut] at again
  cases again
  exact ⟨rfl, rfl⟩

theorem Writes.mem (writes : Writes line key written) : '=' ∈ line := by
  obtain ⟨-, -, left, right, rfl, -⟩ := writes
  exact List.mem_append_right left List.mem_cons_self

theorem exists_writes (member : '=' ∈ line) : ∃ key written, Writes line key written := by
  obtain ⟨left, right, whole, absent⟩ := List.eq_append_cons_of_mem member
  have cut := Text.cutOnce?_eq_some_iff.mpr ⟨whole, absent⟩
  exact ⟨_, _, writes_iff.mpr ⟨left, right, cut, rfl, rfl⟩⟩

theorem writes_trim_iff : Writes (Text.trim line) key written ↔ Writes line key written := by
  constructor
  · exact fun writes => writes.of_padded (Text.padded_trim line)
  · intro writes
    -- The trimmed line has an equals sign too, so it writes something, which can only be this.
    obtain ⟨_, _, inner⟩ := exists_writes ((Text.mem_trim_iff (by decide)).mpr writes.mem)
    obtain ⟨rfl, rfl⟩ := writes.unique (inner.of_padded (Text.padded_trim line))
    exact inner

/-- A line that writes a text behind a key begins with the key, or with the
equals sign if the key is empty. -/
theorem Writes.head?_trim (writes : Writes line key written) :
    (Text.trim line).head? = key.head?.or (some '=') := by
  obtain ⟨keyTrimmed, -, left, right, rfl, -, aroundKey, -⟩ := writes
  rw [Text.head?_trim, List.find?_append, Text.find?_of_padded keyTrimmed aroundKey]
  rfl

/-- A line that writes a text behind a key ends with the text, or with the
equals sign if the text is empty. -/
theorem Writes.getLast?_trim (writes : Writes line key written) :
    (Text.trim line).getLast? = written.getLast?.or (some '=') := by
  obtain ⟨-, textTrimmed, left, right, rfl, -, -, aroundText⟩ := writes
  rw [Text.getLast?_trim, List.reverse_append, List.reverse_cons, List.find?_append,
    List.find?_append, Text.find?_of_padded textTrimmed.reverse aroundText.reverse,
    List.head?_reverse, Option.or_assoc]
  rfl

/-- Other blanks around the same key and text leave a key line a key line. -/
theorem IsKeyLine.respaced (keyLine : IsKeyLine line key written)
    (writes : Writes other key written) : IsKeyLine other key written where
  writes := writes
  noHeader := by
    rw [isHeader_iff, writes.head?_trim, writes.getLast?_trim, ← keyLine.writes.head?_trim,
      ← keyLine.writes.getLast?_trim, ← isHeader_iff]
    exact keyLine.noHeader
  noComment := by
    rw [isComment_iff, writes.head?_trim, ← keyLine.writes.head?_trim, ← isComment_iff]
    exact keyLine.noComment

/-- A text in quotes does not close a bracket. -/
theorem IsKeyLine.quoted (keyLine : IsKeyLine line key written)
    (writes : Writes other key (quote value)) : IsKeyLine other key (quote value) where
  writes := writes
  noHeader := by
    rw [isHeader_iff, writes.getLast?_trim, quote, ← List.cons_append, List.getLast?_concat]
    rintro ⟨-, ⟨⟩⟩
  noComment := by
    rw [isComment_iff, writes.head?_trim, ← keyLine.writes.head?_trim, ← isComment_iff]
    exact keyLine.noComment

/-! ## Quotes -/

theorem unquoted_eq_iff : unquoted written = value ↔ Denotes written value := by
  rw [unquoted, Denotes]
  cases found : Text.between? '"' '"' written with
  | none =>
    have bare : ¬ IsQuoted written := by
      rintro ⟨inner, same⟩
      rw [Text.between?_eq_some_iff.mpr same] at found
      cases found
    rw [Option.getD_none]
    exact ⟨fun same => .inr ⟨bare, same⟩, fun denotes =>
      denotes.elim (fun same => absurd ⟨value, same⟩ bare) And.right⟩
  | some inner =>
    have same : written = quote inner := Text.between?_eq_some_iff.mp found
    rw [Option.getD_some]
    constructor
    · rintro rfl
      exact .inl same
    · rintro (again | ⟨bare, -⟩)
      · rw [Text.between?_eq_some_iff.mpr again] at found
        exact (Option.some.inj found).symm
      · exact absurd ⟨inner, same⟩ bare

theorem unquoted_quote (value : List Char) : unquoted (quote value) = value :=
  unquoted_eq_iff.mpr (.inl rfl)

theorem unquoted_of_not_isQuoted (bare : ¬ IsQuoted written) : unquoted written = written :=
  unquoted_eq_iff.mpr (.inr ⟨bare, rfl⟩)

/-! ## The reader -/

theorem ofText_of_heads (heads : Heads line name) : ofText line = header name := by
  have bracketed := heads_iff_trim.mp heads
  have found : Text.between? '[' ']' ('[' :: (name ++ [']'])) = some name :=
    Text.between?_eq_some_iff.mpr rfl
  rw [ofText, bracketed, ofTrimmed]
  · rw [found]
  · exact fun absurdity => nomatch absurdity
  · exact fun rest absurdity => nomatch absurdity

theorem ofText_of_isComment (comment : IsComment line) : ofText line = ignored := by
  obtain ⟨rest, starts⟩ := List.head?_eq_some_iff.mp (isComment_iff.mp comment)
  rw [ofText, starts, ofTrimmed]

/-- A line that is neither a header nor a comment is cut at its first equals
sign. -/
theorem ofText_of_plain (noHeader : ¬ IsHeader line) (noComment : ¬ IsComment line) :
    ofText line =
      match Text.cutOnce? '=' (Text.trim line) with
      | some (left, right) => assignment (Text.trim left) (unquoted (Text.trim right))
      | none => ignored := by
  have unbracketed : Text.between? '[' ']' (Text.trim line) = none := by
    cases found : Text.between? '[' ']' (Text.trim line) with
    | none => rfl
    | some name =>
      exact absurd ⟨name, heads_iff_trim.mpr (Text.between?_eq_some_iff.mp found)⟩ noHeader
  rw [isComment_iff] at noComment
  rw [ofText]
  unfold ofTrimmed
  split
  · next nothing => rw [nothing]; rfl
  · next starts => rw [starts] at noComment; exact absurd rfl noComment
  · cases Text.cutOnce? '=' (Text.trim line) with
    | none => rw [unbracketed]
    | some parts => rw [unbracketed]

theorem ofText_of_isKeyLine (keyLine : IsKeyLine line key written) :
    ofText line = assignment key (unquoted written) := by
  obtain ⟨left, right, cut, rfl, rfl⟩ := writes_iff.mp (writes_trim_iff.mpr keyLine.writes)
  rw [ofText_of_plain keyLine.noHeader keyLine.noComment, cut]

theorem ofText_of_notMem (noHeader : ¬ IsHeader line) (absent : '=' ∉ line) :
    ofText line = ignored := by
  by_cases comment : IsComment line
  · exact ofText_of_isComment comment
  · rw [← @Text.mem_trim_iff _ '=' (by decide), ← Text.cutOnce?_eq_none_iff] at absent
    rw [ofText_of_plain noHeader comment, absent]

/-- A line is a header, a key line or without effect. -/
theorem header_or_keyLine_or_ignored (line : List Char) :
    (∃ name, Heads line name ∧ ofText line = header name) ∨
      (∃ key written, IsKeyLine line key written ∧
        ofText line = assignment key (unquoted written)) ∨
      ¬ IsHeader line ∧ (∀ key written, ¬ IsKeyLine line key written) ∧
        ofText line = ignored := by
  by_cases isHeader : IsHeader line
  · obtain ⟨name, heads⟩ := isHeader
    exact .inl ⟨name, heads, ofText_of_heads heads⟩
  by_cases isKeyLine : ∃ key written, IsKeyLine line key written
  · obtain ⟨key, written, keyLine⟩ := isKeyLine
    exact .inr (.inl ⟨key, written, keyLine, ofText_of_isKeyLine keyLine⟩)
  have noKeyLine (key written : List Char) : ¬ IsKeyLine line key written :=
    fun keyLine => isKeyLine ⟨key, written, keyLine⟩
  refine .inr (.inr ⟨isHeader, noKeyLine, ?_⟩)
  by_cases comment : IsComment line
  · exact ofText_of_isComment comment
  · apply ofText_of_notMem isHeader
    intro member
    obtain ⟨key, written, writes⟩ := exists_writes member
    exact noKeyLine key written ⟨writes, isHeader, comment⟩

/-- The reader finds the headers. -/
theorem ofText_eq_header_iff : ofText line = header name ↔ Heads line name := by
  constructor
  · intro read
    rcases header_or_keyLine_or_ignored line with
      ⟨_, heads, same⟩ | ⟨_, _, _, same⟩ | ⟨_, _, same⟩ <;> rw [same] at read <;> cases read
    exact heads
  · exact ofText_of_heads

/-- The reader finds the values that key lines give to keys. -/
theorem ofText_eq_assignment_iff : ofText line = assignment key value ↔ Assigns line key value := by
  constructor
  · intro read
    rcases header_or_keyLine_or_ignored line with
      ⟨_, _, same⟩ | ⟨_, written, keyLine, same⟩ | ⟨_, _, same⟩ <;> rw [same] at read <;>
      cases read
    exact ⟨written, keyLine, unquoted_eq_iff.mp rfl⟩
  · rintro ⟨written, keyLine, denotes⟩
    rw [ofText_of_isKeyLine keyLine, unquoted_eq_iff.mpr denotes]

theorem ofText_of_padded (padded : Text.Padded line other) : ofText other = ofText line := by
  rw [ofText, ofText, Text.trim_of_padded padded]

/-! ## Deciding what a line is -/

instance (line name : List Char) : Decidable (Heads line name) :=
  decidable_of_iff _ heads_iff_trim.symm

instance (line : List Char) : Decidable (IsHeader line) :=
  decidable_of_iff _ isHeader_iff.symm

instance (line : List Char) : Decidable (IsComment line) :=
  decidable_of_iff _ isComment_iff.symm

instance (line key written : List Char) : Decidable (Writes line key written) :=
  decidable_of_iff
    ((Text.cutOnce? '=' line).map (fun parts => (Text.trim parts.1, Text.trim parts.2)) =
      some (key, written)) <| by
    rw [writes_iff, Option.map_eq_some_iff]
    simp only [Prod.exists, Prod.mk.injEq]

instance (line key written : List Char) : Decidable (IsKeyLine line key written) :=
  decidable_of_iff (Writes line key written ∧ ¬ IsHeader line ∧ ¬ IsComment line)
    ⟨fun ⟨writes, noHeader, noComment⟩ => ⟨writes, noHeader, noComment⟩,
      fun ⟨writes, noHeader, noComment⟩ => ⟨writes, noHeader, noComment⟩⟩

instance (written : List Char) : Decidable (IsQuoted written) :=
  decidable_of_iff ((Text.between? '"' '"' written).isSome = true) <| by
    rw [Option.isSome_iff_exists]
    exact exists_congr fun _ => Text.between?_eq_some_iff

end FileLine
end RingTape
