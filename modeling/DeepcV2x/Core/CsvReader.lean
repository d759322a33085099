import DeepcV2x.Foundation.Strings
import Mathlib.Data.List.DropRight

/-!
# The reader of delimited text

`CsvReader` reads a line and splits it into columns with a machine over the
classes of its characters.  Rows are read back as they were written, except
that a delimiter at the end of a line starts no column.
-/

namespace DeepcV2x.Core.Csv

open Foundation.Strings

/-! ## One column -/

/-- The states of `ParseColumn`, without the one in which it returns. -/
inductive State where
  | start
  | endQuote
  | findDelimiter
  | quotedString
  | unquotedString
  deriving DecidableEq, Repr

/-- The loop of `ParseColumn`: the value and the text from where the next column is looked for. -/
def parseFrom (delimiter : Char) : State → Text → Text → Text × Text
  | _, buffer, [] => (buffer, [])
  | state, buffer, c :: rest =>
      if state ≠ .quotedString ∧ c = delimiter then
        (if state = .unquotedString then buffer.rdropWhile isSpace else buffer, c :: rest)
      else if state ≠ .quotedString ∧ c = '#' then (buffer, [])
      else
        match state with
        | .start =>
            if c = '"' then parseFrom delimiter .quotedString buffer rest
            else if !isSpace c then parseFrom delimiter .unquotedString (buffer ++ [c]) rest
            else parseFrom delimiter .start buffer rest
        | .quotedString =>
            if c = '"' then parseFrom delimiter .endQuote buffer rest
            else parseFrom delimiter .quotedString (buffer ++ [c]) rest
        | .endQuote =>
            if c = '"' then parseFrom delimiter .quotedString (buffer ++ [c]) rest
            else parseFrom delimiter .findDelimiter buffer rest
        | .unquotedString => parseFrom delimiter .unquotedString (buffer ++ [c]) rest
        | .findDelimiter => parseFrom delimiter .findDelimiter buffer rest

/-- `ParseColumn`. -/
def parseColumn (delimiter : Char) (text : Text) : Text × Text :=
  parseFrom delimiter .start [] text

/-! ## A line -/

/-- The loop of `ParseLine`, for at most so many turns. -/
def parseLineIn (delimiter : Char) : Nat → List Text → Text → Option (List Text)
  | _, columns, [] => some columns
  | 0, _, _ :: _ => none
  | turns + 1, columns, c :: rest =>
      let column := parseColumn delimiter (c :: rest)
      parseLineIn delimiter turns (columns ++ [column.1]) column.2.tail

/-- The columns of `ParseLine`: each turn reads a character at least. -/
def parseLine (delimiter : Char) (line : Text) : Option (List Text) :=
  parseLineIn delimiter line.length [] line

/-! ## The stream -/

/-- What is left of the input stream, and its flags. -/
structure Stream where
  rest : Text
  eof : Bool := false
  fail : Bool := false
  deriving DecidableEq

/-- `getline`. -/
def getline (stream : Stream) : Text × Stream :=
  if stream.eof || stream.fail then ([], { stream with fail := true })
  else
    match stream.rest.dropWhile (· ≠ '\n') with
    | [] => (stream.rest, { rest := [], eof := true, fail := stream.rest.isEmpty })
    | _ :: rest => (stream.rest.takeWhile (· ≠ '\n'), { stream with rest })

/-- The members of the reader. -/
structure CsvReader where
  delimiter : Char := ','
  rowsRead : Nat := 0
  columns : List Text := []
  blankRow : Bool := false
  stream : Stream
  deriving DecidableEq

/-- `FetchNextRow`. -/
def fetchNextRow (reader : CsvReader) : Option (Bool × CsvReader) :=
  if reader.stream.eof then some (false, reader)
  else
    let line := getline reader.stream
    if line.2.fail then some (false, { reader with stream := line.2 })
    else
      (parseLine reader.delimiter line.1).map fun columns =>
        (true, { reader with
          rowsRead := reader.rowsRead + 1
          columns := columns
          blankRow := columns.length == 1 && (columns.headD []).isEmpty
          stream := line.2 })

/-! ## Termination -/

theorem parseFrom_length (delimiter : Char) (state : State) (buffer text : Text) :
    (parseFrom delimiter state buffer text).2.length ≤ text.length := by
  induction text generalizing state buffer with
  | nil => exact Nat.le_refl _
  | cons c rest ih =>
      have hrest : ∀ state buffer,
          (parseFrom delimiter state buffer rest).2.length ≤ (c :: rest).length :=
        fun state buffer => Nat.le_succ_of_le (ih state buffer)
      rw [parseFrom.eq_def]
      dsimp only
      split
      · exact Nat.le_refl _
      · split
        · exact Nat.zero_le _
        · cases state with
          | start =>
              dsimp only
              split
              · exact hrest ..
              · split <;> exact hrest ..
          | endQuote =>
              dsimp only
              split <;> exact hrest ..
          | findDelimiter => exact hrest ..
          | quotedString =>
              dsimp only
              split <;> exact hrest ..
          | unquotedString => exact hrest ..

theorem exists_parseLineIn {delimiter : Char} {turns : Nat} {columns : List Text} {line : Text}
    (hturns : line.length ≤ turns) : ∃ result, parseLineIn delimiter turns columns line = some result := by
  induction turns generalizing columns line with
  | zero =>
      rw [List.eq_nil_of_length_eq_zero (Nat.le_zero.mp hturns)]
      exact ⟨columns, rfl⟩
  | succ turns ih =>
      cases line with
      | nil => exact ⟨columns, rfl⟩
      | cons c rest =>
          have hlength := parseFrom_length delimiter .start [] (c :: rest)
          exact ih (by rw [List.length_tail, parseColumn]; exact Nat.sub_le_of_le_add (Nat.le_trans hlength hturns))

/-- More turns than needed change nothing. -/
theorem parseLineIn_mono {delimiter : Char} {turns more : Nat} (hle : turns ≤ more)
    {columns result : List Text} {line : Text}
    (hparse : parseLineIn delimiter turns columns line = some result) :
    parseLineIn delimiter more columns line = some result := by
  induction turns generalizing more columns line with
  | zero =>
      cases line with
      | nil =>
          rw [parseLineIn] at hparse ⊢
          exact hparse
      | cons c rest => exact nomatch hparse
  | succ turns ih =>
      cases line with
      | nil =>
          rw [parseLineIn] at hparse ⊢
          exact hparse
      | cons c rest =>
          cases more with
          | zero => exact absurd hle (Nat.not_succ_le_zero _)
          | succ more =>
              rw [parseLineIn] at hparse ⊢
              exact ih (Nat.le_of_succ_le_succ hle) hparse

/-- Every call returns. -/
theorem exists_fetchNextRow (reader : CsvReader) : ∃ result, fetchNextRow reader = some result := by
  unfold fetchNextRow
  split
  · exact ⟨_, rfl⟩
  · dsimp only
    split
    · exact ⟨_, rfl⟩
    · obtain ⟨columns, hcolumns⟩ := @exists_parseLineIn reader.delimiter _ []
        (getline reader.stream).1 (Nat.le_refl _)
      exact ⟨_, by rw [parseLine, hcolumns, Option.map_some]⟩

/-! ## What is written -/

/-- A field as it is written, with the white space around it. -/
structure Field where
  text : Text
  quoted : Bool
  before : Text := []
  after : Text := []
  deriving DecidableEq, Repr

/-- A text with its quotes doubled. -/
def escape (text : Text) : Text := text.flatMap fun c => if c = '"' then ['"', '"'] else [c]

def Field.written (field : Field) : Text :=
  field.before ++ (if field.quoted then '"' :: escape field.text ++ ['"'] else field.text) ++
    field.after

/-- The field may be written so in a line with a delimiter. -/
structure Field.Writable (delimiter : Char) (field : Field) : Prop where
  line : '\n' ∉ field.text
  padding : ∀ c ∈ field.before ++ field.after, (c = ' ' ∨ c = '\t') ∧ c ≠ delimiter
  plain : field.quoted = false → ∀ c ∈ field.text, c ≠ delimiter ∧ c ≠ '"' ∧ c ≠ '#'
  outer : field.quoted = false → ∀ c, field.text.head? = some c ∨ field.text.getLast? = some c →
    isSpace c = false

/-- The line of a row. -/
def writeRow (delimiter : Char) (fields : List Field) (comment : Option Text) : Text :=
  [delimiter].intercalate (fields.map Field.written) ++ comment.elim [] ('#' :: ·)

/-- What may follow a field. -/
inductive Follows (delimiter : Char) : Text → Prop where
  | delimiter (rest : Text) : Follows delimiter (delimiter :: rest)
  | comment (note : Text) : Follows delimiter ('#' :: note)
  | none : Follows delimiter []

section Column

variable {delimiter : Char} {buffer rest : Text}

theorem isSpace_of_padding {c : Char} (hc : c = ' ' ∨ c = '\t') : isSpace c = true := by
  rcases hc with rfl | rfl <;> rfl

theorem ne_of_padding {c : Char} (hc : c = ' ' ∨ c = '\t') : c ≠ '"' ∧ c ≠ '#' := by
  rcases hc with rfl | rfl <;> decide

/-- White space before a field. -/
theorem parseFrom_before {padding : Text}
    (hpadding : ∀ c ∈ padding, (c = ' ' ∨ c = '\t') ∧ c ≠ delimiter) :
    parseFrom delimiter .start buffer (padding ++ rest) = parseFrom delimiter .start buffer rest := by
  induction padding with
  | nil => rfl
  | cons c padding ih =>
      obtain ⟨hspace, hne⟩ := hpadding c List.mem_cons_self
      obtain ⟨hquote, hhash⟩ := ne_of_padding hspace
      rw [List.cons_append, parseFrom, if_neg (fun h => hne h.2), if_neg (fun h => hhash h.2)]
      rw [if_neg hquote, isSpace_of_padding hspace]
      exact ih fun c hmem => hpadding c (List.mem_cons_of_mem _ hmem)

/-- White space behind a quoted field. -/
theorem parseFrom_after {padding : Text}
    (hpadding : ∀ c ∈ padding, (c = ' ' ∨ c = '\t') ∧ c ≠ delimiter) :
    parseFrom delimiter .findDelimiter buffer (padding ++ rest) =
      parseFrom delimiter .findDelimiter buffer rest := by
  induction padding with
  | nil => rfl
  | cons c padding ih =>
      obtain ⟨hspace, hne⟩ := hpadding c List.mem_cons_self
      rw [List.cons_append, parseFrom, if_neg (fun h => hne h.2),
        if_neg (fun h => (ne_of_padding hspace).2 h.2)]
      exact ih fun c hmem => hpadding c (List.mem_cons_of_mem _ hmem)

/-- The inside of a quoted field. -/
theorem parseFrom_quoted (hquote : delimiter ≠ '"') (text : Text) :
    parseFrom delimiter .quotedString buffer (escape text ++ '"' :: rest) =
      parseFrom delimiter .endQuote (buffer ++ text) rest := by
  induction text generalizing buffer with
  | nil =>
      rw [List.append_nil, escape, List.flatMap_nil, List.nil_append, parseFrom,
        if_neg (fun h => h.1 rfl), if_neg (fun h => h.1 rfl)]
      rfl
  | cons c text ih =>
      rw [escape, List.flatMap_cons, ← escape, List.append_assoc]
      by_cases hc : c = '"'
      · rw [if_pos hc, List.cons_append, List.cons_append, List.nil_append, parseFrom,
          if_neg (fun h => h.1 rfl), if_neg (fun h => h.1 rfl)]
        rw [if_pos rfl, parseFrom, if_neg (fun h => hquote h.2.symm),
          if_neg (fun h => absurd h.2 (by decide))]
        rw [if_pos rfl, ih, hc, List.append_assoc, List.singleton_append]
      · rw [if_neg hc, List.singleton_append, parseFrom, if_neg (fun h => h.1 rfl),
          if_neg (fun h => h.1 rfl)]
        rw [if_neg hc, ih, List.append_assoc, List.singleton_append]

/-- The characters of a plain field. -/
theorem parseFrom_unquoted {text : Text} (htext : ∀ c ∈ text, c ≠ delimiter ∧ c ≠ '#') :
    parseFrom delimiter .unquotedString buffer (text ++ rest) =
      parseFrom delimiter .unquotedString (buffer ++ text) rest := by
  induction text generalizing buffer with
  | nil => rw [List.nil_append, List.append_nil]
  | cons c text ih =>
      obtain ⟨hdelimiter, hhash⟩ := htext c List.mem_cons_self
      rw [List.cons_append, parseFrom, if_neg (fun h => hdelimiter h.2), if_neg (fun h => hhash h.2)]
      rw [ih fun c hmem => htext c (List.mem_cons_of_mem _ hmem), List.append_assoc,
        List.singleton_append]

/-- Where the next column is looked for. -/
def continuation (delimiter : Char) : Text → Text
  | [] => []
  | c :: rest => if c = delimiter then c :: rest else []

/-- The end of a column outside of quotes. -/
theorem parseFrom_follows {state : State} (hstate : state ≠ .quotedString)
    (hfollows : Follows delimiter rest) :
    parseFrom delimiter state buffer rest =
      (if rest.head? = some delimiter ∧ state = .unquotedString then buffer.rdropWhile isSpace
        else buffer, continuation delimiter rest) := by
  cases hfollows with
  | delimiter rest =>
      rw [parseFrom.eq_def]
      dsimp only
      rw [if_pos ⟨hstate, rfl⟩, continuation, if_pos rfl, List.head?_cons]
      by_cases hunquoted : state = .unquotedString
      · rw [if_pos hunquoted, if_pos ⟨rfl, hunquoted⟩]
      · rw [if_neg hunquoted, if_neg fun h => hunquoted h.2]
  | comment note =>
      rw [continuation]
      by_cases hhash : '#' = delimiter
      · rw [parseFrom.eq_def]
        dsimp only
        rw [if_pos ⟨hstate, hhash⟩, if_pos hhash, List.head?_cons, hhash]
        by_cases hunquoted : state = .unquotedString
        · rw [if_pos hunquoted, if_pos ⟨rfl, hunquoted⟩]
        · rw [if_neg hunquoted, if_neg fun h => hunquoted h.2]
      · rw [parseFrom.eq_def]
        dsimp only
        rw [if_neg (fun h => hhash h.2), if_pos ⟨hstate, rfl⟩, if_neg hhash, if_neg]
        rintro ⟨hhead, -⟩
        exact hhash (Option.some.inj hhead)
  | none =>
      rw [parseFrom, if_neg]
      · rfl
      · rintro ⟨hhead, -⟩
        exact nomatch hhead

/-- Trailing white space is removed from a text that does not end with white space itself. -/
theorem rdropWhile_padding {text padding : Text} (hpadding : ∀ c ∈ padding, isSpace c = true)
    (houter : ∀ c, text.getLast? = some c → isSpace c = false) :
    (text ++ padding).rdropWhile isSpace = text := by
  induction padding using List.reverseRecOn with
  | nil =>
      rw [List.append_nil, List.rdropWhile_eq_self_iff]
      intro hne hspace
      rw [houter _ (List.getLast?_eq_getLast_of_ne_nil hne)] at hspace
      exact Bool.false_ne_true hspace
  | append_singleton padding c ih =>
      rw [← List.append_assoc, List.rdropWhile_concat,
        if_pos (hpadding c (List.mem_append_right _ (List.mem_singleton_self c)))]
      exact ih fun c hmem => hpadding c (List.mem_append_left _ hmem)

/-- A field that is read back: white space behind a plain text is removed at delimiters only. -/
theorem parseColumn_written {field : Field} (hquote : delimiter ≠ '"')
    (hwritable : field.Writable delimiter) (hfollows : Follows delimiter rest)
    (hafter : rest.head? = some delimiter ∨ field.quoted = true ∨ field.text = [] ∨
      field.after = []) :
    parseColumn delimiter (field.written ++ rest) = (field.text, continuation delimiter rest) := by
  have hbefore : ∀ c ∈ field.before, (c = ' ' ∨ c = '\t') ∧ c ≠ delimiter :=
    fun c hmem => hwritable.padding c (List.mem_append_left _ hmem)
  have hpadding : ∀ c ∈ field.after, (c = ' ' ∨ c = '\t') ∧ c ≠ delimiter :=
    fun c hmem => hwritable.padding c (List.mem_append_right _ hmem)
  rw [parseColumn, Field.written, List.append_assoc, List.append_assoc, parseFrom_before hbefore]
  cases hquoted : field.quoted with
  | true =>
      rw [if_pos rfl, List.cons_append, List.cons_append, List.append_assoc, parseFrom,
        if_neg (fun h => hquote h.2.symm), if_neg (fun h => absurd h.2 (by decide))]
      rw [if_pos rfl, List.singleton_append, parseFrom_quoted hquote, List.nil_append]
      cases hpad : field.after with
      | nil =>
          rw [List.nil_append, parseFrom_follows (by decide) hfollows, if_neg]
          exact fun h => absurd h.2 (by decide)
      | cons c padding =>
          rw [hpad] at hpadding
          obtain ⟨hspace, hne⟩ := hpadding c List.mem_cons_self
          obtain ⟨hc, hhash⟩ := ne_of_padding hspace
          rw [List.cons_append, parseFrom, if_neg (fun h => hne h.2), if_neg (fun h => hhash h.2)]
          rw [if_neg hc, parseFrom_after fun c hmem => hpadding c (List.mem_cons_of_mem _ hmem),
            parseFrom_follows (by decide) hfollows, if_neg]
          exact fun h => absurd h.2 (by decide)
  | false =>
      have hplain := hwritable.plain hquoted
      have houter := hwritable.outer hquoted
      rw [if_neg Bool.false_ne_true]
      cases htext : field.text with
      | nil =>
          rw [List.nil_append, parseFrom_before hpadding, parseFrom_follows (by decide) hfollows,
            if_neg]
          exact fun h => absurd h.2 (by decide)
      | cons c text =>
          rw [htext] at hplain houter
          obtain ⟨hne, hc, hhash⟩ := hplain c List.mem_cons_self
          have hchars : ∀ c ∈ text ++ field.after, c ≠ delimiter ∧ c ≠ '#' := fun c hmem => by
            rcases List.mem_append.mp hmem with hmem | hmem
            · exact ⟨(hplain c (List.mem_cons_of_mem _ hmem)).1,
                (hplain c (List.mem_cons_of_mem _ hmem)).2.2⟩
            · exact ⟨(hpadding c hmem).2, (ne_of_padding (hpadding c hmem).1).2⟩
          rw [List.cons_append, parseFrom, if_neg (fun h => hne h.2), if_neg (fun h => hhash h.2)]
          rw [if_neg hc, houter c (.inl rfl), ← List.append_assoc]
          rw [Bool.not_false, if_pos rfl, parseFrom_unquoted hchars,
            parseFrom_follows (by decide) hfollows, List.nil_append, List.singleton_append,
            ← List.cons_append]
          by_cases hhead : rest.head? = some delimiter
          · rw [if_pos ⟨hhead, rfl⟩, rdropWhile_padding
              (fun c hmem => isSpace_of_padding (hpadding c hmem).1) fun c hlast => houter c (.inr hlast)]
          · rw [if_neg fun h => hhead h.1]
            rcases hafter with hhead' | hquoted' | hnil | hnil
            · exact absurd hhead' hhead
            · exact absurd (hquoted.symm.trans hquoted') Bool.false_ne_true
            · exact nomatch htext.symm.trans hnil
            · rw [hnil, List.append_nil]

end Column

/-! ## A row -/

/-- The last field leaves nothing behind the delimiter before it. -/
def Missing (field : Field) (comment : Option Text) : Prop :=
  field.quoted = false ∧ field.text = [] ∧ field.before = [] ∧ field.after = [] ∧ comment = none

instance (field : Field) (comment : Option Text) : Decidable (Missing field comment) :=
  inferInstanceAs (Decidable (_ ∧ _ ∧ _ ∧ _ ∧ _))

/-- The texts of a row, without that of a missing last field. -/
def readBack (comment : Option Text) : List Field → List Text
  | [] => []
  | [last] => if Missing last comment then [] else [last.text]
  | field :: next :: rest => field.text :: readBack comment (next :: rest)

/-- The line may be written so. -/
structure Writes (delimiter : Char) (fields : List Field) (comment : Option Text) : Prop where
  fields : ∀ field ∈ fields, field.Writable delimiter
  comment : ∀ note, comment = some note → '\n' ∉ note
  delimiter : delimiter ≠ '"' ∧ delimiter ≠ '#' ∧ delimiter ≠ '\n'

section Row

variable {delimiter : Char} {comment : Option Text} {fields : List Field} {field next : Field}

theorem writeRow_singleton :
    writeRow delimiter [field] comment = field.written ++ comment.elim [] ('#' :: ·) := by
  rw [writeRow, List.map_singleton, List.intercalate_singleton]

theorem writeRow_cons : writeRow delimiter (field :: next :: fields) comment =
    field.written ++ delimiter :: writeRow delimiter (next :: fields) comment := by
  rw [writeRow, List.map_cons, List.map_cons, List.intercalate_cons_cons, writeRow, List.map_cons,
    List.append_assoc, List.append_assoc, List.singleton_append]

theorem written_eq_nil :
    field.written ++ comment.elim [] ('#' :: ·) = [] ↔ Missing field comment := by
  rw [Missing, Field.written]
  cases comment with
  | none => cases field.quoted <;> simp [and_left_comm]
  | some note => simp

theorem follows_comment (delimiter : Char) (comment : Option Text) :
    Follows delimiter (comment.elim [] ('#' :: ·)) := by
  cases comment with
  | none => exact .none
  | some note => exact .comment note

theorem parseLineIn_of_ne_nil {turns : Nat} {columns : List Text} {line : Text} (hline : line ≠ []) :
    parseLineIn delimiter (turns + 1) columns line =
      parseLineIn delimiter turns (columns ++ [(parseColumn delimiter line).1])
        (parseColumn delimiter line).2.tail := by
  cases line with
  | nil => exact absurd rfl hline
  | cons c rest => rfl

/-- The loop over the columns of a row. -/
theorem parseLineIn_writeRow (writes : Writes delimiter (field :: fields) comment)
    (hlast : ∀ last, (field :: fields).getLast? = some last →
      last.quoted = true ∨ last.text = [] ∨ last.after = [])
    {turns : Nat} {columns : List Text}
    (hturns : (writeRow delimiter (field :: fields) comment).length ≤ turns) :
    parseLineIn delimiter turns columns (writeRow delimiter (field :: fields) comment) =
      some (columns ++ readBack comment (field :: fields)) := by
  induction fields generalizing field turns columns with
  | nil =>
      rw [writeRow_singleton] at hturns ⊢
      rw [readBack]
      by_cases hmissing : Missing field comment
      · rw [if_pos hmissing, written_eq_nil.mpr hmissing, List.append_nil, parseLineIn]
      · have hline := mt written_eq_nil.mp hmissing
        cases turns with
        | zero => exact absurd (List.eq_nil_of_length_eq_zero (Nat.le_zero.mp hturns)) hline
        | succ turns =>
            rw [if_neg hmissing, parseLineIn_of_ne_nil hline,
              parseColumn_written writes.delimiter.1 (writes.fields field List.mem_cons_self)
                (follows_comment delimiter comment) (.inr (hlast field rfl))]
            cases comment with
            | none => exact parseLineIn.eq_1 ..
            | some note =>
                rw [Option.elim_some, continuation, if_neg writes.delimiter.2.1.symm]
                exact parseLineIn.eq_1 ..
  | cons next fields ih =>
      rw [writeRow_cons] at hturns ⊢
      cases turns with
      | zero =>
          rw [List.length_append, List.length_cons] at hturns
          omega
      | succ turns =>
          rw [parseLineIn_of_ne_nil (List.append_ne_nil_of_right_ne_nil _ (List.cons_ne_nil _ _)),
            parseColumn_written writes.delimiter.1 (writes.fields field List.mem_cons_self)
              (.delimiter _) (.inl rfl), continuation, if_pos rfl, List.tail_cons, ih]
          · rw [readBack, List.append_assoc, List.singleton_append]
          · exact ⟨fun field hmem => writes.fields field (List.mem_cons_of_mem _ hmem),
              writes.comment, writes.delimiter⟩
          · exact fun last hsome => hlast last (by rwa [List.getLast?_cons_cons])
          · rw [List.length_append, List.length_cons] at hturns
            omega

theorem notMem_written (writable : field.Writable delimiter) : '\n' ∉ field.written := by
  have hpadding : ∀ c ∈ field.before ++ field.after, c ≠ '\n' := fun c hmem => by
    rcases (writable.padding c hmem).1 with rfl | rfl <;> decide
  have hescape : '\n' ∉ escape field.text := fun hmem => by
    obtain ⟨c, hc, hin⟩ := List.mem_flatMap.mp hmem
    by_cases hquote : c = '"'
    · rw [if_pos hquote] at hin
      exact absurd hin (by decide)
    · rw [if_neg hquote, List.mem_singleton] at hin
      exact writable.line (hin ▸ hc)
  intro hmem
  rw [Field.written, List.mem_append, List.mem_append] at hmem
  rcases hmem with (hmem | hmem) | hmem
  · exact hpadding _ (List.mem_append_left _ hmem) rfl
  · cases hquoted : field.quoted with
    | true =>
        rw [hquoted, if_pos rfl, List.cons_append, List.mem_cons, List.mem_append] at hmem
        rcases hmem with hmem | hmem | hmem
        · exact absurd hmem (by decide)
        · exact hescape hmem
        · exact absurd hmem (by decide)
    | false =>
        rw [hquoted, if_neg Bool.false_ne_true] at hmem
        exact writable.line hmem
  · exact hpadding _ (List.mem_append_right _ hmem) rfl

/-- A row is one line. -/
theorem notMem_writeRow (writes : Writes delimiter (field :: fields) comment) :
    '\n' ∉ writeRow delimiter (field :: fields) comment := by
  induction fields generalizing field with
  | nil =>
      rw [writeRow_singleton, List.mem_append]
      rintro (hmem | hmem)
      · exact notMem_written (writes.fields field List.mem_cons_self) hmem
      · cases hcomment : comment with
        | none =>
            rw [hcomment] at hmem
            exact List.not_mem_nil hmem
        | some note =>
            rw [hcomment, Option.elim_some, List.mem_cons] at hmem
            exact writes.comment note hcomment (hmem.resolve_left (by decide))
  | cons next fields ih =>
      rw [writeRow_cons, List.mem_append, List.mem_cons]
      rintro (hmem | hmem | hmem)
      · exact notMem_written (writes.fields field List.mem_cons_self) hmem
      · exact writes.delimiter.2.2 hmem.symm
      · exact ih ⟨fun field hmem => writes.fields field (List.mem_cons_of_mem _ hmem),
          writes.comment, writes.delimiter⟩ hmem

theorem getline_line {line tail : Text} (hline : '\n' ∉ line)
    (htail : (∃ more, tail = '\n' :: more) ∨ tail = [] ∧ line ≠ []) :
    getline { rest := line ++ tail } =
      (line, { rest := tail.tail, eof := tail.isEmpty, fail := false }) := by
  have hne : ∀ c ∈ line, decide (c ≠ '\n') = true := fun c hmem =>
    decide_eq_true fun heq => hline (heq ▸ hmem)
  unfold getline
  refine (if_neg Bool.false_ne_true).trans ?_
  rcases htail with ⟨more, rfl⟩ | ⟨rfl, hnonempty⟩
  · dsimp only
    rw [List.dropWhile_append_of_pos hne, List.takeWhile_append_of_pos hne,
      List.dropWhile_cons_of_neg (by decide), List.takeWhile_cons_of_neg (by decide), List.append_nil]
    rfl
  · dsimp only
    rw [List.append_nil, List.dropWhile_eq_nil_iff.mpr hne]
    cases line with
    | nil => exact absurd rfl hnonempty
    | cons c rest => rfl

/-- A row is read back, without the field behind a delimiter at the end of its line. -/
theorem fetchNextRow_writeRow {reader : CsvReader} {tail : Text} (hfields : fields ≠ [])
    (writes : Writes reader.delimiter fields comment)
    (hlast : ∀ last, fields.getLast? = some last →
      last.quoted = true ∨ last.text = [] ∨ last.after = [])
    (hstream : reader.stream = { rest := writeRow reader.delimiter fields comment ++ tail })
    (htail : (∃ more, tail = '\n' :: more) ∨
      tail = [] ∧ writeRow reader.delimiter fields comment ≠ []) :
    ∃ next, fetchNextRow reader = some (true, next) ∧ next.columns = readBack comment fields ∧
      next.delimiter = reader.delimiter ∧
      next.stream = { rest := tail.tail, eof := tail.isEmpty } := by
  cases fields with
  | nil => exact absurd rfl hfields
  | cons field fields =>
      unfold fetchNextRow
      rw [hstream, if_neg Bool.false_ne_true, getline_line (notMem_writeRow writes) htail]
      dsimp only
      rw [if_neg Bool.false_ne_true, parseLine, parseLineIn_writeRow writes hlast (Nat.le_refl _),
        Option.map_some]
      exact ⟨_, rfl, List.nil_append _, rfl, rfl⟩

end Row

/-- A quoted field with a quote in it, a plain one between white space, and one without a text. -/
def sampleRow : List Field :=
  [{ text := ['a', '"', ',', ' '], quoted := true },
    { text := ['b', ' ', 'c'], quoted := false, before := [' '], after := ['\t'] },
    { text := [], quoted := false }]

theorem fetchNextRow_sampleRow : ∃ next,
    fetchNextRow { stream := { rest := writeRow ',' sampleRow (some ['!']) ++ ['\n'] } } =
      some (true, next) ∧ next.columns = readBack (some ['!']) sampleRow ∧ next.delimiter = ',' ∧
      next.stream = { rest := [] } := by
  refine fetchNextRow_writeRow (by decide) ⟨fun field hmem => ?_, fun note hnote => ?_, by decide⟩
    (fun last hlast => ?_) rfl (.inl ⟨[], rfl⟩)
  · have hall : ∀ field ∈ sampleRow, '\n' ∉ field.text ∧
        (∀ c ∈ field.before ++ field.after, (c = ' ' ∨ c = '\t') ∧ c ≠ ',') ∧
        (field.quoted = false → ∀ c ∈ field.text, c ≠ ',' ∧ c ≠ '"' ∧ c ≠ '#') ∧
        (field.quoted = false → (∀ c ∈ field.text.head?, isSpace c = false) ∧
          ∀ c ∈ field.text.getLast?, isSpace c = false) := by
      simp [sampleRow, isSpace]
    obtain ⟨hline, hpadding, hplain, houter⟩ := hall field hmem
    exact ⟨hline, hpadding, hplain, fun hquoted c hc =>
      hc.elim ((houter hquoted).1 c) ((houter hquoted).2 c)⟩
  · obtain rfl := Option.some.inj hnote
    decide
  · obtain rfl := Option.some.inj hlast
    exact .inr (.inl rfl)

/-- The row of one letter and an empty text. -/
def trailingRow : List Field := [{ text := ['a'], quoted := false }, { text := [], quoted := false }]

/-- A delimiter at the end of a line is ignored. -/
theorem not_read_trailingRow : Writes ',' trailingRow none ∧ ∃ next,
    fetchNextRow { stream := { rest := writeRow ',' trailingRow none ++ ['\n'] } } =
      some (true, next) ∧ next.columns.length ≠ trailingRow.length := by
  refine ⟨⟨fun field hmem => ?_, fun note hnote => (nomatch hnote), by decide⟩, _, rfl, by decide⟩
  rcases List.mem_cons.mp hmem with rfl | hmem
  · exact ⟨by decide, by simp, by simp, fun _ c hc => by rcases hc with hc | hc <;> (cases hc; rfl)⟩
  · obtain rfl := List.mem_singleton.mp hmem
    exact ⟨by decide, by simp, by simp, fun _ c hc => by rcases hc with hc | hc <;> cases hc⟩

end DeepcV2x.Core.Csv
