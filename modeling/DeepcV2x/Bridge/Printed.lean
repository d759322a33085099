import DeepcV2x.Bridge.Response
import DeepcV2x.Foundation.Json

/-!
# Reading a printed object

The field extractors search for a quoted key in the raw text.  On an object that
`json.dump` printed they land on the field of that name, provided no earlier
name or string spells the key.
-/

namespace DeepcV2x.Bridge

open DeepcV2x.Foundation.Strings DeepcV2x.Foundation.Decimal DeepcV2x.Foundation.Json

/-! ## Searching for a quoted key -/

/-- A stretch without quotes is skipped. -/
theorem afterFirst_skip {key text : Text} (rest : Text) (hplain : '"' ∉ text) :
    afterFirst (quoted key) (text ++ rest) = afterFirst (quoted key) rest := by
  induction text with
  | nil => rfl
  | cons head tail ih =>
      have hhead : '"' ≠ head := fun same => hplain (same ▸ List.mem_cons_self)
      have hnot : ¬ quoted key <+: head :: (tail ++ rest) := fun hprefixed =>
        hhead (List.cons_prefix_cons.mp hprefixed).1
      rw [List.cons_append, afterFirst_cons_of_not_prefixed hnot]
      exact ih fun hmem => hplain (List.mem_cons_of_mem _ hmem)

/-- Two texts without quotes that end at the same quote are the same. -/
theorem eq_of_quote_prefixed {left right rest : Text} (hleft : '"' ∉ left) (hright : '"' ∉ right)
    (hprefixed : left ++ ['"'] <+: right ++ ['"'] ++ rest) : right = left := by
  induction left generalizing right with
  | nil =>
      cases right with
      | nil => rfl
      | cons head tail =>
          have hsame := (List.cons_prefix_cons.mp hprefixed).1
          exact absurd (hsame ▸ List.mem_cons_self) hright
  | cons first left ih =>
      cases right with
      | nil =>
          have hsame := (List.cons_prefix_cons.mp hprefixed).1
          exact absurd (hsame ▸ List.mem_cons_self) hleft
      | cons head tail =>
          obtain ⟨hsame, hrest⟩ := List.cons_prefix_cons.mp hprefixed
          rw [hsame, ih (fun hmem => hleft (List.mem_cons_of_mem _ hmem))
            (fun hmem => hright (List.mem_cons_of_mem _ hmem)) hrest]

/-- A quoted string other than the key is skipped, unless the key starts right behind it. -/
theorem afterFirst_skip_quoted {key other rest : Text} (hkey : '"' ∉ key) (hother : '"' ∉ other)
    (hne : other ≠ key) (hrest : ¬ key ++ ['"'] <+: rest) :
    afterFirst (quoted key) (quoted other ++ rest) = afterFirst (quoted key) rest := by
  have hopen : ¬ quoted key <+: '"' :: (other ++ ['"'] ++ rest) := fun hprefixed =>
    hne (eq_of_quote_prefixed hkey hother (List.cons_prefix_cons.mp hprefixed).2)
  have hclose : ¬ quoted key <+: '"' :: rest := fun hprefixed =>
    hrest (List.cons_prefix_cons.mp hprefixed).2
  rw [show quoted other ++ rest = '"' :: (other ++ ['"'] ++ rest) from rfl,
    afterFirst_cons_of_not_prefixed hopen, List.append_assoc, afterFirst_skip _ hother]
  exact afterFirst_cons_of_not_prefixed hclose

/-- The search for a colon skips a stretch without one. -/
theorem afterFirst_colon {text : Text} (hplain : ':' ∉ text) (rest : Text) :
    afterFirst [':'] (text ++ ':' :: rest) = some rest := by
  induction text with
  | nil => exact afterFirst_of_prefixed [':'] rest
  | cons head tail ih =>
      have hhead : ':' ≠ head := fun same => hplain (same ▸ List.mem_cons_self)
      have hnot : ¬ [':'] <+: head :: (tail ++ ':' :: rest) := fun hprefixed =>
        hhead (List.cons_prefix_cons.mp hprefixed).1
      rw [List.cons_append, afterFirst_cons_of_not_prefixed hnot]
      exact ih fun hmem => hplain (List.mem_cons_of_mem _ hmem)

/-! ## Fields -/

/-- A name that is printed as it is and cannot start behind another string. -/
def PlainName (name : Text) : Prop :=
  '"' ∉ name ∧ escapeText name = name ∧ name.head? ≠ some ':' ∧ name.head? ≠ some ',' ∧ name ≠ []

instance (name : Text) : Decidable (PlainName name) := inferInstanceAs (Decidable (_ ∧ _))

/-- A printed value the search for a key passes over. -/
def Passed (printFloat : ℚ → Text) (key : Text) (value : Value) : Prop :=
  ∀ rest, afterFirst (quoted key) (print printFloat 1 value ++ ',' :: rest) =
    afterFirst (quoted key) (',' :: rest)

variable {printFloat : ℚ → Text}

theorem not_prefix_of_head {key rest : Text} {head : Char} (hkey : key.head? ≠ some head)
    (hnonempty : key ≠ []) : ¬ key ++ ['"'] <+: head :: rest := by
  cases key with
  | nil => exact absurd rfl hnonempty
  | cons first tail =>
      intro hprefixed
      have hsame := (List.cons_prefix_cons.mp hprefixed).1
      rw [hsame] at hkey
      exact hkey rfl

theorem passed_of_plain {key : Text} {value : Value} (hplain : '"' ∉ print printFloat 1 value) :
    Passed printFloat key value :=
  fun rest => afterFirst_skip (',' :: rest) hplain

theorem passed_escaped {key text : Text} (hkey : PlainName key) (htext : '"' ∉ escapeText text)
    (hne : escapeText text ≠ key) : Passed printFloat key (.string text) := by
  intro rest
  obtain ⟨hquote, -, -, hcomma, hnonempty⟩ := hkey
  rw [print, printString]
  exact afterFirst_skip_quoted hquote htext hne (not_prefix_of_head hcomma hnonempty)

theorem passed_string {key text : Text} (hkey : PlainName key) (htext : PlainName text)
    (hne : text ≠ key) : Passed printFloat key (.string text) := by
  have hescaped := htext.2.1
  exact passed_escaped hkey (hescaped.symm ▸ htext.1) (hescaped.symm ▸ hne)

/-- The search passes over a whole field with another name and a passed value. -/
theorem afterFirst_passed_field {key name : Text} {value : Value} (hkey : PlainName key)
    (hname : PlainName name) (hne : name ≠ key) (hvalue : Passed printFloat key value)
    (rest : Text) :
    afterFirst (quoted key) (newline 1 ++ printString name ++ [':', ' '] ++
      print printFloat 1 value ++ ',' :: rest) = afterFirst (quoted key) (',' :: rest) := by
  obtain ⟨hquote, -, hcolon, -, hnonempty⟩ := hkey
  have hbehind : ¬ key ++ ['"'] <+: [':', ' '] ++ (print printFloat 1 value ++ ',' :: rest) :=
    not_prefix_of_head hcolon hnonempty
  calc afterFirst (quoted key) (newline 1 ++ printString name ++ [':', ' '] ++
        print printFloat 1 value ++ ',' :: rest)
      = afterFirst (quoted key) (newline 1 ++ (quoted name ++
          ([':', ' '] ++ (print printFloat 1 value ++ ',' :: rest)))) := by
        simp only [printString, hname.2.1, quoted, List.append_assoc]
    _ = afterFirst (quoted key) ([':', ' '] ++ (print printFloat 1 value ++ ',' :: rest)) := by
        rw [afterFirst_skip _ (by decide), afterFirst_skip_quoted hquote hname.1 hne hbehind]
    _ = afterFirst (quoted key) (',' :: rest) := by
        rw [afterFirst_skip _ (by decide), hvalue rest]

/-- The front of an object: plain, distinct names and values that all searches pass over. -/
structure FrontFields (printFloat : ℚ → Text) (front : List (Text × Value)) : Prop where
  names : ∀ name ∈ front.map Prod.fst, PlainName name
  distinct : (front.map Prod.fst).Nodup
  values : ∀ name ∈ front.map Prod.fst, ∀ value ∈ front.map Prod.snd, Passed printFloat name value

/-- Fields whose names and values the search for a key passes over. -/
def PassedFields (printFloat : ℚ → Text) (key : Text) (fields : List (Text × Value)) : Prop :=
  ∀ field ∈ fields, PlainName field.1 ∧ field.1 ≠ key ∧ Passed printFloat key field.2

/-- The search passes over whole fields. -/
theorem afterFirst_passed_fields {key : Text} {next : Text × Value} {later : List (Text × Value)}
    (hkey : PlainName key) {earlier : List (Text × Value)}
    (hearlier : PassedFields printFloat key earlier) (rest : Text) :
    afterFirst (quoted key) (printFields printFloat 1 (earlier ++ next :: later) ++ rest) =
      afterFirst (quoted key) (printFields printFloat 1 (next :: later) ++ rest) := by
  induction earlier with
  | nil => rfl
  | cons field fields ih =>
      obtain ⟨name, head⟩ := field
      obtain ⟨hname, hne, hpassed⟩ := hearlier _ List.mem_cons_self
      have hrest := ih fun other hmem => hearlier other (List.mem_cons_of_mem _ hmem)
      obtain ⟨tail, htail⟩ : ∃ tail, printFields printFloat 1 (fields ++ next :: later) ++
          rest = ',' :: tail := by
        cases fields with
        | nil => exact ⟨_, rfl⟩
        | cons first others => exact ⟨_, rfl⟩
      rw [htail] at hrest
      calc afterFirst (quoted key)
            (printFields printFloat 1 ((name, head) :: fields ++ next :: later) ++ rest)
          = afterFirst (quoted key) ([','] ++ (newline 1 ++ printString name ++ [':', ' '] ++
              print printFloat 1 head ++ ',' :: tail)) := by
            rw [← htail]
            simp only [List.cons_append, printFields, List.append_assoc, List.nil_append]
        _ = afterFirst (quoted key) (',' :: tail) := by
            rw [afterFirst_skip _ (by decide), afterFirst_passed_field hkey hname hne hpassed]
        _ = _ := hrest

/-- The search stops at the name of the key. -/
theorem afterFirst_name {key : Text} (hkey : PlainName key) (value : Value)
    (later : List (Text × Value)) (rest : Text) :
    afterFirst (quoted key) (printFields printFloat 1 ((key, value) :: later) ++ rest) =
      some ([':', ' '] ++ print printFloat 1 value ++ printFields printFloat 1 later ++ rest) := by
  calc afterFirst (quoted key) (printFields printFloat 1 ((key, value) :: later) ++ rest)
      = afterFirst (quoted key) ((',' :: newline 1) ++ (quoted key ++
          ([':', ' '] ++ print printFloat 1 value ++ printFields printFloat 1 later ++ rest))) := by
        simp only [printFields, printString, hkey.2.1, quoted, List.append_assoc,
          List.cons_append]
    _ = _ := by rw [afterFirst_skip _ (by decide), afterFirst_of_prefixed]

/-- The search stops at a string that spells the key. -/
theorem afterFirst_spelled {key name text : Text} (hkey : PlainName key) (hname : PlainName name)
    (hne : name ≠ key) (hspelled : escapeText text = key) (later : List (Text × Value))
    (rest : Text) :
    afterFirst (quoted key) (printFields printFloat 1 ((name, .string text) :: later) ++ rest) =
      some (printFields printFloat 1 later ++ rest) := by
  obtain ⟨hquote, -, hcolon, -, hnonempty⟩ := hkey
  have hbehind : ¬ key ++ ['"'] <+:
      [':', ' '] ++ (quoted key ++ (printFields printFloat 1 later ++ rest)) :=
    not_prefix_of_head hcolon hnonempty
  calc afterFirst (quoted key)
        (printFields printFloat 1 ((name, .string text) :: later) ++ rest)
      = afterFirst (quoted key) ((',' :: newline 1) ++ (quoted name ++
          ([':', ' '] ++ (quoted key ++ (printFields printFloat 1 later ++ rest))))) := by
        simp only [printFields, print, printString, hname.2.1, hspelled, quoted,
          List.append_assoc, List.cons_append]
    _ = _ := by
        rw [afterFirst_skip _ (by decide), afterFirst_skip_quoted hquote hname.1 hne hbehind,
          afterFirst_skip _ (by decide), afterFirst_of_prefixed]

/-- A printed object is its fields behind an opening brace. -/
theorem afterFirst_object {key : Text} {fields : List (Text × Value)} (hfields : fields ≠ []) :
    afterFirst (quoted key) (print printFloat 0 (.object fields)) =
      afterFirst (quoted key) (printFields printFloat 1 fields ++ (newline 0 ++ ['\x7d'])) := by
  cases fields with
  | nil => exact absurd rfl hfields
  | cons first rest =>
      obtain ⟨name, head⟩ := first
      simp only [print, printFields, Nat.zero_add, List.cons_append, List.append_assoc]
      exact (@afterFirst_skip key ['\x7b'] _ (by decide)).trans
        (@afterFirst_skip key [','] _ (by decide)).symm

/-- A value in a printed object is followed by a comma or a line break. -/
def Separator (sep : Text) : Prop := ∃ tail, sep = ',' :: tail ∨ sep = '\n' :: tail

theorem separator_printFields (later : List (Text × Value)) :
    Separator (printFields printFloat 1 later ++ (newline 0 ++ ['\x7d'])) := by
  cases later with
  | nil => exact ⟨_, Or.inr rfl⟩
  | cons next rest => exact ⟨_, Or.inl rfl⟩

/-- What the colon of a field is followed by, when the search passes over the fields before. -/
theorem afterColon_field {key : Text} {value : Value} {earlier later : List (Text × Value)}
    (hkey : PlainName key) (hearlier : PassedFields printFloat key earlier) :
    ∃ sep, Separator sep ∧
      afterColon (print printFloat 0 (.object (earlier ++ (key, value) :: later))) key =
        some (' ' :: (print printFloat 1 value ++ sep)) := by
  refine ⟨_, @separator_printFields printFloat later, ?_⟩
  have hnonempty : earlier ++ (key, value) :: later ≠ [] :=
    List.append_ne_nil_of_right_ne_nil _ (List.cons_ne_nil _ _)
  rw [afterColon, afterFirst_object hnonempty, afterFirst_passed_fields hkey hearlier,
    afterFirst_name hkey]
  simp only [List.append_assoc]
  exact afterFirst_of_prefixed [':'] _

/-- A string that spells the key hands the search the value of the field behind it. -/
theorem afterColon_spelled {key name next text : Text} {value : Value}
    {earlier later : List (Text × Value)} (hkey : PlainName key)
    (hearlier : PassedFields printFloat key earlier) (hname : PlainName name) (hne : name ≠ key)
    (hspelled : escapeText text = key) (hnext : ':' ∉ printString next) :
    ∃ sep, Separator sep ∧
      afterColon (print printFloat 0
          (.object (earlier ++ (name, .string text) :: (next, value) :: later))) key =
        some (' ' :: (print printFloat 1 value ++ sep)) := by
  refine ⟨_, @separator_printFields printFloat later, ?_⟩
  have hnonempty : earlier ++ (name, .string text) :: (next, value) :: later ≠ [] :=
    List.append_ne_nil_of_right_ne_nil _ (List.cons_ne_nil _ _)
  rw [afterColon, afterFirst_object hnonempty, afterFirst_passed_fields hkey hearlier,
    afterFirst_spelled hkey hname hne hspelled]
  have hskip : ':' ∉ ',' :: (newline 1 ++ printString next) := by
    simp only [List.mem_cons, List.mem_append, not_or]
    exact ⟨by decide, by decide, hnext⟩
  simp only [printFields, List.append_assoc, List.cons_append]
  rw [← List.append_assoc, ← List.cons_append, afterFirst_colon hskip]
  rfl

/-- What the colon of a front field is followed by. -/
theorem afterColon_print {front back : List (Text × Value)} (fields : FrontFields printFloat front)
    {key : Text} {value : Value} (hmem : (key, value) ∈ front) :
    ∃ sep, Separator sep ∧
      afterColon (print printFloat 0 (.object (front ++ back))) key =
        some (' ' :: (print printFloat 1 value ++ sep)) := by
  obtain ⟨earlier, later, rfl⟩ := List.append_of_mem hmem
  have hin : ∀ field ∈ earlier, field ∈ earlier ++ (key, value) :: later := fun field hfield =>
    List.mem_append_left _ hfield
  have hkey : PlainName key := fields.names key (List.mem_map_of_mem hmem)
  have hearlier : PassedFields printFloat key earlier := by
    intro field hfield
    refine ⟨fields.names _ (List.mem_map_of_mem (hin field hfield)), ?_,
      fields.values _ (List.mem_map_of_mem hmem) _ (List.mem_map_of_mem (hin field hfield))⟩
    intro same
    have hdistinct := fields.distinct
    rw [List.map_append, List.map_cons, ← same] at hdistinct
    exact (List.nodup_append.mp hdistinct).2.2 _ (List.mem_map_of_mem hfield) _
      List.mem_cons_self rfl
  rw [List.append_assoc, List.cons_append]
  exact afterColon_field hkey hearlier

/-! ## Extracted values -/

/-- A float survives the way through the text: it is printed with number characters that `stod`
reads back. -/
structure Transported (printFloat : ℚ → Text) (number : ℚ) : Prop where
  nonempty : printFloat number ≠ []
  chars : ∀ c ∈ printFloat number, isNumberChar c = true
  reads : stod (printFloat number) = .ok number

theorem Transported.quote_notMem {number : ℚ} (transported : Transported printFloat number) :
    '"' ∉ printFloat number := fun hmem => by
  have := transported.chars _ hmem
  revert this
  decide

theorem isSpace_eq_false_of_isNumberChar {c : Char} (hnumber : isNumberChar c = true) :
    isSpace c = false := by
  cases hspace : isSpace c with
  | false => rfl
  | true =>
      simp only [isSpace, Bool.or_eq_true, decide_eq_true_eq] at hspace
      rcases hspace with ((((rfl | rfl) | rfl) | rfl) | rfl) | rfl <;> revert hnumber <;> decide

/-- The characters of a number are collected up to the separator. -/
theorem numberRun_of_colon {content key number sep : Text} (hsep : Separator sep)
    (hnonempty : number ≠ []) (hchars : ∀ c ∈ number, isNumberChar c = true)
    (hcolon : afterColon content key = some (' ' :: (number ++ sep))) :
    numberRun content key = some number := by
  have hstop : sep.takeWhile isNumberChar = [] := by
    obtain ⟨tail, rfl | rfl⟩ := hsep <;> rfl
  have hrun : (skipSpaces (' ' :: (number ++ sep))).takeWhile isNumberChar = number := by
    cases htext : number with
    | nil => exact absurd htext hnonempty
    | cons first rest =>
        have hfirst := hchars first (htext ▸ List.mem_cons_self)
        rw [skipSpaces, List.dropWhile_cons_of_pos (by decide), List.cons_append,
          List.dropWhile_cons_of_neg (by rw [isSpace_eq_false_of_isNumberChar hfirst]; decide),
          ← List.cons_append, ← htext, List.takeWhile_append_of_pos hchars, hstop,
          List.append_nil]
  simp only [numberRun, hcolon, hrun, if_neg hnonempty]

theorem numberRun_null {content key sep : Text}
    (hcolon : afterColon content key = some (' ' :: ("null".toList ++ sep))) :
    numberRun content key = none := by
  have hrun : (skipSpaces (' ' :: ("null".toList ++ sep))).takeWhile isNumberChar = [] := rfl
  simp only [numberRun, hcolon, hrun, if_true]

theorem extractJsonBool_of_colon {content key sep : Text} {flag : Bool}
    (hcolon : afterColon content key = some (' ' :: (print printFloat 1 (.bool flag) ++ sep))) :
    extractJsonBool content key = some flag := by
  cases flag with
  | true =>
      simp only [extractJsonBool, hcolon, print]
      rfl
  | false =>
      simp only [extractJsonBool, hcolon, print]
      rfl

/-- A string is read up to its closing quote. -/
theorem extractJsonString_of_colon {content key text sep : Text} (hplain : '"' ∉ escapeText text)
    (hcolon : afterColon content key = some (' ' :: (printString text ++ sep))) :
    extractJsonString content key = some (escapeText text) := by
  have hopen : afterFirst ['"'] (' ' :: (printString text ++ sep)) =
      some (escapeText text ++ '"' :: sep) := by
    have hnot : ¬ ['"'] <+: ' ' :: (printString text ++ sep) := fun hprefixed =>
      absurd (List.cons_prefix_cons.mp hprefixed).1 (by decide)
    rw [afterFirst_cons_of_not_prefixed hnot]
    have hsplit : printString text ++ sep = ['"'] ++ (escapeText text ++ '"' :: sep) := by
      simp only [printString, List.cons_append, List.append_assoc, List.nil_append]
    rw [hsplit]
    exact afterFirst_of_prefixed ['"'] _
  have hmem : '"' ∈ escapeText text ++ '"' :: sep :=
    List.mem_append_right _ List.mem_cons_self
  have htake : (escapeText text ++ '"' :: sep).takeWhile (· ≠ '"') = escapeText text := by
    have hall : ∀ c ∈ escapeText text, decide (c ≠ '"') = true := by
      intro c hc
      exact decide_eq_true fun same => hplain (same ▸ hc)
    rw [List.takeWhile_append_of_pos hall, List.takeWhile_cons_of_neg (by decide), List.append_nil]
  simp only [extractJsonString, hcolon, hopen, if_pos hmem, htake]

variable {front back : List (Text × Value)}

theorem extractJsonNumber_float (fields : FrontFields printFloat front) {key : Text} {number : ℚ}
    (hmem : (key, .float number) ∈ front) (transported : Transported printFloat number) :
    extractJsonNumber stod (print printFloat 0 (.object (front ++ back))) key =
      .ok (some number) := by
  obtain ⟨sep, hsep, hcolon⟩ := @afterColon_print _ front back fields key _ hmem
  have hrun := numberRun_of_colon hsep transported.nonempty transported.chars hcolon
  simp only [extractJsonNumber, hrun, transported.reads]

theorem extractJsonNumber_null (fields : FrontFields printFloat front) {key : Text}
    (hmem : (key, .null) ∈ front) :
    extractJsonNumber stod (print printFloat 0 (.object (front ++ back))) key = .ok none := by
  obtain ⟨sep, -, hcolon⟩ := @afterColon_print _ front back fields key _ hmem
  simp only [extractJsonNumber, numberRun_null hcolon]

theorem extractJsonBool_bool (fields : FrontFields printFloat front) {key : Text} {flag : Bool}
    (hmem : (key, .bool flag) ∈ front) :
    extractJsonBool (print printFloat 0 (.object (front ++ back))) key = some flag := by
  obtain ⟨sep, -, hcolon⟩ := @afterColon_print _ front back fields key _ hmem
  exact extractJsonBool_of_colon hcolon

end DeepcV2x.Bridge
