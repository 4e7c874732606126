import ResourceScript.Format.Csv
import ResourceScript.Proofs.Text.Pieces
/-!
# Rows are read back from comma-separated values

The reader stands behind a written field with the characters of the field at hand, whatever they are
(`readFrom_writeField`): a field with a comma, a quote or a line end stands between quotes. A comma
and a row end complete the field. So rows with at least one field are read back from their text, but
for the limit on the length of fields (`read_write`): a row is written as an empty line only if it
has no field, since a lone empty field is written between quotes.
-/

set_option autoImplicit false

namespace ResourceScript.Csv

open Text

/-! ### Steps of the reader -/

variable {p : Partial} {c : Char} {fields : List (List Char)} {field rest : List Char}

/-- A character that is no line feed is read by one step. -/
theorem readFrom_cons {next : Partial} (hc : c ≠ '\n') (hstep : p.step c = .ok next) :
    readFrom p (c :: rest) = readFrom next rest := by
  rw [readFrom, hstep]
  show (if c = '\n' then _ else readFrom next rest) = _
  rw [if_neg hc]

/-- A character that does not force quotes is added to a field without quotes. -/
theorem readFrom_inField (hc : needsQuotes c = false) :
    readFrom ⟨.inField, fields, field⟩ (c :: rest) =
      readFrom ⟨.inField, fields, c :: field⟩ rest := by
  simp only [needsQuotes, Bool.or_eq_false_iff, beq_eq_false_iff_ne] at hc
  obtain ⟨⟨⟨hcomma, -⟩, hreturn⟩, hfeed⟩ := hc
  refine readFrom_cons hfeed ?_
  simp [Partial.step, Partial.isRowEnd, Partial.add, hcomma, hreturn, hfeed]

theorem readFrom_inField_append {text : List Char} (htext : ∀ c ∈ text, needsQuotes c = false) :
    readFrom ⟨.inField, fields, field⟩ (text ++ rest) =
      readFrom ⟨.inField, fields, text.reverse ++ field⟩ rest := by
  induction text generalizing field with
  | nil => rfl
  | cons c more ih =>
    rw [List.cons_append, readFrom_inField (htext c List.mem_cons_self),
      ih fun d hd ↦ htext d (List.mem_cons_of_mem c hd), List.reverse_cons, List.append_assoc,
      List.singleton_append]

/-- A character between quotes is added to the field, a line feed too. -/
theorem readFrom_inQuotes (hc : c ≠ '"') :
    readFrom ⟨.inQuotes, fields, field⟩ (c :: rest) =
      readFrom ⟨.inQuotes, fields, c :: field⟩ rest := by
  have hstep : Partial.step ⟨.inQuotes, fields, field⟩ c = .ok ⟨.inQuotes, fields, c :: field⟩ := by
    simp [Partial.step, Partial.add, hc]
  by_cases hfeed : c = '\n'
  · rw [readFrom, hstep]
    show (if c = '\n' then _ else _) = _
    rw [if_pos hfeed]
    rfl
  · exact readFrom_cons hfeed hstep

/-- A doubled quote between quotes is a quote of the field. -/
theorem readFrom_doubledQuote :
    readFrom ⟨.inQuotes, fields, field⟩ ('"' :: '"' :: rest) =
      readFrom ⟨.inQuotes, fields, '"' :: field⟩ rest := by
  have hquote : Partial.step ⟨.inQuotes, fields, field⟩ '"' =
      .ok ⟨.afterQuote, fields, field⟩ := rfl
  have hagain : Partial.step ⟨.afterQuote, fields, field⟩ '"' =
      .ok ⟨.inQuotes, fields, '"' :: field⟩ := rfl
  rw [readFrom_cons (by decide) hquote, readFrom_cons (by decide) hagain]

theorem readFrom_inQuotes_append (text : List Char) :
    readFrom ⟨.inQuotes, fields, field⟩
        ((text.flatMap fun c => if c = '"' then ['"', '"'] else [c]) ++ rest) =
      readFrom ⟨.inQuotes, fields, text.reverse ++ field⟩ rest := by
  induction text generalizing field with
  | nil => rfl
  | cons c more ih =>
    rw [List.flatMap_cons, List.append_assoc, List.reverse_cons, List.append_assoc,
      List.singleton_append, ← ih]
    by_cases hc : c = '"'
    · rw [if_pos hc, hc]
      exact readFrom_doubledQuote
    · rw [if_neg hc]
      exact readFrom_inQuotes hc

/-! ### Fields -/

/-- The states at the start of a field. -/
def IsFieldStart (state : State) : Prop :=
  state = .rowStart ∨ state = .fieldStart

/-- The states behind a field: in a field, behind its quotes, or where it starts if it is empty. -/
def IsFieldEnd (start state : State) (text : List Char) : Prop :=
  state = .inField ∨ state = .afterQuote ∨ state = start ∧ text = []

theorem readFrom_quoteField {start : State} (hstart : IsFieldStart start) (text : List Char) :
    readFrom ⟨start, fields, []⟩ (quoteField text ++ rest) =
      readFrom ⟨.afterQuote, fields, text.reverse⟩ rest := by
  have hopen : Partial.step ⟨start, fields, []⟩ '"' = .ok ⟨.inQuotes, fields, []⟩ := by
    rcases hstart with rfl | rfl <;> rfl
  rw [quoteField, List.append_assoc, List.cons_append, readFrom_cons (by decide) hopen,
    readFrom_inQuotes_append, List.append_nil, List.singleton_append]
  exact readFrom_cons (by decide) rfl

/-- The reader stands behind a written field with the characters of the field. -/
theorem readFrom_writeField {start : State} (hstart : IsFieldStart start)
    (fields : List (List Char)) (text : List Char) :
    ∃ state, IsFieldEnd start state text ∧ ∀ rest, readFrom ⟨start, fields, []⟩
      (writeField text ++ rest) = readFrom ⟨state, fields, text.reverse⟩ rest := by
  by_cases hquotes : text.any needsQuotes = true
  · refine ⟨.afterQuote, Or.inr (Or.inl rfl), fun rest ↦ ?_⟩
    rw [writeField, if_pos hquotes, readFrom_quoteField hstart]
  rw [writeField, if_neg hquotes]
  cases text with
  | nil => exact ⟨start, Or.inr (Or.inr ⟨rfl, rfl⟩), fun rest ↦ rfl⟩
  | cons c more =>
    refine ⟨.inField, Or.inl rfl, fun rest ↦ ?_⟩
    have hplain : ∀ d ∈ c :: more, needsQuotes d = false := by
      intro d hd
      rw [← Bool.not_eq_true]
      exact fun hneeds ↦ hquotes (List.any_eq_true.2 ⟨d, hd, hneeds⟩)
    have hc := hplain c List.mem_cons_self
    simp only [needsQuotes, Bool.or_eq_false_iff, beq_eq_false_iff_ne] at hc
    obtain ⟨⟨⟨hcomma, hquote⟩, hreturn⟩, hfeed⟩ := hc
    have hstep : Partial.step ⟨start, fields, []⟩ c = .ok ⟨.inField, fields, [c]⟩ := by
      rcases hstart with rfl | rfl <;>
        simp [Partial.step, Partial.startField, Partial.isRowEnd, Partial.add, hcomma, hquote,
          hreturn, hfeed]
    rw [List.cons_append, readFrom_cons hfeed hstep,
      readFrom_inField_append fun d hd ↦ hplain d (List.mem_cons_of_mem c hd), List.reverse_cons]

/-- A comma completes a field. -/
theorem readFrom_comma {start state : State} {text : List Char} (hstart : IsFieldStart start)
    (hstate : IsFieldEnd start state text) :
    readFrom ⟨state, fields, text.reverse⟩ (',' :: rest) =
      readFrom ⟨.fieldStart, text :: fields, []⟩ rest := by
  refine readFrom_cons (by decide) ?_
  rcases hstate with rfl | rfl | ⟨rfl, rfl⟩
  · simp [Partial.step, Partial.isRowEnd, Partial.save]
  · simp [Partial.step, Partial.isRowEnd, Partial.save]
  · rcases hstart with rfl | rfl <;> rfl

/-- A row end completes a field and its row, unless the row is empty. -/
theorem readFrom_rowEnd {start state : State} {text : List Char} (hstart : IsFieldStart start)
    (hstate : IsFieldEnd start state text) (hrow : start = .rowStart → text ≠ []) :
    readFrom ⟨state, fields, text.reverse⟩ ('\r' :: '\n' :: rest) = (do
      return (← checkRow (text :: fields).reverse) :: (← readFrom .start rest)) := by
  have hstep : Partial.step ⟨state, fields, text.reverse⟩ '\r' =
      .ok ⟨.rowEnd, text :: fields, []⟩ := by
    rcases hstate with rfl | rfl | ⟨rfl, rfl⟩
    · simp [Partial.step, Partial.isRowEnd, Partial.save]
    · simp [Partial.step, Partial.isRowEnd, Partial.save]
    · rcases hstart with rfl | rfl
      · exact absurd rfl (hrow rfl)
      · rfl
  rw [readFrom_cons (by decide) hstep]
  rfl

/-! ### Rows -/

theorem readFrom_joinWith {start : State} (hstart : IsFieldStart start)
    {row : List (List Char)} (hrow : row ≠ []) (hlone : start = .rowStart → row ≠ [[]]) :
    readFrom ⟨start, fields, []⟩ (joinWith [','] (row.map writeField) ++ '\r' :: '\n' :: rest) = (do
      return (← checkRow (fields.reverse ++ row)) :: (← readFrom .start rest)) := by
  induction row generalizing start fields with
  | nil => exact absurd rfl hrow
  | cons text more ih =>
    obtain ⟨state, hstate, hread⟩ := readFrom_writeField hstart fields text
    cases more with
    | nil =>
      have htext : start = .rowStart → text ≠ [] := by
        rintro hstart rfl
        exact hlone hstart rfl
      rw [List.map_singleton, joinWith_singleton, hread, readFrom_rowEnd hstart hstate htext,
        List.reverse_cons]
    | cons next more =>
      rw [List.map_cons, List.map_cons, joinWith_cons_cons, List.append_assoc, List.append_assoc,
        hread, List.singleton_append, readFrom_comma hstart hstate, ← List.map_cons,
        ih (Or.inr rfl) (List.cons_ne_nil _ _) nofun, List.reverse_cons, List.append_assoc,
        List.singleton_append]

/-- A row with at least one field is read back in front of any text. -/
theorem readFrom_writeRow {row : List (List Char)} (hrow : row ≠ []) :
    readFrom .start (writeRow row ++ rest) = (do
      return (← checkRow row) :: (← readFrom .start rest)) := by
  by_cases hlone : row = [[]]
  · rw [hlone]
    show readFrom ⟨.rowStart, [], []⟩ (quoteField [] ++ '\r' :: '\n' :: rest) = _
    have hstart : IsFieldStart .fieldStart := Or.inr rfl
    rw [readFrom_quoteField (Or.inl rfl), readFrom_rowEnd hstart (Or.inr (Or.inl rfl)) nofun]
    rfl
  · have hwrite : writeRow row = joinWith [','] (row.map writeField) ++ ['\r', '\n'] := by
      rw [writeRow]
      exact hlone
    rw [hwrite, List.append_assoc]
    exact readFrom_joinWith (Or.inl rfl) hrow fun _ ↦ hlone

/-- Rows with at least one field each are read back from their text, unless a field is too long. -/
theorem read_write {rows : List (List (List Char))} (hrows : ∀ row ∈ rows, row ≠ []) :
    read (write rows) = rows.mapM checkRow := by
  induction rows with
  | nil => rfl
  | cons row more ih =>
    rw [read, write, List.flatMap_cons, readFrom_writeRow (hrows row List.mem_cons_self),
      List.mapM_cons, ← ih fun other hother ↦ hrows other (List.mem_cons_of_mem row hother)]
    rfl

/-! ### The limit on the length of fields -/

/-- Whether no field of rows is longer than the reader takes. -/
def FitRows (rows : List (List (List Char))) : Prop :=
  ∀ row ∈ rows, ∀ field ∈ row, field.length ≤ maxField

instance (rows : List (List (List Char))) : Decidable (FitRows rows) :=
  inferInstanceAs (Decidable (∀ row ∈ rows, ∀ field ∈ row, field.length ≤ maxField))

theorem checkRow_of_fits {row : List (List Char)} (hfits : ∀ field ∈ row, field.length ≤ maxField) :
    checkRow row = .ok row := by
  have hall : (row.all fun field => field.length ≤ maxField) = true :=
    List.all_eq_true.2 fun field hfield ↦ decide_eq_true (hfits field hfield)
  rw [checkRow, if_pos hall]

variable {rows : List (List (List Char))}

theorem read_write_of_fitRows (hrows : ∀ row ∈ rows, row ≠ []) (hfit : FitRows rows) :
    read (write rows) = .ok rows := by
  rw [read_write hrows]
  exact (mapM_eq_ok fun row hrow ↦ checkRow_of_fits (hfit row hrow)).trans
    (congrArg _ (List.map_id _))

/-- A field that is too long makes the reader fail, wherever it stands. -/
theorem read_write_of_not_fitRows (hrows : ∀ row ∈ rows, row ≠ []) (hfit : ¬ FitRows rows) :
    read (write rows) = .error .csv := by
  rw [read_write hrows]
  clear hrows
  induction rows with
  | nil => exact absurd nofun hfit
  | cons row rest ih =>
    rw [List.mapM_cons]
    by_cases hrow : ∀ field ∈ row, field.length ≤ maxField
    · have hrest : ¬ FitRows rest := fun hrest ↦ hfit (List.forall_mem_cons.2 ⟨hrow, hrest⟩)
      rw [checkRow_of_fits hrow, ih hrest]
      rfl
    · have hcheck : checkRow row = .error .csv := by
        rw [checkRow, if_neg (by simpa using hrow)]
      rw [hcheck]
      rfl

end ResourceScript.Csv
