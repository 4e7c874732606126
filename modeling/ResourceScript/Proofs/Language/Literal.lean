import ResourceScript.Language.Lexeme
/-!
# Where a literal ends

A literal ends at the first quote behind an even number of backslashes, counted from its opening
quote. `Lexeme.closing` finds this quote while it reads escapes in pairs, and never counts. The two
agree: what it answers is the body in front of that quote and the text behind it
(`closing_eq_some_iff`), and it answers nothing exactly when every quote is escaped
(`closing_eq_none_iff`).
-/

set_option autoImplicit false

namespace ResourceScript.Lexeme

/-- The number of backslashes at the end of a text. -/
def trailingBackslashes (text : List Char) : Nat :=
  (text.reverse.takeWhile (· == '\\')).length

/-- Whether every quote of a text stands behind an odd number of backslashes. -/
def QuotesEscaped (text : List Char) : Prop :=
  ∀ before after, text = before ++ '"' :: after → trailingBackslashes before % 2 = 1

/-- Whether a quote behind a text is the first one that closes a literal. -/
structure IsBody (body : List Char) : Prop where
  /-- No quote of the text closes the literal. -/
  escaped : QuotesEscaped body
  /-- A quote behind the text does. -/
  even : trailingBackslashes body % 2 = 0

/-! ### Counting backslashes

A character other than a backslash in front of a text, or an escape in front of it, does not change
whether the number of backslashes at its end is even. -/

theorem trailingBackslashes_cons {c : Char} (hc : c ≠ '\\') (text : List Char) :
    trailingBackslashes (c :: text) = trailingBackslashes text := by
  have hlast : (c == '\\') = false := beq_false_of_ne hc
  simp only [trailingBackslashes, List.reverse_cons, List.takeWhile_append, List.takeWhile_cons,
    hlast, Bool.false_eq_true, if_false, List.append_nil]
  split
  · rename_i hall
    exact hall.symm
  · rfl

theorem trailingBackslashes_escape (c : Char) (text : List Char) :
    trailingBackslashes ('\\' :: c :: text) % 2 = trailingBackslashes text % 2 := by
  by_cases hc : c = '\\'
  · subst hc
    simp only [trailingBackslashes, List.reverse_cons, List.append_assoc, List.takeWhile_append]
    split
    · rename_i hall
      simp [hall]
    · rfl
  · have hlast : (c == '\\') = false := beq_false_of_ne hc
    simp only [trailingBackslashes, List.reverse_cons, List.append_assoc, List.takeWhile_append,
      List.cons_append, List.takeWhile_cons, hlast, Bool.false_eq_true, if_false]
    split
    · rename_i hall
      simp [hall]
    · rfl

/-! ### Escaped quotes -/

theorem quotesEscaped_nil : QuotesEscaped [] := by
  intro before after h
  cases before <;> cases h

theorem quotesEscaped_cons {c : Char} (hquote : c ≠ '"') (hback : c ≠ '\\') (text : List Char) :
    QuotesEscaped (c :: text) ↔ QuotesEscaped text := by
  constructor
  · intro h before after htext
    rw [← trailingBackslashes_cons hback]
    exact h (c :: before) after (congrArg (c :: ·) htext)
  · intro h before after htext
    cases before with
    | nil => exact absurd (List.cons.inj htext).1 hquote
    | cons d before =>
      obtain ⟨rfl, rfl⟩ := List.cons.inj htext
      rw [trailingBackslashes_cons hback]
      exact h before after rfl

theorem quotesEscaped_escape (c : Char) (text : List Char) :
    QuotesEscaped ('\\' :: c :: text) ↔ QuotesEscaped text := by
  constructor
  · intro h before after htext
    rw [← trailingBackslashes_escape c]
    exact h ('\\' :: c :: before) after (congrArg ('\\' :: c :: ·) htext)
  · intro h before after htext
    match before with
    | [] => cases htext
    | [d] =>
      cases htext
      rfl
    | d :: e :: before =>
      cases htext
      rw [trailingBackslashes_escape]
      exact h before after rfl

theorem not_quotesEscaped_quote (text : List Char) : ¬ QuotesEscaped ('"' :: text) := by
  intro h
  exact absurd (h [] text rfl) (by decide)

theorem isBody_nil : IsBody [] :=
  ⟨quotesEscaped_nil, rfl⟩

theorem isBody_cons {c : Char} (hquote : c ≠ '"') (hback : c ≠ '\\') (body : List Char) :
    IsBody (c :: body) ↔ IsBody body := by
  constructor
  · rintro ⟨hescaped, heven⟩
    rw [quotesEscaped_cons hquote hback] at hescaped
    rw [trailingBackslashes_cons hback] at heven
    exact ⟨hescaped, heven⟩
  · rintro ⟨hescaped, heven⟩
    refine ⟨(quotesEscaped_cons hquote hback body).2 hescaped, ?_⟩
    rw [trailingBackslashes_cons hback]
    exact heven

theorem isBody_escape (c : Char) (body : List Char) :
    IsBody ('\\' :: c :: body) ↔ IsBody body := by
  constructor
  · rintro ⟨hescaped, heven⟩
    rw [quotesEscaped_escape] at hescaped
    rw [trailingBackslashes_escape] at heven
    exact ⟨hescaped, heven⟩
  · rintro ⟨hescaped, heven⟩
    refine ⟨(quotesEscaped_escape c body).2 hescaped, ?_⟩
    rw [trailingBackslashes_escape]
    exact heven

/-! ### The closing quote -/

/-- The first quote that can close a literal is found. The induction follows the pairs in which
escapes are read. -/
theorem closing_append {body : List Char} (hbody : IsBody body) (after : List Char) :
    closing (body ++ '"' :: after) = some (body, after) := by
  fun_induction closing body with
  | case1 => rfl
  | case2 rest => exact absurd hbody.escaped (not_quotesEscaped_quote rest)
  | case3 c rest ih =>
    have hrest := ih ((isBody_escape c rest).1 hbody)
    simp [closing, hrest]
  | case4 c rest hquote hescape ih =>
    have hback : c ≠ '\\' := by
      rintro rfl
      cases rest with
      | nil => exact absurd hbody.even (by decide)
      | cons d rest => exact hescape d rest rfl rfl
    have hrest := ih ((isBody_cons hquote hback rest).1 hbody)
    rw [List.cons_append, closing, hrest]
    · rfl
    · exact hquote
    · exact fun d rest h ↦ absurd h hback

theorem eq_append_of_closing {text body after : List Char} (h : closing text = some (body, after)) :
    text = body ++ '"' :: after ∧ IsBody body := by
  fun_induction closing text generalizing body after with
  | case1 => cases h
  | case2 rest =>
    cases h
    exact ⟨rfl, isBody_nil⟩
  | case3 c rest ih =>
    obtain ⟨⟨inner, rest'⟩, hclosing, hpair⟩ := Option.map_eq_some_iff.1 h
    obtain ⟨rfl, hinner⟩ := ih hclosing
    cases hpair
    exact ⟨rfl, (isBody_escape c inner).2 hinner⟩
  | case4 c rest hquote hescape ih =>
    obtain ⟨⟨inner, rest'⟩, hclosing, hpair⟩ := Option.map_eq_some_iff.1 h
    obtain ⟨rfl, hinner⟩ := ih hclosing
    cases hpair
    have hback : c ≠ '\\' := by
      rintro rfl
      cases inner with
      | nil => exact hescape '"' _ rfl rfl
      | cons d inner => exact hescape d _ rfl rfl
    exact ⟨rfl, (isBody_cons hquote hback inner).2 hinner⟩

/-- The body of a literal is what stands in front of the first quote behind an even number of
backslashes. -/
theorem closing_eq_some_iff {text body after : List Char} :
    closing text = some (body, after) ↔ text = body ++ '"' :: after ∧ IsBody body := by
  constructor
  · exact eq_append_of_closing
  · rintro ⟨rfl, hbody⟩
    exact closing_append hbody after

theorem quotesEscaped_of_closing {text : List Char} (h : closing text = none) :
    QuotesEscaped text := by
  fun_induction closing text with
  | case1 => exact quotesEscaped_nil
  | case2 => cases h
  | case3 c rest ih =>
    exact (quotesEscaped_escape c rest).2 (ih (Option.map_eq_none_iff.1 h))
  | case4 c rest hquote hescape ih =>
    have hrest := ih (Option.map_eq_none_iff.1 h)
    by_cases hback : c = '\\'
    · subst hback
      cases rest with
      | nil =>
        intro before after htext
        rcases before with _ | ⟨d, _ | ⟨e, before⟩⟩ <;> cases htext
      | cons d rest => exact absurd rfl (hescape d rest rfl)
    · exact (quotesEscaped_cons hquote hback rest).2 hrest

/-- A literal has no end exactly when every quote is escaped. -/
theorem closing_eq_none_iff {text : List Char} : closing text = none ↔ QuotesEscaped text := by
  constructor
  · exact quotesEscaped_of_closing
  · intro hescaped
    rcases hclosing : closing text with _ | ⟨body, after⟩
    · rfl
    · obtain ⟨htext, hbody⟩ := eq_append_of_closing hclosing
      have hodd := hescaped body after htext
      rw [hbody.even] at hodd
      exact absurd hodd (by decide)

end ResourceScript.Lexeme
