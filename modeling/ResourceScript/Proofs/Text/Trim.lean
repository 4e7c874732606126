import Mathlib.Data.List.TakeWhile
import ResourceScript.Text.Space
/-!
# Trimmed texts

A trimmed text neither begins nor ends with white space, so trimming it again leaves it as it is
(`trim_trim`), and a text without white space is trimmed already (`trim_eq_self`). Only a blank text
is trimmed to nothing (`trim_cons_ne_nil`).
-/

set_option autoImplicit false

namespace ResourceScript.Text

theorem trimStartBy_eq_self {drop : Char → Bool} {text : List Char}
    (hkept : ∀ c ∈ text, drop c = false) : trimStartBy drop text = text := by
  cases text with
  | nil => rfl
  | cons c rest => rw [trimStartBy, List.dropWhile_cons, hkept c List.mem_cons_self]; rfl

theorem trim_cons_ne_nil {c : Char} (hc : isSpace c = false) (text : List Char) :
    trim (c :: text) ≠ [] := by
  have hstart : trimStartBy isSpace (c :: text) = c :: text := by
    rw [trimStartBy, List.dropWhile_cons_of_neg (by simp [hc])]
  rw [trim, hstart, trimEndBy, Ne, List.reverse_eq_nil_iff, List.dropWhile_eq_nil_iff]
  intro hall
  have hspace : isSpace c = true := hall c (by simp)
  rw [hc] at hspace
  cases hspace

theorem trim_cons_of_isSpace {c : Char} (hc : isSpace c = true) (text : List Char) :
    trim (c :: text) = trim text := by
  rw [trim, trimStartBy, List.dropWhile_cons_of_pos hc]
  rfl

theorem trim_concat_of_isSpace {c : Char} (hc : isSpace c = true) (text : List Char) :
    trim (text ++ [c]) = trim text := by
  unfold trim trimStartBy
  rw [List.dropWhile_append]
  split
  · rename_i hempty
    rw [List.isEmpty_iff.1 hempty, List.dropWhile_cons_of_pos hc]
    rfl
  · rw [trimEndBy, List.reverse_append, List.reverse_singleton, List.singleton_append,
      List.dropWhile_cons_of_pos hc]
    rfl

theorem head?_dropWhile {p : Char → Bool} {text : List Char} {c : Char}
    (h : (text.dropWhile p).head? = some c) : p c = false := by
  have hnot := List.head?_dropWhile_not p text
  rw [h] at hnot
  simpa using hnot

theorem getLast?_trim {text : List Char} {c : Char} (h : (trim text).getLast? = some c) :
    isSpace c = false := by
  rw [trim, trimEndBy, List.getLast?_reverse] at h
  exact head?_dropWhile h

theorem head?_trim {text : List Char} {c : Char} (h : (trim text).head? = some c) :
    isSpace c = false := by
  have hprefix : trim text <+: trimStartBy isSpace text := by
    rw [trim, trimEndBy]
    simpa using List.reverse_prefix.2
      (List.dropWhile_suffix (l := (trimStartBy isSpace text).reverse) isSpace)
  obtain ⟨behind, hbehind⟩ := hprefix
  have hhead : (trimStartBy isSpace text).head? = some c := by
    rw [← hbehind, List.head?_append, h]
    rfl
  exact head?_dropWhile hhead

/-- A text that neither begins nor ends with characters to drop stays as it is. -/
theorem trimBy_eq_of_ends {drop : Char → Bool} {text : List Char}
    (hhead : ∀ c, text.head? = some c → drop c = false)
    (hlast : ∀ c, text.getLast? = some c → drop c = false) :
    trimEndBy drop (trimStartBy drop text) = text := by
  have hdrop {chars : List Char} (h : ∀ c, chars.head? = some c → drop c = false) :
      chars.dropWhile drop = chars := by
    cases chars with
    | nil => rfl
    | cons c rest => rw [List.dropWhile_cons_of_neg (by simp [h c rfl])]
  have hreverse : text.reverse.dropWhile drop = text.reverse := by
    refine hdrop fun c hc ↦ ?_
    rw [List.head?_reverse] at hc
    exact hlast c hc
  rw [trimStartBy, hdrop hhead, trimEndBy, hreverse, List.reverse_reverse]

/-- A text that neither begins nor ends with white space is trimmed already. -/
theorem trim_eq_of_ends {text : List Char} (hhead : ∀ c, text.head? = some c → isSpace c = false)
    (hlast : ∀ c, text.getLast? = some c → isSpace c = false) : trim text = text :=
  trimBy_eq_of_ends hhead hlast

/-- Trimming leaves a text without white space alone. -/
theorem trim_eq_self {text : List Char} (hsolid : ∀ c ∈ text, isSpace c = false) :
    trim text = text :=
  trim_eq_of_ends (fun c hc ↦ hsolid c (List.mem_of_head? hc)) fun c hc ↦
    hsolid c (List.mem_of_getLast? hc)

@[simp] theorem trim_trim (text : List Char) : trim (trim text) = trim text :=
  trim_eq_of_ends (fun _ hc ↦ head?_trim hc) fun _ hc ↦ getLast?_trim hc

/-- A text in front of a line feed and a text that is not blank: it is blank itself and goes with the
feed when the whole is stripped, or the feed stays. -/
theorem trim_append_cases (first : List Char) {second : List Char} (hsecond : trim second ≠ []) :
    (trim first = [] ∧ trim (first ++ '\n' :: second) = trim second) ∨
      '\n' ∈ trim (first ++ '\n' :: second) := by
  induction first with
  | nil => exact .inl ⟨rfl, trim_cons_of_isSpace (by decide) second⟩
  | cons c rest ih =>
    by_cases hc : isSpace c = true
    · rw [List.cons_append, trim_cons_of_isSpace hc, trim_cons_of_isSpace hc]
      exact ih
    · have hstart : trimStartBy isSpace (c :: rest ++ '\n' :: second) =
          c :: rest ++ '\n' :: second := by
        rw [trimStartBy, List.cons_append, List.dropWhile_cons_of_neg hc]
      have hend : (second.reverse.dropWhile isSpace).isEmpty = false := by
        rw [← Bool.not_eq_true, List.isEmpty_iff, List.dropWhile_eq_nil_iff]
        intro hall
        have hnil : trimStartBy isSpace second = [] :=
          List.dropWhile_eq_nil_iff.2 fun d hd ↦ hall d (List.mem_reverse.2 hd)
        exact hsecond (by rw [trim, hnil]; rfl)
      right
      rw [trim, hstart, trimEndBy, List.mem_reverse, List.reverse_append, List.reverse_cons,
        List.append_assoc, List.dropWhile_append, hend]
      simp

theorem mem_trim_or_isSpace {text : List Char} {c : Char} (hc : c ∈ text) :
    c ∈ trim text ∨ isSpace c = true := by
  have hpart : ∀ {chars : List Char}, c ∈ chars → c ∈ chars.dropWhile isSpace ∨ isSpace c = true := by
    intro chars hchars
    rw [← List.takeWhile_append_dropWhile (p := isSpace) (l := chars), List.mem_append] at hchars
    exact hchars.symm.imp id fun hmem ↦ List.mem_takeWhile_imp hmem
  rcases hpart hc with hstart | hspace
  · rw [trim, trimEndBy, List.mem_reverse]
    exact hpart (List.mem_reverse.2 hstart)
  · exact .inr hspace

/-- What is dropped in front of a text leaves the text, if that does not begin with more of it. -/
theorem dropWhile_append_of_head {drop : Char → Bool} {blanks text : List Char}
    (hblanks : ∀ c ∈ blanks, drop c = true) (htext : ∀ c, text.head? = some c → drop c = false) :
    (blanks ++ text).dropWhile drop = text := by
  rw [List.dropWhile_append_of_pos hblanks]
  cases text with
  | nil => rfl
  | cons c rest => rw [List.dropWhile_cons_of_neg (by simp [htext c rfl])]

/-- Trimming takes off what stands on both sides of a text without characters to drop. -/
theorem trimBy_append (drop : Char → Bool) {quote text : List Char}
    (hquote : ∀ c ∈ quote, drop c = true) (htext : ∀ c ∈ text, drop c = false) :
    trimEndBy drop (trimStartBy drop (quote ++ (text ++ quote))) = text := by
  rw [trimStartBy, List.dropWhile_append_of_pos hquote]
  cases text with
  | nil =>
    rw [List.nil_append, List.dropWhile_eq_nil_iff.2 hquote]
    rfl
  | cons c rest =>
    have hhead : ¬ drop c = true := by simp [htext c List.mem_cons_self]
    have hreverse : ∀ d ∈ quote.reverse, drop d = true := fun d hd ↦
      hquote d (List.mem_reverse.1 hd)
    have hkept : ((c :: rest).reverse).dropWhile drop = (c :: rest).reverse :=
      trimStartBy_eq_self fun d hd ↦ htext d (List.mem_reverse.1 hd)
    rw [List.cons_append, List.dropWhile_cons_of_neg hhead, ← List.cons_append, trimEndBy,
      List.reverse_append, List.dropWhile_append_of_pos hreverse, hkept, List.reverse_reverse]

theorem trimBy_eq_self (drop : Char → Bool) {text : List Char}
    (htext : ∀ c ∈ text, drop c = false) : trimEndBy drop (trimStartBy drop text) = text := by
  have hnone := trimBy_append drop (List.forall_mem_nil fun c ↦ drop c = true) htext
  rwa [List.append_nil, List.nil_append] at hnone

end ResourceScript.Text
