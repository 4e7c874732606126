import Mathlib.Tactic.SplitIfs
import ResourceScript.Format.Json
import ResourceScript.Proofs.Text.Pieces
/-!
# The spelling of JSON strings

Between its quotes a string is spelled by parts: a character that stands for itself, a short escape,
or a code unit of UTF-16 in four hexadecimal digits. Two neighbouring units that are the halves of a
surrogate pair are one character; a half without the other has none and is replaced. Reading a
string succeeds exactly on a spelling with a quote behind it, and answers its characters
(`readString_eq_ok_iff`). What is
written between quotes is a spelling of the text (`exists_spells_flatMap_escapeChar`).
-/

set_option autoImplicit false

namespace ResourceScript.Json

open Text

/-- A part of the spelling of a string. -/
inductive Part where
  /-- A character. -/
  | char (c : Char)
  /-- A code unit of UTF-16. -/
  | unit (n : Nat)

/-- How the text between two quotes spells parts. -/
inductive Spells : List Char → List Part → Prop where
  | nil : Spells [] []
  | char {c : Char} {rest : List Char} {parts : List Part} (hquote : c ≠ '"') (hback : c ≠ '\\')
      (hcontrol : ¬ c.toNat < 0x20) (hrest : Spells rest parts) :
      Spells (c :: rest) (.char c :: parts)
  | short {e c : Char} {rest : List Char} {parts : List Part} (hescape : shortEscape? e = some c)
      (hrest : Spells rest parts) : Spells ('\\' :: e :: rest) (.char c :: parts)
  | unit {a b c d : Char} {n : Nat} {rest : List Char} {parts : List Part}
      (hunit : unit? a b c d = some n) (hrest : Spells rest parts) :
      Spells ('\\' :: 'u' :: a :: b :: c :: d :: rest) (.unit n :: parts)

/-- Whether two code units are the halves of a surrogate pair. -/
def IsPair (n m : Nat) : Prop :=
  isHighSurrogate n = true ∧ isLowSurrogate m = true

instance (n m : Nat) : Decidable (IsPair n m) :=
  inferInstanceAs (Decidable (_ ∧ _))

/-- The character of a surrogate pair. -/
def pairChar (n m : Nat) : Char :=
  Char.ofNat (0x10000 + (n - 0xd800) * 1024 + (m - 0xdc00))

/-- The characters that parts spell. -/
def characters : List Part → List Char
  | [] => []
  | .char c :: rest => c :: characters rest
  | .unit n :: .unit m :: rest =>
    if IsPair n m then pairChar n m :: characters rest
    else unitChar n :: characters (.unit m :: rest)
  | .unit n :: rest => unitChar n :: characters rest

/-! ### Code units -/

/-- Whether a unit makes a pair with the unit at the beginning of a text. -/
def PairsWith (n : Nat) (text : List Char) : Prop :=
  ∃ e f g h m more, text = '\\' :: 'u' :: e :: f :: g :: h :: more ∧ unit? e f g h = some m ∧
    IsPair n m

theorem readUnit_pair {a b c d e f g h : Char} {n m : Nat} (hn : unit? a b c d = some n)
    (hm : unit? e f g h = some m) (hpair : IsPair n m) (more : List Char) :
    readUnit (a :: b :: c :: d :: '\\' :: 'u' :: e :: f :: g :: h :: more) =
      .ok (pairChar n m, more) := by
  simp [readUnit, hn, hm, hpair.1, hpair.2, pairChar]

theorem readUnit_single {a b c d : Char} {n : Nat} (hn : unit? a b c d = some n)
    {rest : List Char}
    (hrest : ∀ e f g h more, rest = '\\' :: 'u' :: e :: f :: g :: h :: more →
      ∃ m, unit? e f g h = some m ∧ ¬ IsPair n m) :
    readUnit (a :: b :: c :: d :: rest) = .ok (unitChar n, rest) := by
  unfold readUnit
  simp only [hn]
  split
  · rename_i e f g h more
    obtain ⟨m, hm, hpair⟩ := hrest e f g h more rfl
    simp only [IsPair] at hpair
    simp only [hm]
    split
    · rename_i hhigh
      rw [if_neg fun hlow ↦ hpair ⟨hhigh, hlow⟩]
    · rfl
  · rfl

/-- What is read as a code unit is a surrogate pair, or a single unit that makes no pair with what
follows. -/
theorem readUnit_eq_ok {text rest : List Char} {char : Char}
    (hread : readUnit text = .ok (char, rest)) :
    ∃ a b c d n, unit? a b c d = some n ∧
      ((∃ e f g h m, text = a :: b :: c :: d :: '\\' :: 'u' :: e :: f :: g :: h :: rest ∧
          unit? e f g h = some m ∧ IsPair n m ∧ char = pairChar n m) ∨
        (text = a :: b :: c :: d :: rest ∧ ¬ PairsWith n rest ∧ char = unitChar n)) := by
  unfold readUnit at hread
  split at hread
  · rename_i a b c d tail
    split at hread
    · cases hread
    · rename_i n hn
      refine ⟨a, b, c, d, n, hn, ?_⟩
      split at hread
      · rename_i e f g h more
        split at hread
        · rename_i hhigh
          split at hread
          · cases hread
          · rename_i m hm
            split at hread
            · rename_i hlow
              obtain ⟨hchar, rfl⟩ := Prod.mk.inj (Except.ok.inj hread)
              exact .inl ⟨e, f, g, h, m, rfl, hm, ⟨hhigh, hlow⟩, hchar.symm⟩
            · rename_i hlow
              cases hread
              refine .inr ⟨rfl, ?_, rfl⟩
              rintro ⟨_, _, _, _, m', _, heq, hm', hpair⟩
              cases heq
              rw [hm] at hm'
              cases hm'
              exact hlow hpair.2
        · rename_i hhigh
          cases hread
          refine .inr ⟨rfl, ?_, rfl⟩
          rintro ⟨_, _, _, _, m', _, heq, hm', hpair⟩
          exact hhigh hpair.1
      · rename_i hno
        cases hread
        refine .inr ⟨rfl, ?_, rfl⟩
        rintro ⟨e, f, g, h, m, more, heq, -, -⟩
        exact hno e f g h more heq
  · cases hread

/-! ### Strings -/

section

variable {c : Char} {rest : List Char}

theorem readString_char (hquote : c ≠ '"') (hback : c ≠ '\\') (hcontrol : ¬ c.toNat < 0x20)
    (text : List Char) : readString (c :: text) =
      (readString text).map fun (chars, after) => (c :: chars, after) := by
  rw [readString.eq_def]
  simp only [if_neg hquote, if_neg hback, if_neg hcontrol]

theorem readString_short {e : Char} (hescape : shortEscape? e = some c) (text : List Char) :
    readString ('\\' :: e :: text) =
      (readString text).map fun (chars, after) => (c :: chars, after) := by
  have hunit : e ≠ 'u' := by
    rintro rfl
    cases hescape
  have hback : ¬ '\\' = '"' := by decide
  rw [readString.eq_def]
  simp only [if_neg hback, if_true, if_neg hunit, hescape]

theorem readString_unit {text : List Char} (hread : readUnit text = .ok (c, rest)) :
    readString ('\\' :: 'u' :: text) =
      (readString rest).map fun (chars, after) => (c :: chars, after) := by
  have hback : ¬ '\\' = '"' := by decide
  rw [readString.eq_def]
  simp only [if_neg hback, if_true]
  split
  · rename_i fault hfault
    rw [hread] at hfault
    cases hfault
  · rename_i escaped after hafter
    rw [hread] at hafter
    cases hafter
    rfl

end

/-- A spelling with a quote behind it is read. The induction is that of `characters`, since a unit
is read together with the other half of its pair. -/
theorem readString_append {body : List Char} {parts : List Part} (hspells : Spells body parts)
    (after : List Char) : readString (body ++ '"' :: after) = .ok (characters parts, after) := by
  induction parts using characters.induct generalizing body with
  | case1 =>
    cases hspells
    rw [List.nil_append, readString.eq_def, characters]
    rfl
  | case2 c parts ih =>
    cases hspells with
    | char hquote hback hcontrol hrest =>
      rw [List.cons_append, readString_char hquote hback hcontrol, ih hrest]
      rfl
    | short hescape hrest =>
      rw [List.cons_append, List.cons_append, readString_short hescape, ih hrest]
      rfl
  | case3 n m parts hpair ih =>
    cases hspells with
    | unit hn hrest =>
      cases hrest with
      | unit hm hrest =>
        simp only [List.cons_append]
        rw [readString_unit (readUnit_pair hn hm hpair _), ih hrest, characters, if_pos hpair]
        rfl
  | case4 n m parts hpair ih =>
    cases hspells with
    | unit hn hrest =>
      have htail := ih hrest
      cases hrest with
      | unit hm hrest =>
        simp only [List.cons_append] at htail ⊢
        rw [readString_unit (readUnit_single hn _), htail, characters, if_neg hpair]
        · rfl
        · intro e f g h more heq
          cases heq
          exact ⟨m, hm, hpair⟩
  | case5 n parts hparts ih =>
    cases hspells with
    | unit hn hrest =>
      have htail := ih hrest
      simp only [List.cons_append]
      rw [readString_unit (readUnit_single hn _), htail]
      · rw [characters]
        · rfl
        · exact hparts
      · intro e f g h more heq
        cases hrest with
        | nil => cases heq
        | char _ hback => exact absurd (List.cons.inj heq).1 hback
        | short hescape =>
          obtain ⟨rfl, -⟩ := List.cons.inj (List.cons.inj heq).2
          cases hescape
        | unit => exact absurd rfl (hparts _ _)

theorem characters_unit {n : Nat} {body : List Char} {parts : List Part}
    (hspells : Spells body parts) {after : List Char} (hpair : ¬ PairsWith n (body ++ after)) :
    characters (.unit n :: parts) = unitChar n :: characters parts := by
  cases hspells with
  | nil => rfl
  | char => rfl
  | short => rfl
  | @unit e f g h m rest parts hm hrest =>
    rw [characters, if_neg]
    exact fun hnm ↦ hpair ⟨e, f, g, h, m, rest ++ after, rfl, hm, hnm⟩

theorem spells_of_readString {text chars after : List Char}
    (hread : readString text = .ok (chars, after)) :
    ∃ body parts, text = body ++ '"' :: after ∧ Spells body parts ∧ characters parts = chars := by
  fun_induction readString text generalizing chars after with
  | case1 => cases hread
  | case2 rest =>
    cases hread
    exact ⟨[], [], rfl, .nil, rfl⟩
  | case3 => cases hread
  | case4 => cases hread
  | case5 more escaped rest hunit hback ih =>
    obtain ⟨⟨chars, after⟩, hrest, hpair⟩ := map_eq_ok hread
    cases hpair
    obtain ⟨body, parts, rfl, hspells, rfl⟩ := ih hrest
    obtain ⟨a, b, c, d, n, hn, hcase⟩ := readUnit_eq_ok hunit
    rcases hcase with ⟨e, f, g, h, m, rfl, hm, hnm, hchar⟩ | ⟨rfl, hnot, hchar⟩
    · refine ⟨_, _, rfl, .unit hn (.unit hm hspells), ?_⟩
      rw [characters, if_pos hnm, hchar]
    · refine ⟨_, _, rfl, .unit hn hspells, ?_⟩
      rw [characters_unit hspells hnot, hchar]
  | case6 => cases hread
  | case7 e more hunit escaped hescape hback ih =>
    obtain ⟨⟨chars, after⟩, hrest, hpair⟩ := map_eq_ok hread
    cases hpair
    obtain ⟨body, parts, rfl, hspells, rfl⟩ := ih hrest
    exact ⟨_, _, rfl, .short hescape hspells, rfl⟩
  | case8 => cases hread
  | case9 c rest hquote hback hcontrol ih =>
    obtain ⟨⟨chars, after⟩, hrest, hpair⟩ := map_eq_ok hread
    cases hpair
    obtain ⟨body, parts, rfl, hspells, rfl⟩ := ih hrest
    exact ⟨_, _, rfl, .char hquote hback hcontrol hspells, rfl⟩

/-- Reading a string succeeds exactly on a spelling with a quote behind it. -/
theorem readString_eq_ok_iff {text chars after : List Char} :
    readString text = .ok (chars, after) ↔
      ∃ body parts, text = body ++ '"' :: after ∧ Spells body parts ∧ characters parts = chars := by
  constructor
  · exact spells_of_readString
  · rintro ⟨body, parts, rfl, hspells, rfl⟩
    exact readString_append hspells after

/-! ### Writing -/

theorem hexValue?_hexDigit : ∀ {n : Nat}, n < 16 → hexValue? (hexDigit n) = some n := by
  decide

theorem unit?_hexDigits {n : Nat} (hn : n < 0x10000) :
    ∃ a b c d, hexDigits 4 n = [a, b, c, d] ∧ unit? a b c d = some n := by
  refine ⟨_, _, _, _, rfl, ?_⟩
  have hdigit : ∀ m : Nat, hexValue? (hexDigit (m % 16)) = some (m % 16) :=
    fun m ↦ hexValue?_hexDigit (Nat.mod_lt m (by decide))
  simp only [unit?, hdigit, Option.bind_eq_bind, Option.bind_some, Option.pure_def,
    Option.some.injEq]
  omega

/-- A unit in front of the surrogates is a character of its own. -/
theorem characters_unit_of_lt {n : Nat} (hn : n < 0xd800) (parts : List Part) :
    characters (.unit n :: parts) = Char.ofNat n :: characters parts := by
  have hchar : unitChar n = Char.ofNat n := if_neg fun h ↦ by omega
  have hpair : ∀ m, ¬ IsPair n m := by
    rintro m ⟨hhigh, -⟩
    simp only [isHighSurrogate, Bool.and_eq_true, decide_eq_true_eq] at hhigh
    omega
  rw [← hchar]
  rcases parts with _ | ⟨c | m, parts⟩
  · rfl
  · rfl
  · rw [characters, if_neg (hpair m)]

/-- An escaped character spells itself. -/
theorem Spells.escapeChar_append (c : Char) {rest : List Char} {parts : List Part}
    (hrest : Spells rest parts) :
    ∃ parts', Spells (escapeChar c ++ rest) parts' ∧ characters parts' = c :: characters parts := by
  have hshort : ∀ e, shortEscape? e = some c → ∃ parts', Spells (['\\', e] ++ rest) parts' ∧
      characters parts' = c :: characters parts :=
    fun e he ↦ ⟨_, .short he hrest, rfl⟩
  unfold escapeChar
  split_ifs with hquote hback hfeed hreturn htab hpage hbackspace hcontrol
  · exact hshort '"' (by rw [hquote]; rfl)
  · exact hshort '\\' (by rw [hback]; rfl)
  · exact hshort 'n' (by rw [hfeed]; rfl)
  · exact hshort 'r' (by rw [hreturn]; rfl)
  · exact hshort 't' (by rw [htab]; rfl)
  · exact hshort 'f' (by rw [hpage]; rfl)
  · exact hshort 'b' (by rw [hbackspace]; rfl)
  · obtain ⟨x, y, z, w, hdigits, hunit⟩ := unit?_hexDigits (n := c.toNat) (by omega)
    refine ⟨.unit c.toNat :: parts, ?_, ?_⟩
    · rw [hdigits]
      exact .unit hunit hrest
    · rw [characters_unit_of_lt (by omega), Char.ofNat_toNat]
  · exact ⟨.char c :: parts, .char hquote hback hcontrol hrest, rfl⟩

/-- The text between the quotes of a written string spells its characters. -/
theorem exists_spells_flatMap_escapeChar (text : List Char) :
    ∃ parts, Spells (text.flatMap escapeChar) parts ∧ characters parts = text := by
  induction text with
  | nil => exact ⟨[], .nil, rfl⟩
  | cons c rest ih =>
    obtain ⟨parts, hspells, hparts⟩ := ih
    obtain ⟨parts', hspells', hparts'⟩ := hspells.escapeChar_append c
    refine ⟨parts', ?_, ?_⟩
    · rw [List.flatMap_cons]
      exact hspells'
    · rw [hparts', hparts]

end ResourceScript.Json
