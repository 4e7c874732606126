import Mathlib.Data.Bool.AllAny
import Mathlib.Data.List.Basic
import ResourceScript.Text.Case
import ResourceScript.Text.Space
/-!
# Texts in lower case

The map to lower case leaves its own results alone: no run of the map leads into a run of the map
(`mapByRuns_lowerRuns_of_eq_some`). So a text in lower case stays as it is (`lower_lower`), and the
map brings in neither white space nor the punctuation of headers (`of_mem_lower`). On ASCII text it
is the map of the ASCII letters (`lower_of_isAscii`).
-/

set_option autoImplicit false

namespace ResourceScript.Text

/-! ### The runs of the map -/

/-- The code points that a run leads to, from the least to the greatest. -/
def CaseRun.targets (run : CaseRun) : List Nat :=
  (List.range ((run.2.1 - run.1) / run.2.2.1 + 1)).map fun k ↦
    (((run.1 + k * run.2.2.1 : Nat) : Int) + run.2.2.2).toNat

/-- Whether a code point lies in a run. -/
def CaseRun.Holds (run : CaseRun) (n : Nat) : Prop :=
  run.1 ≤ n ∧ n ≤ run.2.1 ∧ (n - run.1) % run.2.2.1 = 0

/-- A check that no code point between two bounds lies in a run; if only every second one is meant,
it may lie between the code points of the run. -/
def CaseRun.misses (low high : Nat) (alternating : Bool) (run : CaseRun) : Bool :=
  Nat.blt high run.1 || (Nat.blt run.2.1 low ||
    (alternating && Nat.beq run.2.2.1 2 && Nat.ble run.1 low && Nat.beq ((low - run.1) % 2) 1))

/-- A check that a run does not lead into any of the given ones. -/
def CaseRun.leavesOut (runs : List CaseRun) (run : CaseRun) : Bool :=
  let low := Int.toNat (Int.add (Int.ofNat run.1) run.2.2.2)
  let high := low + (run.2.1 - run.1)
  Nat.blt 0 low && runs.all (CaseRun.misses low high (Nat.beq run.2.2.1 2 || Nat.beq run.1 run.2.1))

theorem mapByRuns_eq_some {runs : Array CaseRun} {n m : Nat} (h : mapByRuns runs n = some m) :
    ∃ run ∈ runs.toList, run.Holds n ∧ m = ((n : Int) + run.2.2.2).toNat := by
  rw [mapByRuns, Option.map_eq_some_iff] at h
  obtain ⟨run, hfind, rfl⟩ := h
  have hrun := Array.find?_some hfind
  simp only [Bool.and_eq_true, decide_eq_true_eq, beq_iff_eq] at hrun
  exact ⟨run, Array.mem_toList_iff.2 (Array.mem_of_find?_eq_some hfind),
    ⟨hrun.1.1, hrun.1.2, hrun.2⟩, rfl⟩

theorem mapByRuns_eq_none {runs : Array CaseRun} {n : Nat}
    (h : ∀ run ∈ runs.toList, ¬ run.Holds n) : mapByRuns runs n = none := by
  rw [mapByRuns, Option.map_eq_none_iff, Array.find?_eq_none]
  intro run hrun hholds
  simp only [Bool.and_eq_true, decide_eq_true_eq, beq_iff_eq] at hholds
  exact h run (Array.mem_toList_iff.2 hrun) ⟨hholds.1.1, hholds.1.2, hholds.2⟩

theorem CaseRun.mem_targets {run : CaseRun} {n : Nat} (h : run.Holds n) :
    ((n : Int) + run.2.2.2).toNat ∈ run.targets := by
  obtain ⟨hfirst, hlast, hstep⟩ := h
  refine List.mem_map.2 ⟨(n - run.1) / run.2.2.1, ?_, ?_⟩
  · rw [List.mem_range]
    exact Nat.lt_succ_of_le (Nat.div_le_div_right (by omega))
  · have hsum : run.1 + (n - run.1) / run.2.2.1 * run.2.2.1 = n := by
      rw [Nat.div_mul_cancel (Nat.dvd_of_mod_eq_zero hstep)]
      omega
    rw [hsum]

theorem CaseRun.not_holds_of_misses {low high : Nat} {alternating : Bool} {run : CaseRun}
    (h : run.misses low high alternating = true) {m : Nat} (hlow : low ≤ m) (hhigh : m ≤ high)
    (hsecond : alternating = true → (m - low) % 2 = 0) : ¬ run.Holds m := by
  rintro ⟨hfirst, hlast, hstep⟩
  simp only [misses, Bool.or_eq_true, Bool.and_eq_true, Nat.blt_eq, Nat.beq_eq, Nat.ble_eq] at h
  rcases h with h | h | ⟨⟨⟨halternating, htwo⟩, hbelow⟩, hodd⟩
  · omega
  · omega
  · have heven := hsecond halternating
    rw [htwo] at hstep
    omega

/-- A run that is left out of the given ones does not lead into them. -/
theorem CaseRun.not_holds_of_leavesOut {runs : List CaseRun} {run : CaseRun}
    (h : run.leavesOut runs = true) {n : Nat} (hn : run.Holds n) :
    ∀ other ∈ runs, ¬ other.Holds ((n : Int) + run.2.2.2).toNat := by
  intro other hother
  obtain ⟨hfirst, hlast, hstep⟩ := hn
  rw [leavesOut, Bool.and_eq_true, List.all_eq_true, Nat.blt_eq] at h
  have hlow : (0 : Nat) < ((run.1 : Int) + run.2.2.2).toNat := h.1
  refine not_holds_of_misses (h.2 other hother) ?_ ?_ ?_
  · show ((run.1 : Int) + run.2.2.2).toNat ≤ _
    omega
  · show _ ≤ ((run.1 : Int) + run.2.2.2).toNat + (run.2.1 - run.1)
    omega
  · intro halternating
    show (_ - ((run.1 : Int) + run.2.2.2).toNat) % 2 = 0
    rw [Bool.or_eq_true, Nat.beq_eq, Nat.beq_eq] at halternating
    rcases halternating with htwo | hsingle
    · rw [htwo] at hstep
      omega
    · omega

theorem leavesOut_lowerRuns :
    (lowerRuns.toList.all fun run ↦ run.leavesOut lowerRuns.toList) = true := by
  decide +kernel

/-- The map leads to letters, which are no white space, and to none of the two characters with a
rule of their own. -/
theorem targets_lowerRuns : ∀ run ∈ lowerRuns.toList, ∀ m ∈ run.targets, 0x61 ≤ m ∧ m ≠ 0x130 ∧
    m ≠ 0x3a3 ∧ m.isValidChar ∧ isSpace (Char.ofNat m) = false := by
  decide +kernel

/-- The map does not lead into its own runs. -/
theorem mapByRuns_lowerRuns_of_eq_some {n m : Nat} (h : mapByRuns lowerRuns n = some m) :
    mapByRuns lowerRuns m = none := by
  obtain ⟨run, hrun, hholds, rfl⟩ := mapByRuns_eq_some h
  exact mapByRuns_eq_none
    (CaseRun.not_holds_of_leavesOut (List.all_eq_true.1 leavesOut_lowerRuns run hrun) hholds)

/-! ### Characters in lower case -/

/-- Whether the map to lower case leaves a character alone, wherever it stands. -/
def IsLower (c : Char) : Prop :=
  lowerChar c = [c] ∧ c.toNat ≠ 0x3a3

instance (c : Char) : Decidable (IsLower c) :=
  inferInstanceAs (Decidable (_ ∧ _))

/-- Whether a character is no white space and stands behind the ASCII punctuation of headers. -/
def IsSolid (c : Char) : Prop :=
  0x61 ≤ c.toNat ∧ isSpace c = false

instance (c : Char) : Decidable (IsSolid c) :=
  inferInstanceAs (Decidable (_ ∧ _))

theorem toNat_ofNat_of_isValidChar {m : Nat} (hm : m.isValidChar) : (Char.ofNat m).toNat = m := by
  rw [Char.ofNat, dif_pos hm]
  exact UInt32.toNat_ofNatLT ..

/-- The character in lower case is the character itself or a letter, and lower case leaves it
alone. -/
theorem of_mem_lowerChar {c d : Char} (hd : d ∈ lowerChar c) : IsLower d ∧ (d = c ∨ IsSolid d) := by
  by_cases hascii : c.toNat < 0x80
  · have hall : ∀ n < 0x80, (lowerChar (Char.ofNat n)).all (fun d ↦
        IsLower d ∧ (d = Char.ofNat n ∨ IsSolid d)) = true := by
      decide +kernel
    rw [← Char.ofNat_toNat c] at hd ⊢
    exact List.all_iff_forall_prop.1 (hall c.toNat hascii) d hd
  · rw [lowerChar, if_neg hascii] at hd
    by_cases hdotted : c.toNat = 0x130
    · rw [if_pos hdotted] at hd
      rcases List.mem_cons.1 hd with rfl | hd
      · exact ⟨by decide +kernel, .inr (by decide)⟩
      · obtain rfl := List.mem_singleton.1 hd
        exact ⟨by decide +kernel, .inr (by decide)⟩
    · rw [if_neg hdotted, List.mem_singleton] at hd
      cases hmap : mapByRuns lowerRuns c.toNat with
      | none =>
        rw [hmap] at hd
        obtain rfl : d = c := hd
        refine ⟨⟨?_, ?_⟩, .inl rfl⟩
        · rw [lowerChar, if_neg hascii, if_neg hdotted, hmap]
          rfl
        · intro hsigma
          rw [hsigma] at hmap
          exact absurd hmap (by decide +kernel)
      | some m =>
        rw [hmap] at hd
        obtain rfl : d = Char.ofNat m := hd
        obtain ⟨run, hrun, hholds, htarget⟩ := mapByRuns_eq_some hmap
        obtain ⟨hleast, hndotted, hnsigma, hvalid, hspace⟩ := targets_lowerRuns run hrun m
          (htarget ▸ CaseRun.mem_targets hholds)
        have htoNat := toNat_ofNat_of_isValidChar hvalid
        refine ⟨⟨?_, by rwa [htoNat]⟩, .inr ⟨by rwa [htoNat], hspace⟩⟩
        rw [lowerChar, htoNat, mapByRuns_lowerRuns_of_eq_some hmap]
        by_cases hsmall : m < 0x80
        · rw [if_pos hsmall, if_neg]
          rintro ⟨-, hupper⟩
          have hle : (Char.ofNat m).toNat ≤ 0x5a := hupper
          omega
        · rw [if_neg hsmall, if_neg hndotted]
          rfl

/-! ### Texts in lower case -/

theorem of_mem_lowerBetween {before after : List Char} {c d : Char}
    (hd : d ∈ lowerBetween before c after) : IsLower d ∧ (d = c ∨ IsSolid d) := by
  rw [lowerBetween] at hd
  by_cases hsigma : c.toNat = 0x3a3
  · rw [if_pos hsigma, List.mem_singleton] at hd
    split at hd
    · subst hd
      exact ⟨by decide +kernel, .inr (by decide)⟩
    · subst hd
      exact ⟨by decide +kernel, .inr (by decide)⟩
  · rw [if_neg hsigma] at hd
    exact of_mem_lowerChar hd

theorem lowerBetween_ne_nil (before : List Char) (c : Char) (after : List Char) :
    lowerBetween before c after ≠ [] := by
  rw [lowerBetween, lowerChar]
  repeat' split
  all_goals exact List.cons_ne_nil _ _

theorem mapBetween_ne_nil {text : List Char} (htext : text ≠ []) (before : List Char) :
    mapBetween lowerBetween before text ≠ [] := by
  cases text with
  | nil => exact absurd rfl htext
  | cons c rest => exact List.append_ne_nil_of_left_ne_nil (lowerBetween_ne_nil before c rest) _

/-- The characters of a text in lower case are those of the text or letters. -/
theorem of_mem_lower {text : List Char} {d : Char} (hd : d ∈ lower text) :
    IsLower d ∧ (d ∈ text ∨ IsSolid d) := by
  have hbetween : ∀ before, d ∈ mapBetween lowerBetween before text →
      IsLower d ∧ (d ∈ text ∨ IsSolid d) := by
    clear hd
    induction text with
    | nil => nofun
    | cons c rest ih =>
      intro before hd
      rcases List.mem_append.1 hd with hd | hd
      · obtain ⟨hlower, rfl | hsolid⟩ := of_mem_lowerBetween hd
        · exact ⟨hlower, .inl List.mem_cons_self⟩
        · exact ⟨hlower, .inr hsolid⟩
      · obtain ⟨hlower, hmem⟩ := ih (c :: before) hd
        exact ⟨hlower, hmem.imp_left (List.mem_cons_of_mem c)⟩
  exact hbetween [] hd

/-- The first character in lower case is the first one of the text or a letter. -/
theorem head?_lower {text : List Char} {d : Char} (hd : (lower text).head? = some d) :
    text.head? = some d ∨ IsSolid d := by
  cases text with
  | nil => cases hd
  | cons c rest =>
    rw [lower, mapBetween, List.head?_append_of_ne_nil _ (lowerBetween_ne_nil [] c rest)] at hd
    obtain ⟨-, rfl | hsolid⟩ := of_mem_lowerBetween (List.mem_of_head? hd)
    · exact .inl rfl
    · exact .inr hsolid

/-- The last character in lower case is the last one of the text or a letter. -/
theorem getLast?_lower {text : List Char} {d : Char} (hd : (lower text).getLast? = some d) :
    text.getLast? = some d ∨ IsSolid d := by
  have hbetween : ∀ before, (mapBetween lowerBetween before text).getLast? = some d →
      text.getLast? = some d ∨ IsSolid d := by
    clear hd
    induction text with
    | nil => nofun
    | cons c rest ih =>
      intro before hd
      by_cases hrest : rest = []
      · subst hrest
        rw [mapBetween, mapBetween, List.append_nil] at hd
        obtain ⟨-, rfl | hsolid⟩ := of_mem_lowerBetween (List.mem_of_getLast? hd)
        · exact .inl rfl
        · exact .inr hsolid
      · rw [mapBetween, List.getLast?_append_of_ne_nil _ (mapBetween_ne_nil hrest _)] at hd
        rw [List.getLast?_cons_of_ne_nil hrest]
        exact ih (c :: before) hd
  exact hbetween [] hd

theorem mapBetween_of_isLower {text : List Char} (htext : ∀ c ∈ text, IsLower c)
    (before : List Char) : mapBetween lowerBetween before text = text := by
  induction text generalizing before with
  | nil => rfl
  | cons c rest ih =>
    obtain ⟨hc, hsigma⟩ := htext c List.mem_cons_self
    rw [mapBetween, lowerBetween, if_neg hsigma, hc,
      ih fun d hd ↦ htext d (List.mem_cons_of_mem c hd)]
    rfl

/-- A text in lower case stays as it is. -/
theorem lower_lower (text : List Char) : lower (lower text) = lower text :=
  mapBetween_of_isLower (fun _ hd ↦ (of_mem_lower hd).1) []

theorem lowerChar_of_isAscii {c : Char} (hc : c.toNat < 0x80) : lowerChar c = [asciiLower c] := by
  rw [lowerChar, if_pos hc]
  rfl

/-- Among ASCII characters only the letters change. -/
theorem lower_of_isAscii {text : List Char} (htext : ∀ c ∈ text, c.toNat < 0x80) :
    lower text = text.map asciiLower := by
  have hbetween : ∀ before, mapBetween lowerBetween before text = text.map asciiLower := by
    induction text with
    | nil => exact fun _ ↦ rfl
    | cons c rest ih =>
      intro before
      have hc := htext c List.mem_cons_self
      rw [mapBetween, lowerBetween, if_neg (by omega), lowerChar_of_isAscii hc,
        ih (fun d hd ↦ htext d (List.mem_cons_of_mem c hd))]
      rfl
  exact hbetween []

end ResourceScript.Text
