import ResourceScript.Proofs.Scope.OrderedMap
/-!
# Values grouped by their names

Several values may have one name. Grouped, each name stands where it occurs first, with its only
value or with the list of its values in order (`grouped`). One more value goes to those of its name
if it has one already (`putEntry_grouped`), and a new name goes to the end
(`putEntry_grouped_of_new`).
-/

set_option autoImplicit false

namespace ResourceScript

/-- What several values under one name are: a single one is itself, others make up a list. -/
def joined : List Plain → Plain
  | [value] => value
  | values => .list values

/-- The values under a name, in order. -/
def valuesOf (name : String) (values : List (String × Plain)) : List Plain :=
  (values.filter fun entry ↦ entry.1 == name).map Prod.snd

/-- Values under the keys that are made of their names, in order of the first occurrence of the
names. -/
def grouped {κ : Type} (f : String → κ) (values : List (String × Plain)) : List (κ × Plain) :=
  (values.map Prod.fst).eraseDups.map fun name ↦ (f name, joined (valuesOf name values))

section Values

variable {name other : String} {value : Plain} {values : List (String × Plain)}

theorem joined_of_two_le {items : List Plain} (hitems : 2 ≤ items.length) :
    joined items = .list items := by
  match items, hitems with
  | _ :: _ :: _, _ => rfl

/-- Values are a single one, which they are joined to, or several, which make up a list. -/
theorem joined_cases {items : List Plain} (hitems : items ≠ []) :
    items = [joined items] ∨ 2 ≤ items.length ∧ joined items = .list items := by
  by_cases htwo : 2 ≤ items.length
  · exact Or.inr ⟨htwo, joined_of_two_le htwo⟩
  · have hone : items.length = 1 := by
      have hpos := List.length_pos_iff.2 hitems
      omega
    obtain ⟨value, rfl⟩ := List.length_eq_one_iff.1 hone
    exact Or.inl rfl

theorem mem_valuesOf_iff : value ∈ valuesOf name values ↔ (name, value) ∈ values := by
  simp [valuesOf]

theorem valuesOf_append (name : String) (first second : List (String × Plain)) :
    valuesOf name (first ++ second) = valuesOf name first ++ valuesOf name second := by
  rw [valuesOf, List.filter_append, List.map_append, ← valuesOf, ← valuesOf]

theorem valuesOf_concat (name : String) (values : List (String × Plain)) (entry : String × Plain) :
    valuesOf name (values ++ [entry]) =
      valuesOf name values ++ if entry.1 = name then [entry.2] else [] := by
  by_cases h : entry.1 = name <;> simp [valuesOf, h]

theorem valuesOf_concat_self :
    valuesOf name (values ++ [(name, value)]) = valuesOf name values ++ [value] := by
  rw [valuesOf_concat, if_pos rfl]

theorem valuesOf_concat_of_ne (hother : other ≠ name) :
    valuesOf other (values ++ [(name, value)]) = valuesOf other values := by
  rw [valuesOf_concat, if_neg hother.symm, List.append_nil]

theorem valuesOf_eq_nil_iff : valuesOf name values = [] ↔ name ∉ values.map Prod.fst := by
  rw [List.eq_nil_iff_forall_not_mem]
  simp [mem_valuesOf_iff]

/-- The names after one more value. -/
theorem eraseDups_names_concat (values : List (String × Plain)) (entry : String × Plain) :
    ((values ++ [entry]).map Prod.fst).eraseDups =
      if entry.1 ∈ values.map Prod.fst then (values.map Prod.fst).eraseDups
      else (values.map Prod.fst).eraseDups ++ [entry.1] := by
  rw [List.map_append]
  exact eraseDups_concat _ _

end Values

section Grouping

variable {κ : Type} {same : κ → κ → Bool} (f : String → κ)
  (hsame : ∀ a b, same (f a) (f b) = decide (a = b)) {name : String} {value : Plain}
  {values : List (String × Plain)}

include hsame

/-- What is found under a name that has values. -/
theorem findEntry_grouped (hname : name ∈ values.map Prod.fst) :
    findEntry same (f name) (grouped f values) = some (joined (valuesOf name values)) :=
  findEntry_of_mem f hsame (List.mem_eraseDups.2 hname)

/-- Putting all values of a name that has some already groups one more value with the others. -/
theorem putEntry_grouped (hname : name ∈ values.map Prod.fst) (value : Plain) :
    putEntry same (f name) (joined (valuesOf name values ++ [value])) (grouped f values) =
      grouped f (values ++ [(name, value)]) := by
  rw [grouped, grouped, eraseDups_names_concat, if_pos hname,
    putEntry_of_mem f hsame (nodup_eraseDups _) (List.mem_eraseDups.2 hname)]
  refine List.map_congr_left fun other _ ↦ ?_
  by_cases hother : other = name
  · rw [if_pos hother, hother, valuesOf_concat_self]
  · rw [if_neg hother, valuesOf_concat_of_ne hother]

theorem findEntry_grouped_of_new (hname : name ∉ values.map Prod.fst) :
    findEntry same (f name) (grouped f values) = none := by
  refine findEntry_eq_none_iff.2 fun entry hentry ↦ ?_
  obtain ⟨other, hother, rfl⟩ := List.mem_map.1 hentry
  rw [hsame]
  exact decide_eq_false fun h ↦ hname (h ▸ List.mem_eraseDups.1 hother)

/-- Putting a value under a new name groups it behind the others. -/
theorem putEntry_grouped_of_new (hname : name ∉ values.map Prod.fst) (value : Plain) :
    putEntry same (f name) value (grouped f values) = grouped f (values ++ [(name, value)]) := by
  have hfirst : valuesOf name (values ++ [(name, value)]) = [value] := by
    rw [valuesOf_concat_self, valuesOf_eq_nil_iff.2 hname]
    rfl
  rw [putEntry_of_new (findEntry_eq_none_iff.1 (findEntry_grouped_of_new f hsame hname)), grouped,
    grouped, eraseDups_names_concat, if_neg hname, List.map_append, List.map_singleton, hfirst]
  congr 1
  refine List.map_congr_left fun other hother ↦ ?_
  rw [valuesOf_concat_of_ne (ne_of_mem_of_not_mem (List.mem_eraseDups.1 hother) hname)]

end Grouping

end ResourceScript
