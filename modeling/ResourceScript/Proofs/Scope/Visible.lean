import ResourceScript.Proofs.Scope.OrderedMap
import ResourceScript.Scope
/-!
# What is visible from a scope

From a scope outward the scopes are a stack of frames. The first frame that binds a key decides
about it (`Store.binder?`): it gives the value, a constant before a variable (`lookup_eq_binder?`),
and it says whether the key is a constant (`isConstant_iff`). The bindings in view are listed frame
by frame, without those of keys that a frame further in binds (`visible_eq_listing`); they are an
ordered map (`isOrderedMap_visible`) and hold what a look-up finds (`findEntry_visible`).
-/

set_option autoImplicit false

namespace ResourceScript

namespace Scope

/-- What a frame binds a key to: a constant before a variable. -/
def binding? (same : Value → Value → Bool) (frame : Scope) (key : Value) : Option Value :=
  (findEntry same key frame.constants).or (findEntry same key frame.changeable)

/-- The bindings of a frame: the constants, and the variables that no constant hides. -/
def listing (same : Value → Value → Bool) (frame : Scope) : List (Value × Value) :=
  frame.constants ++ frame.changeable.filter fun entry =>
    (findEntry same entry.1 frame.constants).isNone

theorem findEntry_append_eq_binding? (same : Value → Value → Bool) (frame : Scope) (key : Value) :
    findEntry same key (frame.constants ++ frame.changeable) = frame.binding? same key :=
  findEntry_append key _ _

end Scope

namespace Store

variable {s : Store}

/-- The scopes from a scope outward. -/
def frames (s : Store) (n : Nat) : List Scope :=
  (s.chain n).map s.scope

/-- The first frame from a scope outward that binds a key. -/
def binder? (s : Store) (n : Nat) (key : Value) : Option Scope :=
  (s.frames n).find? fun frame => (frame.binding? s.same key).isSome

/-- The bindings in view of a stack of frames: those of the first frame, and then those of the
others under keys that it does not bind. -/
def listing (same : Value → Value → Bool) : List Scope → List (Value × Value)
  | [] => []
  | frame :: outer =>
    frame.listing same ++ (listing same outer).filter fun entry =>
      (frame.binding? same entry.1).isNone

/-- Whether the scopes of a store bind keys, each once among the constants and once among the
variables. -/
structure HoldsKeys (s : Store) : Prop where
  /-- The constants of a scope are an ordered map. -/
  constants : ∀ n, IsOrderedMap s.IsKey s.same (s.scope n).constants
  /-- The variables of a scope are an ordered map. -/
  changeable : ∀ n, IsOrderedMap s.IsKey s.same (s.scope n).changeable

/-! ### Looking up -/

theorem bindings_eq_flatMap (s : Store) (n : Nat) :
    s.bindings n = (s.frames n).flatMap fun frame => frame.constants ++ frame.changeable := by
  rw [bindings, frames, List.flatMap_map]

theorem findEntry_flatMap (same : Value → Value → Bool) (frames : List Scope) (key : Value) :
    findEntry same key (frames.flatMap fun frame => frame.constants ++ frame.changeable) =
      (frames.find? fun frame => (frame.binding? same key).isSome).bind fun frame =>
        frame.binding? same key := by
  induction frames with
  | nil => rfl
  | cons frame outer ih =>
    rw [List.flatMap_cons, findEntry_append, Scope.findEntry_append_eq_binding?, ih,
      List.find?_cons]
    rcases hbinding : frame.binding? same key with _ | value
    · rfl
    · exact hbinding.symm

/-- A key has the value that the first frame gives it that binds it. -/
theorem lookup_eq_binder? (s : Store) (n : Nat) (key : Value) :
    s.lookup n key = (s.binder? n key).bind fun frame => frame.binding? s.same key := by
  rw [lookup, bindings_eq_flatMap, findEntry_flatMap, binder?]

theorem findSome?_constant (same : Value → Value → Bool) (frames : List Scope) (key : Value) :
    (frames.findSome? fun frame =>
      if (findEntry same key frame.constants).isSome then some true
      else if (findEntry same key frame.changeable).isSome then some false else none) =
    (frames.find? fun frame => (frame.binding? same key).isSome).map fun frame =>
      (findEntry same key frame.constants).isSome := by
  induction frames with
  | nil => rfl
  | cons frame outer ih =>
    rw [List.findSome?_cons, List.find?_cons, Scope.binding?, ih]
    rcases hconstant : findEntry same key frame.constants with _ | constant
    · rcases findEntry same key frame.changeable with _ | value
      · rfl
      · simp [hconstant]
    · simp [hconstant]

/-- A key is a constant when it is one in the first frame that binds it. -/
theorem isConstant_iff (s : Store) (n : Nat) (key : Value) :
    s.isConstant n key = true ↔ ∃ frame, s.binder? n key = some frame ∧
      (findEntry s.same key frame.constants).isSome = true := by
  have hmap : s.isConstant n key = ((s.binder? n key).map fun frame =>
      (findEntry s.same key frame.constants).isSome).getD false := by
    rw [binder?, ← findSome?_constant, frames, List.findSome?_map]
    rfl
  rw [hmap]
  rcases s.binder? n key with _ | frame <;> simp

/-! ### Listing -/

section

variable {seen : List Value} {entries : List (Value × Value)}

/-- Listed bindings are bindings, in their order. -/
theorem firstOfEach_sublist (seen : List Value) (entries : List (Value × Value)) :
    (visible.firstOfEach s seen entries).Sublist entries := by
  induction entries generalizing seen with
  | nil => exact .slnil
  | cons entry rest ih =>
    obtain ⟨k, value⟩ := entry
    rw [visible.firstOfEach]
    split
    · exact (ih seen).cons _
    · exact (ih (k :: seen)).cons_cons _

/-- Which bindings are listed only depends on which keys count as seen. -/
theorem firstOfEach_congr {seen' : List Value}
    (hseen : ∀ key, s.IsKey key → seen.any (s.same key) = seen'.any (s.same key))
    (hkeys : ∀ entry ∈ entries, s.IsKey entry.1) :
    visible.firstOfEach s seen entries = visible.firstOfEach s seen' entries := by
  induction entries generalizing seen seen' with
  | nil => rfl
  | cons entry rest ih =>
    obtain ⟨k, value⟩ := entry
    have hk := hkeys (k, value) List.mem_cons_self
    have hrest : ∀ entry ∈ rest, s.IsKey entry.1 := fun e he ↦ hkeys e (List.mem_cons_of_mem _ he)
    rw [visible.firstOfEach, visible.firstOfEach, hseen k hk]
    split
    · exact ih hseen hrest
    · refine congrArg _ (ih (fun key hkey ↦ ?_) hrest)
      rw [List.any_cons, List.any_cons, hseen key hkey]

/-- A key that is seen already does not count twice. -/
theorem any_same_of_seen (hseen : ∀ k ∈ seen, s.IsKey k) {k : Value} (hk : s.IsKey k)
    (hany : seen.any (s.same k) = true) {key : Value} (hkey : s.IsKey key)
    (hsame : s.same key k = true) : seen.any (s.same key) = true := by
  obtain ⟨t, ht, hkt⟩ := List.any_eq_true.1 hany
  exact List.any_eq_true.2
    ⟨t, ht, (isKeyEquality_same s).trans hkey hk (hseen t ht) hsame hkt⟩

/-- What is listed behind keys that count as seen: the bindings that would be listed without them,
but for those of these keys. -/
theorem firstOfEach_append_seen (hseen : ∀ k ∈ seen, s.IsKey k)
    (hkeys : ∀ entry ∈ entries, s.IsKey entry.1) (later : List Value) :
    visible.firstOfEach s (seen ++ later) entries =
      (visible.firstOfEach s later entries).filter fun entry => !seen.any (s.same entry.1) := by
  induction entries generalizing later with
  | nil => rfl
  | cons entry rest ih =>
    obtain ⟨k, value⟩ := entry
    have hk := hkeys (k, value) List.mem_cons_self
    have hrest : ∀ entry ∈ rest, s.IsKey entry.1 := fun e he ↦ hkeys e (List.mem_cons_of_mem _ he)
    rw [visible.firstOfEach, visible.firstOfEach, List.any_append]
    by_cases hlater : later.any (s.same k) = true
    · rw [if_pos (by simp [hlater]), if_pos hlater, ih hrest]
    · rw [if_neg hlater, List.filter_cons]
      by_cases hany : seen.any (s.same k) = true
      · rw [if_pos (by simp [hany]), if_neg (by simp [hany]), ← ih hrest (k :: later)]
        refine firstOfEach_congr (fun key hkey ↦ ?_) hrest
        rw [List.any_append, List.any_append, List.any_cons]
        rcases hsame : s.same key k with _ | _
        · rfl
        · rw [any_same_of_seen hseen hk hany hkey hsame, Bool.true_or, Bool.true_or]
      · rw [if_neg (by simp [hany, hlater]), if_pos (by simp [hany]), ← ih hrest (k :: later)]
        refine congrArg _ (firstOfEach_congr (fun key hkey ↦ ?_) hrest)
        simp only [List.any_append, List.any_cons, Bool.or_left_comm]

theorem firstOfEach_append (hseen : ∀ k ∈ seen, s.IsKey k)
    (hkeys : ∀ entry ∈ entries, s.IsKey entry.1) {others : List (Value × Value)}
    (hothers : ∀ entry ∈ others, s.IsKey entry.1) :
    visible.firstOfEach s seen (entries ++ others) = visible.firstOfEach s seen entries ++
      visible.firstOfEach s (entries.map Prod.fst ++ seen) others := by
  induction entries generalizing seen with
  | nil => rfl
  | cons entry rest ih =>
    obtain ⟨k, value⟩ := entry
    have hk := hkeys (k, value) List.mem_cons_self
    have hrest : ∀ entry ∈ rest, s.IsKey entry.1 := fun e he ↦ hkeys e (List.mem_cons_of_mem _ he)
    rw [List.cons_append, visible.firstOfEach, visible.firstOfEach]
    by_cases hany : seen.any (s.same k) = true
    · rw [if_pos hany, if_pos hany, ih hseen hrest]
      refine congrArg _ (firstOfEach_congr (fun key hkey ↦ ?_) hothers)
      rw [List.map_cons, List.cons_append, List.any_append, List.any_cons, List.any_append]
      rcases hsame : s.same key k with _ | _
      · rfl
      · rw [any_same_of_seen hseen hk hany hkey hsame, Bool.or_true, Bool.true_or]
    · rw [if_neg hany, if_neg hany, ih (List.forall_mem_cons.2 ⟨hk, hseen⟩) hrest,
        List.cons_append]
      refine congrArg _ (congrArg _ (firstOfEach_congr (fun key hkey ↦ ?_) hothers))
      simp only [List.map_cons, List.cons_append, List.any_append, List.any_cons,
        Bool.or_left_comm]

theorem any_map_fst_eq_isSome (hkeys : ∀ entry ∈ entries, s.IsKey entry.1) {key : Value}
    (hkey : s.IsKey key) : (entries.map Prod.fst).any (s.same key) =
      (findEntry s.same key entries).isSome := by
  rw [Bool.eq_iff_iff, findEntry_isSome_iff, List.any_map, List.any_eq_true]
  constructor
  · rintro ⟨entry, hentry, hsame⟩
    exact ⟨entry, hentry, (isKeyEquality_same s).symm hkey (hkeys entry hentry) hsame⟩
  · rintro ⟨entry, hentry, hsame⟩
    exact ⟨entry, hentry, (isKeyEquality_same s).symm (hkeys entry hentry) hkey hsame⟩

/-- The bindings in view of two lists of bindings: those of the first, and those of the second under
other keys. -/
theorem firstOfEach_nil_append (hkeys : ∀ entry ∈ entries, s.IsKey entry.1)
    {others : List (Value × Value)} (hothers : ∀ entry ∈ others, s.IsKey entry.1) :
    visible.firstOfEach s [] (entries ++ others) = visible.firstOfEach s [] entries ++
      (visible.firstOfEach s [] others).filter fun entry =>
        (findEntry s.same entry.1 entries).isNone := by
  have hfst : ∀ k ∈ entries.map Prod.fst, s.IsKey k := List.forall_mem_map.2 hkeys
  rw [firstOfEach_append (fun k hk ↦ absurd hk List.not_mem_nil) hkeys hothers,
    firstOfEach_append_seen hfst hothers []]
  refine congrArg _ (List.filter_congr fun entry hentry ↦ ?_)
  have hentryKey := hothers entry ((firstOfEach_sublist [] others).subset hentry)
  rw [any_map_fst_eq_isSome hkeys hentryKey, Option.not_isSome]

/-- An ordered map has all its bindings in view. -/
theorem firstOfEach_of_isOrderedMap (hmap : IsOrderedMap s.IsKey s.same entries)
    (hseen : ∀ k ∈ seen, ∀ entry ∈ entries, s.same entry.1 k = false) :
    visible.firstOfEach s seen entries = entries := by
  induction entries generalizing seen with
  | nil => rfl
  | cons entry rest ih =>
    obtain ⟨k, value⟩ := entry
    have hk := hmap.keys (k, value) List.mem_cons_self
    have hnew : ¬ seen.any (s.same k) = true := by
      rw [List.any_eq_true]
      rintro ⟨t, ht, hsame⟩
      rw [hseen t ht (k, value) List.mem_cons_self] at hsame
      cases hsame
    rw [visible.firstOfEach, if_neg hnew, ih hmap.tail]
    refine List.forall_mem_cons.2 ⟨fun e he ↦ ?_, fun t ht e he ↦
      hseen t ht e (List.mem_cons_of_mem _ he)⟩
    rw [(isKeyEquality_same s).comm (hmap.keys e (List.mem_cons_of_mem _ he)) hk]
    exact (List.pairwise_cons.1 hmap.distinct).1 e he

end

section

variable (hs : s.HoldsKeys)

include hs

theorem HoldsKeys.keys_frame (n : Nat) :
    ∀ entry ∈ (s.scope n).constants ++ (s.scope n).changeable, s.IsKey entry.1 :=
  List.forall_mem_append.2 ⟨(hs.constants n).keys, (hs.changeable n).keys⟩

theorem HoldsKeys.keys_flatMap (chain : List Nat) :
    ∀ entry ∈ (chain.map s.scope).flatMap fun frame => frame.constants ++ frame.changeable,
      s.IsKey entry.1 := by
  intro entry hentry
  obtain ⟨frame, hframe, hmem⟩ := List.mem_flatMap.1 hentry
  obtain ⟨n, -, rfl⟩ := List.mem_map.1 hframe
  exact hs.keys_frame n entry hmem

/-- The bindings in view from a scope are those of its frames, one frame after the other. -/
theorem visible_eq_listing (n : Nat) : s.visible n = listing s.same (s.frames n) := by
  rw [visible, bindings_eq_flatMap, frames]
  induction s.chain n with
  | nil => rfl
  | cons m outer ih =>
    have hframe : visible.firstOfEach s [] ((s.scope m).constants ++ (s.scope m).changeable) =
        (s.scope m).listing s.same := by
      rw [firstOfEach_nil_append (hs.constants m).keys (hs.changeable m).keys,
        firstOfEach_of_isOrderedMap (hs.constants m) (fun _ h ↦ absurd h List.not_mem_nil),
        firstOfEach_of_isOrderedMap (hs.changeable m) (fun _ h ↦ absurd h List.not_mem_nil)]
      rfl
    rw [List.map_cons, List.flatMap_cons,
      firstOfEach_nil_append (hs.keys_frame m) (hs.keys_flatMap outer), ih, hframe, listing]
    simp only [Scope.findEntry_append_eq_binding?]

theorem HoldsKeys.isOrderedMap_frame (n : Nat) :
    IsOrderedMap s.IsKey s.same ((s.scope n).listing s.same) :=
  (hs.constants n).append_filter (hs.changeable n) fun _ _ hkept ↦ Option.isNone_iff_eq_none.1 hkept

/-- A frame lists what it binds. -/
theorem HoldsKeys.findEntry_frame (n : Nat) {key : Value} (hkey : s.IsKey key) :
    findEntry s.same key ((s.scope n).listing s.same) = (s.scope n).binding? s.same key := by
  have hcongr : ∀ entry ∈ (s.scope n).changeable, s.same entry.1 key = true →
      (findEntry s.same entry.1 (s.scope n).constants).isNone =
        (findEntry s.same key (s.scope n).constants).isNone := fun entry hentry hsame ↦ by
    rw [findEntry_congr (isKeyEquality_same s) (hs.constants n).keys
      ((hs.changeable n).keys entry hentry) hkey hsame]
  rw [Scope.listing, Scope.binding?, findEntry_append,
    findEntry_filter (fun k => (findEntry s.same k (s.scope n).constants).isNone) hcongr]
  rcases findEntry s.same key (s.scope n).constants with _ | constant <;> rfl

theorem HoldsKeys.isOrderedMap_listing (chain : List Nat) :
    IsOrderedMap s.IsKey s.same (listing s.same (chain.map s.scope)) := by
  induction chain with
  | nil => exact isOrderedMap_nil
  | cons m outer ih =>
    rw [List.map_cons, listing]
    refine (hs.isOrderedMap_frame m).append_filter ih fun entry hentry hkept ↦ ?_
    rw [hs.findEntry_frame m (ih.keys entry hentry)]
    exact Option.isNone_iff_eq_none.1 hkept

theorem HoldsKeys.findEntry_listing (chain : List Nat) {key : Value} (hkey : s.IsKey key) :
    findEntry s.same key (listing s.same (chain.map s.scope)) =
      ((chain.map s.scope).find? fun frame => (frame.binding? s.same key).isSome).bind
        fun frame => frame.binding? s.same key := by
  induction chain with
  | nil => rfl
  | cons m outer ih =>
    have houter := (hs.isOrderedMap_listing outer).keys
    have hframe : ∀ key, (s.scope m).binding? s.same key =
        findEntry s.same key ((s.scope m).constants ++ (s.scope m).changeable) :=
      fun key ↦ (Scope.findEntry_append_eq_binding? _ _ key).symm
    have hcongr : ∀ entry ∈ listing s.same (outer.map s.scope), s.same entry.1 key = true →
        ((s.scope m).binding? s.same entry.1).isNone =
          ((s.scope m).binding? s.same key).isNone := fun entry hentry hsame ↦ by
      rw [hframe, hframe, findEntry_congr (isKeyEquality_same s) (hs.keys_frame m)
        (houter entry hentry) hkey hsame]
    rw [List.map_cons, listing, findEntry_append, hs.findEntry_frame m hkey, List.find?_cons,
      findEntry_filter (fun k => ((s.scope m).binding? s.same k).isNone) hcongr, ih]
    rcases hbinding : (s.scope m).binding? s.same key with _ | value
    · rfl
    · simp [hbinding]

/-- No two bindings in view have the same key. -/
theorem isOrderedMap_visible (n : Nat) : IsOrderedMap s.IsKey s.same (s.visible n) := by
  rw [visible_eq_listing hs]
  exact hs.isOrderedMap_listing (s.chain n)

/-- The bindings in view are those that a look-up finds. -/
theorem findEntry_visible (n : Nat) {key : Value} (hkey : s.IsKey key) :
    findEntry s.same key (s.visible n) = s.lookup n key := by
  rw [visible_eq_listing hs, lookup_eq_binder?]
  exact hs.findEntry_listing (s.chain n) hkey

end

end Store

end ResourceScript
