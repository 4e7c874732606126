import Mathlib.Tactic.SplitIfs
import ResourceScript.Proofs.Language.SourceValues
/-!
# Failures of a line

Compiling lines can fail for want of an open bloc, and this is the only failure that carries the
number of a line. A line by itself does not fail so (`Compiler.needsNoBloc_compileLine`), and
neither does reading the name behind an `end` (`Compiler.needsNoBloc_closedName`): what is refused
there are malformed literals, numerals, and locations.
-/

set_option autoImplicit false

namespace ResourceScript

open Text

/-! ### Failures for want of an open bloc -/

namespace Fault

/-- Whether a failure is that of an `end` line that meets no matching open bloc. -/
def IsNoOpenBloc (cause : Fault) : Prop :=
  ∃ number text, cause = .parse (.noOpenBloc number text)

/-- The failure that a failure in lines becomes with a number of further lines in front. -/
def later (count : Nat) : Fault → Fault
  | .parse (.noOpenBloc number text) => .parse (.noOpenBloc (number + count) text)
  | cause => cause

theorem later_of_not_isNoOpenBloc {cause : Fault} (h : ¬ cause.IsNoOpenBloc) (count : Nat) :
    cause.later count = cause := by
  unfold later
  split
  · exact absurd ⟨_, _, rfl⟩ h
  · rfl

end Fault

theorem Numeral.not_isNoOpenBloc_of_read {text : List Char} {cause : Fault}
    (h : read text = .error cause) : ¬ cause.IsNoOpenBloc := by
  unfold read wholeValue at h
  rintro ⟨number, line, rfl⟩
  dsimp only at h
  split_ifs at h <;> cases h

theorem Numeral.not_isNoOpenBloc_of_intText {n : Int} {cause : Fault}
    (h : intText n = .error cause) : ¬ cause.IsNoOpenBloc := by
  unfold intText at h
  rintro ⟨number, line, rfl⟩
  dsimp only at h
  split_ifs at h
  cases h

namespace Location

variable {directories : Directories} {text : List Char} {cause : Fault}

theorem not_isNoOpenBloc_of_resolve (h : resolve directories text = .error cause) :
    ¬ cause.IsNoOpenBloc := by
  unfold resolve homeOf at h
  rintro ⟨number, line, rfl⟩
  dsimp only at h
  split_ifs at h
  · cases h
  · split at h
    · split_ifs at h <;> cases h
    · cases h

theorem not_isNoOpenBloc_of_ofText? (h : ofText? directories text = .error cause) :
    ¬ cause.IsNoOpenBloc := by
  unfold ofText? ofPath at h
  dsimp only at h
  split at h
  · cases h
  split at h
  · cases hpath : resolve directories (trim text) with
    | ok path =>
      rw [hpath] at h
      cases h
    | error fault =>
      rw [hpath] at h
      cases h
      exact not_isNoOpenBloc_of_resolve hpath
  split at h
  · cases h
  · split at h <;> cases h

end Location

/-- The name that a token of source text stands for is not refused for want of an open bloc: of the
values without parts only integers can lack a text. -/
theorem Value.IsSource.not_isNoOpenBloc_of_blocName {token : Value} (htoken : token.IsSource)
    {cause : Fault} (h : Store.empty.blocName token = .error cause) : ¬ cause.IsNoOpenBloc := by
  cases htoken with
  | written n text uri => cases h
  | call f hparams => cases h
  | atom a =>
    cases a with
    | int n =>
      have hname : Store.empty.blocName (.int n) =
          ((Numeral.intText n).map String.ofList).map some := rfl
      cases htext : Numeral.intText n with
      | error fault =>
        rw [htext] at hname
        cases hname.symm.trans h
        exact Numeral.not_isNoOpenBloc_of_intText htext
      | ok text =>
        rw [htext] at hname
        cases hname.symm.trans h
    | bool b => cases b <;> cases h
    | _ => cases h

namespace Compiler

section

variable {α β : Type} {s : Surroundings}

theorem fst_bind (x : Compiler α) (next : α → Compiler β) :
    ((x >>= next) s).1 = (x s).1.bind fun a => (next a s).1 := by
  rw [bind_apply]
  cases (x s).1 <;> rfl

/-- Whether a computation never fails for want of an open bloc. -/
def NeedsNoBloc (x : Compiler α) (s : Surroundings) : Prop :=
  ∀ cause, (x s).1 = .error cause → ¬ cause.IsNoOpenBloc

theorem needsNoBloc_pure (a : α) : (pure a : Compiler α).NeedsNoBloc s := by
  rintro cause ⟨⟩

theorem NeedsNoBloc.bind {x : Compiler α} {next : α → Compiler β} (hx : x.NeedsNoBloc s)
    (hnext : ∀ a, (next a).NeedsNoBloc s) : (x >>= next).NeedsNoBloc s := by
  intro cause h
  rw [fst_bind] at h
  cases hfirst : (x s).1 with
  | error first =>
    rw [hfirst] at h
    cases h
    exact hx _ hfirst
  | ok a =>
    rw [hfirst] at h
    exact hnext a cause h

theorem NeedsNoBloc.mapM {f : α → Compiler β} (hf : ∀ a, (f a).NeedsNoBloc s) (items : List α) :
    (items.mapM f).NeedsNoBloc s := by
  induction items with
  | nil => exact needsNoBloc_pure _
  | cons a rest ih =>
    rw [List.mapM_cons]
    exact (hf a).bind fun b ↦ ih.bind fun bs ↦ needsNoBloc_pure _

/-- What comes of a computation that needs no bloc is the same with further lines in front. -/
theorem NeedsNoBloc.mapError_later {x : Compiler α} (hx : x.NeedsNoBloc s) (count : Nat) :
    (x s).1.mapError (Fault.later count) = (x s).1 := by
  cases h : (x s).1 with
  | ok a => rfl
  | error cause =>
    exact congrArg Except.error (Fault.later_of_not_isNoOpenBloc (hx cause h) count)

theorem needsNoBloc_find (name : String) : (find name).NeedsNoBloc s := by
  rintro cause ⟨⟩

theorem needsNoBloc_surroundings : surroundings.NeedsNoBloc s := by
  rintro cause ⟨⟩

theorem needsNoBloc_momentOfWord (word : String) : (momentOfWord word).NeedsNoBloc s := by
  unfold momentOfWord
  split
  · refine needsNoBloc_surroundings.bind fun t ↦ ?_
    rintro cause ⟨⟩
  · exact needsNoBloc_pure _

theorem needsNoBloc_resourceOfWord? (word : String) : (resourceOfWord? word).NeedsNoBloc s :=
  needsNoBloc_surroundings.bind fun _ ↦
    NeedsNoBloc.bind (fun _ h ↦ Location.not_isNoOpenBloc_of_ofText? h) fun _ ↦ needsNoBloc_pure _

theorem needsNoBloc_evalWord (word : String) : (evalWord word).NeedsNoBloc s := by
  unfold evalWord
  split
  · exact needsNoBloc_pure _
  refine (needsNoBloc_find word).bind fun f? ↦ ?_
  split
  · exact needsNoBloc_pure _
  refine NeedsNoBloc.bind (fun _ h ↦ Numeral.not_isNoOpenBloc_of_read h) fun number? ↦ ?_
  split
  · exact needsNoBloc_pure _
  refine (needsNoBloc_momentOfWord word).bind fun moment? ↦ ?_
  split
  · exact needsNoBloc_pure _
  refine (needsNoBloc_resourceOfWord? word).bind fun r? ↦ ?_
  split <;> exact needsNoBloc_pure _

theorem needsNoBloc_evalLexeme (line : String) (lexeme : Lexeme) :
    (evalLexeme evalWord line lexeme).NeedsNoBloc s := by
  cases lexeme with
  | word text => exact needsNoBloc_evalWord _
  | literal body =>
    rw [evalLexeme]
    split
    · exact needsNoBloc_pure _
    · rintro cause ⟨⟩ ⟨number, text, ⟨⟩⟩
  | unclosed => rintro cause ⟨⟩ ⟨number, text, ⟨⟩⟩

/-- A line that does not compile fails for another reason than want of an open bloc. -/
theorem needsNoBloc_compileLine (line : String) : (compileLine line).NeedsNoBloc s :=
  (NeedsNoBloc.mapM (needsNoBloc_evalLexeme line) _).bind fun _ ↦ needsNoBloc_pure _

theorem needsNoBloc_closedName {params : List Value} (hparams : ∀ p ∈ params, p.IsSource) :
    (closedName params).NeedsNoBloc s := by
  cases params with
  | nil => exact needsNoBloc_pure _
  | cons token rest =>
    exact fun cause h ↦ (hparams token List.mem_cons_self).not_isNoOpenBloc_of_blocName h

end

end Compiler

end ResourceScript
