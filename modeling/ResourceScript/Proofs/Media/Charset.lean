import Mathlib.Data.Bool.AllAny
import ResourceScript.Proofs.Media.RoundTrip
import ResourceScript.Proofs.Text.Case
import ResourceScript.Text.Encoding
/-!
# Plain text under the encodings that a content type names

Whatever encoding a content type names, texts are written in UTF-8; only reading obeys the name. So
a text of UTF-8 or of ASCII is read back, and a text of Latin-1 is read back exactly if it is ASCII
(`Media.decode_encode_plainText`). The content types are those that spell `text/plain` with or
without a parameter `charset`, in any case, with blanks and quotes (`Media.SpellsPlainText`).
-/

set_option autoImplicit false

namespace ResourceScript

open Text

namespace Text

theorem isAscii_of_asciiLower {c : Char} (hc : (asciiLower c).toNat < 0x80) : c.toNat < 0x80 := by
  rw [asciiLower] at hc
  split at hc
  · rename_i hupper
    have hle : c.toNat ≤ 0x5a := hupper.2
    omega
  · exact hc

end Text

namespace Media

/-! ### Spellings -/

/-- The quotes that may stand around the name of an encoding: none, or one on each side. -/
def IsQuote (quote : List Char) : Prop :=
  quote = [] ∨ quote = ['"'] ∨ quote = ['\'']

/-- Whether a character can stand in the name of an encoding. -/
def IsNameChar (c : Char) : Prop :=
  isSpace c = false ∧ c ≠ ';' ∧ c ≠ '"' ∧ c ≠ '\''

instance (c : Char) : Decidable (IsNameChar c) :=
  inferInstanceAs (Decidable (_ ∧ _ ∧ _ ∧ _))

/-- Whether nothing more of a value stands at the beginning of a text. -/
def EndsName (text : List Char) : Prop :=
  ∀ c, text.head? = some c → isSpace c = true ∨ c = ';'

/-- The spellings of the content type of plain text: its name in any case with white space around
it, and perhaps a parameter `charset` with the name of an encoding. -/
inductive SpellsPlainText : List Char → Charset → Prop
  /-- The name alone. -/
  | name {base : List Char} (hbase : (trim base).map asciiLower = text.name.toList) :
    SpellsPlainText base .utf8
  /-- The name and a parameter. -/
  | parameter {base gap key before after quote name rest : List Char} {encoding : Charset}
    (hbase : (trim base).map asciiLower = text.name.toList)
    (hgap : ∀ c ∈ gap, isSpace c = true)
    (hkey : key.map parameterLower = "charset".toList)
    (hbefore : ∀ c ∈ before, isSpace c = true) (hafter : ∀ c ∈ after, isSpace c = true)
    (hquote : IsQuote quote) (hname : ∀ c ∈ name, IsNameChar c) (hrest : EndsName rest)
    (hencoding : Charset.ofName? name = some encoding) :
    SpellsPlainText (base ++ ';' :: (gap ++ (key ++ (before ++ '=' :: (after ++
      ((quote ++ (name ++ quote)) ++ rest)))))) encoding

/-- The letters of the name of plain text. -/
theorem mem_base {base : List Char} (hbase : (trim base).map asciiLower = text.name.toList)
    {c : Char} (hc : c ∈ base) : isSpace c = true ∨ asciiLower c ∈ text.name.toList := by
  rcases mem_trim_or_isSpace hc with htrim | hspace
  · exact .inr (hbase ▸ List.mem_map_of_mem htrim)
  · exact .inl hspace

theorem isAscii_of_mem_trim {base : List Char}
    (hbase : (trim base).map asciiLower = text.name.toList) : ∀ c ∈ trim base, c.toNat < 0x80 := by
  intro c hc
  have hname : ∀ d ∈ text.name.toList, d.toNat < 0x80 :=
    List.all_iff_forall_prop.1 rfl
  exact isAscii_of_asciiLower (hname _ (hbase ▸ List.mem_map_of_mem hc))

/-- The part in front of the parameters decides the media type. -/
theorem ofContentType?_of_base {base : List Char}
    (hbase : (trim base).map asciiLower = text.name.toList) {contentType : List Char}
    (hcontentType : contentType = base ∨ ∃ rest, contentType = base ++ ';' :: rest) :
    ofContentType? (some (String.ofList contentType)) = some text := by
  have hsemicolon : ';' ∉ base := by
    intro hmem
    rcases mem_base hbase hmem with hspace | hname
    · exact absurd hspace (by decide)
    · exact absurd hname (by decide)
  have hhead : (splitOn ';' contentType).headD [] = base := by
    rcases hcontentType with rfl | ⟨rest, rfl⟩
    · rw [splitOn, splitOn_go_of_not_mem hsemicolon]
      rfl
    · rw [splitOn, splitOn_go_append hsemicolon]
      rfl
  have hne : String.ofList contentType ≠ "" := by
    intro hempty
    rw [String.ofList_eq_empty_iff] at hempty
    rw [hempty] at hhead
    rw [show base = [] from hhead.symm] at hbase
    exact absurd hbase (by decide)
  have hlower : lower (trim base) = text.name.toList := by
    rw [lower_of_isAscii (isAscii_of_mem_trim hbase), hbase]
  have hcanonical : canonical? (String.ofList contentType) = some text.name := by
    rw [canonical?, if_neg hne, String.toList_ofList, hhead]
    simp only [hlower, String.ofList_toList]
    rw [ofName?_name]
    rfl
  show (canonical? (String.ofList contentType)).bind ofName? = _
  rw [hcanonical]
  exact ofName?_name text

/-! ### The parameter -/

theorem parameterLower_of_isSpace {c : Char} (hc : isSpace c = true) : parameterLower c ≠ 'c' := by
  have hlow : ∀ d : Char, 'a' ≤ d ∧ d ≤ 'z' ∨ 'A' ≤ d ∧ d ≤ 'Z' → isSpace d = false := by
    intro d hd
    have hrange : 0x61 ≤ d.toNat ∧ d.toNat ≤ 0x7a ∨ 0x41 ≤ d.toNat ∧ d.toNat ≤ 0x5a := hd
    simp only [isSpace, Bool.or_eq_false_iff, Bool.and_eq_false_iff, decide_eq_false_iff_not,
      beq_eq_false_iff_ne]
    omega
  intro heq
  rw [parameterLower] at heq
  split at heq
  · exact absurd heq (by decide)
  · rw [asciiLower] at heq
    split at heq
    · rename_i hupper
      rw [hlow c (.inr hupper)] at hc
      cases hc
    · rw [heq] at hc
      exact absurd hc (by decide)

/-- The parameter does not begin where its first letter is missing. -/
theorem charsetName?_append {start : List Char} (hstart : ∀ c ∈ start, parameterLower c ≠ 'c')
    (rest : List Char) : charsetName? (start ++ rest) = charsetName? rest := by
  induction start with
  | nil => rfl
  | cons c more ih =>
    have hne : ((c :: (more ++ rest)).take 7).map parameterLower ≠ "charset".toList := by
      intro heq
      exact hstart c List.mem_cons_self (List.cons.inj heq).1
    rw [List.cons_append, charsetName?, if_neg hne,
      ih fun d hd ↦ hstart d (List.mem_cons_of_mem c hd)]

theorem parameterLower_of_mem_base {base : List Char}
    (hbase : (trim base).map asciiLower = text.name.toList) :
    ∀ c ∈ base, parameterLower c ≠ 'c' := by
  intro c hc
  rcases mem_base hbase hc with hspace | hname
  · exact parameterLower_of_isSpace hspace
  · intro heq
    have hlong : c ≠ 'ſ' := by
      rintro rfl
      exact absurd heq (by decide)
    rw [parameterLower, if_neg hlong] at heq
    rw [heq] at hname
    exact absurd hname (by decide)

/-- A name between quotes ends in front of white space or the next parameter. -/
theorem takeWhile_name {quoted rest : List Char}
    (hquoted : ∀ c ∈ quoted, isSpace c = false ∧ c ≠ ';') (hrest : EndsName rest) :
    (quoted ++ rest).takeWhile (fun c ↦ !isSpace c && c != ';') = quoted := by
  have hall : ∀ c ∈ quoted, (!isSpace c && c != ';') = true := by
    intro c hc
    simpa using hquoted c hc
  rw [List.takeWhile_append_of_pos hall]
  cases rest with
  | nil => rw [List.takeWhile_nil, List.append_nil]
  | cons c more =>
    have hc : (!isSpace c && c != ';') = false := by
      rcases hrest c rfl with hspace | hsemicolon
      · rw [hspace]
        rfl
      · rw [hsemicolon]
        rfl
    rw [List.takeWhile_cons, hc]
    exact List.append_nil _

/-- Stripping the quotes of both kinds leaves the name. -/
theorem trim_quote {quote name : List Char} (hquote : IsQuote quote)
    (hname : ∀ c ∈ name, IsNameChar c) :
    trimEndBy (· == '\'') (trimStartBy (· == '\'') (trimEndBy (· == '"') (trimStartBy (· == '"')
      (quote ++ (name ++ quote))))) = name := by
  have hdouble : ∀ c ∈ name, (c == '"') = false := fun c hc ↦ beq_false_of_ne (hname c hc).2.2.1
  have hsingle : ∀ c ∈ name, (c == '\'') = false := fun c hc ↦ beq_false_of_ne (hname c hc).2.2.2
  rcases hquote with rfl | rfl | rfl
  · rw [List.append_nil, List.nil_append, trimBy_eq_self _ hdouble, trimBy_eq_self _ hsingle]
  · rw [trimBy_append _ (List.forall_mem_singleton.2 rfl) hdouble, trimBy_eq_self _ hsingle]
  · have hquoted : ∀ c ∈ ['\''] ++ (name ++ ['\'']), (c == '"') = false := by
      simp only [List.forall_mem_append]
      exact ⟨List.forall_mem_singleton.2 rfl, hdouble, List.forall_mem_singleton.2 rfl⟩
    rw [trimBy_eq_self _ hquoted, trimBy_append _ (List.forall_mem_singleton.2 rfl) hsingle]

/-- The name behind the parameter is found. -/
theorem charsetName?_parameter {base gap key before after quote name rest : List Char}
    (hbase : (trim base).map asciiLower = text.name.toList) (hgap : ∀ c ∈ gap, isSpace c = true)
    (hkey : key.map parameterLower = "charset".toList) (hbefore : ∀ c ∈ before, isSpace c = true)
    (hafter : ∀ c ∈ after, isSpace c = true) (hquote : IsQuote quote)
    (hname : ∀ c ∈ name, IsNameChar c) (hne : name ≠ []) (hrest : EndsName rest) :
    charsetName? (base ++ ';' :: (gap ++ (key ++ (before ++ '=' :: (after ++
      ((quote ++ (name ++ quote)) ++ rest)))))) = some name := by
  have hquoted : ∀ c ∈ quote ++ (name ++ quote), isSpace c = false ∧ c ≠ ';' := by
    have hmark : ∀ c ∈ quote, isSpace c = false ∧ c ≠ ';' := by
      rcases hquote with rfl | rfl | rfl <;> exact List.all_iff_forall_prop.1 rfl
    simp only [List.forall_mem_append]
    exact ⟨hmark, fun c hc ↦ ⟨(hname c hc).1, (hname c hc).2.1⟩, hmark⟩
  have hstart : ∀ c ∈ base ++ ';' :: gap, parameterLower c ≠ 'c' := by
    simp only [List.forall_mem_append, List.forall_mem_cons]
    exact ⟨parameterLower_of_mem_base hbase, by decide,
      fun c hc ↦ parameterLower_of_isSpace (hgap c hc)⟩
  have hlength : key.length = 7 := by
    have hmap := congrArg List.length hkey
    rwa [List.length_map] at hmap
  have hvalue : ∀ c, ((quote ++ (name ++ quote)) ++ rest).head? = some c → isSpace c = false := by
    intro c hc
    have hfilled : quote ++ (name ++ quote) ≠ [] := by simp [hne]
    rw [List.head?_append_of_ne_nil _ hfilled] at hc
    exact (hquoted c (List.mem_of_head? hc)).1
  obtain ⟨k, more, rfl⟩ := List.exists_cons_of_length_pos (hlength ▸ Nat.succ_pos 6 : 0 < key.length)
  have happend : ∀ value : List Char, base ++ ';' :: (gap ++ value) = (base ++ ';' :: gap) ++ value :=
    fun value ↦ by simp
  rw [happend, charsetName?_append hstart, List.cons_append, charsetName?, ← List.cons_append,
    List.take_left' hlength, if_pos hkey, List.drop_left' hlength,
    dropWhile_append_of_head hbefore (by rintro c ⟨rfl⟩; decide)]
  show (let found := List.takeWhile (fun c ↦ !isSpace c && c != ';') (List.dropWhile isSpace (after ++
      ((quote ++ (name ++ quote)) ++ rest)))
    if found.isEmpty then charsetName? _
    else some (trimEndBy (· == '\'') (trimStartBy (· == '\'')
      (trimEndBy (· == '"') (trimStartBy (· == '"') found))))) = _
  rw [dropWhile_append_of_head hafter hvalue, takeWhile_name hquoted hrest]
  have hempty : (quote ++ (name ++ quote)).isEmpty = false := by simp [hne]
  simp only [hempty, trim_quote hquote hname]
  rfl

/-! ### The encoding -/

/-- A spelling of plain text is read as plain text in the encoding that it names. -/
theorem SpellsPlainText.resolves {contentType : List Char} {encoding : Charset}
    (h : SpellsPlainText contentType encoding) :
    ofContentType? (some (String.ofList contentType)) = some text ∧
      charset (some (String.ofList contentType)) = encoding := by
  cases h with
  | name hbase =>
    refine ⟨ofContentType?_of_base hbase (.inl rfl), ?_⟩
    have hnone := charsetName?_append (parameterLower_of_mem_base hbase) []
    rw [List.append_nil] at hnone
    show ((charsetName? (String.ofList contentType).toList).bind _).getD _ = _
    rw [String.toList_ofList, hnone]
    rfl
  | @parameter base gap key before after quote name rest _ hbase hgap hkey hbefore hafter hquote hname
      hrest hencoding =>
    refine ⟨ofContentType?_of_base hbase (.inr ⟨_, rfl⟩), ?_⟩
    have hne : name ≠ [] := by
      rintro rfl
      have hnone : Charset.ofName? [] = none := rfl
      rw [hnone] at hencoding
      cases hencoding
    show ((charsetName? (String.ofList _).toList).bind _).getD _ = _
    rw [String.toList_ofList,
      charsetName?_parameter hbase hgap hkey hbefore hafter hquote hname hne hrest]
    show (Charset.ofName? name).getD _ = _
    rw [hencoding]
    rfl

theorem write_text (s : String) : text.write (.text s) = .ok s.toList :=
  Data.render_text s

theorem makes_pure_text_iff (s t : String) :
    Script.Makes (pure (.text s)) (.text t) ↔ s = t := by
  have hmakes : Script.Makes (pure (.text s)) (.text s) := fun jobs w ↦
    ⟨.text s, w, rfl, .refl w, rfl⟩
  constructor
  · intro hother
    have hsame := hmakes.unique hother
    cases hsame
    rfl
  · rintro rfl
    exact hmakes

/-- Reading the UTF-8 form of a text of an encoding gives the text back: always for UTF-8 and ASCII,
and exactly for ASCII texts for Latin-1. -/
theorem decode_utf8_eq_iff {encoding : Charset}
    (hencoding : encoding = .utf8 ∨ encoding = .ascii ∨ encoding = .latin1) {chars : List Char}
    (hchars : ∀ c ∈ chars, (encoding.encodeChar? c).isSome) :
    encoding.decode (Utf8.encode chars) = chars ↔
      (encoding = .latin1 → ∀ c ∈ chars, c.toNat < 0x80) := by
  rcases hencoding with rfl | rfl | rfl
  · exact iff_of_true (Utf8.decode_encode chars) nofun
  · have hascii : ∀ c ∈ chars, c.toNat < 0x80 := by
      intro c hc
      by_contra hbeyond
      have hsome := hchars c hc
      rw [Charset.encodeChar?, if_neg hbeyond] at hsome
      cases hsome
    refine iff_of_true ?_ nofun
    rw [Charset.decode, Utf8.encode_of_isAscii hascii, List.map_map]
    refine (List.map_congr_left fun c hc ↦ ?_).trans (List.map_id chars)
    have hc := hascii c hc
    show (if (UInt8.ofNat c.toNat).toNat < 0x80 then _ else _) = c
    rw [Utf8.toNat_ofNat_of_isAscii hc, if_pos hc, Char.ofNat_toNat]
  · constructor
    · intro hsame _
      rw [← Utf8.length_encode_eq_iff]
      have hlength := congrArg List.length hsame
      rwa [Charset.decode, List.length_map] at hlength
    · intro hascii
      rw [Charset.decode, Utf8.encode_of_isAscii (hascii rfl), List.map_map]
      refine (List.map_congr_left fun c hc ↦ ?_).trans (List.map_id chars)
      show Char.ofNat (UInt8.ofNat c.toNat).toNat = c
      rw [Utf8.toNat_ofNat_of_isAscii (hascii rfl c hc), Char.ofNat_toNat]

/-- A text that an encoding can represent, written as plain text in that encoding, is read back
exactly if the encoding is not Latin-1 or the text is ASCII. -/
theorem decode_encode_plainText {contentType : List Char} {encoding : Charset}
    (hspells : SpellsPlainText contentType encoding)
    (hencoding : encoding = .utf8 ∨ encoding = .ascii ∨ encoding = .latin1) {s : String}
    (hchars : ∀ c ∈ s.toList, (encoding.encodeChar? c).isSome) :
    ∃ bytes, encode (some (String.ofList contentType)) (.text s) = .ok bytes ∧
      (Script.Makes (Script.decode (some (String.ofList contentType)) (.bytes bytes)) (.text s) ↔
        (encoding = .latin1 → ∀ c ∈ s.toList, c.toNat < 0x80)) := by
  obtain ⟨hmedia, hcharset⟩ := hspells.resolves
  refine ⟨Utf8.encode s.toList, ?_, ?_⟩
  · rw [encode, hmedia]
    simp only [write_text]
    rfl
  · have hdecode : Script.decode (some (String.ofList contentType)) (.bytes (Utf8.encode s.toList)) =
        pure (.text (String.ofList (encoding.decode (Utf8.encode s.toList)))) := by
      rw [Script.decode, hmedia]
      show Script.readMedia text ((charset _).decode _) = _
      rw [hcharset]
      rfl
    rw [hdecode, makes_pure_text_iff, ← decode_utf8_eq_iff hencoding hchars]
    constructor
    · intro hsame
      exact (String.toList_ofList.symm.trans (congrArg String.toList hsame))
    · intro hsame
      rw [hsame, String.ofList_toList]

/-- The name in capital letters, a parameter with blanks and quotes, and a letter of Latin-1 beyond
ASCII: the text is not read back. -/
theorem decode_encode_plainText_latin1 :
    let contentType := "Text/PLAIN ; CharSet = \"ISO-8859-1\";q=1".toList
    SpellsPlainText contentType .latin1 ∧
      (∀ c ∈ "é".toList, (Charset.latin1.encodeChar? c).isSome) ∧
      ∃ bytes, encode (some (String.ofList contentType)) (.text "é") = .ok bytes ∧
        ¬ Script.Makes (Script.decode (some (String.ofList contentType)) (.bytes bytes)) (.text "é") := by
  intro contentType
  have hrest : EndsName ";q=1".toList := by
    rintro c ⟨rfl⟩
    exact .inr rfl
  have hblank : ∀ c ∈ [' '], isSpace c = true := List.forall_mem_singleton.2 rfl
  have hspells : SpellsPlainText contentType .latin1 :=
    @SpellsPlainText.parameter "Text/PLAIN ".toList [' '] "CharSet".toList [' '] [' '] ['"']
      "ISO-8859-1".toList ";q=1".toList .latin1 rfl hblank rfl hblank hblank (.inr (.inl rfl))
      (List.all_iff_forall_prop.1 rfl) hrest rfl
  have hchars : ∀ c ∈ "é".toList, (Charset.latin1.encodeChar? c).isSome :=
    List.forall_mem_singleton.2 rfl
  obtain ⟨bytes, hencode, hiff⟩ := decode_encode_plainText hspells (.inr (.inr rfl)) hchars
  refine ⟨hspells, hchars, bytes, hencode, ?_⟩
  rw [hiff]
  intro hascii
  exact absurd (hascii rfl _ List.mem_cons_self) (by decide)

end Media

end ResourceScript
