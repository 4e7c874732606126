import ResourceScript.Text.Utf8
/-!
# UTF-8 is undone by decoding

The bytes of a character decode to the character in front of any bytes (`decodeParts_encodeChar`),
so an encoded text decodes to the text (`decode_encode`). A leading byte promises exactly the
continuation bytes that were written, and its range for the first of them holds the one that was.
ASCII characters are their own bytes, and all others take several (`length_encode_eq_iff`).

The code points that have bytes are those of texts (`encodePoints?_eq_some_iff`): a surrogate has none
(`encodePoints?_of_surrogate`).
-/

set_option autoImplicit false

namespace ResourceScript.Text.Utf8

/-- A character is no surrogate and no greater than the last code point. -/
theorem toNat_ranges (c : Char) : c.toNat < 0xd800 ∨ 0xdfff < c.toNat ∧ c.toNat < 0x110000 := by
  have hvalid := c.valid
  simp only [UInt32.isValidChar, Nat.isValidChar] at hvalid
  exact hvalid

theorem toNat_continuation (n : Nat) : (continuation n).toNat = 0x80 + n % 64 := by
  have hmod : n % 64 < 64 := Nat.mod_lt n (by decide)
  rw [continuation, UInt8.toNat_ofNat']
  omega

/-- A continuation byte between the bounds is read and adds its six bits. -/
theorem follow_continuation {bits count least greatest n : Nat} {rest : List UInt8}
    (hleast : least ≤ 0x80 + n % 64) (hgreatest : 0x80 + n % 64 ≤ greatest) :
    follow bits (count + 1) least greatest (continuation n :: rest) =
      follow (bits * 64 + n % 64) count 0x80 0xbf rest := by
  rw [follow, toNat_continuation, if_pos ⟨hleast, hgreatest⟩, Nat.add_sub_cancel_left]

theorem decodeParts_lead {byte : Nat} {rest : List UInt8} {count least greatest bits : Nat}
    (hbyte : byte < 0x100) (hlead : lead? byte = some (count, least, greatest, bits)) :
    decodeParts (UInt8.ofNat byte :: rest) =
      (follow bits count least greatest rest).1.map Char.ofNat ::
        decodeParts (follow bits count least greatest rest).2 := by
  have htoNat : (UInt8.ofNat byte).toNat = byte := by
    rw [UInt8.toNat_ofNat']
    omega
  have hlarge : ¬ byte < 0x80 := by
    intro hsmall
    rw [lead?] at hlead
    simp only [show ¬ 0xc2 ≤ byte by omega, show byte ≠ 0xe0 by omega, show byte ≠ 0xed by omega,
      show ¬ 0xe1 ≤ byte by omega, show byte ≠ 0xf0 by omega, show ¬ 0xf1 ≤ byte by omega,
      show byte ≠ 0xf4 by omega, false_and, if_false, reduceCtorEq] at hlead
  rw [decodeParts, htoNat, if_neg hlarge, hlead]

/-- The leading byte of a two-byte character carries the bits above the low six. -/
theorem lead_two {n : Nat} (hleast : 0x80 ≤ n) (hgreatest : n < 0x800) :
    lead? (0xc0 + n / 64) = some (1, 0x80, 0xbf, n / 64) := by
  have hrange : 0xc2 ≤ 0xc0 + n / 64 ∧ 0xc0 + n / 64 ≤ 0xdf := by omega
  rw [lead?, if_pos hrange, Nat.add_sub_cancel_left]

/-- The leading byte of a three-byte character bounds the next byte so that neither a shorter form
nor a surrogate can follow. -/
theorem lead_three {n : Nat} (hleast : 0x800 ≤ n) (hgreatest : n < 0x10000)
    (hchar : n < 0xd800 ∨ 0xdfff < n) :
    ∃ least greatest, lead? (0xe0 + n / 4096) = some (2, least, greatest, n / 4096) ∧
      least ≤ 0x80 + n / 64 % 64 ∧ 0x80 + n / 64 % 64 ≤ greatest := by
  have hnot : ¬ (0xc2 ≤ 0xe0 + n / 4096 ∧ 0xe0 + n / 4096 ≤ 0xdf) := by omega
  rw [lead?, if_neg hnot]
  by_cases hfirst : 0xe0 + n / 4096 = 0xe0
  · exact ⟨0xa0, 0xbf, by rw [if_pos hfirst, show n / 4096 = 0 by omega], by omega, by omega⟩
  by_cases hsurrogate : 0xe0 + n / 4096 = 0xed
  · exact ⟨0x80, 0x9f, by rw [if_neg hfirst, if_pos hsurrogate, show n / 4096 = 0xd by omega],
      by omega, by omega⟩
  have hrange : 0xe1 ≤ 0xe0 + n / 4096 ∧ 0xe0 + n / 4096 ≤ 0xef := by omega
  exact ⟨0x80, 0xbf, by rw [if_neg hfirst, if_neg hsurrogate, if_pos hrange,
    Nat.add_sub_cancel_left], by omega, by omega⟩

/-- The leading byte of a four-byte character bounds the next byte so that neither a shorter form
nor a number beyond the last code point can follow. -/
theorem lead_four {n : Nat} (hleast : 0x10000 ≤ n) (hgreatest : n < 0x110000) :
    ∃ least greatest, lead? (0xf0 + n / 262144) = some (3, least, greatest, n / 262144) ∧
      least ≤ 0x80 + n / 4096 % 64 ∧ 0x80 + n / 4096 % 64 ≤ greatest := by
  have htwo : ¬ (0xc2 ≤ 0xf0 + n / 262144 ∧ 0xf0 + n / 262144 ≤ 0xdf) := by omega
  have hthree : ¬ (0xe1 ≤ 0xf0 + n / 262144 ∧ 0xf0 + n / 262144 ≤ 0xef) := by omega
  rw [lead?, if_neg htwo, if_neg (show 0xf0 + n / 262144 ≠ 0xe0 by omega),
    if_neg (show 0xf0 + n / 262144 ≠ 0xed by omega), if_neg hthree]
  by_cases hfirst : 0xf0 + n / 262144 = 0xf0
  · exact ⟨0x90, 0xbf, by rw [if_pos hfirst, show n / 262144 = 0 by omega], by omega, by omega⟩
  by_cases hlast : 0xf0 + n / 262144 = 0xf4
  · have hnot : ¬ (0xf1 ≤ 0xf0 + n / 262144 ∧ 0xf0 + n / 262144 ≤ 0xf3) := by omega
    exact ⟨0x80, 0x8f, by rw [if_neg hfirst, if_neg hnot, if_pos hlast,
      show n / 262144 = 4 by omega], by omega, by omega⟩
  have hrange : 0xf1 ≤ 0xf0 + n / 262144 ∧ 0xf0 + n / 262144 ≤ 0xf3 := by omega
  exact ⟨0x80, 0xbf, by rw [if_neg hfirst, if_pos hrange, Nat.add_sub_cancel_left], by omega,
    by omega⟩

/-- The bytes of a character decode to the character. -/
theorem decodeParts_encodeChar (c : Char) (rest : List UInt8) :
    decodeParts (encodeChar c ++ rest) = some c :: decodeParts rest := by
  have hranges := toNat_ranges c
  have hchar : Char.ofNat c.toNat = c := Char.ofNat_toNat c
  generalize hn : c.toNat = n at hranges hchar
  have hcontinued : ∀ m, 0x80 ≤ 0x80 + m % 64 ∧ 0x80 + m % 64 ≤ 0xbf := by omega
  rw [encodeChar, hn]
  by_cases hone : n < 0x80
  · have htoNat : (UInt8.ofNat n).toNat = n := by
      rw [UInt8.toNat_ofNat']
      omega
    rw [if_pos hone, List.singleton_append, decodeParts, htoNat, if_pos hone, hchar]
  rw [if_neg hone]
  by_cases htwo : n < 0x800
  · rw [if_pos htwo, List.cons_append, decodeParts_lead (by omega) (lead_two (by omega) htwo)]
    have hsum : n / 64 * 64 + n % 64 = n := by omega
    rw [List.singleton_append, follow_continuation (hcontinued n).1 (hcontinued n).2, follow, hsum,
      Option.map_some, hchar]
  rw [if_neg htwo]
  by_cases hthree : n < 0x10000
  · obtain ⟨least, greatest, hlead, hleast, hgreatest⟩ :=
      lead_three (by omega) hthree (by omega)
    rw [if_pos hthree, List.cons_append, decodeParts_lead (by omega) hlead]
    have hsum : (n / 4096 * 64 + n / 64 % 64) * 64 + n % 64 = n := by omega
    rw [List.cons_append, follow_continuation hleast hgreatest, List.singleton_append,
      follow_continuation (hcontinued n).1 (hcontinued n).2, follow, hsum, Option.map_some, hchar]
  · have hlarge : 0x10000 ≤ n := by omega
    obtain ⟨least, greatest, hlead, hleast, hgreatest⟩ := lead_four hlarge (by omega)
    rw [if_neg hthree, List.cons_append, decodeParts_lead (by omega) hlead]
    have hsum : ((n / 262144 * 64 + n / 4096 % 64) * 64 + n / 64 % 64) * 64 + n % 64 = n := by
      omega
    rw [List.cons_append, follow_continuation hleast hgreatest, List.cons_append,
      follow_continuation (hcontinued _).1 (hcontinued _).2, List.singleton_append,
      follow_continuation (hcontinued n).1 (hcontinued n).2, follow, hsum, Option.map_some, hchar]

/-- Decoding undoes encoding. -/
theorem decode_encode (text : List Char) : decode (encode text) = text := by
  have hparts : decodeParts (encode text) = text.map some := by
    induction text with
    | nil => simp [encode, decodeParts]
    | cons c rest ih =>
      rw [encode, List.flatMap_cons, decodeParts_encodeChar, List.map_cons]
      exact congrArg _ ih
  rw [decode, hparts, List.map_map]
  exact List.map_id _

/-! ### Code points -/

theorem encodePoint?_toNat (c : Char) : encodePoint? c.toNat = some (encodeChar c) := by
  have hvalid : c.toNat.isValidChar := c.valid
  rw [encodePoint?, if_pos hvalid, Char.ofNat_toNat]

/-- The code points of a text have the bytes of the text. -/
theorem encodePoints?_map_toNat (text : List Char) :
    encodePoints? (text.map Char.toNat) = some (encode text) := by
  have hbytes : (text.map Char.toNat).mapM encodePoint? = some (text.map encodeChar) := by
    induction text with
    | nil => rfl
    | cons c rest ih => simp [encodePoint?_toNat, ih]
  rw [encodePoints?, hbytes]
  rfl

theorem exists_text_of_mapM {points : List Nat} {parts : List (List UInt8)}
    (hparts : points.mapM encodePoint? = some parts) :
    ∃ text : List Char, text.map Char.toNat = points := by
  induction points generalizing parts with
  | nil => exact ⟨[], rfl⟩
  | cons n rest ih =>
    simp only [List.mapM_cons, Option.bind_eq_bind, Option.bind_eq_some_iff] at hparts
    obtain ⟨part, hpart, more, hmore, -⟩ := hparts
    obtain ⟨text, htext⟩ := ih hmore
    have hvalid : n.isValidChar := by
      unfold encodePoint? at hpart
      split at hpart
      · assumption
      · cases hpart
    have htoNat : (Char.ofNat n).toNat = n := by
      rw [Char.ofNat, dif_pos hvalid]
      rfl
    exact ⟨Char.ofNat n :: text, by rw [List.map_cons, htoNat, htext]⟩

/-- Code points have bytes exactly when they are those of a text. -/
theorem encodePoints?_eq_some_iff {points : List Nat} {bytes : List UInt8} :
    encodePoints? points = some bytes ↔
      ∃ text : List Char, text.map Char.toNat = points ∧ encode text = bytes := by
  constructor
  · intro hbytes
    obtain ⟨parts, hparts, -⟩ := Option.map_eq_some_iff.1 hbytes
    obtain ⟨text, rfl⟩ := exists_text_of_mapM hparts
    rw [encodePoints?_map_toNat] at hbytes
    exact ⟨text, rfl, Option.some.inj hbytes⟩
  · rintro ⟨text, rfl, rfl⟩
    exact encodePoints?_map_toNat text

/-- Code points with half a surrogate pair among them have no bytes. -/
theorem encodePoints?_of_surrogate {points : List Nat} {n : Nat} (hn : n ∈ points)
    (hleast : 0xd800 ≤ n) (hgreatest : n ≤ 0xdfff) : encodePoints? points = none := by
  rcases hbytes : encodePoints? points with _ | bytes
  · rfl
  · obtain ⟨text, rfl, -⟩ := encodePoints?_eq_some_iff.1 hbytes
    obtain ⟨c, -, rfl⟩ := List.mem_map.1 hn
    have hrange := toNat_ranges c
    omega

theorem toNat_ofNat_of_isAscii {c : Char} (hc : c.toNat < 0x80) :
    (UInt8.ofNat c.toNat).toNat = c.toNat := by
  rw [UInt8.toNat_ofNat']
  omega

/-- ASCII characters are their own bytes. -/
theorem encode_of_isAscii {text : List Char} (htext : ∀ c ∈ text, c.toNat < 0x80) :
    encode text = text.map fun c ↦ UInt8.ofNat c.toNat := by
  induction text with
  | nil => rfl
  | cons c rest ih =>
    have hrest := ih fun d hd ↦ htext d (List.mem_cons_of_mem c hd)
    rw [encode] at hrest ⊢
    rw [List.flatMap_cons, encodeChar, if_pos (htext c List.mem_cons_self), hrest]
    rfl

/-- A text takes as many bytes as it has characters exactly if it is ASCII. -/
theorem length_encode_eq_iff {text : List Char} :
    (encode text).length = text.length ↔ ∀ c ∈ text, c.toNat < 0x80 := by
  have hchar : ∀ c, 1 ≤ (encodeChar c).length ∧
      ((encodeChar c).length = 1 ↔ c.toNat < 0x80) := by
    intro c
    rw [encodeChar]
    by_cases hone : c.toNat < 0x80
    · simp [hone]
    · rw [if_neg hone]
      split
      · simp [hone]
      · split <;> simp [hone]
  have hleast : ∀ rest, rest.length ≤ (encode rest).length := by
    intro rest
    induction rest with
    | nil => exact Nat.le_refl _
    | cons c rest ih =>
      have hc := (hchar c).1
      simp only [encode, List.flatMap_cons, List.length_append, List.length_cons] at ih ⊢
      omega
  induction text with
  | nil => exact iff_of_true rfl nofun
  | cons c rest ih =>
    obtain ⟨hc, hone⟩ := hchar c
    have hrest := hleast rest
    have hall : (∀ d ∈ rest, d.toNat < 0x80) ↔ (encode rest).length = rest.length := ih.symm
    rw [List.forall_mem_cons, hall, ← hone]
    simp only [encode, List.flatMap_cons, List.length_append, List.length_cons] at hrest ⊢
    omega

end ResourceScript.Text.Utf8
