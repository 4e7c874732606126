import ResourceScript.Text.Case
import ResourceScript.Text.Utf8
/-!
# Character encodings

The encodings that a content type can name, found by their usual names, and the decoding of bytes
by each of them. Bytes that an encoding does not define become replacement characters.
-/

set_option autoImplicit false

namespace ResourceScript.Text

/-- A character encoding. -/
inductive Charset where
  /-- UTF-8. -/
  | utf8
  /-- UTF-8 with an optional byte order mark. -/
  | utf8Marked
  /-- Seven-bit ASCII. -/
  | ascii
  /-- ISO 8859-1: each byte is its code point. -/
  | latin1
  /-- UTF-16 in a given byte order. -/
  | utf16 (bigEndian : Bool)
  /-- UTF-16 whose byte order is given by a mark, little-endian without one. -/
  | utf16Marked
  /-- UTF-32 in a given byte order. -/
  | utf32 (bigEndian : Bool)
  /-- UTF-32 whose byte order is given by a mark, little-endian without one. -/
  | utf32Marked
  /-- One byte per character: ASCII below, a table above. -/
  | single (table : Array Nat)

namespace Charset

/-- The upper half of Windows code page 1252. -/
def windows1252Table : Array Nat :=
  #[0x20ac, 0xfffd, 0x201a, 0x192, 0x201e, 0x2026, 0x2020, 0x2021, 0x2c6, 0x2030, 0x160, 0x2039,
    0x152, 0xfffd, 0x17d, 0xfffd, 0xfffd, 0x2018, 0x2019, 0x201c, 0x201d, 0x2022, 0x2013, 0x2014,
    0x2dc, 0x2122, 0x161, 0x203a, 0x153, 0xfffd, 0x17e, 0x178, 0xa0, 0xa1, 0xa2, 0xa3,
    0xa4, 0xa5, 0xa6, 0xa7, 0xa8, 0xa9, 0xaa, 0xab, 0xac, 0xad, 0xae, 0xaf,
    0xb0, 0xb1, 0xb2, 0xb3, 0xb4, 0xb5, 0xb6, 0xb7, 0xb8, 0xb9, 0xba, 0xbb,
    0xbc, 0xbd, 0xbe, 0xbf, 0xc0, 0xc1, 0xc2, 0xc3, 0xc4, 0xc5, 0xc6, 0xc7,
    0xc8, 0xc9, 0xca, 0xcb, 0xcc, 0xcd, 0xce, 0xcf, 0xd0, 0xd1, 0xd2, 0xd3,
    0xd4, 0xd5, 0xd6, 0xd7, 0xd8, 0xd9, 0xda, 0xdb, 0xdc, 0xdd, 0xde, 0xdf,
    0xe0, 0xe1, 0xe2, 0xe3, 0xe4, 0xe5, 0xe6, 0xe7, 0xe8, 0xe9, 0xea, 0xeb,
    0xec, 0xed, 0xee, 0xef, 0xf0, 0xf1, 0xf2, 0xf3, 0xf4, 0xf5, 0xf6, 0xf7,
    0xf8, 0xf9, 0xfa, 0xfb, 0xfc, 0xfd, 0xfe, 0xff]

/-- The upper half of Windows code page 1250. -/
def windows1250Table : Array Nat :=
  #[0x20ac, 0xfffd, 0x201a, 0xfffd, 0x201e, 0x2026, 0x2020, 0x2021, 0xfffd, 0x2030, 0x160, 0x2039,
    0x15a, 0x164, 0x17d, 0x179, 0xfffd, 0x2018, 0x2019, 0x201c, 0x201d, 0x2022, 0x2013, 0x2014,
    0xfffd, 0x2122, 0x161, 0x203a, 0x15b, 0x165, 0x17e, 0x17a, 0xa0, 0x2c7, 0x2d8, 0x141,
    0xa4, 0x104, 0xa6, 0xa7, 0xa8, 0xa9, 0x15e, 0xab, 0xac, 0xad, 0xae, 0x17b,
    0xb0, 0xb1, 0x2db, 0x142, 0xb4, 0xb5, 0xb6, 0xb7, 0xb8, 0x105, 0x15f, 0xbb,
    0x13d, 0x2dd, 0x13e, 0x17c, 0x154, 0xc1, 0xc2, 0x102, 0xc4, 0x139, 0x106, 0xc7,
    0x10c, 0xc9, 0x118, 0xcb, 0x11a, 0xcd, 0xce, 0x10e, 0x110, 0x143, 0x147, 0xd3,
    0xd4, 0x150, 0xd6, 0xd7, 0x158, 0x16e, 0xda, 0x170, 0xdc, 0xdd, 0x162, 0xdf,
    0x155, 0xe1, 0xe2, 0x103, 0xe4, 0x13a, 0x107, 0xe7, 0x10d, 0xe9, 0x119, 0xeb,
    0x11b, 0xed, 0xee, 0x10f, 0x111, 0x144, 0x148, 0xf3, 0xf4, 0x151, 0xf6, 0xf7,
    0x159, 0x16f, 0xfa, 0x171, 0xfc, 0xfd, 0x163, 0x2d9]

/-- The upper half of Windows code page 1251. -/
def windows1251Table : Array Nat :=
  #[0x402, 0x403, 0x201a, 0x453, 0x201e, 0x2026, 0x2020, 0x2021, 0x20ac, 0x2030, 0x409, 0x2039,
    0x40a, 0x40c, 0x40b, 0x40f, 0x452, 0x2018, 0x2019, 0x201c, 0x201d, 0x2022, 0x2013, 0x2014,
    0xfffd, 0x2122, 0x459, 0x203a, 0x45a, 0x45c, 0x45b, 0x45f, 0xa0, 0x40e, 0x45e, 0x408,
    0xa4, 0x490, 0xa6, 0xa7, 0x401, 0xa9, 0x404, 0xab, 0xac, 0xad, 0xae, 0x407,
    0xb0, 0xb1, 0x406, 0x456, 0x491, 0xb5, 0xb6, 0xb7, 0x451, 0x2116, 0x454, 0xbb,
    0x458, 0x405, 0x455, 0x457, 0x410, 0x411, 0x412, 0x413, 0x414, 0x415, 0x416, 0x417,
    0x418, 0x419, 0x41a, 0x41b, 0x41c, 0x41d, 0x41e, 0x41f, 0x420, 0x421, 0x422, 0x423,
    0x424, 0x425, 0x426, 0x427, 0x428, 0x429, 0x42a, 0x42b, 0x42c, 0x42d, 0x42e, 0x42f,
    0x430, 0x431, 0x432, 0x433, 0x434, 0x435, 0x436, 0x437, 0x438, 0x439, 0x43a, 0x43b,
    0x43c, 0x43d, 0x43e, 0x43f, 0x440, 0x441, 0x442, 0x443, 0x444, 0x445, 0x446, 0x447,
    0x448, 0x449, 0x44a, 0x44b, 0x44c, 0x44d, 0x44e, 0x44f]

/-- The upper half of ISO 8859-2. -/
def latin2Table : Array Nat :=
  #[0x80, 0x81, 0x82, 0x83, 0x84, 0x85, 0x86, 0x87, 0x88, 0x89, 0x8a, 0x8b,
    0x8c, 0x8d, 0x8e, 0x8f, 0x90, 0x91, 0x92, 0x93, 0x94, 0x95, 0x96, 0x97,
    0x98, 0x99, 0x9a, 0x9b, 0x9c, 0x9d, 0x9e, 0x9f, 0xa0, 0x104, 0x2d8, 0x141,
    0xa4, 0x13d, 0x15a, 0xa7, 0xa8, 0x160, 0x15e, 0x164, 0x179, 0xad, 0x17d, 0x17b,
    0xb0, 0x105, 0x2db, 0x142, 0xb4, 0x13e, 0x15b, 0x2c7, 0xb8, 0x161, 0x15f, 0x165,
    0x17a, 0x2dd, 0x17e, 0x17c, 0x154, 0xc1, 0xc2, 0x102, 0xc4, 0x139, 0x106, 0xc7,
    0x10c, 0xc9, 0x118, 0xcb, 0x11a, 0xcd, 0xce, 0x10e, 0x110, 0x143, 0x147, 0xd3,
    0xd4, 0x150, 0xd6, 0xd7, 0x158, 0x16e, 0xda, 0x170, 0xdc, 0xdd, 0x162, 0xdf,
    0x155, 0xe1, 0xe2, 0x103, 0xe4, 0x13a, 0x107, 0xe7, 0x10d, 0xe9, 0x119, 0xeb,
    0x11b, 0xed, 0xee, 0x10f, 0x111, 0x144, 0x148, 0xf3, 0xf4, 0x151, 0xf6, 0xf7,
    0x159, 0x16f, 0xfa, 0x171, 0xfc, 0xfd, 0x163, 0x2d9]

/-- The upper half of ISO 8859-15. -/
def latin9Table : Array Nat :=
  #[0x80, 0x81, 0x82, 0x83, 0x84, 0x85, 0x86, 0x87, 0x88, 0x89, 0x8a, 0x8b,
    0x8c, 0x8d, 0x8e, 0x8f, 0x90, 0x91, 0x92, 0x93, 0x94, 0x95, 0x96, 0x97,
    0x98, 0x99, 0x9a, 0x9b, 0x9c, 0x9d, 0x9e, 0x9f, 0xa0, 0xa1, 0xa2, 0xa3,
    0x20ac, 0xa5, 0x160, 0xa7, 0x161, 0xa9, 0xaa, 0xab, 0xac, 0xad, 0xae, 0xaf,
    0xb0, 0xb1, 0xb2, 0xb3, 0x17d, 0xb5, 0xb6, 0xb7, 0x17e, 0xb9, 0xba, 0xbb,
    0x152, 0x153, 0x178, 0xbf, 0xc0, 0xc1, 0xc2, 0xc3, 0xc4, 0xc5, 0xc6, 0xc7,
    0xc8, 0xc9, 0xca, 0xcb, 0xcc, 0xcd, 0xce, 0xcf, 0xd0, 0xd1, 0xd2, 0xd3,
    0xd4, 0xd5, 0xd6, 0xd7, 0xd8, 0xd9, 0xda, 0xdb, 0xdc, 0xdd, 0xde, 0xdf,
    0xe0, 0xe1, 0xe2, 0xe3, 0xe4, 0xe5, 0xe6, 0xe7, 0xe8, 0xe9, 0xea, 0xeb,
    0xec, 0xed, 0xee, 0xef, 0xf0, 0xf1, 0xf2, 0xf3, 0xf4, 0xf5, 0xf6, 0xf7,
    0xf8, 0xf9, 0xfa, 0xfb, 0xfc, 0xfd, 0xfe, 0xff]

/-- The upper half of KOI8-R. -/
def koi8rTable : Array Nat :=
  #[0x2500, 0x2502, 0x250c, 0x2510, 0x2514, 0x2518, 0x251c, 0x2524, 0x252c, 0x2534, 0x253c, 0x2580,
    0x2584, 0x2588, 0x258c, 0x2590, 0x2591, 0x2592, 0x2593, 0x2320, 0x25a0, 0x2219, 0x221a, 0x2248,
    0x2264, 0x2265, 0xa0, 0x2321, 0xb0, 0xb2, 0xb7, 0xf7, 0x2550, 0x2551, 0x2552, 0x451,
    0x2553, 0x2554, 0x2555, 0x2556, 0x2557, 0x2558, 0x2559, 0x255a, 0x255b, 0x255c, 0x255d, 0x255e,
    0x255f, 0x2560, 0x2561, 0x401, 0x2562, 0x2563, 0x2564, 0x2565, 0x2566, 0x2567, 0x2568, 0x2569,
    0x256a, 0x256b, 0x256c, 0xa9, 0x44e, 0x430, 0x431, 0x446, 0x434, 0x435, 0x444, 0x433,
    0x445, 0x438, 0x439, 0x43a, 0x43b, 0x43c, 0x43d, 0x43e, 0x43f, 0x44f, 0x440, 0x441,
    0x442, 0x443, 0x436, 0x432, 0x44c, 0x44b, 0x437, 0x448, 0x44d, 0x449, 0x447, 0x44a,
    0x42e, 0x410, 0x411, 0x426, 0x414, 0x415, 0x424, 0x413, 0x425, 0x418, 0x419, 0x41a,
    0x41b, 0x41c, 0x41d, 0x41e, 0x41f, 0x42f, 0x420, 0x421, 0x422, 0x423, 0x416, 0x412,
    0x42c, 0x42b, 0x417, 0x428, 0x42d, 0x429, 0x427, 0x42a]

/-- The upper half of IBM code page 437. -/
def ibm437Table : Array Nat :=
  #[0xc7, 0xfc, 0xe9, 0xe2, 0xe4, 0xe0, 0xe5, 0xe7, 0xea, 0xeb, 0xe8, 0xef,
    0xee, 0xec, 0xc4, 0xc5, 0xc9, 0xe6, 0xc6, 0xf4, 0xf6, 0xf2, 0xfb, 0xf9,
    0xff, 0xd6, 0xdc, 0xa2, 0xa3, 0xa5, 0x20a7, 0x192, 0xe1, 0xed, 0xf3, 0xfa,
    0xf1, 0xd1, 0xaa, 0xba, 0xbf, 0x2310, 0xac, 0xbd, 0xbc, 0xa1, 0xab, 0xbb,
    0x2591, 0x2592, 0x2593, 0x2502, 0x2524, 0x2561, 0x2562, 0x2556, 0x2555, 0x2563, 0x2551, 0x2557,
    0x255d, 0x255c, 0x255b, 0x2510, 0x2514, 0x2534, 0x252c, 0x251c, 0x2500, 0x253c, 0x255e, 0x255f,
    0x255a, 0x2554, 0x2569, 0x2566, 0x2560, 0x2550, 0x256c, 0x2567, 0x2568, 0x2564, 0x2565, 0x2559,
    0x2558, 0x2552, 0x2553, 0x256b, 0x256a, 0x2518, 0x250c, 0x2588, 0x2584, 0x258c, 0x2590, 0x2580,
    0x3b1, 0xdf, 0x393, 0x3c0, 0x3a3, 0x3c3, 0xb5, 0x3c4, 0x3a6, 0x398, 0x3a9, 0x3b4,
    0x221e, 0x3c6, 0x3b5, 0x2229, 0x2261, 0xb1, 0x2265, 0x2264, 0x2320, 0x2321, 0xf7, 0x2248,
    0xb0, 0x2219, 0xb7, 0x221a, 0x207f, 0xb2, 0x25a0, 0xa0]

/-- The characters that make up the parts of a name. -/
def isNamePart (c : Char) : Bool :=
  isAsciiLetter c || isAsciiDigit c || c == '.'

/-- The name of an encoding in the form in which names are compared: lower case, with one low line
for every run of characters between its parts. -/
def normalName (name : List Char) : List Char :=
  go false ((name.map asciiLower).dropWhile fun c => !isNamePart c)
where
  /-- Normalises the rest of a name; `gap` tells whether other characters were just seen. -/
  go (gap : Bool) : List Char → List Char
    | [] => []
    | c :: rest =>
      if isNamePart c then
        if gap then '_' :: c :: go false rest else c :: go false rest
      else go true rest

/-- The encoding of a proper name in normal form. -/
def ofProperName? : String → Option Charset
  | "utf_8" => some .utf8
  | "utf_8_sig" => some .utf8Marked
  | "ascii" => some .ascii
  | "latin_1" => some .latin1
  | "utf_16" => some .utf16Marked
  | "utf_16_le" => some (.utf16 false)
  | "utf_16_be" => some (.utf16 true)
  | "utf_32" => some .utf32Marked
  | "utf_32_le" => some (.utf32 false)
  | "utf_32_be" => some (.utf32 true)
  | "cp1252" => some (.single windows1252Table)
  | "cp1250" => some (.single windows1250Table)
  | "cp1251" => some (.single windows1251Table)
  | "iso8859_2" => some (.single latin2Table)
  | "iso8859_15" => some (.single latin9Table)
  | "koi8_r" => some (.single koi8rTable)
  | "cp437" => some (.single ibm437Table)
  | _ => none

/-- The encoding of another name in normal form. -/
def ofAlias? : String → Option Charset
  | "utf8" | "u8" | "utf" | "cp65001" | "utf8_ucs2" | "utf8_ucs4" => some .utf8
  | "us_ascii" | "us" | "646" | "ansi_x3_4_1968" | "ansi_x3.4_1968" | "ansi_x3.4_1986" | "iso646_us"
  | "iso_ir_6" | "ibm367" | "cp367" | "csascii" | "iso_646.irv_1991" => some .ascii
  | "latin1" | "latin" | "l1" | "iso8859_1" | "iso_8859_1" | "iso8859" | "8859" | "cp819" | "ibm819"
  | "iso_ir_100" | "csisolatin1" | "iso_8859_1_1987" => some .latin1
  | "utf16" | "u16" => some .utf16Marked
  | "utf_16le" | "unicodelittleunmarked" => some (.utf16 false)
  | "utf_16be" | "unicodebigunmarked" => some (.utf16 true)
  | "utf32" | "u32" => some .utf32Marked
  | "utf_32le" => some (.utf32 false)
  | "utf_32be" => some (.utf32 true)
  | "windows_1252" | "1252" => some (.single windows1252Table)
  | "windows_1250" | "1250" => some (.single windows1250Table)
  | "windows_1251" | "1251" => some (.single windows1251Table)
  | "iso_8859_2" | "iso_8859_2_1987" | "latin2" | "l2" | "csisolatin2" | "iso_ir_101" =>
    some (.single latin2Table)
  | "iso_8859_15" | "latin9" | "l9" => some (.single latin9Table)
  | "cskoi8r" => some (.single koi8rTable)
  | "437" | "ibm437" | "cspc8codepage437" => some (.single ibm437Table)
  | _ => none

/-- The encoding of a name. A name with points is none of the proper ones, but the points may stand
for the low lines of another name. -/
def ofName? (name : List Char) : Option Charset :=
  let normal := normalName name
  if normal.contains '.' then
    (ofAlias? (String.ofList normal)).or
      (ofAlias? (String.ofList (normal.map fun c => if c = '.' then '_' else c)))
  else (ofAlias? (String.ofList normal)).or (ofProperName? (String.ofList normal))

/-- The code units of two bytes. -/
def units16 (bigEndian : Bool) : List UInt8 → List Nat × Bool
  | [] => ([], false)
  | [_] => ([], true)
  | a :: b :: rest =>
    let unit := if bigEndian then a.toNat * 256 + b.toNat else b.toNat * 256 + a.toNat
    let (units, cut) := units16 bigEndian rest
    (unit :: units, cut)

/-- The characters of UTF-16 code units; a surrogate without its partner is replaced. -/
def ofUnits16 : List Nat → List Char
  | [] => []
  | [u] => if 0xd800 ≤ u ∧ u ≤ 0xdfff then [replacement] else [Char.ofNat u]
  | u :: v :: rest =>
    if 0xd800 ≤ u ∧ u ≤ 0xdbff ∧ 0xdc00 ≤ v ∧ v ≤ 0xdfff then
      Char.ofNat (0x10000 + (u - 0xd800) * 1024 + (v - 0xdc00)) :: ofUnits16 rest
    else if 0xd800 ≤ u ∧ u ≤ 0xdfff then replacement :: ofUnits16 (v :: rest)
    else Char.ofNat u :: ofUnits16 (v :: rest)

/-- Decodes UTF-16; an odd byte at the end is replaced. -/
def decode16 (bigEndian : Bool) (bytes : List UInt8) : List Char :=
  let (units, cut) := units16 bigEndian bytes
  ofUnits16 units ++ (if cut then [replacement] else [])

/-- Decodes UTF-32; what is no character is replaced. -/
def decode32 (bigEndian : Bool) : List UInt8 → List Char
  | a :: b :: c :: d :: rest =>
    let n :=
      if bigEndian then ((a.toNat * 256 + b.toNat) * 256 + c.toNat) * 256 + d.toNat
      else ((d.toNat * 256 + c.toNat) * 256 + b.toNat) * 256 + a.toNat
    (if n < 0xd800 ∨ (0xdfff < n ∧ n < 0x110000) then Char.ofNat n else replacement) ::
      decode32 bigEndian rest
  | [] => []
  | _ => [replacement]

/-- Decodes bytes by an encoding. -/
def decode : Charset → List UInt8 → List Char
  | utf8, bytes => Utf8.decode bytes
  | utf8Marked, bytes =>
    match bytes with
    | 0xef :: 0xbb :: 0xbf :: rest => Utf8.decode rest
    | _ => Utf8.decode bytes
  | ascii, bytes => bytes.map fun b => if b.toNat < 0x80 then Char.ofNat b.toNat else replacement
  | latin1, bytes => bytes.map fun b => Char.ofNat b.toNat
  | utf16 bigEndian, bytes => decode16 bigEndian bytes
  | utf16Marked, bytes =>
    match bytes with
    | 0xff :: 0xfe :: rest => decode16 false rest
    | 0xfe :: 0xff :: rest => decode16 true rest
    | _ => decode16 false bytes
  | utf32 bigEndian, bytes => decode32 bigEndian bytes
  | utf32Marked, bytes =>
    match bytes with
    | 0xff :: 0xfe :: 0 :: 0 :: rest => decode32 false rest
    | 0 :: 0 :: 0xfe :: 0xff :: rest => decode32 true rest
    | _ => decode32 false bytes
  | single table, bytes => bytes.map fun b =>
    if b.toNat < 0x80 then Char.ofNat b.toNat
    else Char.ofNat ((table[b.toNat - 0x80]?).getD 0xfffd)

end Charset

end ResourceScript.Text
