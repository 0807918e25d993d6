import TwoPhase.Text.Bytes
import TwoPhase.Text.CaseMap
import TwoPhase.Text.CharClass

/-!
# Character sets

`Charset.ofName?` knows the registered names of the character sets below, without regard to case and to
white space around them. `Charset.decode` reads bytes and gives U+FFFD for what does not decode. Of the
Chinese character set only the ideographs of this program's own phrases and the word for `comment` are
tabulated.
-/

namespace TwoPhase

inductive Charset where
  | ascii
  | latin1
  | latin9
  | windows1251
  | windows1252
  | koi8r
  | utf8
  | utf16
  | utf16be
  | utf16le
  | gbk
  | gb18030
  | hz
  | shiftJis
  deriving DecidableEq

namespace Charset

def names : Charset → List String
  | ascii => ["us-ascii", "iso-ir-6", "ansi_x3.4-1968", "ansi_x3.4-1986", "iso_646.irv:1991",
      "iso646-us", "us", "ibm367", "cp367", "csascii"]
  | latin1 => ["iso-8859-1", "iso_8859-1:1987", "iso-ir-100", "iso_8859-1", "latin1", "l1", "ibm819",
      "cp819", "csisolatin1"]
  | latin9 => ["iso-8859-15", "iso_8859-15", "latin-9", "csiso885915"]
  | windows1251 => ["windows-1251", "cswindows1251"]
  | windows1252 => ["windows-1252", "cswindows1252"]
  | koi8r => ["koi8-r", "cskoi8r"]
  | utf8 => ["utf-8", "csutf8"]
  | utf16 => ["utf-16", "csutf16"]
  | utf16be => ["utf-16be", "csutf16be"]
  | utf16le => ["utf-16le", "csutf16le"]
  | gbk => ["gbk", "cp936", "ms936", "windows-936", "csgbk"]
  | gb18030 => ["gb18030", "csgb18030"]
  | hz => ["hz-gb-2312"]
  | shiftJis => ["shift_jis", "ms_kanji", "csshiftjis"]

def all : List Charset :=
  [ascii, latin1, latin9, windows1251, windows1252, koi8r, utf8, utf16, utf16be, utf16le, gbk,
    gb18030, hz, shiftJis]

def ofName? (name : String) : Option Charset :=
  let name := Text.lower (Text.trim name)
  all.find? fun c => c.names.contains name

/-! ## Tables for the bytes from 80 to FF -/

def latin9Table : List Nat :=
  [0xfffd, 0xfffd, 0xfffd, 0xfffd, 0xfffd, 0xfffd, 0xfffd, 0xfffd, 0xfffd, 0xfffd, 0xfffd, 0xfffd,
   0xfffd, 0xfffd, 0xfffd, 0xfffd, 0xfffd, 0xfffd, 0xfffd, 0xfffd, 0xfffd, 0xfffd, 0xfffd, 0xfffd,
   0xfffd, 0xfffd, 0xfffd, 0xfffd, 0xfffd, 0xfffd, 0xfffd, 0xfffd, 0xa0, 0xa1, 0xa2, 0xa3, 0x20ac,
   0xa5, 0x160, 0xa7, 0x161, 0xa9, 0xaa, 0xab, 0xac, 0xad, 0xae, 0xaf, 0xb0, 0xb1, 0xb2, 0xb3,
   0x17d, 0xb5, 0xb6, 0xb7, 0x17e, 0xb9, 0xba, 0xbb, 0x152, 0x153, 0x178, 0xbf, 0xc0, 0xc1, 0xc2,
   0xc3, 0xc4, 0xc5, 0xc6, 0xc7, 0xc8, 0xc9, 0xca, 0xcb, 0xcc, 0xcd, 0xce, 0xcf, 0xd0, 0xd1, 0xd2,
   0xd3, 0xd4, 0xd5, 0xd6, 0xd7, 0xd8, 0xd9, 0xda, 0xdb, 0xdc, 0xdd, 0xde, 0xdf, 0xe0, 0xe1, 0xe2,
   0xe3, 0xe4, 0xe5, 0xe6, 0xe7, 0xe8, 0xe9, 0xea, 0xeb, 0xec, 0xed, 0xee, 0xef, 0xf0, 0xf1, 0xf2,
   0xf3, 0xf4, 0xf5, 0xf6, 0xf7, 0xf8, 0xf9, 0xfa, 0xfb, 0xfc, 0xfd, 0xfe, 0xff]

def windows1251Table : List Nat :=
  [0x402, 0x403, 0x201a, 0x453, 0x201e, 0x2026, 0x2020, 0x2021, 0x20ac, 0x2030, 0x409, 0x2039,
   0x40a, 0x40c, 0x40b, 0x40f, 0x452, 0x2018, 0x2019, 0x201c, 0x201d, 0x2022, 0x2013, 0x2014,
   0xfffd, 0x2122, 0x459, 0x203a, 0x45a, 0x45c, 0x45b, 0x45f, 0xa0, 0x40e, 0x45e, 0x408, 0xa4,
   0x490, 0xa6, 0xa7, 0x401, 0xa9, 0x404, 0xab, 0xac, 0xad, 0xae, 0x407, 0xb0, 0xb1, 0x406, 0x456,
   0x491, 0xb5, 0xb6, 0xb7, 0x451, 0x2116, 0x454, 0xbb, 0x458, 0x405, 0x455, 0x457, 0x410, 0x411,
   0x412, 0x413, 0x414, 0x415, 0x416, 0x417, 0x418, 0x419, 0x41a, 0x41b, 0x41c, 0x41d, 0x41e,
   0x41f, 0x420, 0x421, 0x422, 0x423, 0x424, 0x425, 0x426, 0x427, 0x428, 0x429, 0x42a, 0x42b,
   0x42c, 0x42d, 0x42e, 0x42f, 0x430, 0x431, 0x432, 0x433, 0x434, 0x435, 0x436, 0x437, 0x438,
   0x439, 0x43a, 0x43b, 0x43c, 0x43d, 0x43e, 0x43f, 0x440, 0x441, 0x442, 0x443, 0x444, 0x445,
   0x446, 0x447, 0x448, 0x449, 0x44a, 0x44b, 0x44c, 0x44d, 0x44e, 0x44f]

def windows1252Table : List Nat :=
  [0x20ac, 0xfffd, 0x201a, 0x192, 0x201e, 0x2026, 0x2020, 0x2021, 0x2c6, 0x2030, 0x160, 0x2039,
   0x152, 0xfffd, 0x17d, 0xfffd, 0xfffd, 0x2018, 0x2019, 0x201c, 0x201d, 0x2022, 0x2013, 0x2014,
   0x2dc, 0x2122, 0x161, 0x203a, 0x153, 0xfffd, 0x17e, 0x178, 0xa0, 0xa1, 0xa2, 0xa3, 0xa4, 0xa5,
   0xa6, 0xa7, 0xa8, 0xa9, 0xaa, 0xab, 0xac, 0xad, 0xae, 0xaf, 0xb0, 0xb1, 0xb2, 0xb3, 0xb4, 0xb5,
   0xb6, 0xb7, 0xb8, 0xb9, 0xba, 0xbb, 0xbc, 0xbd, 0xbe, 0xbf, 0xc0, 0xc1, 0xc2, 0xc3, 0xc4, 0xc5,
   0xc6, 0xc7, 0xc8, 0xc9, 0xca, 0xcb, 0xcc, 0xcd, 0xce, 0xcf, 0xd0, 0xd1, 0xd2, 0xd3, 0xd4, 0xd5,
   0xd6, 0xd7, 0xd8, 0xd9, 0xda, 0xdb, 0xdc, 0xdd, 0xde, 0xdf, 0xe0, 0xe1, 0xe2, 0xe3, 0xe4, 0xe5,
   0xe6, 0xe7, 0xe8, 0xe9, 0xea, 0xeb, 0xec, 0xed, 0xee, 0xef, 0xf0, 0xf1, 0xf2, 0xf3, 0xf4, 0xf5,
   0xf6, 0xf7, 0xf8, 0xf9, 0xfa, 0xfb, 0xfc, 0xfd, 0xfe, 0xff]

def koi8rTable : List Nat :=
  [0x2500, 0x2502, 0x250c, 0x2510, 0x2514, 0x2518, 0x251c, 0x2524, 0x252c, 0x2534, 0x253c, 0x2580,
   0x2584, 0x2588, 0x258c, 0x2590, 0x2591, 0x2592, 0x2593, 0x2320, 0x25a0, 0x2219, 0x221a, 0x2248,
   0x2264, 0x2265, 0xa0, 0x2321, 0xb0, 0xb2, 0xb7, 0xf7, 0x2550, 0x2551, 0x2552, 0x451, 0x2553,
   0x2554, 0x2555, 0x2556, 0x2557, 0x2558, 0x2559, 0x255a, 0x255b, 0x255c, 0x255d, 0x255e, 0x255f,
   0x2560, 0x2561, 0x401, 0x2562, 0x2563, 0x2564, 0x2565, 0x2566, 0x2567, 0x2568, 0x2569, 0x256a,
   0x256b, 0x256c, 0xa9, 0x44e, 0x430, 0x431, 0x446, 0x434, 0x435, 0x444, 0x433, 0x445, 0x438,
   0x439, 0x43a, 0x43b, 0x43c, 0x43d, 0x43e, 0x43f, 0x44f, 0x440, 0x441, 0x442, 0x443, 0x436,
   0x432, 0x44c, 0x44b, 0x437, 0x448, 0x44d, 0x449, 0x447, 0x44a, 0x42e, 0x410, 0x411, 0x426,
   0x414, 0x415, 0x424, 0x413, 0x425, 0x418, 0x419, 0x41a, 0x41b, 0x41c, 0x41d, 0x41e, 0x41f,
   0x42f, 0x420, 0x421, 0x422, 0x423, 0x416, 0x412, 0x42c, 0x42b, 0x417, 0x428, 0x42d, 0x429,
   0x427, 0x42a]

/-- Ideographs by their two bytes. -/
def gbkTable : List (Nat × Nat) :=
  [(0xb0b4, 0x6309), (0xb0e5, 0x677f), (0xb1ea, 0x6807), (0xb2bb, 0x4e0d), (0xb3c6, 0x79f0),
   (0xb3c9, 0x6210), (0xb3f6, 0x51fa), (0xb4fa, 0x4ee3), (0xb5a5, 0x5355), (0xb5bc, 0x5bfc),
   (0xb5bd, 0x5230), (0xb5c4, 0x7684), (0xb6a8, 0x5b9a), (0xb6bc, 0x90fd), (0xb7a2, 0x53d1),
   (0xb7ad, 0x7ffb), (0xb7d6, 0x5206), (0xb8c3, 0x8be5), (0xb8f6, 0x4e2a), (0xbac4, 0x8017),
   (0xbace, 0x4f55), (0xbbf2, 0x6216), (0xbbf9, 0x57fa), (0xbcfe, 0x4ef6), (0xbedd, 0x636e),
   (0xbedf, 0x5177), (0xbfaa, 0x5f00), (0xbfc9, 0x53ef), (0xc0b5, 0x8d56), (0xc0e0, 0x7c7b),
   (0xc2eb, 0x7801), (0xc3fb, 0x540d), (0xc4a3, 0x6a21), (0xc4dc, 0x80fd), (0xc8ce, 0x4efb),
   (0xcab1, 0x65f6), (0xcab6, 0x8bc6), (0xcab9, 0x4f7f), (0xcabc, 0x59cb), (0xcacd, 0x91ca),
   (0xcafd, 0x6570), (0xcce2, 0x9898), (0xcda3, 0x505c), (0xcdea, 0x5b8c), (0xceaa, 0x4e3a),
   (0xcec4, 0x6587), (0xceca, 0x95ee), (0xcef6, 0x6790), (0xcfc2, 0x4e0b), (0xcfd6, 0x73b0),
   (0xcfde, 0x9650), (0xd0d0, 0x884c), (0xd2c0, 0x4f9d), (0xd2d1, 0x5df2), (0xd2eb, 0x8bd1),
   (0xd2fd, 0x5f15), (0xd3a6, 0x5e94), (0xd3c3, 0x7528), (0xd3d0, 0x6709), (0xd3da, 0x4e8e),
   (0xd3f2, 0x57df), (0xd4aa, 0x5143), (0xd4da, 0x5728), (0xd5d2, 0x627e), (0xd6b9, 0x6b62),
   (0xd6d0, 0x4e2d), (0xd7a2, 0x6ce8), (0xd7dc, 0x603b), (0xd7f7, 0x4f5c)]

def replacement : Char := '�'

/-- One character a byte; `table` has the upper half. -/
def single (table : List Nat) (b : UInt8) : Char :=
  if b.toNat < 0x80 then Char.ofNat b.toNat
  else match table[b.toNat - 0x80]? with
    | some n => Char.ofNat n
    | none => replacement

/-! ## Encodings of several bytes -/

/-- A decoding step: the character, if any, and how many bytes it takes. -/
abbrev Step := Option Char × Nat

/-- Reads characters one after the other; a step takes at least one byte. -/
def steps (step : Bytes → Step) : Nat → Bytes → List Char
  | 0, _ => []
  | _, [] => []
  | fuel + 1, b =>
    let (c, n) := step b
    c.toList ++ steps step fuel (b.drop (max n 1))

/-- How many bytes of an ill-formed sequence count as one mistake: those that could start a character. -/
def illFormed (a : Nat) (rest : Bytes) : Nat :=
  let isTail (x : UInt8) : Bool := 0x80 ≤ x && x < 0xc0
  let (lo, hi) :=
    if a = 0xe0 then (0xa0, 0xbf)
    else if a = 0xed then (0x80, 0x9f)
    else if a = 0xf0 then (0x90, 0xbf)
    else if a = 0xf4 then (0x80, 0x8f)
    else (0x80, 0xbf)
  let size := if 0xc2 ≤ a ∧ a < 0xe0 then 2 else if 0xe0 ≤ a ∧ a < 0xf0 then 3
    else if 0xf0 ≤ a ∧ a < 0xf5 then 4 else 1
  match rest with
  | b :: rest =>
    if size = 1 ∨ b.toNat < lo ∨ hi < b.toNat then 1
    else match rest with
      | c :: _ => if size < 4 ∨ !isTail c then 2 else 3
      | [] => 2
  | [] => 1

def stepUtf8 : Bytes → Step
  | [] => (none, 1)
  | b :: rest =>
    if b.toNat < 0x80 then (some (Char.ofNat b.toNat), 1)
    else match Bytes.sequence? b rest with
      | some (c, n) => (some c, n + 1)
      | none => (some replacement, illFormed b.toNat rest)

def unit (big : Bool) (a b : UInt8) : Nat :=
  if big then a.toNat * 256 + b.toNat else b.toNat * 256 + a.toNat

/-- A unit of 16 bits, or two that make a pair. -/
def stepUtf16 (big : Bool) : Bytes → Step
  | a :: b :: rest =>
    let u := unit big a b
    if 0xd800 ≤ u ∧ u < 0xe000 then
      match rest with
      | c :: d :: _ =>
        let v := unit big c d
        if 0xdc00 ≤ v ∧ v < 0xe000 then
          if u < 0xdc00 then
            (some (Char.ofNat (0x10000 + (u - 0xd800) * 1024 + (v - 0xdc00))), 4)
          else (some replacement, 4)
        else (some replacement, 2)
      | _ => (some replacement, 2)
    else (some (Char.ofNat u), 2)
  | _ => (some replacement, 1)

/-- Two bytes, or four if `long` is set. -/
def stepGbk (long : Bool) : Bytes → Step
  | [] => (none, 1)
  | a :: rest =>
    if a.toNat < 0x80 then (some (Char.ofNat a.toNat), 1)
    else if a = 0x80 then (some '€', 1)
    else if a = 0xff then (some replacement, 1)
    else match rest with
      | [] => (some replacement, 1)
      | b :: rest =>
        if (0x40 ≤ b ∧ b < 0x7f) ∨ (0x80 ≤ b ∧ b < 0xff) then
          match gbkTable.lookup (a.toNat * 256 + b.toNat) with
          | some n => (some (Char.ofNat n), 2)
          | none => (some replacement, 2)
        else if long ∧ 0x30 ≤ b ∧ b < 0x3a then
          match rest with
          | c :: d :: _ =>
            if 0x81 ≤ c ∧ c < 0xff ∧ 0x30 ≤ d ∧ d < 0x3a then
              let n := (((a.toNat - 0x81) * 10 + (b.toNat - 0x30)) * 126 + (c.toNat - 0x81)) * 10
                + (d.toNat - 0x30)
              if 189000 ≤ n ∧ n - 189000 < 0x100000 then (some (Char.ofNat (n - 189000 + 0x10000)), 4)
              else (some replacement, 1)
            else (some replacement, 1)
          | _ => (some replacement, 1)
        else (some replacement, 1)

def stepShiftJis : Bytes → Step
  | [] => (none, 1)
  | a :: rest =>
    let n := a.toNat
    if n ≤ 0x80 then (some (Char.ofNat n), 1)
    else if 0xa1 ≤ n ∧ n < 0xe0 then (some (Char.ofNat (n + (0xff61 - 0xa1))), 1)
    else if (0x81 ≤ n ∧ n < 0xa0) ∨ (0xe0 ≤ n ∧ n < 0xfd) then
      match rest with
      | [] => (some replacement, 1)
      | b :: _ => if b < 0x40 ∨ b = 0x7f then (some replacement, 1) else (some replacement, 2)
    else (some replacement, 1)

/-- Seven-bit text with shifts: between the two shift marks, two bytes make a character. -/
def decodeHz : Nat → Bool → Bytes → List Char
  | 0, _, _ => []
  | _, _, [] => []
  | fuel + 1, shifted, a :: rest =>
    if 0x80 ≤ a then replacement :: decodeHz fuel shifted rest
    else if a = 0x7e then
      match rest with
      | 0x7b :: rest => decodeHz fuel true rest
      | 0x7d :: rest => decodeHz fuel false rest
      | 0x7e :: rest => '~' :: decodeHz fuel shifted rest
      | 0x0a :: rest => decodeHz fuel shifted rest
      | _ :: rest => replacement :: decodeHz fuel shifted rest
      | [] => [replacement]
    else if shifted then
      match rest with
      | [] => [replacement]
      | b :: tail =>
        match gbkTable.lookup ((a.toNat + 0x80) * 256 + (b.toNat + 0x80)) with
        | some n => Char.ofNat n :: decodeHz fuel shifted tail
        | none => replacement :: decodeHz fuel shifted (if 0x80 ≤ b then rest else tail)
    else Char.ofNat a.toNat :: decodeHz fuel shifted rest

/-- The characters of a line. -/
def decode (cs : Charset) (b : Bytes) : List Char :=
  match cs with
  | ascii => b.map (single [])
  | latin1 => b.map fun x => Char.ofNat x.toNat
  | latin9 => b.map (single latin9Table)
  | windows1251 => b.map (single windows1251Table)
  | windows1252 => b.map (single windows1252Table)
  | koi8r => b.map (single koi8rTable)
  | utf8 => steps stepUtf8 b.length b
  | utf16 =>
    match b with
    | 0xfe :: 0xff :: rest => steps (stepUtf16 true) rest.length rest
    | 0xff :: 0xfe :: rest => steps (stepUtf16 false) rest.length rest
    | _ => steps (stepUtf16 true) b.length b
  | utf16be => steps (stepUtf16 true) b.length b
  | utf16le => steps (stepUtf16 false) b.length b
  | gbk => steps (stepGbk false) b.length b
  | gb18030 => steps (stepGbk true) b.length b
  | hz => decodeHz (b.length + 1) false b
  | shiftJis => steps stepShiftJis b.length b

end Charset

/-- Text in a named character set as UTF-8. An empty name and the plain names of UTF-8 leave the bytes as
they are, and so do names that are not known. -/
def convertCharset (name : String) (b : Bytes) : Bytes :=
  if name = "" ∨ Text.lower name = "utf8" ∨ Text.lower name = "utf-8" then b
  else match Charset.ofName? name with
    | some cs => Bytes.ofChars (cs.decode b)
    | none => b

end TwoPhase
