import TwoPhase.Text.Bytes

/-!
# Digests and name-based identifiers

For SHA-1 the message is padded to whole blocks of 64 bytes, and each block is mixed into a state of five words.
A version 5 UUID is the digest of a name inside a name space, cut to 16 bytes with version and variant written
over it.
-/

namespace TwoPhase

namespace Sha1

structure State where
  a : UInt32
  b : UInt32
  c : UInt32
  d : UInt32
  e : UInt32

def State.initial : State :=
  ⟨0x67452301, 0xefcdab89, 0x98badcfe, 0x10325476, 0xc3d2e1f0⟩

def State.add (x y : State) : State :=
  ⟨x.a + y.a, x.b + y.b, x.c + y.c, x.d + y.d, x.e + y.e⟩

def rotateLeft (x : UInt32) (n : UInt32) : UInt32 :=
  (x <<< n) ||| (x >>> (32 - n))

/-- The bytes of a number, the highest first. -/
def bigEndian : Nat → Nat → Bytes
  | 0, _ => []
  | k + 1, n => bigEndian k (n / 256) ++ [UInt8.ofNat n]

/-- A one bit, zeros and the length in bits, up to a whole number of blocks. -/
def padded (m : Bytes) : Bytes :=
  let zeros := (119 - m.length % 64) % 64
  m ++ 0x80 :: List.replicate zeros 0 ++ bigEndian 8 (8 * m.length)

def word (a b c d : UInt8) : UInt32 :=
  (a.toUInt32 <<< 24) ||| (b.toUInt32 <<< 16) ||| (c.toUInt32 <<< 8) ||| d.toUInt32

def words : Bytes → List UInt32
  | a :: b :: c :: d :: rest => word a b c d :: words rest
  | _ => []

/-- Extends the 16 words of a block to the 80 words of the schedule. -/
def schedule (block : Array UInt32) : Array UInt32 :=
  (List.range 64).foldl (fun w k =>
    let i := k + 16
    let x := w.getD (i - 3) 0 ^^^ w.getD (i - 8) 0 ^^^ w.getD (i - 14) 0 ^^^ w.getD (i - 16) 0
    w.push (rotateLeft x 1)) block

/-- The mixing function and the constant of a round. -/
def round (i : Nat) (b c d : UInt32) : UInt32 × UInt32 :=
  if i < 20 then ((b &&& c) ||| (~~~b &&& d), 0x5a827999)
  else if i < 40 then (b ^^^ c ^^^ d, 0x6ed9eba1)
  else if i < 60 then ((b &&& c) ||| (b &&& d) ||| (c &&& d), 0x8f1bbcdc)
  else (b ^^^ c ^^^ d, 0xca62c1d6)

def mix (s : State) (block : Array UInt32) : State :=
  let w := schedule block
  let out := (List.range 80).foldl (fun (x : State) i =>
    let (f, k) := round i x.b x.c x.d
    ⟨rotateLeft x.a 5 + f + x.e + k + w.getD i 0, x.a, rotateLeft x.b 30, x.c, x.d⟩) s
  s.add out

/-- Mixes the words of whole blocks, at most `n` of them. -/
def blocks : Nat → List UInt32 → State → State
  | 0, _, s => s
  | n + 1, ws, s =>
    if ws.isEmpty then s else blocks n (ws.drop 16) (mix s (ws.take 16).toArray)

def wordBytes (x : UInt32) : Bytes :=
  bigEndian 4 x.toNat

/-- The 20 bytes of the digest. -/
def digest (m : Bytes) : Bytes :=
  let ws := words (padded m)
  let s := blocks (ws.length / 16) ws State.initial
  wordBytes s.a ++ wordBytes s.b ++ wordBytes s.c ++ wordBytes s.d ++ wordBytes s.e

end Sha1

namespace Uuid

/-- The name space of URLs. -/
def urlSpace : Bytes :=
  [0x6b, 0xa7, 0xb8, 0x11, 0x9d, 0xad, 0x11, 0xd1, 0x80, 0xb4, 0x00, 0xc0, 0x4f, 0xd4, 0x30, 0xc8]

/-- The name space of object identifiers. -/
def oidSpace : Bytes :=
  [0x6b, 0xa7, 0xb8, 0x12, 0x9d, 0xad, 0x11, 0xd1, 0x80, 0xb4, 0x00, 0xc0, 0x4f, 0xd4, 0x30, 0xc8]

/-- Writes version 5 and the standard variant over 16 bytes. -/
def stamp (b : Bytes) : Bytes :=
  (b.modify 6 fun x => (x &&& 0x0f) ||| 0x50).modify 8 fun x => (x &&& 0x3f) ||| 0x80

/-- Groups of 8, 4, 4, 4 and 12 hexadecimal digits. -/
def text (b : Bytes) : String :=
  let part (i n : Nat) : String := Bytes.hex ((b.drop i).take n)
  "-".intercalate [part 0 4, part 4 2, part 6 2, part 8 2, part 10 6]

/-- The identifier of `name` in a name space. -/
def ofName (space name : Bytes) : String :=
  text (stamp ((Sha1.digest (space ++ name)).take 16))

end Uuid

end TwoPhase
