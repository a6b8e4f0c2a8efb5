/-!
# SHA-1

The 160-bit digest of a byte string. The message is padded to whole blocks of 64 bytes, and each
block is mixed into a chain of five words in eighty rounds. Main statement: `length_digest`, a
digest has twenty bytes.
-/

namespace RasterIrq.Sha1

/-- The five words that are carried from block to block. -/
structure Chain where
  a : UInt32
  b : UInt32
  c : UInt32
  d : UInt32
  e : UInt32
deriving DecidableEq, Repr

def start : Chain :=
  ⟨0x67452301, 0xEFCDAB89, 0x98BADCFE, 0x10325476, 0xC3D2E1F0⟩

def rotateLeft (x : UInt32) (n : UInt32) : UInt32 :=
  (x <<< n) ||| (x >>> (32 - n))

/-- The mixing function and the constant of a round. -/
def mixing (round : Nat) (b c d : UInt32) : UInt32 × UInt32 :=
  if round < 20 then ((b &&& c) ||| (~~~b &&& d), 0x5A827999)
  else if round < 40 then (b ^^^ c ^^^ d, 0x6ED9EBA1)
  else if round < 60 then ((b &&& c) ||| (b &&& d) ||| (c &&& d), 0x8F1BBCDC)
  else (b ^^^ c ^^^ d, 0xCA62C1D6)

def mixRound (word : UInt32) (round : Nat) (h : Chain) : Chain :=
  let (f, k) := mixing round h.b h.c h.d
  ⟨rotateLeft h.a 5 + f + h.e + k + word, h.a, rotateLeft h.b 30, h.c, h.d⟩

/-- The eighty words of the rounds: the sixteen of the block, then each from four before it. -/
def schedule (block : Array UInt32) : Array UInt32 :=
  (List.range 64).foldl
    (fun w i =>
      w.push (rotateLeft (w.getD (i + 13) 0 ^^^ w.getD (i + 8) 0 ^^^ w.getD (i + 2) 0
        ^^^ w.getD i 0) 1))
    block

/-- Mixes a block of sixteen words into the chain. -/
def compress (h : Chain) (block : Array UInt32) : Chain :=
  let words := schedule block
  let g := (List.range 80).foldl (fun g i => mixRound (words.getD i 0) i g) h
  ⟨h.a + g.a, h.b + g.b, h.c + g.c, h.d + g.d, h.e + g.e⟩

/-- How many zero bytes stand between the end mark and the length. -/
def paddingZeros (length : Nat) : Nat :=
  (119 - length % 64) % 64

/-- The message, an end mark, zeros, and its length in bits as eight bytes. -/
def pad (message : List UInt8) : Array UInt8 :=
  let bits := message.length * 8
  let length := [56, 48, 40, 32, 24, 16, 8, 0].map fun shift => UInt8.ofNat (bits >>> shift)
  (message ++ 0x80 :: (List.replicate (paddingZeros message.length) 0 ++ length)).toArray

/-- The four bytes from `i` on as a word, the first one highest. -/
def wordAt (bytes : Array UInt8) (i : Nat) : UInt32 :=
  (bytes.getD i 0).toUInt32 <<< 24 ||| (bytes.getD (i + 1) 0).toUInt32 <<< 16
    ||| (bytes.getD (i + 2) 0).toUInt32 <<< 8 ||| (bytes.getD (i + 3) 0).toUInt32

/-- The words of the block with this number. -/
def blockAt (bytes : Array UInt8) (n : Nat) : Array UInt32 :=
  (Array.range 16).map fun j => wordAt bytes (64 * n + 4 * j)

/-- A word as four bytes, the highest first. -/
def wordBytes (w : UInt32) : List UInt8 :=
  [(w >>> 24).toUInt8, (w >>> 16).toUInt8, (w >>> 8).toUInt8, w.toUInt8]

/-- The chain after the whole message. -/
def chain (message : List UInt8) : Chain :=
  let bytes := pad message
  (List.range (bytes.size / 64)).foldl (fun h n => compress h (blockAt bytes n)) start

/-- The digest of a message. -/
def digest (message : List UInt8) : List UInt8 :=
  let h := chain message
  wordBytes h.a ++ wordBytes h.b ++ wordBytes h.c ++ wordBytes h.d ++ wordBytes h.e

theorem length_digest (message : List UInt8) : (digest message).length = 20 := by
  simp [digest, wordBytes]

end RasterIrq.Sha1
