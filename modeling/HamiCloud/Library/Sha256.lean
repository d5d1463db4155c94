import Mathlib.Logic.Function.Iterate

/-!
# SHA-256

The hash of a sequence of bytes: the message is padded to whole blocks of 64 bytes, each block is expanded to 64 words,
and 64 rounds mix them into eight words.
-/

namespace Library.Sha256

structure State where
  a : UInt32
  b : UInt32
  c : UInt32
  d : UInt32
  e : UInt32
  f : UInt32
  g : UInt32
  h : UInt32

def State.initial : State :=
  ⟨0x6a09e667, 0xbb67ae85, 0x3c6ef372, 0xa54ff53a, 0x510e527f, 0x9b05688c, 0x1f83d9ab, 0x5be0cd19⟩

def roundConstants : List UInt32 :=
  [0x428a2f98, 0x71374491, 0xb5c0fbcf, 0xe9b5dba5, 0x3956c25b, 0x59f111f1, 0x923f82a4, 0xab1c5ed5,
   0xd807aa98, 0x12835b01, 0x243185be, 0x550c7dc3, 0x72be5d74, 0x80deb1fe, 0x9bdc06a7, 0xc19bf174,
   0xe49b69c1, 0xefbe4786, 0x0fc19dc6, 0x240ca1cc, 0x2de92c6f, 0x4a7484aa, 0x5cb0a9dc, 0x76f988da,
   0x983e5152, 0xa831c66d, 0xb00327c8, 0xbf597fc7, 0xc6e00bf3, 0xd5a79147, 0x06ca6351, 0x14292967,
   0x27b70a85, 0x2e1b2138, 0x4d2c6dfc, 0x53380d13, 0x650a7354, 0x766a0abb, 0x81c2c92e, 0x92722c85,
   0xa2bfe8a1, 0xa81a664b, 0xc24b8b70, 0xc76c51a3, 0xd192e819, 0xd6990624, 0xf40e3585, 0x106aa070,
   0x19a4c116, 0x1e376c08, 0x2748774c, 0x34b0bcb5, 0x391c0cb3, 0x4ed8aa4a, 0x5b9cca4f, 0x682e6ff3,
   0x748f82ee, 0x78a5636f, 0x84c87814, 0x8cc70208, 0x90befffa, 0xa4506ceb, 0xbef9a3f7, 0xc67178f2]

/-! ### Blocks -/

/-- Big-endian. -/
def wordBytes (w : UInt32) : List UInt8 := ([24, 16, 8, 0] : List UInt32).map fun shift => (w >>> shift).toUInt8

def bytesWord (bytes : List UInt8) : UInt32 := bytes.foldl (fun w byte => w <<< 8 ||| byte.toUInt32) 0

/-- The length of the message, in bits. -/
def lengthBytes (length : Nat) : List UInt8 :=
  [56, 48, 40, 32, 24, 16, 8, 0].map fun shift => UInt8.ofNat ((8 * length) >>> shift)

def padding (length : Nat) : List UInt8 :=
  0x80 :: List.replicate ((119 - length % 64) % 64) 0 ++ lengthBytes length

/-- The message cut into pieces of `size`. -/
def pieces {α : Type} (size : Nat) (xs : List α) : List (List α) :=
  (List.range (xs.length / size)).map fun i => (xs.drop (i * size)).take size

def blocks (message : List UInt8) : List (List UInt32) :=
  (pieces 64 (message ++ padding message.length)).map fun block => (pieces 4 block).map bytesWord

/-! ### Compression -/

def rotr (w n : UInt32) : UInt32 := w >>> n ||| w <<< (32 - n)

def smallSigma0 (w : UInt32) : UInt32 := rotr w 7 ^^^ rotr w 18 ^^^ w >>> 3

def smallSigma1 (w : UInt32) : UInt32 := rotr w 17 ^^^ rotr w 19 ^^^ w >>> 10

def bigSigma0 (w : UInt32) : UInt32 := rotr w 2 ^^^ rotr w 13 ^^^ rotr w 22

def bigSigma1 (w : UInt32) : UInt32 := rotr w 6 ^^^ rotr w 11 ^^^ rotr w 25

/-- The next word of the schedule, whose words stand in reverse. -/
def extend (latest : List UInt32) : List UInt32 :=
  (smallSigma1 (latest.getD 1 0) + latest.getD 6 0 + smallSigma0 (latest.getD 14 0) + latest.getD 15 0) :: latest

def schedule (block : List UInt32) : List UInt32 := (extend^[48] block.reverse).reverse

def round (s : State) (k w : UInt32) : State :=
  let choice := (s.e &&& s.f) ^^^ (~~~s.e &&& s.g)
  let majority := (s.a &&& s.b) ^^^ (s.a &&& s.c) ^^^ (s.b &&& s.c)
  let t1 := s.h + bigSigma1 s.e + choice + k + w
  let t2 := bigSigma0 s.a + majority
  ⟨t1 + t2, s.a, s.b, s.c, s.d + t1, s.e, s.f, s.g⟩

def compress (s : State) (block : List UInt32) : State :=
  let r := (roundConstants.zip (schedule block)).foldl (fun s kw => round s kw.1 kw.2) s
  ⟨s.a + r.a, s.b + r.b, s.c + r.c, s.d + r.d, s.e + r.e, s.f + r.f, s.g + r.g, s.h + r.h⟩

def digest (message : List UInt8) : List UInt8 :=
  let s := (blocks message).foldl compress .initial
  [s.a, s.b, s.c, s.d, s.e, s.f, s.g, s.h].flatMap wordBytes

lemma length_digest (message : List UInt8) : (digest message).length = 32 := by
  simp [digest, wordBytes]

-- the hash of "abc"
example : digest [0x61, 0x62, 0x63] =
    [0xba, 0x78, 0x16, 0xbf, 0x8f, 0x01, 0xcf, 0xea, 0x41, 0x41, 0x40, 0xde, 0x5d, 0xae, 0x22, 0x23,
      0xb0, 0x03, 0x61, 0xa3, 0x96, 0x17, 0x7a, 0x9c, 0xb4, 0x10, 0xff, 0x61, 0xf2, 0x00, 0x15, 0xad] := by
  decide +kernel

end Library.Sha256
