/-!
# SHA-256

The hash function of FIPS 180-4 on byte lists.  A message is padded to blocks of
sixty-four bytes, every block is expanded to sixty-four words, and each word
moves the eight-word state by one round.
-/

namespace LintRatchet.Digest.Sha256

/-! ## Words -/

/-- A word turned right by `n` bits. -/
def rotateRight (w : UInt32) (n : UInt32) : UInt32 := (w >>> n) ||| (w <<< (32 - n))

/-- The mixing of an older word into the schedule, fifteen places back. -/
def smallSigma0 (w : UInt32) : UInt32 := rotateRight w 7 ^^^ rotateRight w 18 ^^^ (w >>> 3)

/-- The mixing of an older word into the schedule, two places back. -/
def smallSigma1 (w : UInt32) : UInt32 := rotateRight w 17 ^^^ rotateRight w 19 ^^^ (w >>> 10)

/-- The mixing of the first state word in a round. -/
def bigSigma0 (w : UInt32) : UInt32 := rotateRight w 2 ^^^ rotateRight w 13 ^^^ rotateRight w 22

/-- The mixing of the fifth state word in a round. -/
def bigSigma1 (w : UInt32) : UInt32 := rotateRight w 6 ^^^ rotateRight w 11 ^^^ rotateRight w 25

/-- Each bit of `x` chooses between the bits of `y` and `z`. -/
def choose (x y z : UInt32) : UInt32 := (x &&& y) ^^^ (x.complement &&& z)

/-- The bit that at least two of three words have. -/
def majority (x y z : UInt32) : UInt32 := (x &&& y) ^^^ (x &&& z) ^^^ (y &&& z)

/-- The round constants. -/
def roundConstants : List UInt32 := [
  0x428a2f98, 0x71374491, 0xb5c0fbcf, 0xe9b5dba5, 0x3956c25b, 0x59f111f1, 0x923f82a4, 0xab1c5ed5,
  0xd807aa98, 0x12835b01, 0x243185be, 0x550c7dc3, 0x72be5d74, 0x80deb1fe, 0x9bdc06a7, 0xc19bf174,
  0xe49b69c1, 0xefbe4786, 0x0fc19dc6, 0x240ca1cc, 0x2de92c6f, 0x4a7484aa, 0x5cb0a9dc, 0x76f988da,
  0x983e5152, 0xa831c66d, 0xb00327c8, 0xbf597fc7, 0xc6e00bf3, 0xd5a79147, 0x06ca6351, 0x14292967,
  0x27b70a85, 0x2e1b2138, 0x4d2c6dfc, 0x53380d13, 0x650a7354, 0x766a0abb, 0x81c2c92e, 0x92722c85,
  0xa2bfe8a1, 0xa81a664b, 0xc24b8b70, 0xc76c51a3, 0xd192e819, 0xd6990624, 0xf40e3585, 0x106aa070,
  0x19a4c116, 0x1e376c08, 0x2748774c, 0x34b0bcb5, 0x391c0cb3, 0x4ed8aa4a, 0x5b9cca4f, 0x682e6ff3,
  0x748f82ee, 0x78a5636f, 0x84c87814, 0x8cc70208, 0x90befffa, 0xa4506ceb, 0xbef9a3f7, 0xc67178f2]

/-! ## The state -/

/-- The eight words that a block moves. -/
structure State where
  a : UInt32
  b : UInt32
  c : UInt32
  d : UInt32
  e : UInt32
  f : UInt32
  g : UInt32
  h : UInt32

/-- The state before the first block. -/
def State.start : State :=
  ⟨0x6a09e667, 0xbb67ae85, 0x3c6ef372, 0xa54ff53a, 0x510e527f, 0x9b05688c, 0x1f83d9ab, 0x5be0cd19⟩

/-- One round with a constant and a word of the schedule. -/
def State.round (s : State) (constant word : UInt32) : State :=
  let t1 := s.h + bigSigma1 s.e + choose s.e s.f s.g + constant + word
  let t2 := bigSigma0 s.a + majority s.a s.b s.c
  ⟨t1 + t2, s.a, s.b, s.c, s.d + t1, s.e, s.f, s.g⟩

/-- The word-wise sum of two states. -/
def State.add (s t : State) : State :=
  ⟨s.a + t.a, s.b + t.b, s.c + t.c, s.d + t.d, s.e + t.e, s.f + t.f, s.g + t.g, s.h + t.h⟩

/-- The words of a state, first to last. -/
def State.words (s : State) : List UInt32 := [s.a, s.b, s.c, s.d, s.e, s.f, s.g, s.h]

/-! ## Blocks -/

/-- The four bytes of a word, high byte first. -/
def wordBytes (w : UInt32) : List UInt8 :=
  [(w >>> 24).toUInt8, (w >>> 16).toUInt8, (w >>> 8).toUInt8, w.toUInt8]

/-- The words that groups of four bytes make, high byte first. -/
def words : List UInt8 → List UInt32
  | b0 :: b1 :: b2 :: b3 :: rest =>
    (b0.toUInt32 <<< 24 ||| b1.toUInt32 <<< 16 ||| b2.toUInt32 <<< 8 ||| b3.toUInt32) :: words rest
  | _ => []

/-- The schedule with `n` more words, each made of four older ones. -/
def expand (ws : Array UInt32) : Nat → Array UInt32
  | 0 => ws
  | n + 1 =>
    let t := ws.size
    let next := smallSigma1 (ws.getD (t - 2) 0) + ws.getD (t - 7) 0 +
      smallSigma0 (ws.getD (t - 15) 0) + ws.getD (t - 16) 0
    expand (ws.push next) n

/-- The sixty-four words that a block of sixty-four bytes is expanded to. -/
def schedule (block : List UInt8) : List UInt32 := (expand (words block).toArray 48).toList

/-- The state after a block. -/
def compress (s : State) (block : List UInt8) : State :=
  ((roundConstants.zip (schedule block)).foldl (fun t p => t.round p.1 p.2) s).add s

/-- The bits of a message's length in bytes, as eight bytes, high byte first. -/
def lengthBytes (size : Nat) : List UInt8 :=
  let bits := (8 * size).toUInt64
  wordBytes (bits >>> 32).toUInt32 ++ wordBytes bits.toUInt32

/-- The message, a one bit, zeros up to the end of a block but eight bytes, and the length. -/
def pad (message : List UInt8) : List UInt8 :=
  let zeros := (119 - message.length % 64) % 64
  message ++ 0x80 :: (List.replicate zeros 0 ++ lengthBytes message.length)

/-- The blocks of sixty-four bytes that the bytes begin with. -/
def blocks (bytes : List UInt8) : List (List UInt8) :=
  if bytes.length < 64 then [] else bytes.take 64 :: blocks (bytes.drop 64)
termination_by bytes.length

/-- The thirty-two bytes of the hash of a message. -/
def hash (message : List UInt8) : List UInt8 :=
  ((blocks (pad message)).foldl compress State.start).words.flatMap wordBytes

theorem length_hash (message : List UInt8) : (hash message).length = 32 := by
  simp [hash, State.words, wordBytes]

end LintRatchet.Digest.Sha256
