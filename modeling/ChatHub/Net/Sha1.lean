/-!
The digest of twenty bytes by which a WebSocket listener proves that it has read a request.
-/

set_option autoImplicit false

namespace ChatHub.Sha1

/-- The five words that blocks are worked into. -/
structure State where
  a : UInt32
  b : UInt32
  c : UInt32
  d : UInt32
  e : UInt32
  deriving DecidableEq, Repr

def State.initial : State :=
  ⟨0x67452301, 0xefcdab89, 0x98badcfe, 0x10325476, 0xc3d2e1f0⟩

def State.add (left right : State) : State :=
  ⟨left.a + right.a, left.b + right.b, left.c + right.c, left.d + right.d, left.e + right.e⟩

def State.words (state : State) : List UInt32 :=
  [state.a, state.b, state.c, state.d, state.e]

def rotate (word : UInt32) (places : UInt32) : UInt32 :=
  (word <<< places) ||| (word >>> (32 - places))

def wordBytes (word : UInt32) : List UInt8 :=
  [(word >>> 24).toUInt8, (word >>> 16).toUInt8, (word >>> 8).toUInt8, word.toUInt8]

/-- Words of four bytes each; what is left over is dropped. -/
def wordsOf : List UInt8 → List UInt32
  | first :: second :: third :: fourth :: rest =>
    (first.toUInt32 <<< 24 ||| second.toUInt32 <<< 16 ||| third.toUInt32 <<< 8
      ||| fourth.toUInt32) :: wordsOf rest
  | _ => []

/-- A message with a one bit, zeros, and its length in bits, a multiple of sixty-four bytes. -/
def pad (message : List UInt8) : List UInt8 :=
  let bits := 8 * message.length
  message ++ [0x80] ++ List.replicate ((119 - message.length % 64) % 64) 0
    ++ wordBytes (UInt32.ofNat (bits / Nat.pow 2 32)) ++ wordBytes (UInt32.ofNat bits)

/-- Extends the words of a block, given the latest first, by a number of further ones. -/
def schedule : Nat → List UInt32 → List UInt32
  | 0, words => words.reverse
  | count + 1, words =>
    let mixed := words.getD 2 0 ^^^ words.getD 7 0 ^^^ words.getD 13 0 ^^^ words.getD 15 0
    schedule count (rotate mixed 1 :: words)

def roundPart (round : Nat) (b c d : UInt32) : UInt32 × UInt32 :=
  if round < 20 then ((b &&& c) ||| (~~~b &&& d), 0x5a827999)
  else if round < 40 then (b ^^^ c ^^^ d, 0x6ed9eba1)
  else if round < 60 then ((b &&& c) ||| (b &&& d) ||| (c &&& d), 0x8f1bbcdc)
  else (b ^^^ c ^^^ d, 0xca62c1d6)

def roundStep (state : State) (entry : UInt32 × Nat) : State :=
  let (mixed, constant) := roundPart entry.2 state.b state.c state.d
  ⟨rotate state.a 5 + mixed + state.e + constant + entry.1, state.a, rotate state.b 30, state.c,
    state.d⟩

/-- Works the sixteen words of a block into a state. -/
def block (state : State) (words : List UInt32) : State :=
  state.add ((schedule 64 words.reverse).zipIdx.foldl roundStep state)

def blocks : Nat → State → List UInt32 → State
  | 0, state, _ => state
  | count + 1, state, words => blocks count (block state (words.take 16)) (words.drop 16)

def digest (message : List UInt8) : List UInt8 :=
  let words := wordsOf (pad message)
  (blocks (words.length / 16) State.initial words).words.flatMap wordBytes

end ChatHub.Sha1
