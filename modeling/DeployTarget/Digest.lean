/-!
# SHA-1

A message is padded to blocks of sixteen words of 32 bits, each block is mixed
into five words of state over eighty rounds, and the digest is the state in
hexadecimal.
-/

namespace DeployTarget.Digest

/-- The five words that the blocks of a message are mixed into. -/
structure State where
  a : UInt32
  b : UInt32
  c : UInt32
  d : UInt32
  e : UInt32
deriving DecidableEq, Repr

/-- The state before the first block. -/
def initialState : State :=
  ⟨0x67452301, 0xEFCDAB89, 0x98BADCFE, 0x10325476, 0xC3D2E1F0⟩

def rotate (word : UInt32) (amount : UInt32) : UInt32 :=
  (word <<< amount) ||| (word >>> (32 - amount))

/-- The word with the given bytes, most significant first. -/
def wordOfBytes (a b c d : UInt8) : UInt32 :=
  (a.toUInt32 <<< 24) ||| (b.toUInt32 <<< 16) ||| (c.toUInt32 <<< 8) ||| d.toUInt32

/-- The words of a byte sequence; bytes that do not fill a word are left out. -/
def wordsOfBytes : List UInt8 → List UInt32
  | a :: b :: c :: d :: rest => wordOfBytes a b c d :: wordsOfBytes rest
  | _ => []

/-- The bytes of a number, most significant first. -/
def bigEndian (length number : Nat) : List UInt8 :=
  (List.range length).reverse.map fun position => UInt8.ofNat (number >>> (8 * position))

/-- A message, a set bit, zeros to the end of a block and the message's length in bits. -/
def padded (message : List UInt8) : List UInt8 :=
  let zeros := (119 - message.length % 64) % 64
  message ++ 0x80 :: List.replicate zeros 0 ++ bigEndian 8 (8 * message.length)

/-- Adds words to a schedule held newest first. -/
def extendSchedule : Nat → List UInt32 → List UInt32
  | 0, newest => newest
  | count + 1, newest =>
      let word (back : Nat) := newest.getD (back - 1) 0
      extendSchedule count
        (rotate (word 3 ^^^ word 8 ^^^ word 14 ^^^ word 16) 1 :: newest)

/-- The eighty words that a block of sixteen contributes, in order. -/
def schedule (block : List UInt32) : List UInt32 :=
  (extendSchedule 64 block.reverse).reverse

/-- The choice, parity or majority of three words, and the constant of its quarter. -/
def quarterRule (round : Nat) (b c d : UInt32) : UInt32 × UInt32 :=
  if round < 20 then ((b &&& c) ||| (~~~b &&& d), 0x5A827999)
  else if round < 40 then (b ^^^ c ^^^ d, 0x6ED9EBA1)
  else if round < 60 then ((b &&& c) ||| (b &&& d) ||| (c &&& d), 0x8F1BBCDC)
  else (b ^^^ c ^^^ d, 0xCA62C1D6)

def round (state : State × Nat) (word : UInt32) : State × Nat :=
  let ⟨⟨a, b, c, d, e⟩, index⟩ := state
  let (mixed, constant) := quarterRule index b c d
  (⟨rotate a 5 + mixed + e + constant + word, a, rotate b 30, c, d⟩, index + 1)

/-- Mixes one block into the state. -/
def absorb (state : State) (block : List UInt32) : State :=
  let mixed := ((schedule block).foldl round (state, 0)).1
  ⟨state.a + mixed.a, state.b + mixed.b, state.c + mixed.c, state.d + mixed.d,
    state.e + mixed.e⟩

/-- Cuts words into blocks of sixteen; `fuel` bounds the number of blocks. -/
def blocks : Nat → List UInt32 → List (List UInt32)
  | 0, _ => []
  | _, [] => []
  | fuel + 1, words => words.take 16 :: blocks fuel (words.drop 16)

def sha1 (message : List UInt8) : State :=
  let words := wordsOfBytes (padded message)
  (blocks words.length words).foldl absorb initialState

def wordHex (word : UInt32) : List Char :=
  (List.range 8).reverse.map fun position =>
    Nat.digitChar (word.toNat >>> (4 * position) % 16)

def State.hex (state : State) : List Char :=
  wordHex state.a ++ wordHex state.b ++ wordHex state.c ++ wordHex state.d ++
    wordHex state.e

@[simp]
theorem length_wordHex (word : UInt32) : (wordHex word).length = 8 := by
  simp [wordHex]

@[simp]
theorem State.length_hex (state : State) : state.hex.length = 40 := by
  simp [State.hex]

end DeployTarget.Digest
