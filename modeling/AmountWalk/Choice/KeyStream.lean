/-!
# Key stream

An endless sequence of 32-bit words, given by a key of eight words: the ChaCha stream cipher with
twelve rounds, a 64-bit block counter that starts at zero, and an all-zero stream number. Block
after block, each of sixteen words, makes the sequence.

`KeyStream` is a place in that sequence. It keeps the words of the current block that have not been
taken.
-/

namespace AmountWalk

/-- The working state of the cipher. -/
abbrev CipherState := Vector UInt32 16

namespace CipherState

/-- Rotate a word to the left. -/
def rotate (word : UInt32) (amount : UInt32) : UInt32 :=
  word <<< amount ||| word >>> (32 - amount)

/-- Mix the four words at the given places. -/
def quarterRound (s : CipherState) (a b c d : Fin 16) : CipherState :=
  let s := s.set a (s[a] + s[b])
  let s := s.set d (rotate (s[d] ^^^ s[a]) 16)
  let s := s.set c (s[c] + s[d])
  let s := s.set b (rotate (s[b] ^^^ s[c]) 12)
  let s := s.set a (s[a] + s[b])
  let s := s.set d (rotate (s[d] ^^^ s[a]) 8)
  let s := s.set c (s[c] + s[d])
  s.set b (rotate (s[b] ^^^ s[c]) 7)

/-- Two rounds: the columns, then the diagonals. -/
def doubleRound (s : CipherState) : CipherState :=
  let s := quarterRound s 0 4 8 12
  let s := quarterRound s 1 5 9 13
  let s := quarterRound s 2 6 10 14
  let s := quarterRound s 3 7 11 15
  let s := quarterRound s 0 5 10 15
  let s := quarterRound s 1 6 11 12
  let s := quarterRound s 2 7 8 13
  quarterRound s 3 4 9 14

/-- The state before the rounds: four constants, the key, the counter, the stream number. -/
def initial (key : Vector UInt32 8) (counter : UInt64) : CipherState :=
  #v[0x61707865, 0x3320646e, 0x79622d32, 0x6b206574,
    key[0], key[1], key[2], key[3], key[4], key[5], key[6], key[7],
    counter.toUInt32, (counter >>> 32).toUInt32, 0, 0]

/-- The sixteen words of one block: the state after twelve rounds plus the state before them. -/
def block (key : Vector UInt32 8) (counter : UInt64) : CipherState :=
  let before := initial key counter
  let after := (List.replicate 6 ()).foldl (fun s _ => doubleRound s) before
  Vector.zipWith (· + ·) before after

end CipherState

/-- A place in the sequence of words that a key gives. -/
structure KeyStream where
  key : Vector UInt32 8
  /-- The number of the next block. -/
  counter : UInt64
  /-- The words of the current block that have not been taken. -/
  pending : List UInt32

namespace KeyStream

/-- The beginning of the sequence. -/
def ofKey (key : Vector UInt32 8) : KeyStream := ⟨key, 0, []⟩

def nextWord (stream : KeyStream) : UInt32 × KeyStream :=
  match stream.pending with
  | word :: rest => (word, { stream with pending := rest })
  | [] =>
    let block := CipherState.block stream.key stream.counter
    (block[0], { stream with counter := stream.counter + 1, pending := block.toList.tail })

/-- The next two words as one, the first in the low half. -/
def nextPair (stream : KeyStream) : UInt64 × KeyStream :=
  let (low, stream) := stream.nextWord
  let (high, stream) := stream.nextWord
  (high.toUInt64 <<< 32 ||| low.toUInt64, stream)

end KeyStream

end AmountWalk
