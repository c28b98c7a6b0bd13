/-!
# Canonical Huffman codes

A canonical code is given by the length of every symbol's code word: shorter
words come before longer ones, and words of one length are in the order of
their symbols.  `PartialWord.step` follows one bit of a word at a time.
-/

namespace ClassDelta

/-- A canonical code, as the symbols of each word length. -/
structure HuffmanCode where
  /-- The number of words with one bit, two bits, and so on up to the longest. -/
  counts : List Nat
  /-- All symbols with a word, in the order of their words. -/
  symbols : Array Nat

namespace HuffmanCode

/-- The symbols whose word has a length, in ascending order. -/
def symbolsOfLength (lengths : List Nat) (length : Nat) : List Nat :=
  lengths.zipIdx.filterMap fun (found, symbol) => if found = length then some symbol else none

/-- The code in which each symbol's word has the given length, and symbols of
length 0 have no word.  A code without words has a count for one bit all the
same, so that no word is found missing before a bit was read. -/
def ofLengths (lengths : List Nat) : HuffmanCode :=
  let longest := lengths.foldl max 1
  let groups := (List.range longest).map fun shorter => symbolsOfLength lengths (shorter + 1)
  ⟨groups.map List.length, groups.flatten.toArray⟩

/-- How much of the words of the longest length the code leaves unused; nothing
if it uses more than there are. -/
def unused : (counts : List Nat) → (free : Nat) → Option Nat
  | [], free => some free
  | count :: longer, free => if 2 * free < count then none else unused longer (2 * free - count)

/-- Every long enough bit sequence starts with exactly one word of the code. -/
def isComplete (code : HuffmanCode) : Bool := unused code.counts 1 == some 0

/-- The code has at most one word, and that has one bit. -/
def isTrivial (code : HuffmanCode) : Bool := code.counts == [0] || code.counts == [1]

/-- A word of which some bits were read: the number they spell, the number of
the first word of that many bits, and how many shorter words there are. -/
structure PartialWord where
  value : Nat
  first : Nat
  shorter : Nat

/-- No bit has been read. -/
def PartialWord.start : PartialWord := ⟨0, 0, 0⟩

/-- Read one more bit, where `count` words end with it: either a word ends here,
which has that many words before it, or the word goes on. -/
def PartialWord.step (word : PartialWord) (count : Nat) (bit : Bool) : Nat ⊕ PartialWord :=
  let value := 2 * word.value + bit.toNat
  let first := 2 * word.first
  if value < first + count then .inl (word.shorter + (value - first))
  else .inr ⟨value, first + count, word.shorter + count⟩

end HuffmanCode

end ClassDelta
