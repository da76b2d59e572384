/-! # Canonical prefix codes

A prefix code is given by the lengths of its code words. Words of one length are consecutive numbers
in the order of their symbols, and each length starts where the one before it stopped, with a zero
appended.

* `Code.ofLengths?`: the code of some lengths. It has to be complete, that is, to leave no word of
  bits unused; a code of at most one word need not be.
* `Code.read`: the symbol whose word starts a list of bits. -/

namespace TreePath.Gzip

/-- The longest code word. -/
def maxCodeLength : Nat := 15

/-- The symbols with code words of each length, from one on, in increasing order. -/
structure Code where
  symbols : List (List Nat)
  deriving Repr

namespace Code

/-- The symbols whose code word has length `n`. -/
def symbolsOfLength (lengths : List Nat) (n : Nat) : List Nat :=
  (lengths.zipIdx.filter fun p => p.1 == n).map (·.2)

/-- How many words of bits are used, of all those of the greatest length. -/
def used (symbols : List (List Nat)) : Nat :=
  symbols.foldl (fun n s => 2 * n + s.length) 0

/-- The code of the lengths of symbols `0`, `1`, …; a symbol of length zero has no code word. The
lengths are counted in words of the greatest length, which are all used or, by at most one code
word, not all. -/
def ofLengths? (lengths : List Nat) : Option Code :=
  let symbols := (List.range maxCodeLength).map fun i => symbolsOfLength lengths (i + 1)
  let isSmall := symbols.flatten.length ≤ 1
  if used symbols = Nat.pow 2 maxCodeLength || isSmall then some ⟨symbols⟩ else none

/-- Reads on with a word of `offset` beyond the first word of the next length less one bit. -/
def readFrom (offset : Nat) : List (List Nat) → List Bool → Option (Nat × List Bool)
  | s :: symbols, b :: bits =>
    let offset := 2 * offset + b.toNat
    match s[offset]? with
    | some symbol => some (symbol, bits)
    | none => readFrom (offset - s.length) symbols bits
  | _, _ => none

/-- The symbol whose code word starts the bits, with the bits behind it. -/
def read (c : Code) (bits : List Bool) : Option (Nat × List Bool) := readFrom 0 c.symbols bits

end Code

end TreePath.Gzip
