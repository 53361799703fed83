/-!
Words of 64 bits, as bounds on whole numbers.
-/

namespace BlockForge.Word

/-- The largest word without a sign. -/
def maxUnsigned : Nat := 0xffffffffffffffff

/-- The largest word with a sign. -/
def maxSigned : Nat := 0x7fffffffffffffff

/-- The smallest word with a sign. -/
def minSigned : Int := -0x8000000000000000

/-- The top bit of a word. -/
def signBit : Nat := 0x8000000000000000

/-- The word after another one.  After the largest word comes zero again. -/
def next (n : Nat) : Nat := if n < maxUnsigned then n + 1 else 0

end BlockForge.Word
