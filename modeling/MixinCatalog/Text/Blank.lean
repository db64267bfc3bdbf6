/-!
# Blank characters

The characters with the Unicode property White_Space, and trimming them from both ends of a text.
-/

namespace MixinCatalog.Text

/-- The characters with the property White_Space. -/
def isWhiteSpace (c : Char) : Bool :=
  ('\t' ≤ c && c ≤ '\r') || c = ' ' || c = '\u0085' || c = '\u00a0' || c = '\u1680'
    || ('\u2000' ≤ c && c ≤ '\u200a') || c = '\u2028' || c = '\u2029' || c = '\u202f'
    || c = '\u205f' || c = '\u3000'

def trim (cs : List Char) : List Char :=
  ((cs.dropWhile isWhiteSpace).reverse.dropWhile isWhiteSpace).reverse

def trimRight (cs : List Char) : List Char := (cs.reverse.dropWhile isWhiteSpace).reverse

/-- The letters `A` to `Z` in lower case, all other characters unchanged. -/
def lowerAscii (c : Char) : Char := if 'A' ≤ c && c ≤ 'Z' then Char.ofNat (c.toNat + 32) else c

end MixinCatalog.Text
