/-!
# White space

The characters with the Unicode property `White_Space`: tab to carriage return, space, next line,
no-break space, the Ogham space mark, the spaces of general punctuation, the line and paragraph
separators, the narrow no-break space, the mathematical space and the ideographic space.  The
zero-width characters are not among them.
-/

namespace Rebrace.Text

/-- The white-space characters, as inclusive ranges of code points in increasing order. -/
def whiteRanges : List (Nat × Nat) :=
  [(0x9, 0xD), (0x20, 0x20), (0x85, 0x85), (0xA0, 0xA0), (0x1680, 0x1680), (0x2000, 0x200A),
   (0x2028, 0x2029), (0x202F, 0x202F), (0x205F, 0x205F), (0x3000, 0x3000)]

/-- Is `c` a white-space character? -/
def isWhite (c : Char) : Bool :=
  whiteRanges.any fun range => range.1 ≤ c.toNat && c.toNat ≤ range.2

end Rebrace.Text
