import SqlText.Text.CodeRange

/-!
# Blank characters

The characters with the Unicode property White_Space. The space, tab, line feed and carriage return
are among them, and so are the form feed, the no-break space and the spaces of typography.
-/

namespace SqlText

namespace Text

/-- The characters with the property White_Space. -/
def blankRanges : List (Nat × Nat) :=
  [(0x09, 0x0D), (0x20, 0x20), (0x85, 0x85), (0xA0, 0xA0), (0x1680, 0x1680), (0x2000, 0x200A),
   (0x2028, 0x2029), (0x202F, 0x202F), (0x205F, 0x205F), (0x3000, 0x3000)]

/-- Whether a character is white space. -/
def isBlank (c : Char) : Bool := inRanges blankRanges c

end Text

end SqlText
