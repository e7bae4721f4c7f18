/-!
# Dialects and options

The grammar of tokens has two switches, fixed for a whole scan. Options choose a dialect and what a
scan reports.
-/

namespace SqlText

/-- The rules of quoting and of joined names. -/
structure Dialect where
  /--
  In a string `'…'` a quote is written twice and a backslash is an ordinary character; escapes need
  the form `E'…'`. When off, every string has backslash escapes.
  -/
  standardQuoting : Bool := false
  /-- Names joined by dots are one token. -/
  fullyQualified : Bool := false
  deriving DecidableEq, Repr

namespace Dialect

/-- Strings with backslash escapes, names apart. -/
def legacy : Dialect := {}

/-- Strings without backslash escapes, names apart. -/
def standard : Dialect := { standardQuoting := true }

end Dialect

/-- What a scan reads by and what it reports. -/
structure Options where
  dialect : Dialect := {}
  /-- Leave out white space and comments. -/
  ignoreBlanks : Bool := false
  /-- Count characters up to the end of each token. -/
  showLocation : Bool := false
  deriving DecidableEq, Repr

end SqlText
