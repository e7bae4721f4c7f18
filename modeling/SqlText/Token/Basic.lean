import SqlText.Text.Basic

/-!
# Tokens

A token is a piece of a source: its kind, its characters and where they stand. Offsets count bytes,
the location counts characters.
-/

namespace SqlText

/-- What a token is. -/
inductive Kind
  /-- A bare word. Keywords are bare words too. -/
  | identifier
  /-- A name in double quotes. -/
  | quotedIdentifier
  /-- Two or more names joined by dots. -/
  | qualifiedIdentifier
  /-- A number. -/
  | number
  /-- A numbered parameter, `$1`. -/
  | numberedParam
  /-- A named parameter, `%(name)s`. -/
  | namedParam
  /-- A parameter in braces. -/
  | braceParam
  /-- A string in single quotes, with or without a leading `E`. -/
  | string
  /-- A string between two equal dollar tags. -/
  | dollarString
  /-- White space and comments. -/
  | blank
  /-- A run of operator characters, or one punctuation character. -/
  | symbol
  /-- A character that no rule accepts. -/
  | error
  deriving DecidableEq, Repr

namespace Kind

/-- Every kind. -/
def all : List Kind :=
  [identifier, quotedIdentifier, qualifiedIdentifier, number, numberedParam, namedParam,
   braceParam, string, dollarString, blank, symbol, error]

/-- The name under which a kind is stored. -/
def name : Kind → String
  | identifier => "Identifier"
  | quotedIdentifier => "QuotedIdentifier"
  | qualifiedIdentifier => "QualifiedIdentifier"
  | number => "Number"
  | numberedParam => "NumberedParam"
  | namedParam => "OldStyleParam"
  | braceParam => "NewStyleParam"
  | string => "StringLiteral"
  | dollarString => "DollarQuotedLiteral"
  | blank => "Whitespace"
  | symbol => "Symbol"
  | error => "Error"

/-- What a kind is called in a sentence. -/
def label : Kind → String
  | identifier => "<identifier>"
  | quotedIdentifier => "<quoted identifier>"
  | qualifiedIdentifier => "<qualified identifier>"
  | number => "<number>"
  | numberedParam => "<numbered parameter>"
  | namedParam => "<named parameter>"
  | braceParam => "<brace parameter>"
  | string => "<string>"
  | dollarString => "<dollar-quoted string>"
  | blank => "<whitespace>"
  | symbol => "<symbol>"
  | error => "<error>"

/-- The kind stored under a name. -/
def ofName? (s : String) : Option Kind := all.find? (·.name == s)

/-- Reading a stored name gives the kind back. -/
theorem ofName?_name (k : Kind) : ofName? k.name = some k := by
  cases k <;> decide

/-- Whether a token of this kind names something. -/
def isIdentifier : Kind → Bool
  | identifier | quotedIdentifier | qualifiedIdentifier => true
  | _ => false

/-- Whether a token of this kind is a literal value. -/
def isLiteral : Kind → Bool
  | number | string | dollarString => true
  | _ => false

end Kind

/-- A piece of a source. -/
structure Token where
  kind : Kind
  /-- The characters of the token. -/
  text : Text
  /-- The byte offset of the first character. -/
  start : Nat
  /-- The byte offset after the last character. -/
  stop : Nat
  /-- The number of characters of the source up to the end of the token, when asked for. -/
  location : Option Nat
  deriving DecidableEq, Repr

namespace Token

/-- Whether a token is the given symbol. -/
def isSymbol (t : Token) (s : Text) : Bool := t.kind == .symbol && t.text == s

/-- Whether a token is the given bare word, in any case of ASCII letters. -/
def isKeyword (t : Token) (word : Text) : Bool := t.kind == .identifier && Text.sameWord t.text word

/-- Whether a token is white space or a comment. -/
def isBlank (t : Token) : Bool := t.kind == .blank

end Token

end SqlText
