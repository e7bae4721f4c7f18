import SqlText.Text.Shown

/-!
# Errors

An error is a cause: what is wrong, and the part of the input that shows it. The wording of all
errors is `Error.message`.
-/

namespace SqlText

/-- What is wrong with a literal. -/
inductive LiteralFault
  /-- The closing quote is missing. -/
  | unterminated
  /-- A quote closes the string before its end. -/
  | loneQuote
  /-- A backslash escapes nothing. -/
  | danglingBackslash
  /-- The text does not end with the tag that opened it. -/
  | unclosedTag
  deriving DecidableEq, Repr

/-- The wording of a literal's fault. -/
def LiteralFault.message : LiteralFault → String
  | unterminated => "unterminated quoted string"
  | loneQuote => "unescaped quote inside quoted string"
  | danglingBackslash => "dangling backslash escape"
  | unclosedTag => "dollar-quote tag is not closed by the same tag"

/-- What is wrong with an array. -/
inductive ArrayFault
  /-- The text does not start and end as an array does. -/
  | noBraces
  /-- The dimensions are not followed by an opening brace. -/
  | noOpeningBrace
  /-- An element's closing quote is missing. -/
  | unterminated
  /-- An element has no characters and no quotes. -/
  | emptyElement
  /-- An element is followed by something other than a comma. -/
  | noSeparator
  deriving DecidableEq, Repr

/-- The wording of an array's fault. -/
def ArrayFault.message : ArrayFault → String
  | noBraces => "must be surrounded with \x7b\x7d"
  | noOpeningBrace => "missing \x7b after dimensions"
  | unterminated => "unterminated quoted element"
  | emptyElement => "empty element"
  | noSeparator => "expected , or \x7d"

/-- What a change fragment has to go on with. -/
inductive Expected
  | openParen
  | closeParen
  | comma
  | equals
  | values
  | columnName
  | literalValue
  | commaOrCloseParen
  | commaOrWhere
  | andOrEnd
  | endOfFragment
  deriving DecidableEq, Repr

/-- The wording of an expectation. -/
def Expected.message : Expected → String
  | openParen => "("
  | closeParen => ")"
  | comma => ","
  | equals => "="
  | values => "values"
  | columnName => "column name"
  | literalValue => "literal value"
  | commaOrCloseParen => "',' or ')'"
  | commaOrWhere => "',' or WHERE"
  | andOrEnd => "AND or end of fragment"
  | endOfFragment => "end of fragment"

/-- A statement that finds its row by key columns. -/
inductive KeyedStatement
  | update
  | delete
  deriving DecidableEq, Repr

/-- The name of a keyed statement. -/
def KeyedStatement.name : KeyedStatement → String
  | update => "UPDATE"
  | delete => "DELETE"

/-- Why a text or a row is refused. -/
inductive Error
  /-- A quoted literal is not one literal. -/
  | malformedLiteral (literal : Text) (fault : LiteralFault)
  /-- A double quote stands where an identifier cannot have one. -/
  | malformedIdentifier (identifier : Text)
  /-- A token does not fit the grammar. -/
  | unexpectedToken (expected : Expected) (found : Text)
  /-- The tokens end before the grammar does. -/
  | unexpectedEnd (expected : Expected)
  /-- Parentheses are left open (positive) or closed in excess (negative). -/
  | unbalancedParentheses (depth : Int)
  /-- A statement whose end cannot be told. -/
  | unsupportedStatement (statement : Text)
  /-- A text is no array; the offset counts bytes. -/
  | invalidArray (fault : ArrayFault) (position : Nat)
  /-- A column stands twice where names must differ. -/
  | duplicateColumn (column : Text)
  /-- No change operation has this tag. -/
  | unknownOperation (tag : Char)
  /-- A keyed statement is asked for without keys. -/
  | missingKeys (statement : KeyedStatement)
  /-- A column is not there. -/
  | unknownColumn (column : Text)
  /-- A named placeholder has no value. -/
  | missingParameter (parameter : Text)
  /-- Placeholders and values differ in number. -/
  | parameterCount (placeholders values : Nat)
  /-- A percent sign starts no placeholder; the offset counts bytes. -/
  | malformedPlaceholder (position : Nat)
  deriving DecidableEq, Repr

namespace Error

open Text

/-- The wording of an error. -/
def message : Error → String
  | malformedLiteral literal fault => "Malformed literal " ++ shown literal ++ ": " ++ fault.message
  | malformedIdentifier identifier => "Malformed identifier " ++ shown identifier
  | unexpectedToken expected found =>
    "Syntax error: expected " ++ expected.message ++ ", got " ++ shown found
  | unexpectedEnd expected => "Unexpected end of input, expected " ++ expected.message
  | unbalancedParentheses depth =>
    "Unbalanced parenthesis (depth " ++ toString depth ++ " at end of input)"
  | unsupportedStatement statement => "Unsupported construct: " ++ String.ofList statement
  | invalidArray fault position =>
    "Invalid array format at position " ++ toString position ++ ": " ++ fault.message
  | duplicateColumn column => "Duplicate column name: " ++ String.ofList column
  | unknownOperation tag =>
    "Unknown change operation " ++ shownChar tag ++ ", expected one of 'I', 'U', 'D'"
  | missingKeys statement => statement.name ++ " needs at least one key column"
  | unknownColumn column => "Unknown column name: " ++ String.ofList column
  | missingParameter parameter => "No value for parameter " ++ shown parameter
  | parameterCount placeholders values =>
    "Statement has " ++ toString placeholders ++ " placeholders but " ++ toString values
      ++ " parameters were given"
  | malformedPlaceholder position => "Malformed placeholder at position " ++ toString position

end Error

end SqlText
