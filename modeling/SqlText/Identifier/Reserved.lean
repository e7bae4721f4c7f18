import SqlText.Text.Basic

/-!
# Reserved words

The keywords that the server does not take as a bare name of a column or a table.
-/

namespace SqlText

namespace Identifier

/-- The reserved words, in order. -/
def reservedWords : List String :=
  ["all", "analyse", "analyze", "and", "any", "array", "as", "asc", "asymmetric",
   "authorization", "between", "binary", "both", "case", "cast", "check", "collate", "collation",
   "column", "concurrently", "constraint", "create", "cross", "current_catalog", "current_date",
   "current_role", "current_schema", "current_time", "current_timestamp", "current_user",
   "default", "deferrable", "desc", "distinct", "do", "else", "end", "errors", "except", "false",
   "fetch", "for", "foreign", "freeze", "from", "full", "grant", "group", "having", "ilike",
   "in", "initially", "inner", "intersect", "into", "is", "isnull", "join", "lateral", "leading",
   "left", "like", "limit", "localtime", "localtimestamp", "natural", "new", "not", "notnull",
   "null", "off", "offset", "old", "on", "only", "or", "order", "outer", "over", "overlaps",
   "placing", "primary", "references", "returning", "right", "select", "session_user", "similar",
   "some", "symmetric", "system_user", "table", "tablesample", "then", "to", "trailing", "true",
   "union", "unique", "user", "using", "variadic", "verbose", "when", "where", "window", "with"]

/-- Whether a name is a reserved word. Reserved words are written in small letters. -/
def isReserved (name : Text) : Bool := reservedWords.contains (String.ofList name)

end Identifier

end SqlText
