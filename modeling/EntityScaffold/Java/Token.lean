/-!
# Tokens of Java

The words that are reserved, the two classes of them that the grammar asks for, and the symbols.
A closing angle bracket is a symbol of its own even where two or three stand together, because
they may close nested type arguments; the grammar puts shifts together again.
-/

namespace EntityScaffold.Java

/-- A token. Literals keep their text, with the quotes. -/
inductive Token
  | keyword (text : String)
  | identifier (text : String)
  | literal (text : String)
  | symbol (text : String)
  deriving DecidableEq, Repr, Inhabited

namespace Token

/-- Words that say how a declaration is meant. -/
def modifiers : List String :=
  ["abstract", "default", "final", "native", "private", "protected", "public", "static",
   "strictfp", "synchronized", "transient", "volatile"]

/-- Names of the types that are no classes. -/
def basicTypes : List String :=
  ["boolean", "byte", "char", "double", "float", "int", "long", "short"]

/-- Words that are no names. -/
def keywords : List String :=
  modifiers ++ basicTypes ++
    ["assert", "break", "case", "catch", "class", "const", "continue", "do", "else", "enum",
     "extends", "finally", "for", "goto", "if", "implements", "import", "instanceof", "interface",
     "new", "package", "return", "super", "switch", "this", "throw", "throws", "try", "void",
     "while"]

/-- Words that are values. -/
def wordLiterals : List String := ["true", "false", "null"]

/-- The token that a word is. -/
def ofWord (s : String) : Token :=
  if s ∈ keywords then .keyword s
  else if s ∈ wordLiterals then .literal s
  else .identifier s

/-- Symbols of one character that never start a longer one. -/
def separators : List Char := ['(', ')', '{', '}', '[', ']', ';', ',', '.']

/-- All other symbols, the longer ones first. -/
def operators : List String :=
  [">>>=",
   ">>=", "<<=", "...",
   "%=", "^=", "|=", "&=", "/=", "*=", "-=", "+=", "<<", "--", "++", "||", "&&", "!=", ">=",
   "<=", "==", "->", "::",
   "%", "^", "|", "&", "/", "*", "-", "+", ":", "?", "~", "!", "<", ">", "="]

/-- Symbols before an operand. -/
def prefixOps : List String := ["++", "--", "!", "~", "+", "-"]

/-- Symbols after an operand. -/
def postfixOps : List String := ["++", "--"]

/-- Symbols that assign. -/
def assignmentOps : List String :=
  ["=", "+=", "-=", "*=", "/=", "&=", "|=", "^=", "%=", "<<=", ">>=", ">>>="]

/-- Symbols between two operands, by rising strength. Two and three closing angle brackets are
put together by the grammar. -/
def binaryLevels : List (List String) :=
  [["||"], ["&&"], ["|"], ["^"], ["&"], ["==", "!="], ["<", ">", ">=", "<=", "instanceof"],
   ["<<", ">>", ">>>"], ["+", "-"], ["*", "/", "%"]]

/-- Symbols between two operands as they are read. -/
def binaryOps : List String :=
  ["||", "&&", "|", "^", "&", "==", "!=", "<", ">", "<=", ">=", "<<", "+", "-", "*", "/", "%"]

abbrev openParen : Token := .symbol "("
abbrev closeParen : Token := .symbol ")"
abbrev openBrace : Token := .symbol "\x7b"
abbrev closeBrace : Token := .symbol "\x7d"
abbrev openBracket : Token := .symbol "["
abbrev closeBracket : Token := .symbol "]"
abbrev openAngle : Token := .symbol "<"
abbrev closeAngle : Token := .symbol ">"
abbrev semicolon : Token := .symbol ";"
abbrev comma : Token := .symbol ","
abbrev dot : Token := .symbol "."
abbrev atSign : Token := .symbol "@"
abbrev question : Token := .symbol "?"
abbrev colon : Token := .symbol ":"
abbrev equals : Token := .symbol "="
abbrev arrow : Token := .symbol "->"
abbrev doubleColon : Token := .symbol "::"

/-- The token starts a type that is no class. -/
def isBasicType : Token → Bool
  | .keyword s => s ∈ basicTypes
  | _ => false

/-- The token is a modifier. -/
def isModifier : Token → Bool
  | .keyword s => s ∈ modifiers
  | _ => false

/-- The token is a name. -/
def isIdentifier : Token → Bool
  | .identifier _ => true
  | _ => false

/-- The token is a symbol of the list. -/
def isSymbolIn (symbols : List String) : Token → Bool
  | .symbol s => s ∈ symbols
  | _ => false

end Token

end EntityScaffold.Java
