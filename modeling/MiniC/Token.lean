/-!
# Tokens

A token is a lexeme of the source text together with its kind, its byte offset
and its line.  A token stream always ends in an end-of-file token, so there is a
token at every index.
-/

namespace MiniC

/-- The kinds of token.  Literals carry their value: a number its integer, a
string its bytes, the final zero byte included. -/
inductive TokenKind
  | identifier
  | punctuator
  | keyword
  | str (data : List UInt8)
  | num (value : Int)
  | eof
  deriving DecidableEq

/-- A lexeme with its kind and its place. -/
structure Token where
  kind : TokenKind
  text : String
  loc : Nat
  line : Nat
  deriving DecidableEq

namespace Token

/-- Number of bytes of the lexeme. -/
def length (token : Token) : Nat := token.text.utf8ByteSize

/-- Whether the token is the given punctuator or keyword. -/
def isSymbol (token : Token) (symbol : String) : Bool :=
  match token.kind with
  | .punctuator | .keyword => token.text == symbol
  | _ => false

/-- Whether the token is an identifier. -/
def isIdentifier (token : Token) : Bool := token.kind == .identifier

/-- Whether the token ends the stream. -/
def isEof (token : Token) : Bool := token.kind == .eof

/-- How an error message names the token. -/
def describe (token : Token) : String :=
  if token.isEof then "EOF" else token.text

end Token

/-- The tokens of a source text, with the end-of-file token apart. -/
structure TokenStream where
  body : Array Token
  eof : Token

namespace TokenStream

/-- Index of the end-of-file token. -/
def last (tokens : TokenStream) : Nat := tokens.body.size

/-- The token at an index.  Past the end there is the end-of-file token. -/
def get (tokens : TokenStream) (index : Nat) : Token :=
  tokens.body.getD index tokens.eof

/-- All tokens in order, the end-of-file token included. -/
def toList (tokens : TokenStream) : List Token :=
  tokens.body.toList ++ [tokens.eof]

/-- From the end on there is nothing but the end-of-file token. -/
theorem get_of_last_le
    {tokens : TokenStream}
    {index : Nat}
    (beyond : tokens.last ≤ index) :
    tokens.get index = tokens.eof := by
  unfold last at beyond
  simp only [get, Array.getD]
  rw [dif_neg (by omega)]

end TokenStream
end MiniC
