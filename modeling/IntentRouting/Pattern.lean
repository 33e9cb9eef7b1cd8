import IntentRouting.Text.Split

/-!
# Path patterns

Four ways to match a path: the whole of it, its beginning, its end, or a glob. In a glob a point
stands for any character, a character followed by an asterisk for any number of that character, and
a backslash takes the character after it as it is. A glob is first read into tokens. Matching then
keeps the tokens that may come next, given the characters read so far, in one pass over the input; a
token that may take nothing lets the one after it come next as well.
-/

namespace IntentRouting

/-- How the text of a pattern is used. -/
inductive Pattern.Kind where
  | literal
  /-- The path begins with the text. -/
  | beginning
  /-- The path ends with the text. -/
  | ending
  | glob
deriving DecidableEq, Repr

/-- A pattern for paths. -/
structure Pattern where
  text : String
  kind : Pattern.Kind
deriving DecidableEq, Repr

namespace Pattern

/-- What one token of a glob takes. -/
inductive Atom where
  | any
  | only (c : Char)
deriving DecidableEq, Repr

/-- A token of a glob: it takes one character, or any number of them if it is repeated. -/
structure Token where
  atom : Atom
  repeated : Bool
deriving DecidableEq, Repr

/-- Whether an atom takes a character. -/
def Atom.takes : Atom → Char → Bool
  | .any, _ => true
  | .only expected, c => expected = c

/-- Makes the last token repeated. Where there is none, or it is repeated already, an asterisk
stands for itself. -/
def repeatLast : List Token → List Token
  | [] => [⟨.only '*', false⟩]
  | [token] => if token.repeated then [token, ⟨.only '*', false⟩] else [⟨token.atom, true⟩]
  | token :: tokens => token :: repeatLast tokens

/-- Reads the tokens of a glob after those already read. A backslash at the end stands for itself.
-/
def tokensFrom (read : List Token) : List Char → List Token
  | [] => read
  | '\\' :: c :: rest => tokensFrom (read ++ [⟨.only c, false⟩]) rest
  | '.' :: rest => tokensFrom (read ++ [⟨.any, false⟩]) rest
  | '*' :: rest => tokensFrom (repeatLast read) rest
  | c :: rest => tokensFrom (read ++ [⟨.only c, false⟩]) rest

/-- The tokens of a glob. -/
def tokens (glob : List Char) : List Token := tokensFrom [] glob

/-- Marks the tokens that may come next also after tokens that may take nothing. The marks are one
more than the tokens: the last one says that the tokens may be used up. -/
def skipRepeated (reached : Bool) : List Token → List Bool → List Bool
  | token :: tokens, mark :: marks =>
      let mark := mark || reached
      mark :: skipRepeated (mark && token.repeated) tokens marks
  | [], mark :: _ => [mark || reached]
  | _, [] => []

/-- The tokens that come next after one character: a repeated token again, another token's
successor. -/
def stepMarks (c : Char) (entered : Bool) : List Token → List Bool → List Bool
  | token :: tokens, mark :: marks =>
      let taken := mark && token.atom.takes c
      (entered || (taken && token.repeated)) :: stepMarks c (taken && !token.repeated) tokens marks
  | [], _ :: _ => [entered]
  | _, [] => []

/-- Whether the tokens may be used up at the end of the characters. Nothing more is read once no token
can come next. -/
def runMarks (tokens : List Token) (marks : List Bool) : List Char → Bool
  | [] => marks.getLastD false
  | c :: rest =>
      let next := skipRepeated false tokens (stepMarks c false tokens marks)
      if next.contains true then runMarks tokens next rest else false

/-- Whether the characters can be cut into pieces, one for each token, that the tokens take. -/
def matchesTokens (tokens : List Token) (characters : List Char) : Bool :=
  runMarks tokens (skipRepeated true tokens (List.replicate (tokens.length + 1) false)) characters

def accepts (pattern : Pattern) (path : String) : Bool :=
  match pattern.kind with
  | .literal => pattern.text = path
  | .beginning => pattern.text.toList.isPrefixOf path.toList
  | .ending => pattern.text.toList.isSuffixOf path.toList
  | .glob => matchesTokens (tokens pattern.text.toList) path.toList

/-- A glob that ends in a backslash which takes no character: the backslashes at its end are odd in
number. -/
def endsInsideEscape (pattern : Pattern) : Bool :=
  pattern.kind = .glob &&
    (pattern.text.toList.reverse.takeWhile (· = '\\')).length % 2 = 1

end Pattern

end IntentRouting
