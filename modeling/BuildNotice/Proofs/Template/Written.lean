import BuildNotice.Proofs.Template.Lexing

/-! Templates by their structure, with the text they are written as and the tokens of that text. -/

namespace BuildNotice.Template.Written

open Lexer Text.Blank Text.Search

inductive Term where
  | path (names : List String)
  | string (s : String)
  | call (helper : String) (args : List Term)

inductive Piece where
  | text (s : String)
  | output (names : List String) (args : List Term)
  | block (helper : String) (args : List Term) (body : List Piece)
      (alternative : Option (List Piece))

def pathChars : List String → List Char
  | [] => []
  | [name] => name.toList
  | name :: rest => name.toList ++ '.' :: pathChars rest

def pathTokens : List String → List Token
  | [] => []
  | [name] => [.name name]
  | name :: rest => .name name :: .separator "." :: pathTokens rest

mutual

def Term.chars : Term → List Char
  | .path names => pathChars names
  | .string s => '"' :: (s.toList ++ ['"'])
  | .call helper args => '(' :: (helper.toList ++ (argChars args ++ [')']))

def argChars : List Term → List Char
  | [] => []
  | t :: ts => ' ' :: (t.chars ++ argChars ts)

end

mutual

def Term.tokens : Term → List Token
  | .path names => pathTokens names
  | .string s => [.string s]
  | .call helper args => .groupOpen :: .name helper :: (argTokens args ++ [.groupClose])

def argTokens : List Term → List Token
  | [] => []
  | t :: ts => t.tokens ++ argTokens ts

end

mutual

def Piece.chars : Piece → List Char
  | .text s => s.toList
  | .output names args =>
    '\x7b' :: '\x7b' :: (pathChars names ++ (argChars args ++ ['\x7d', '\x7d']))
  | .block helper args body alternative =>
    '\x7b' :: '\x7b' :: '#' :: (helper.toList ++ (argChars args ++ '\x7d' :: '\x7d' ::
      (chars body ++ (alternativeChars alternative ++
        '\x7b' :: '\x7b' :: '/' :: (helper.toList ++ ['\x7d', '\x7d'])))))

def chars : List Piece → List Char
  | [] => []
  | p :: ps => p.chars ++ chars ps

def alternativeChars : Option (List Piece) → List Char
  | none => []
  | some ps => '\x7b' :: '\x7b' :: 'e' :: 'l' :: 's' :: 'e' :: '\x7d' :: '\x7d' :: chars ps

end

mutual

def Piece.tokens : Piece → List Token
  | .text s => [.content s]
  | .output names args =>
    .outputOpen false .escaped :: (pathTokens names ++ (argTokens args ++ [.close false]))
  | .block helper args body alternative =>
    .blockOpen false false :: .name helper :: (argTokens args ++ .close false ::
      (tokens body ++ (alternativeTokens alternative ++
        [.endOpen false, .name helper, .close false])))

def tokens : List Piece → List Token
  | [] => []
  | p :: ps => p.tokens ++ tokens ps

def alternativeTokens : Option (List Piece) → List Token
  | none => []
  | some ps => .inverse .none :: tokens ps

end

def startsAlternative (s : String) : Bool :=
  match after? "else".toList s.toList with
  | some rest => !rest.head?.any isWordChar
  | none => false

def isIdentifier (s : String) : Bool :=
  isPlainName s && s != "this" && !startsAlternative s

def isPlainPath (names : List String) : Bool :=
  !names.isEmpty && names.all isIdentifier

mutual

def Term.isPlain : Term → Bool
  | .path names => isPlainPath names
  | .string s => isPlainString s
  | .call helper args => isIdentifier helper && arePlain args

def arePlain : List Term → Bool
  | [] => true
  | t :: ts => t.isPlain && arePlain ts

end

def Piece.isText : Piece → Bool
  | .text _ => true
  | _ => false

def startsWithText (ps : List Piece) : Bool := ps.head?.any Piece.isText

mutual

def Piece.isPlain : Piece → Bool
  | .text s => s != "" && s.toList.all isLiteralChar
  | .output names args => isPlainPath names && arePlain args
  | .block helper args body alternative =>
    isIdentifier helper && arePlain args && isPlain body && isPlainAlternative alternative

def isPlain : List Piece → Bool
  | [] => true
  | p :: ps => p.isPlain && !(p.isText && startsWithText ps) && isPlain ps

def isPlainAlternative : Option (List Piece) → Bool
  | none => true
  | some ps => isPlain ps

end

def write (ps : List Piece) : String := String.ofList (chars ps)

end BuildNotice.Template.Written
