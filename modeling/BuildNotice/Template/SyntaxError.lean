import BuildNotice.Template.Position

namespace BuildNotice.Template

inductive SyntaxError where
  | unexpected (line : Nat)
  | unrecognized (line : Nat)
  | invalidPath (path : String) (position : Position)
  | mismatch (opened closed : String) (position : Position)
  | alternativeOfDecorator
  | bracketedParameters
  | tooManyArguments (count : Nat) (position : Position)
  | notText
  deriving DecidableEq

namespace SyntaxError

def message : SyntaxError → String
  | .unexpected line => "Parse error on line " ++ toString line ++ ":"
  | .unrecognized line => "Lexical error on line " ++ toString line ++ ". Unrecognized text."
  | .invalidPath path p => "Invalid path: " ++ path ++ " - " ++ p.toText
  | .mismatch opened closed p => opened ++ " doesn't match " ++ closed ++ " - " ++ p.toText
  | .alternativeOfDecorator => "Unexpected inverse block on decorator"
  | .bracketedParameters => "token.substring is not a function"
  | .tooManyArguments count p =>
    "Unsupported number of partial arguments: " ++ toString count ++ " - " ++ p.toText
  | .notText => "this._input.match is not a function"

end SyntaxError

end BuildNotice.Template
