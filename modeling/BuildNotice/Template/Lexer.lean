import BuildNotice.Template.Token
import BuildNotice.Text.Search
import BuildNotice.Decimal.Read

/-! Each step takes at least one character; where no rule applies the scan ends with `unrecognized`. -/

namespace BuildNotice.Template.Lexer

open Text Text.Blank Text.Search

inductive Mode where
  | text
  | tag
  | escaped
  | raw (depth : Nat)

/-- The characters of a token less one, the token unless it is skipped, and the mode after it. -/
structure Lexeme where
  more : Nat
  token : Option Token
  mode : Mode

def lexeme (size : Nat) (token : Token) (mode : Mode) : Option Lexeme :=
  some ⟨size - 1, some token, mode⟩

def braces (n : Nat) : List Char := List.replicate n '\x7b'

def closing (n : Nat) : List Char := List.replicate n '\x7d'

def isNameChar (c : Char) : Bool :=
  !(isBlank c || "!\"#%&'()*+,./;<=>@[\\]^`\x7b|\x7d~".toList.contains c)

def stopsName : List Char → Bool
  | [] => false
  | c :: _ => isBlank c || "=~\x7d/.)|".toList.contains c

def stopsLiteral : List Char → Bool
  | [] => false
  | c :: _ => isBlank c || "~\x7d)".toList.contains c

def isWordChar (c : Char) : Bool :=
  c.isAlphanum || c == '_'

def dropTilde : List Char → Bool × List Char
  | '~' :: cs => (true, cs)
  | cs => (false, cs)

def tildeSize (tilde : Bool) : Nat := if tilde then 1 else 0

def closeTag? (cs : List Char) : Option (Bool × Nat) :=
  let (tilde, rest) := dropTilde cs
  if startsWith (closing 2) rest then some (tilde, tildeSize tilde + 2) else none

def blankClose? (cs : List Char) : Option (Bool × Nat) :=
  (closeTag? (cs.dropWhile isBlank)).map fun (tilde, n) =>
    (tilde, n + (cs.takeWhile isBlank).length)

def dashedEnd? : List Char → Option Nat
  | [] => none
  | c :: cs =>
    match after? ['-', '-'] (c :: cs) with
    | some rest =>
      match closeTag? rest with
      | some (_, n) => some (n + 2)
      | none => (dashedEnd? cs).map (· + 1)
    | none => (dashedEnd? cs).map (· + 1)

def plainEnd? (cs : List Char) : Option Nat :=
  (breakAt? (closing 2) cs).map fun (before, _) => before.length + 2

def comment (size : Nat) (tilde : Bool) (cs : List Char) : Option Lexeme :=
  lexeme size (.comment ⟨tilde, cs[size - 3]? == some '~'⟩) .text

def tagKind (cs : List Char) (tilde : Bool) (rest : List Char) : Option Lexeme :=
  let skip := 2 + tildeSize tilde
  let tag (n : Nat) (t : Token) := lexeme (skip + n) t .tag
  match rest with
  | '>' :: _ => tag 1 (.partialOpen tilde)
  | '#' :: '>' :: _ => tag 2 (.partialBlockOpen tilde)
  | '#' :: '*' :: _ => tag 2 (.blockOpen tilde true)
  | '#' :: _ => tag 1 (.blockOpen tilde false)
  | '/' :: _ => tag 1 (.endOpen tilde)
  | '^' :: after =>
    match blankClose? after with
    | some (last, n) => lexeme (skip + 1 + n) (.inverse ⟨tilde, last⟩) .text
    | none => tag 1 (.inverseOpen tilde)
  | '\x7b' :: _ => tag 1 (.tripleOpen tilde)
  | '&' :: _ => tag 1 (.outputOpen tilde .unescaped)
  | '!' :: after =>
    if startsWith ['-', '-'] after then
      (dashedEnd? cs).bind fun n => comment n tilde cs
    else match plainEnd? after with
      | some n => comment (skip + 1 + n) tilde cs
      | none => tag 0 (.outputOpen tilde .escaped)
  | '*' :: _ => tag 1 (.outputOpen tilde .decorator)
  | _ =>
    let blanks := (rest.takeWhile isBlank).length
    match after? "else".toList (rest.dropWhile isBlank) with
    | some after =>
      match blankClose? after with
      | some (last, n) => lexeme (skip + blanks + 4 + n) (.inverse ⟨tilde, last⟩) .text
      | none =>
        if after.head?.any isWordChar then tag 0 (.outputOpen tilde .escaped)
        else tag (blanks + 4) (.chainOpen tilde)
    | none => tag 0 (.outputOpen tilde .escaped)

def opening? (cs : List Char) : Option (Option Lexeme) :=
  if startsWith (braces 4) cs then some (lexeme 4 .rawOpen .tag)
  else (after? (braces 2) cs).map fun rest =>
    let (tilde, rest) := dropTilde rest
    tagKind cs tilde rest

def closing? (cs : List Char) : Option Lexeme :=
  if startsWith (closing 4) cs then lexeme 4 .rawClose (.raw 1)
  else match closeTag? (cs.drop 1), cs with
    | some (tilde, n), '\x7d' :: _ => lexeme (n + 1) (.tripleClose tilde) .text
    | _, _ =>
      match closeTag? cs with
      | some (tilde, n) => lexeme n (.close tilde) .text
      | none => none

/-- The size of a quoted text after its opening mark, its closing mark included. A mark behind a
backslash belongs to the text unless it is the last one. -/
def quotedEnd? (mark : Char) : List Char → Option Nat
  | [] => none
  | '\\' :: c :: cs =>
    if c = mark then
      match quotedEnd? mark cs with
      | some n => some (n + 2)
      | none => some 2
    else (quotedEnd? mark (c :: cs)).map (· + 1)
  | c :: cs => if c = mark then some 1 else (quotedEnd? mark cs).map (· + 1)

def unescape (marks : List Char) : List Char → List Char
  | [] => []
  | '\\' :: c :: cs =>
    if c ∈ marks then c :: unescape marks cs else '\\' :: unescape marks (c :: cs)
  | c :: cs => c :: unescape marks cs

def quoted? (cs : List Char) : Option Lexeme :=
  match cs with
  | [] => none
  | c :: rest =>
    if c = '"' ∨ c = '\'' then
      (quotedEnd? c rest).bind fun n =>
        lexeme (n + 1) (.string (String.ofList (unescape [c] (rest.take (n - 1))))) .tag
    else none

def bracketed? (cs : List Char) : Option Lexeme :=
  match cs with
  | '[' :: rest =>
    (quotedEnd? ']' rest).bind fun n =>
      lexeme (n + 1) (.name (String.ofList (unescape ['\\', ']'] (cs.take (n + 1))))) .tag
  | _ => none

def word? (word : String) (token : Token) (cs : List Char) : Option Lexeme :=
  match after? word.toList cs with
  | some rest => if stopsLiteral rest then lexeme word.toList.length token .tag else none
  | none => none

def numberSize? (cs : List Char) : Option Nat :=
  let sign := match cs with
    | '-' :: _ => 1
    | _ => 0
  let whole := (cs.drop sign).takeWhile Char.isDigit
  let rest := (cs.drop sign).dropWhile Char.isDigit
  let fraction := match rest with
    | '.' :: ds => (ds.takeWhile Char.isDigit).length
    | _ => 0
  let size := sign + whole.length + (if fraction = 0 then 0 else fraction + 1)
  if whole.isEmpty then none
  else if stopsLiteral (cs.drop size) then some size else none

def number? (cs : List Char) : Option Lexeme :=
  (numberSize? cs).bind fun n => lexeme n (.number (Decimal.Read.literal (cs.take n))) .tag

def paramsOpen? (cs : List Char) : Option Lexeme :=
  match cs with
  | 'a' :: 's' :: rest =>
    let blanks := (rest.takeWhile isBlank).length
    match rest.dropWhile isBlank with
    | '|' :: _ => if blanks = 0 then none else lexeme (blanks + 3) .paramsOpen .tag
    | _ => none
  | _ => none

def name? (cs : List Char) : Option Lexeme :=
  let text := cs.takeWhile isNameChar
  if text.isEmpty then none
  else if stopsName (cs.dropWhile isNameChar) then
    lexeme text.length (.name (String.ofList text)) .tag
  else none

/-- Dots and slashes: two dots, or one at the end of a path, are names. -/
def dots? (cs : List Char) : Option Lexeme :=
  match cs with
  | '.' :: '.' :: _ => lexeme 2 (.name "..") .tag
  | '.' :: rest =>
    if stopsName rest then lexeme 1 (.name ".") .tag else lexeme 1 (.separator ".") .tag
  | '/' :: _ => lexeme 1 (.separator "/") .tag
  | _ => none

def blanks? (cs : List Char) : Option Lexeme :=
  let n := (cs.takeWhile isBlank).length
  if n = 0 then none else some ⟨n - 1, none, .tag⟩

def sign? (cs : List Char) : Option Lexeme :=
  match cs with
  | '(' :: _ => lexeme 1 .groupOpen .tag
  | ')' :: _ => lexeme 1 .groupClose .tag
  | '=' :: _ => lexeme 1 .equals .tag
  | '@' :: _ => lexeme 1 .at .tag
  | '|' :: _ => lexeme 1 .paramsClose .tag
  | _ => none

def inTag (cs : List Char) : Option Lexeme :=
  match opening? cs with
  | some found => found
  | none =>
    [closing?, blanks?, dots?, sign?, quoted?, word? "true" (.boolean true),
      word? "false" (.boolean false), word? "undefined" .undefined, word? "null" .null, number?,
      paramsOpen?, name?, bracketed?].findSome? (· cs) |>.or (lexeme 1 .stray .tag)

/-- Content that ends where a tag opens. One backslash before the tag makes it content, two stand
for one. -/
def beforeTag (before : List Char) : Lexeme :=
  let content (text : List Char) (mode : Mode) : Lexeme :=
    ⟨before.length - 1, if text.isEmpty then none else some (.content (String.ofList text)), mode⟩
  if before.reverse.take 2 = ['\\', '\\'] then content before.dropLast .tag
  else if before.getLast? = some '\\' then content before.dropLast .escaped
  else content before .tag

def isNul (c : Char) : Bool := c == '\x00'

def inText (cs : List Char) : Option Lexeme :=
  match breakAt? (braces 2) cs with
  | some (before, rest) =>
    if before.isEmpty then inTag rest
    else if before.any isNul then untilNul cs
    else some (beforeTag before)
  | none => untilNul cs
where
  untilNul (cs : List Char) : Option Lexeme :=
    let text := cs.takeWhile (! isNul ·)
    if text.isEmpty then none else lexeme text.length (.content (String.ofList text)) .text

def nextTag? : List Char → Option Nat
  | [] => some 0
  | c :: cs =>
    if isNul c then none
    else if startsWith (braces 2) (c :: cs) || startsWith ('\\' :: braces 2) (c :: cs) ||
        startsWith ('\\' :: '\\' :: braces 2) (c :: cs) then some 0
    else (nextTag? cs).map (· + 1)

def inEscaped (cs : List Char) : Option Lexeme :=
  if (cs.take 2).any isNul || cs.length < 2 then none
  else (nextTag? (cs.drop 2)).bind fun n =>
    lexeme (n + 2) (.content (String.ofList (cs.take (n + 2)))) .text

def rawEnd? (cs : List Char) : Option (String × Nat) :=
  (after? (braces 4 ++ ['/']) cs).bind fun rest =>
    let name := rest.takeWhile isNameChar
    if name.isEmpty then none
    else if startsWith (closing 4) (rest.dropWhile isNameChar) then
      some (String.ofList name, name.length + 9)
    else none

def rawContent (cs : List Char) (size : Nat) (mode : Mode) : Option Lexeme :=
  lexeme size (.content (String.ofList (cs.take size))) mode

def upToBraces (depth : Nat) (cs : List Char) : Option Lexeme :=
  (breakAt? (braces 4) (cs.drop 1)).bind fun (before, _) =>
    if (cs.take (before.length + 1)).any isNul then none
    else rawContent cs (before.length + 1) (.raw depth)

def inRaw (depth : Nat) (cs : List Char) : Option Lexeme :=
  match (cs.drop 4).head?, rawEnd? cs with
  | _, some (name, size) =>
    if depth ≤ 1 then lexeme size (.rawEnd name) .text else rawContent cs size (.raw (depth - 1))
  | some c, none =>
    if startsWith (braces 4) cs ∧ c ≠ '/' then rawContent cs 4 (.raw (depth + 1))
    else upToBraces depth cs
  | none, none => upToBraces depth cs

def step : Mode → List Char → Option Lexeme
  | .text, cs => inText cs
  | .tag, cs => inTag cs
  | .escaped, cs => inEscaped cs
  | .raw depth, cs => inRaw depth cs

def scan (mode : Mode) (here : Position) (since : Nat) : List Char → List Placed
  | [] => [⟨.finish, here, since⟩]
  | c :: cs =>
    match step mode (c :: cs) with
    | none => [⟨.unrecognized, here, since⟩]
    | some l =>
      let next := here.advance ((c :: cs).take (l.more + 1))
      match l.token with
      | none => scan l.mode next since (cs.drop l.more)
      | some t => ⟨t, here, since⟩ :: scan l.mode next next.line (cs.drop l.more)
termination_by cs => cs.length
decreasing_by all_goals simp only [List.length_drop, List.length_cons]; omega

def tokens (template : String) : List Placed :=
  scan .text .start 1 template.toList

end BuildNotice.Template.Lexer
