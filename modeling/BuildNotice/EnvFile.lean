import BuildNotice.Record
import BuildNotice.Text.Blank
import BuildNotice.Text.Search

/-! Files of variables, one to a line. Choices are tried in order, each with all that follows it. -/

namespace BuildNotice.EnvFile

open Text Blank

variable {α : Type}

def many (p : Char → Bool) (k : List Char → Option α) : List Char → Option α
  | [] => k []
  | c :: cs => if p c then (many p k cs).orElse fun _ => k (c :: cs) else k (c :: cs)

def many1 (p : Char → Bool) (k : List Char → Option α) : List Char → Option α
  | [] => none
  | c :: cs => if p c then many p k cs else none

def few (p : Char → Bool) (k : List Char → Option α) : List Char → Option α
  | [] => k []
  | c :: cs => (k (c :: cs)).orElse fun _ => if p c then few p k cs else none

def few1 (p : Char → Bool) (k : List Char → Option α) : List Char → Option α
  | [] => none
  | c :: cs => if p c then few p k cs else none

def char (d : Char) (k : List Char → Option α) : List Char → Option α
  | [] => none
  | c :: cs => if c = d then k cs else none

def untilQuote (q : Char) (k : List Char → Option α) : List Char → Option α
  | [] => none
  | c :: cs =>
    if c = q then k cs
    else if c = '\\' then
      match cs with
      | [] => none
      | d :: ds =>
        if d = q then (untilQuote q k ds).orElse fun _ => k ds else untilQuote q k (d :: ds)
    else untilQuote q k cs

def before (cs rest : List Char) : List Char :=
  cs.take (cs.length - rest.length)

def isNameChar (c : Char) : Bool :=
  c.isAlphanum || c == '_' || c == '.' || c == '-'

def isPlain (c : Char) : Bool :=
  c != '#' && c != '\n' && c != '\x0d'

def quotes : List Char := ['\'', '"', '\x60']

def quotedValue (q : Char) (k : List Char → List Char → Option α) (cs : List Char) : Option α :=
  many isBlank (char q (untilQuote q fun rest => k (before cs rest) rest)) cs

def value (k : List Char → List Char → Option α) (cs : List Char) : Option α :=
  (quotes.findSome? fun q => quotedValue q k cs).orElse fun _ =>
    (many1 isPlain (fun rest => k (before cs rest) rest) cs).orElse fun _ => k [] cs

def atLineEnd : List Char → Bool
  | [] => true
  | c :: _ => isLineEnd c

def lineEnd (k : List Char → Option α) : List Char → Option α :=
  many isBlank fun rest =>
    match rest with
    | '#' :: cs => k (cs.dropWhile fun c => !isLineEnd c)
    | cs => if atLineEnd cs then k cs else none

def separator (k : List Char → Option α) (cs : List Char) : Option α :=
  (many isBlank (char '=' (few isBlank k)) cs).orElse fun _ => char ':' (few1 isBlank k) cs

def name (k : List Char → List Char → Option α) (cs : List Char) : Option α :=
  many1 isNameChar (fun rest => k (before cs rest) rest) cs

def exported (k : List Char → Option α) (cs : List Char) : Option α :=
  ((Search.after? "export".toList cs).bind (many1 isBlank k)).orElse fun _ => k cs

structure Found where
  name : List Char
  value : List Char
  rest : List Char

def assignment? : List Char → Option Found :=
  many isBlank <| exported <| name fun n =>
    separator <| value fun v => lineEnd fun rest => some ⟨n, v, rest⟩

def closing? (q : Char) : List Char → Option Nat
  | [] => none
  | c :: cs =>
    match closing? q cs with
    | some n => some (n + 1)
    | none => if c = q ∧ atLineEnd cs then some 0 else none

/-- Takes off the quotes around a value. `left` counts the characters before a closing quote. -/
def unquote : (left : Option Nat) → (start : Bool) → List Char → List Char
  | _, _, [] => []
  | some 0, _, _ :: cs => unquote none false cs
  | some (n + 1), _, c :: cs => c :: unquote (some n) false cs
  | none, start, c :: cs =>
    match if start && quotes.contains c then closing? c cs else none with
    | some n => unquote (some n) false cs
    | none => c :: unquote none (isLineEnd c) cs

def expand : List Char → List Char
  | [] => []
  | '\\' :: 'n' :: cs => '\n' :: expand cs
  | '\\' :: 'r' :: cs => '\x0d' :: expand cs
  | c :: cs => c :: expand cs

def meaning (written : List Char) : String :=
  let v := trim written
  let plain := unquote none true v
  String.ofList (if v.head? = some '"' then expand plain else plain)

def unifyLineEnds : List Char → List Char
  | [] => []
  | '\x0d' :: '\n' :: cs => '\n' :: unifyLineEnds cs
  | '\x0d' :: cs => '\n' :: unifyLineEnds cs
  | c :: cs => c :: unifyLineEnds cs

/-- Looks for variables where a line starts; `skip` counts characters of one that was found. -/
def scan : (skip : Nat) → (start : Bool) → List Char → List (String × String)
  | _, _, [] => []
  | skip + 1, _, c :: cs => scan skip (isLineEnd c) cs
  | 0, start, c :: cs =>
    match if start then assignment? (c :: cs) else none with
    | some f =>
      (String.ofList f.name, meaning f.value) :: scan (cs.length - f.rest.length) (isLineEnd c) cs
    | none => scan 0 (isLineEnd c) cs

/-- The variables of a text. Of those of one name the last counts, and none can take the name by
which a record refers to its parent. -/
def parse (text : String) : List (String × String) :=
  Record.erase "__proto__" (Record.ofList (scan 0 true (unifyLineEnds text.toList)))

end BuildNotice.EnvFile
