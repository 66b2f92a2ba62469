import BuildNotice.Text.Blank
import BuildNotice.Text.Units

namespace BuildNotice.Template

structure Position where
  line : Nat
  column : Nat
  deriving DecidableEq

namespace Position

open Text

def start : Position := ⟨1, 0⟩

def breaks : List Char → Nat
  | [] => 0
  | '\x0d' :: '\n' :: cs => breaks cs + 1
  | c :: cs => if c = '\n' ∨ c = '\x0d' then breaks cs + 1 else breaks cs

def lastLine (cs : List Char) : List Char :=
  (Blank.takeEndWhile (fun c => !(c == '\n' || c == '\x0d')) cs).takeWhile (! Blank.isLineEnd ·)

def advance (p : Position) (cs : List Char) : Position :=
  let n := breaks cs
  if n = 0 then ⟨p.line, p.column + Units.count cs⟩
  else ⟨p.line + n, Units.count (lastLine cs)⟩

def toText (p : Position) : String :=
  toString p.line ++ ":" ++ toString p.column

end Position

end BuildNotice.Template
