
namespace BuildNotice.Text.Units

def width (c : Char) : Nat :=
  if c.toNat < 0x10000 then 1 else 2

def count : List Char → Nat
  | [] => 0
  | c :: cs => width c + count cs

def length (s : String) : Nat :=
  count s.toList

def at? : List Char → Nat → Option Char
  | [], _ => none
  | c :: cs, i =>
    if width c = 1 then
      if i = 0 then some c else at? cs (i - 1)
    else if i < 2 then some '\ufffd' else at? cs (i - 2)

/-- The longest beginning of at most `n` units; a wide character that would be cut leaves the
replacement character. -/
def take : Nat → List Char → List Char
  | _, [] => []
  | n, c :: cs =>
    if n = 0 then []
    else if width c ≤ n then c :: take (n - width c) cs
    else ['\ufffd']

end BuildNotice.Text.Units
