
namespace BuildNotice.Text.Blank

def isBlank (c : Char) : Bool :=
  c == ' ' || ('\t' ≤ c && c ≤ '\x0d') || c == '\u00a0' || c == '\u1680' ||
    ('\u2000' ≤ c && c ≤ '\u200a') || c == '\u2028' || c == '\u2029' || c == '\u202f' ||
    c == '\u205f' || c == '\u3000' || c == '\ufeff'

def isLineEnd (c : Char) : Bool :=
  c == '\n' || c == '\x0d' || c == '\u2028' || c == '\u2029'

def isSpaceOrTab (c : Char) : Bool :=
  c == ' ' || c == '\t'

def dropEndWhile (p : Char → Bool) (cs : List Char) : List Char :=
  (cs.reverse.dropWhile p).reverse

def takeEndWhile (p : Char → Bool) (cs : List Char) : List Char :=
  (cs.reverse.takeWhile p).reverse

def trim (cs : List Char) : List Char :=
  dropEndWhile isBlank (cs.dropWhile isBlank)

end BuildNotice.Text.Blank
