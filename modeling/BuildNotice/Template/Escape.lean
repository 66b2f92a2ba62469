import BuildNotice.Value.Print

namespace BuildNotice.Template.Escape

def char (c : Char) : List Char :=
  if c = '&' then "&amp;".toList
  else if c = '<' then "&lt;".toList
  else if c = '>' then "&gt;".toList
  else if c = '"' then "&quot;".toList
  else if c = '\'' then "&#x27;".toList
  else if c = '\x60' then "&#x60;".toList
  else if c = '=' then "&#x3D;".toList
  else [c]

def chars (cs : List Char) : List Char := cs.flatMap char

def text (s : String) : String := String.ofList (chars s.toList)

/-- The escaped text of a value; nothing prints as nothing. Only a function named `toHTML` would be
asked for markup instead, and no value holds one. -/
def value? (v : Value) : Option String :=
  if v.isNullish then some "" else v.print?.map text

theorem chars_append (xs ys : List Char) : chars (xs ++ ys) = chars xs ++ chars ys :=
  List.flatMap_append

end BuildNotice.Template.Escape
