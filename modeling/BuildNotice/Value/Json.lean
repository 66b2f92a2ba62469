import BuildNotice.Value
import BuildNotice.Decimal.Print

/-! Indented JSON text. Fields that are undefined are left out; where a list holds nothing, it holds null. -/

namespace BuildNotice.Value.Json

def hexDigit (n : Nat) : Char :=
  (Nat.toDigits 16 n).headD '0'

def escape (c : Char) : List Char :=
  if c = '"' then ['\\', '"']
  else if c = '\\' then ['\\', '\\']
  else if c = '\x08' then ['\\', 'b']
  else if c = '\t' then ['\\', 't']
  else if c = '\n' then ['\\', 'n']
  else if c = '\x0c' then ['\\', 'f']
  else if c = '\x0d' then ['\\', 'r']
  else if c.toNat < 32 then ['\\', 'u', '0', '0', hexDigit (c.toNat / 16), hexDigit (c.toNat % 16)]
  else [c]

def quote (s : String) : String :=
  "\"" ++ String.ofList (s.toList.flatMap escape) ++ "\""

def number (x : Float) : String :=
  if x.isNaN || x.isInf then "null" else Decimal.Print.print x

def isShown : Value → Bool
  | .undefined => false
  | _ => true

def newLine (depth : Nat) : String :=
  "\n" ++ String.ofList (List.replicate (2 * depth) ' ')

def bracketed (opening closing : String) (depth : Nat) (parts : List String) : String :=
  if parts.isEmpty then opening ++ closing
  else opening ++ newLine (depth + 1) ++ String.intercalate ("," ++ newLine (depth + 1)) parts ++
    newLine depth ++ closing

mutual

def text (depth : Nat) : Value → String
  | .undefined => "null"
  | .null => "null"
  | .bool b => if b then "true" else "false"
  | .number x => number x
  | .text s => quote s
  | .list _ items => bracketed "[" "]" depth (itemTexts (depth + 1) items)
  | .record _ fields => bracketed "\x7b" "\x7d" depth (fieldTexts (depth + 1) fields)

def itemTexts (depth : Nat) : List Value → List String
  | [] => []
  | v :: vs => text depth v :: itemTexts depth vs

def fieldTexts (depth : Nat) : List (String × Value) → List String
  | [] => []
  | f :: fs => fieldText depth f ++ fieldTexts depth fs

def fieldText (depth : Nat) : String × Value → List String
  | (key, v) => if isShown v then [quote key ++ ": " ++ text depth v] else []

end

end BuildNotice.Value.Json
