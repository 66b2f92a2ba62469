/-! Octets that form no character are read as the replacement character, one for each longest beginning
of a character. -/

namespace BuildNotice.Text.Utf8

def replacement : Char := '\ufffd'

/-- A character under way: how many octets it still lacks, the range of the next one, and the bits
so far. -/
structure Pending where
  missing : Nat
  low : Nat
  high : Nat
  bits : Nat

inductive Start where
  | char (c : Char)
  | pending (p : Pending)

def start (b : Nat) : Start :=
  if b < 0x80 then .char (Char.ofNat b)
  else if 0xc2 ≤ b ∧ b ≤ 0xdf then .pending ⟨1, 0x80, 0xbf, b - 0xc0⟩
  else if 0xe0 ≤ b ∧ b ≤ 0xef then
    .pending ⟨2, if b = 0xe0 then 0xa0 else 0x80, if b = 0xed then 0x9f else 0xbf, b - 0xe0⟩
  else if 0xf0 ≤ b ∧ b ≤ 0xf4 then
    .pending ⟨3, if b = 0xf0 then 0x90 else 0x80, if b = 0xf4 then 0x8f else 0xbf, b - 0xf0⟩
  else .char replacement

def decodeFrom : Option Pending → List Nat → List Char
  | none, [] => []
  | some _, [] => [replacement]
  | none, b :: bs =>
    match start b with
    | .char c => c :: decodeFrom none bs
    | .pending p => decodeFrom (some p) bs
  | some p, b :: bs =>
    if p.low ≤ b ∧ b ≤ p.high then
      let bits := p.bits * 64 + (b - 0x80)
      if p.missing ≤ 1 then Char.ofNat bits :: decodeFrom none bs
      else decodeFrom (some ⟨p.missing - 1, 0x80, 0xbf, bits⟩) bs
    else
      match start b with
      | .char c => replacement :: c :: decodeFrom none bs
      | .pending q => replacement :: decodeFrom (some q) bs

def decode (octets : List UInt8) : String :=
  String.ofList (decodeFrom none (octets.map UInt8.toNat))

end BuildNotice.Text.Utf8
