
namespace BuildNotice.Text.Search

def after? : (pat cs : List Char) → Option (List Char)
  | [], cs => some cs
  | _ :: _, [] => none
  | p :: ps, c :: cs => if p = c then after? ps cs else none

def startsWith (pat cs : List Char) : Bool :=
  (after? pat cs).isSome

def breakAt? (pat : List Char) : List Char → Option (List Char × List Char)
  | [] => if pat.isEmpty then some ([], []) else none
  | c :: cs =>
    if startsWith pat (c :: cs) then some ([], c :: cs)
    else (breakAt? pat cs).map fun (before, rest) => (c :: before, rest)

def contains (pat cs : List Char) : Bool :=
  (breakAt? pat cs).isSome

def splitOn (sep : Char) : List Char → List (List Char)
  | [] => [[]]
  | c :: cs =>
    if c = sep then [] :: splitOn sep cs
    else match splitOn sep cs with
      | [] => [[c]]
      | part :: parts => (c :: part) :: parts

theorem after?_append (pat cs : List Char) : after? pat (pat ++ cs) = some cs := by
  induction pat with
  | nil => rfl
  | cons p ps ih => simp [after?, ih]

theorem eq_append_of_after? {pat cs rest : List Char} (h : after? pat cs = some rest) :
    cs = pat ++ rest := by
  induction pat generalizing cs with
  | nil => simpa [after?] using h
  | cons p ps ih =>
    cases cs with
    | nil => simp [after?] at h
    | cons c cs =>
      simp only [after?] at h
      split at h
      · next hpc => rw [ih h, hpc]; rfl
      · exact absurd h (by simp)

end BuildNotice.Text.Search
