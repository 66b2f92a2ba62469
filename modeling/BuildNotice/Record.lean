/-! Keys that are canonical naturals below `2 ^ 32 - 1` come first, in numeric order; the others follow in
the order of their first setting. -/

namespace BuildNotice.Record

variable {α : Type}

def maxIndex : Nat := Nat.pow 2 32 - 2

def digitsValue (cs : List Char) : Nat :=
  cs.foldl (fun n c => 10 * n + (c.toNat - '0'.toNat)) 0

def isCanonical : List Char → Bool
  | [] => false
  | ['0'] => true
  | '0' :: _ => false
  | cs => cs.all Char.isDigit

def index? (key : String) : Option Nat :=
  if isCanonical key.toList ∧ digitsValue key.toList ≤ maxIndex then
    some (digitsValue key.toList)
  else none

def get? (key : String) : List (String × α) → Option α
  | [] => none
  | (k, v) :: fields => if k = key then some v else get? key fields

def has (key : String) (fields : List (String × α)) : Bool :=
  fields.any (·.1 == key)

def keys (fields : List (String × α)) : List String :=
  fields.map (·.1)

def replace (key : String) (v : α) : List (String × α) → List (String × α)
  | [] => []
  | (k, w) :: fields => if k = key then (k, v) :: fields else (k, w) :: replace key v fields

def insertIndex (n : Nat) (key : String) (v : α) : List (String × α) → List (String × α)
  | [] => [(key, v)]
  | (k, w) :: fields =>
    match index? k with
    | some m =>
      if m < n then (k, w) :: insertIndex n key v fields else (key, v) :: (k, w) :: fields
    | none => (key, v) :: (k, w) :: fields

def insertNew (key : String) (v : α) (fields : List (String × α)) : List (String × α) :=
  match index? key with
  | some n => insertIndex n key v fields
  | none => fields ++ [(key, v)]

def set (key : String) (v : α) (fields : List (String × α)) : List (String × α) :=
  if has key fields then replace key v fields else insertNew key v fields

def erase (key : String) (fields : List (String × α)) : List (String × α) :=
  fields.filter (·.1 != key)

def merge (base later : List (String × α)) : List (String × α) :=
  later.foldl (fun fields (key, v) => set key v fields) base

def ofList (pairs : List (String × α)) : List (String × α) :=
  merge [] pairs

@[simp] theorem get?_nil (key : String) : get? key ([] : List (String × α)) = none := rfl

theorem has_iff_get?_isSome (key : String) (fields : List (String × α)) :
    has key fields = (get? key fields).isSome := by
  induction fields with
  | nil => rfl
  | cons f fields ih =>
    obtain ⟨k, v⟩ := f
    by_cases h : k = key <;> simp_all [has, get?]

theorem get?_replace (key k : String) (v : α) (fields : List (String × α))
    (h : has key fields = true) :
    get? k (replace key v fields) = if k = key then some v else get? k fields := by
  induction fields with
  | nil => simp [has] at h
  | cons f fields ih =>
    obtain ⟨k', w⟩ := f
    by_cases hk : k' = key
    · by_cases hkk : k = key
      · simp_all [replace, get?]
      · simp [replace, get?, hk, hkk, Ne.symm hkk]
    · have hf : has key fields = true := by simpa [has, hk] using h
      by_cases hkk : k' = k
      · have : k ≠ key := fun e => hk (hkk.trans e)
        simp [replace, get?, hkk, this]
      · simp [replace, get?, hk, hkk, ih hf]

theorem get?_insertIndex (n : Nat) (key k : String) (v : α) (fields : List (String × α))
    (h : has key fields = false) :
    get? k (insertIndex n key v fields) = if k = key then some v else get? k fields := by
  induction fields with
  | nil => simp [insertIndex, get?, eq_comm]
  | cons f fields ih =>
    obtain ⟨k', w⟩ := f
    have hk : k' ≠ key := fun e => by simp [has, e] at h
    have hf : has key fields = false := by simpa [has, hk] using h
    have front : get? k ((key, v) :: (k', w) :: fields) =
        if k = key then some v else get? k ((k', w) :: fields) := by
      by_cases hkk : k = key
      · simp [get?, hkk]
      · simp [get?, hkk, Ne.symm hkk]
    simp only [insertIndex]
    split
    · split
      · by_cases hkk : k' = k
        · have : k ≠ key := fun e => hk (hkk.trans e)
          simp [get?, hkk, this]
        · simp [get?, hkk, ih hf]
      · exact front
    · exact front

theorem get?_append_new (key k : String) (v : α) (fields : List (String × α))
    (h : has key fields = false) :
    get? k (fields ++ [(key, v)]) = if k = key then some v else get? k fields := by
  induction fields with
  | nil => simp [get?, eq_comm]
  | cons f fields ih =>
    obtain ⟨k', w⟩ := f
    have hk : k' ≠ key := fun e => by simp [has, e] at h
    have hf : has key fields = false := by simpa [has, hk] using h
    by_cases hkk : k' = k
    · have : k ≠ key := fun e => hk (hkk.trans e)
      simp [get?, hkk, this]
    · simp [get?, hkk, ih hf]

theorem get?_set (key k : String) (v : α) (fields : List (String × α)) :
    get? k (set key v fields) = if k = key then some v else get? k fields := by
  unfold set
  split
  · next h => exact get?_replace key k v fields h
  · next h =>
    have hf : has key fields = false := by simpa using h
    unfold insertNew
    split
    · exact get?_insertIndex _ key k v fields hf
    · exact get?_append_new key k v fields hf

end BuildNotice.Record
