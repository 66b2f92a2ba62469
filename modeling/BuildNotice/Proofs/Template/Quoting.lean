import BuildNotice.Proofs.Template.Lookup

namespace BuildNotice.Template.RenderError

open Text Text.Search

/-- What a name is taken for that has in it what closes a quote. -/
def Cuts (name key : String) : Prop :=
  key ≠ name ∧ ∃ quote ∈ keyQuotes, (key ++ quote.2).toList <+: (name ++ quote.2).toList

lemma isPrefix_of_startsWith {cs ds : List Char} (h : startsWith cs ds = true) : cs <+: ds := by
  obtain ⟨rest, hrest⟩ := Option.isSome_iff_exists.mp h
  rw [eq_append_of_after? hrest]
  exact List.prefix_append cs rest

lemma startsWith_append (cs ds : List Char) : startsWith cs (cs ++ ds) = true := by
  rw [startsWith, after?_append]
  rfl

lemma quotedBefore_append {close rest name key : List Char} (hname : name ≠ [])
    (h : quotedBefore close (name ++ (close ++ rest)) = some key) :
    key = name ∨ key.length < name.length ∧ key ++ close <+: name ++ (close ++ rest) := by
  induction name generalizing key with
  | nil => exact absurd rfl hname
  | cons c name ih =>
    rw [List.cons_append, quotedBefore] at h
    split at h
    · exact absurd h (by simp)
    · split at h
      · next hstart =>
        obtain rfl := Option.some.inj h
        cases name with
        | nil => exact .inl rfl
        | cons d name =>
          exact .inr ⟨by simp, (List.prefix_cons_inj c).mpr (isPrefix_of_startsWith hstart)⟩
      · next hstart =>
        obtain ⟨key, hkey, rfl⟩ := Option.map_eq_some_iff.mp h
        cases name with
        | nil => exact absurd (startsWith_append close rest) hstart
        | cons d name =>
          obtain rfl | ⟨hlength, hprefix⟩ := ih (List.cons_ne_nil d name) hkey
          · exact .inl rfl
          · exact .inr ⟨by simpa using hlength, (List.prefix_cons_inj c).mpr hprefix⟩

lemma eq_or_cuts_of_quotedKey? {before after name key : String} (rest : String)
    (hquote : (before, after) ∈ keyQuotes) (hname : name ≠ "")
    (h : quotedKey? (before, after) (before ++ (name ++ (after ++ rest))) = some key) :
    key = name ∨ Cuts name key := by
  have hmessage : (before ++ (name ++ (after ++ rest))).toList =
      before.toList ++ (name.toList ++ (after.toList ++ rest.toList)) := by
    simp
  simp only [quotedKey?, hmessage, after?_append, Option.bind_some] at h
  obtain ⟨cs, hcs, rfl⟩ := Option.map_eq_some_iff.mp h
  obtain rfl | ⟨hlength, hprefix⟩ := quotedBefore_append (by simpa using hname) hcs
  · exact .inl (by simp)
  · refine .inr ⟨?_, (before, after), hquote, ?_⟩
    · rintro rfl
      simp at hlength
    · have hwhole : name.toList ++ after.toList <+:
          name.toList ++ (after.toList ++ rest.toList) := by
        rw [← List.append_assoc]
        exact List.prefix_append _ _
      have hle : (cs ++ after.toList).length ≤ (name.toList ++ after.toList).length := by
        simp only [List.length_append]
        omega
      simpa using List.prefix_of_prefix_length_le hprefix hwhole hle

lemma findSome?_eq_of_mem {α β : Type} {f : α → Option β} {xs : List α} {x : α} (hx : x ∈ xs)
    (h : ∀ y ∈ xs, y ≠ x → f y = none) : xs.findSome? f = f x := by
  induction xs with
  | nil => exact absurd hx List.not_mem_nil
  | cons y xs ih =>
    rw [List.forall_mem_cons] at h
    rw [List.findSome?_cons]
    by_cases hy : y = x
    · subst hy
      cases hf : f y with
      | some b => rfl
      | none =>
        refine List.findSome?_eq_none_iff.mpr fun z hz => ?_
        by_cases hzy : z = y
        · rw [hzy, hf]
        · exact h.2 z hz hzy
    · rw [h.1 hy]
      exact ih ((List.mem_cons.mp hx).resolve_left (Ne.symm hy)) h.2

lemma missingKeyIn?_of_mem {quote : String × String} (hquote : quote ∈ keyQuotes) (text : String) :
    missingKeyIn? (quote.1 ++ text) = quotedKey? quote (quote.1 ++ text) := by
  apply findSome?_eq_of_mem hquote
  intro other hother hne
  apply quotedKey?_eq_none
  simp only [keyQuotes, List.mem_cons, List.not_mem_nil, or_false] at hquote hother
  -- No quote begins like another one.
  rcases hquote with rfl | rfl | rfl | rfl <;> rcases hother with rfl | rfl | rfl | rfl <;>
    first | exact absurd rfl hne | simp [after?]

lemma Lacks.exists_quote {name : String} {e : RenderError} (h : e.Lacks name) :
    ∃ quote ∈ keyQuotes, ∃ rest,
      e.message = quote.1 ++ (name ++ (quote.2 ++ rest)) := by
  cases e with
  | notDefined k container position =>
    obtain rfl : k = name := h
    exact ⟨("\"", "\" not defined in"), by decide, _, message_notDefined k container position⟩
  | notSearchable k container =>
    obtain rfl : k = name := h
    refine ⟨("Cannot use 'in' operator to search for '", "' in"), by decide,
      " " ++ container, ?_⟩
    have hclose : "' in " = "' in" ++ " " := by decide
    change "Cannot use 'in' operator to search for '" ++ k ++ "' in " ++ container = _
    simp only [hclose, String.append_assoc]
  | memberOfNothing nothing k =>
    obtain ⟨rfl, hnothing⟩ := h
    obtain rfl | rfl := hnothing
    · refine ⟨("Cannot read properties of undefined (reading '", "')"), by decide, "", ?_⟩
      have hopen : "Cannot read properties of " ++ "undefined" ++ " (reading '" =
        "Cannot read properties of undefined (reading '" := by decide
      change "Cannot read properties of " ++ "undefined" ++ " (reading '" ++ k ++ "')" = _
      simp only [hopen, String.append_assoc, String.append_empty]
    · refine ⟨("Cannot read properties of null (reading '", "')"), by decide, "", ?_⟩
      have hopen : "Cannot read properties of " ++ "null" ++ " (reading '" =
        "Cannot read properties of null (reading '" := by decide
      change "Cannot read properties of " ++ "null" ++ " (reading '" ++ k ++ "')" = _
      simp only [hopen, String.append_assoc, String.append_empty]
  | missingArgument k => exact absurd h id
  | failure message => exact absurd h id
  | wrongKind => exact absurd h id
  | tooDeep => exact absurd h id

lemma Lacks.eq_or_cuts {name key : String} {e : RenderError} (h : e.Lacks name) (hname : name ≠ "")
    (hkey : e.missingKey? = some key) : key = name ∨ Cuts name key := by
  obtain ⟨⟨before, after⟩, hquote, rest, hmessage⟩ := h.exists_quote
  rw [RenderError.missingKey?, hmessage, missingKeyIn?_of_mem hquote] at hkey
  exact eq_or_cuts_of_quotedKey? rest hquote hname hkey

lemma missingKeyIn?_eq_none {message : String}
    (h : ∀ quote ∈ keyQuotes, after? quote.1.toList message.toList = none) :
    missingKeyIn? message = none :=
  List.findSome?_eq_none_iff.mpr fun quote hquote => quotedKey?_eq_none (h quote hquote)

lemma exists_mark {quote : String × String} (hquote : quote ∈ keyQuotes) :
    ∃ mark close, quote.2.toList = mark :: close ∧ Lexer.isNameChar mark = false := by
  have hall : ∀ quote ∈ keyQuotes, quote.2.toList.head?.any (!Lexer.isNameChar ·) = true := by
    decide
  have hhead := hall quote hquote
  cases hclose : quote.2.toList with
  | nil => simp [hclose] at hhead
  | cons mark close => exact ⟨mark, close, rfl, by simpa [hclose] using hhead⟩

lemma not_cuts_of_isKey {name key : String} (h : isKey name = true) : ¬ Cuts name key := by
  rintro ⟨hne, quote, hquote, hprefix⟩
  obtain ⟨mark, close, hclose, hmark⟩ := exists_mark hquote
  obtain ⟨rest, hrest⟩ := hprefix
  simp only [String.toList_append, hclose, List.append_assoc, List.cons_append] at hrest
  -- Where the key is shorter, the closing quote begins within the name, which has no such mark.
  obtain ⟨more, hname, hmore⟩ | ⟨more, hkey, hmore⟩ := List.append_eq_append_iff.mp hrest
  · cases more with
    | nil => exact hne (String.toList_injective (by simpa using hname.symm))
    | cons d more =>
      obtain ⟨rfl, -⟩ := List.cons.inj hmore
      have hchars := List.all_eq_true.mp (Bool.and_eq_true_iff.mp h).2
      have hmem : mark ∈ name.toList := by simp [hname]
      exact absurd (hchars mark hmem) (by simp [hmark])
  · have hlength := congrArg List.length hmore
    simp only [List.length_cons, List.length_append] at hlength
    obtain rfl : more = [] := List.length_eq_zero_iff.mp (by omega)
    exact hne (String.toList_injective (by simpa using hkey))

lemma isNameChar_of_isDigit {c : Char} (h : c.isDigit = true) : Lexer.isNameChar c = true := by
  have hdigits : ∀ n < 10, Lexer.isNameChar (Char.ofNat (48 + n)) = true := by decide
  have hrange : 48 ≤ c.toNat ∧ c.toNat ≤ 57 := by
    simpa [Char.isDigit, UInt32.le_iff_toNat_le] using h
  have hc := hdigits (c.toNat - 48) (by omega)
  rwa [Nat.add_sub_cancel' hrange.1, Char.ofNat_toNat] at hc

lemma isKey_toString (n : Nat) : isKey (toString n) = true := by
  have hne : toString n ≠ "" := by
    intro h
    have hdigits : Nat.toDigits 10 n ≠ [] := Nat.toDigits_ne_nil
    exact hdigits (by simpa [Nat.repr] using congrArg String.toList h)
  rw [isKey, Bool.and_eq_true, bne_iff_ne]
  refine ⟨hne, List.all_eq_true.mpr fun c hc => ?_⟩
  have hmem : c ∈ Nat.toDigits 10 n := by simpa [Nat.repr] using hc
  exact isNameChar_of_isDigit (Nat.isDigit_of_mem_toDigits (by decide) (by decide) hmem)

lemma startsWith_iff_isPrefix {cs ds : List Char} : startsWith cs ds = true ↔ cs <+: ds := by
  refine ⟨isPrefix_of_startsWith, ?_⟩
  rintro ⟨rest, rfl⟩
  exact startsWith_append cs rest

lemma prefix_of_prefix_append {mark : Char} {more name rest : List Char} (hmark : mark ∉ more)
    (hname : name ≠ []) (h : mark :: more <+: name ++ mark :: rest) : mark :: more <+: name := by
  have hwhole : name <+: name ++ mark :: rest := List.prefix_append _ _
  obtain hstarts | hstarts := List.prefix_or_prefix_of_prefix h hwhole
  · exact hstarts
  · obtain ⟨tail, htail⟩ := hstarts
    cases tail with
    | nil =>
      rw [List.append_nil] at htail
      exact htail ▸ List.prefix_refl _
    | cons d tail =>
      rw [← htail, List.prefix_append_right_inj] at h
      obtain ⟨rfl, -⟩ := List.cons_prefix_cons.mp h
      obtain ⟨c, cs, rfl⟩ := List.exists_cons_of_ne_nil hname
      obtain ⟨-, rfl⟩ := List.cons.inj htail
      exact absurd (by simp) hmark

lemma quotedBefore_oneLine {close cs key : List Char} (h : quotedBefore close cs = some key) :
    key ≠ [] ∧ key.any Blank.isLineEnd = false := by
  induction cs generalizing key with
  | nil => exact absurd h (by simp [quotedBefore])
  | cons c cs ih =>
    rw [quotedBefore] at h
    split at h
    · exact absurd h (by simp)
    · next hc =>
      rw [Bool.not_eq_true] at hc
      split at h
      · obtain rfl := Option.some.inj h
        exact ⟨List.cons_ne_nil _ _, by simp [hc]⟩
      · obtain ⟨key, hkey, rfl⟩ := Option.map_eq_some_iff.mp h
        exact ⟨List.cons_ne_nil _ _, by rw [List.any_cons, hc, (ih hkey).2, Bool.or_false]⟩

/-- A name is quoted in full where it is on one line and no mark that closes the quote begins after
its first character. -/
lemma quotedBefore_eq_some_iff {mark : Char} {more name : List Char} (hmark : mark ∉ more)
    (rest : List Char) :
    quotedBefore (mark :: more) (name ++ (mark :: more ++ rest)) = some name ↔
      name ≠ [] ∧ name.any Blank.isLineEnd = false ∧ ¬ mark :: more <:+: name.tail := by
  induction name with
  | nil => exact ⟨fun h => absurd rfl (quotedBefore_oneLine h).1, fun h => absurd rfl h.1⟩
  | cons c name ih =>
    rw [List.cons_append, quotedBefore, List.any_cons, List.tail_cons]
    cases hc : Blank.isLineEnd c with
    | true => simp
    | false =>
      rw [if_neg Bool.false_ne_true, Bool.false_or]
      cases name with
      | nil =>
        rw [List.nil_append, if_pos (startsWith_append _ _)]
        simp
      | cons d name =>
        by_cases hstart : startsWith (mark :: more) (d :: name ++ (mark :: more ++ rest)) = true
        · have hinside : mark :: more <:+: d :: name :=
            (prefix_of_prefix_append hmark (List.cons_ne_nil _ _)
              (startsWith_iff_isPrefix.mp hstart)).isInfix
          rw [if_pos hstart]
          simp [hinside]
        · have hstarts : ¬ mark :: more <+: d :: name := fun h =>
            hstart (startsWith_iff_isPrefix.mpr (h.trans (List.prefix_append _ _)))
          have hinside : mark :: more <:+: d :: name ↔ mark :: more <:+: name := by
            rw [List.infix_cons_iff, or_iff_right hstarts]
          rw [if_neg hstart, hinside]
          simpa using ih

structure IsQuotable (name : String) : Prop where
  ne_empty : name ≠ ""
  oneLine : name.toList.any Blank.isLineEnd = false
  uncut : ¬ "\" not defined in".toList <:+: name.toList.tail

lemma missingKey?_notDefined (name container : String) (position : Position) :
    (notDefined name container position).missingKey? = some name ↔ IsQuotable name := by
  have hquote : ("\"", "\" not defined in") ∈ keyQuotes := by decide
  have hclose : "\" not defined in".toList = '"' :: " not defined in".toList := by decide
  have hmap (cs : Option (List Char)) :
      cs.map String.ofList = some name ↔ cs = some name.toList := by
    cases cs with
    | none => simp
    | some cs => simp [String.ext_iff]
  rw [missingKey?, message_notDefined, missingKeyIn?_of_mem hquote, quotedKey?]
  simp only [String.toList_append, after?_append, Option.bind_some, hclose, hmap]
  rw [quotedBefore_eq_some_iff (by decide), ← hclose]
  constructor
  · rintro ⟨hne, honeLine, huncut⟩
    exact ⟨by simpa using hne, honeLine, huncut⟩
  · rintro ⟨hne, honeLine, huncut⟩
    exact ⟨by simpa using hne, honeLine, huncut⟩

lemma missingKey?_oneLine {e : RenderError} {key : String} (h : e.missingKey? = some key) :
    key.toList.any Blank.isLineEnd = false := by
  obtain ⟨quote, -, hquote⟩ := List.exists_of_findSome?_eq_some h
  obtain ⟨cs, -, hcs⟩ := Option.bind_eq_some_iff.mp hquote
  obtain ⟨cs, hbefore, rfl⟩ := Option.map_eq_some_iff.mp hcs
  simpa using (quotedBefore_oneLine hbefore).2

end BuildNotice.Template.RenderError
