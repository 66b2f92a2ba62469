import BuildNotice.Template.Lexer
import Mathlib.Data.List.TakeWhile

/-! The tokens of a text, without their places. -/

namespace BuildNotice.Template.Lexer

open Text.Blank Text.Search

def kinds (mode : Mode) (cs : List Char) : List Token :=
  (scan mode .start 1 cs).map Placed.token

lemma scan_kinds (mode : Mode) (here : Position) (since : Nat) (cs : List Char) :
    (scan mode here since cs).map Placed.token = kinds mode cs := by
  suffices h : ∀ n mode here since here' since' (cs : List Char), cs.length = n →
      (scan mode here since cs).map Placed.token =
        (scan mode here' since' cs).map Placed.token from
    h _ mode here since _ _ cs rfl
  intro n
  induction n using Nat.strongRecOn with
  | ind n ih =>
    intro mode here since here' since' cs hn
    cases cs with
    | nil => simp [scan]
    | cons c cs =>
      rw [scan, scan]
      cases hs : step mode (c :: cs) with
      | none => rfl
      | some l =>
        have hl : (cs.drop l.more).length < n := by
          simp only [List.length_drop, List.length_cons] at *
          omega
        cases ht : l.token with
        | none => simpa only [ht] using ih _ hl _ _ _ _ _ _ rfl
        | some t =>
          simp only [ht, List.map_cons]
          exact congrArg _ (ih _ hl _ _ _ _ _ _ rfl)

lemma tokens_kinds (template : String) :
    (tokens template).map Placed.token = kinds .text template.toList := rfl

lemma kinds_nil (mode : Mode) : kinds mode [] = [.finish] := by
  simp [kinds, scan]

lemma kinds_lexeme {mode next : Mode} (w rest : List Char) {t : Option Token} (hw : w ≠ [])
    (h : step mode (w ++ rest) = some ⟨w.length - 1, t, next⟩) :
    kinds mode (w ++ rest) = t.toList ++ kinds next rest := by
  obtain ⟨c, w, rfl⟩ := List.exists_cons_of_ne_nil hw
  rw [kinds, List.cons_append, scan]
  rw [List.cons_append] at h
  have hd : (w ++ rest).drop w.length = rest := by simp
  cases t with
  | none => simp [h, hd, scan_kinds]
  | some t => simp [h, hd, scan_kinds]

lemma kinds_token {mode next : Mode} (w rest : List Char) {t : Token} (hw : w ≠ [])
    (h : step mode (w ++ rest) = lexeme w.length t next) :
    kinds mode (w ++ rest) = t :: kinds next rest :=
  kinds_lexeme w rest hw h

lemma ne_of_isNameChar {c d : Char} (hc : isNameChar c = true) (hd : isNameChar d = false) :
    c ≠ d := by
  rintro rfl
  simp [hc] at hd

lemma isBlank_of_isNameChar {c : Char} (hc : isNameChar c = true) : isBlank c = false := by
  simp only [isNameChar, Bool.not_or, Bool.and_eq_true, Bool.not_eq_true'] at hc
  exact hc.1

lemma takeWhile_name {s rest : List Char} (hs : s.all isNameChar = true)
    (hr : rest.head?.any isNameChar = false) :
    (s ++ rest).takeWhile isNameChar = s ∧ (s ++ rest).dropWhile isNameChar = rest := by
  induction s with
  | nil => cases rest <;> simp_all
  | cons c s ih =>
    simp only [List.all_cons, Bool.and_eq_true] at hs
    simp [hs.1, ih hs.2]

lemma opening?_of_ne {c : Char} (h : c ≠ '\x7b') (cs : List Char) : opening? (c :: cs) = none := by
  simp [opening?, startsWith, braces, List.replicate_succ, after?, Ne.symm h]

lemma closing?_of_ne {c : Char} (h : c ≠ '\x7d') (ht : c ≠ '~') (cs : List Char) :
    closing? (c :: cs) = none := by
  simp [closing?, startsWith, closing, List.replicate_succ, after?, Ne.symm h, closeTag?,
    dropTilde, ht, h]

def isPlainName (s : String) : Bool :=
  match s.toList with
  | [] => false
  | c :: cs => (c :: cs).all isNameChar && !c.isDigit && c != '-' &&
      !(["true", "false", "undefined", "null"].contains s)

def endsName : List Char → Bool
  | '.' :: _ => true
  | '\x7d' :: _ => true
  | ')' :: _ => true
  | ' ' :: c :: _ => !isBlank c && c != '|'
  | _ => false

lemma head?_of_endsName {rest : List Char} (h : endsName rest = true) :
    rest.head?.any isNameChar = false := by
  unfold endsName at h
  split at h <;> simp_all <;> decide

lemma stopsName_of_endsName {rest : List Char} (h : endsName rest = true) :
    stopsName rest = true := by
  unfold endsName at h
  split at h <;> simp_all [stopsName, show isBlank ' ' = true by decide]

lemma paramsOpen?_eq_none {cs : List Char}
    (h : ∀ u, cs = 'a' :: 's' :: u → (u.dropWhile isBlank).head? ≠ some '|') :
    paramsOpen? cs = none := by
  unfold paramsOpen?
  split
  · next u =>
    have hu := h u rfl
    dsimp only
    split
    · next hd => simp [hd] at hu
    · rfl
  · rfl

lemma dropWhile_of_endsName {rest : List Char} (h : endsName rest = true) :
    (rest.dropWhile isBlank).head? ≠ some '|' := by
  unfold endsName at h
  split at h
  · simp [show isBlank '.' = false by decide]
  · simp [show isBlank '\x7d' = false by decide]
  · simp [show isBlank ')' = false by decide]
  · next c cs =>
    simp only [Bool.and_eq_true, Bool.not_eq_true', bne_iff_ne] at h
    simp [show isBlank ' ' = true by decide, h.1, h.2]
  · exact absurd h (by simp)

lemma paramsOpen?_of_endsName {s rest : List Char} (hs : s.all isNameChar = true) (hn : s ≠ [])
    (h : endsName rest = true) : paramsOpen? (s ++ rest) = none := by
  apply paramsOpen?_eq_none
  intro u hu
  match s, hn with
  | [a], _ =>
    have hr := head?_of_endsName h
    obtain ⟨-, rfl⟩ := List.cons.inj hu
    exact absurd hr (by simp; decide)
  | a :: b :: [], _ =>
    obtain ⟨-, hu⟩ := List.cons.inj hu
    obtain ⟨-, rfl⟩ := List.cons.inj hu
    exact dropWhile_of_endsName h
  | a :: b :: c :: s, _ =>
    obtain ⟨-, hu⟩ := List.cons.inj hu
    obtain ⟨-, rfl⟩ := List.cons.inj hu
    have hc : isNameChar c = true := by simp_all
    have hp := ne_of_isNameChar hc (show isNameChar '|' = false by decide)
    simp [isBlank_of_isNameChar hc, hp]

lemma after?_append_of {pat s rest more : List Char} (hp : pat.all isNameChar = true)
    (hs : s.all isNameChar = true) (hr : rest.head?.any isNameChar = false)
    (h : after? pat (s ++ rest) = some more) : ∃ t, s = pat ++ t ∧ more = t ++ rest := by
  induction pat generalizing s with
  | nil => exact ⟨s, rfl, by simpa [after?] using h.symm⟩
  | cons p ps ih =>
    cases s with
    | nil => cases rest <;> simp_all [after?]
    | cons c s =>
      simp only [List.cons_append, after?] at h
      split at h
      · next hpc =>
        simp_all
      · exact absurd h (by simp)

lemma word?_eq_none {word s : String} {rest : List Char} (t : Token)
    (hw : word.toList.all isNameChar = true) (hs : s.toList.all isNameChar = true)
    (hr : rest.head?.any isNameChar = false) (hne : s ≠ word) :
    word? word t (s.toList ++ rest) = none := by
  cases h : after? word.toList (s.toList ++ rest) with
  | none => simp [word?, h]
  | some more =>
    obtain ⟨u, hu, rfl⟩ := after?_append_of hw hs hr h
    cases u with
    | nil => exact absurd (String.toList_inj.mp (by simpa using hu)) hne
    | cons c u =>
      have hc : isNameChar c = true := by
        rw [hu] at hs
        simp at hs
        exact hs.2.1
      have hb := isBlank_of_isNameChar hc
      have h1 := ne_of_isNameChar hc (show isNameChar '~' = false by decide)
      have h2 := ne_of_isNameChar hc (show isNameChar '\x7d' = false by decide)
      have h3 := ne_of_isNameChar hc (show isNameChar ')' = false by decide)
      simp [word?, h, stopsLiteral, hb, h1, h2, h3]

lemma number?_eq_none {c : Char} (hd : c.isDigit = false) (hm : c ≠ '-') (cs : List Char) :
    number? (c :: cs) = none := by
  simp [number?, numberSize?, hm, hd]

lemma blanks?_eq_none {c : Char} (h : isBlank c = false) (cs : List Char) :
    blanks? (c :: cs) = none := by
  simp [blanks?, h]

lemma inTag_word {c : Char} (h : isNameChar c = true) (cs : List Char) :
    inTag (c :: cs) = ([word? "true" (.boolean true), word? "false" (.boolean false),
      word? "undefined" .undefined, word? "null" .null, number?, paramsOpen?, name?,
      bracketed?].findSome? (· (c :: cs))).or (lexeme 1 .stray .tag) := by
  have hne (d : Char) (hd : isNameChar d = false) : c ≠ d := ne_of_isNameChar h hd
  have hopen := opening?_of_ne (hne '\x7b' (by decide)) cs
  have hclose := closing?_of_ne (hne '\x7d' (by decide)) (hne '~' (by decide)) cs
  have hblank := blanks?_eq_none (isBlank_of_isNameChar h) cs
  have hdots : dots? (c :: cs) = none := by
    simp [dots?, hne '.' (by decide), hne '/' (by decide)]
  have hsign : sign? (c :: cs) = none := by
    simp [sign?, hne '(' (by decide), hne ')' (by decide), hne '=' (by decide),
      hne '@' (by decide), hne '|' (by decide)]
  have hquoted : quoted? (c :: cs) = none := by
    simp [quoted?, hne '"' (by decide), hne '\'' (by decide)]
  simp only [inTag, hopen, List.findSome?_cons, hclose, hblank, hdots, hsign, hquoted]

lemma name?_append {s rest : List Char} (hs : s.all isNameChar = true) (hn : s ≠ [])
    (hr : endsName rest = true) :
    name? (s ++ rest) = lexeme s.length (.name (String.ofList s)) .tag := by
  obtain ⟨ht, hd⟩ := takeWhile_name hs (head?_of_endsName hr)
  simp [name?, ht, hd, hn, stopsName_of_endsName hr]

lemma inTag_name {s : String} {rest : List Char} (hs : isPlainName s = true)
    (hr : endsName rest = true) :
    inTag (s.toList ++ rest) = lexeme s.toList.length (.name s) .tag := by
  rw [isPlainName] at hs
  split at hs
  · exact absurd hs (by simp)
  · next c cs hc =>
    simp only [Bool.and_eq_true, Bool.not_eq_true', bne_iff_ne] at hs
    obtain ⟨⟨⟨ha, hd⟩, hm⟩, hw⟩ := hs
    have hcn : isNameChar c = true := by simp_all
    have hne : s.toList ≠ [] := by simp [hc]
    have hn := name?_append ha (by simp) hr
    have hp := paramsOpen?_of_endsName ha (by simp) hr
    have hwords (w : String) (t : Token) (hall : w.toList.all isNameChar = true) (hmem : s ≠ w) :
        word? w t (c :: cs ++ rest) = none := by
      rw [← hc]
      exact word?_eq_none t hall (hc ▸ ha) (head?_of_endsName hr) hmem
    have hname : name? (c :: cs ++ rest) = lexeme s.toList.length (.name s) .tag := by
      rw [hn, ← hc, String.ofList_toList]
    rw [hc, List.cons_append, inTag_word hcn, ← List.cons_append]
    simp only [List.findSome?_cons, hp, hname]
    obtain ⟨hw₁, hw₂, hw₃, hw₄⟩ : s ≠ "true" ∧ s ≠ "false" ∧ s ≠ "undefined" ∧ s ≠ "null" := by
      simpa using hw
    rw [hwords "true" _ (by decide) hw₁, hwords "false" _ (by decide) hw₂,
      hwords "undefined" _ (by decide) hw₃, hwords "null" _ (by decide) hw₄,
      List.cons_append, number?_eq_none hd hm, hc]
    rfl

lemma inTag_blank {c : Char} (h : isBlank c = false) (cs : List Char) :
    inTag (' ' :: c :: cs) = some ⟨0, none, .tag⟩ := by
  have hopen := opening?_of_ne (show ' ' ≠ '\x7b' by decide) (c :: cs)
  have hclose := closing?_of_ne (show ' ' ≠ '\x7d' by decide) (by decide) (c :: cs)
  have hblanks : blanks? (' ' :: c :: cs) = some ⟨0, none, .tag⟩ := by
    simp [blanks?, show isBlank ' ' = true by decide, h]
  simp only [inTag, hopen, List.findSome?_cons, hclose, hblanks, Option.some_or]

lemma inTag_sign {c : Char} (h : "./()".toList.contains c = true) (cs : List Char) :
    inTag (c :: cs) = ([dots?, sign?, quoted?, word? "true" (.boolean true),
      word? "false" (.boolean false), word? "undefined" .undefined, word? "null" .null, number?,
      paramsOpen?, name?, bracketed?].findSome? (· (c :: cs))).or (lexeme 1 .stray .tag) := by
  have hc : c = '.' ∨ c = '/' ∨ c = '(' ∨ c = ')' := by simpa using h
  have hopen : opening? (c :: cs) = none := by
    apply opening?_of_ne
    rcases hc with rfl | rfl | rfl | rfl <;> decide
  have hclose : closing? (c :: cs) = none := by
    apply closing?_of_ne
    all_goals rcases hc with rfl | rfl | rfl | rfl <;> decide
  have hblank : blanks? (c :: cs) = none := by
    apply blanks?_eq_none
    rcases hc with rfl | rfl | rfl | rfl <;> decide
  simp only [inTag, hopen, List.findSome?_cons, hclose, hblank]

lemma inTag_dot {c : Char} (hc : c ≠ '.') {cs : List Char} (hstop : stopsName (c :: cs) = false) :
    inTag ('.' :: c :: cs) = lexeme 1 (.separator ".") .tag := by
  have hdots : dots? ('.' :: c :: cs) = lexeme 1 (.separator ".") .tag := by
    simp [dots?, hc, hstop]
  rw [inTag_sign (by decide)]
  simp only [List.findSome?_cons, hdots]
  rfl

lemma inTag_separator {c : Char} (h : isNameChar c = true) (cs : List Char) :
    inTag ('.' :: c :: cs) = lexeme 1 (.separator ".") .tag := by
  have hne (d : Char) (hd : isNameChar d = false) : c ≠ d := ne_of_isNameChar h hd
  have hstop : stopsName (c :: cs) = false := by
    simp [stopsName, isBlank_of_isNameChar h, hne '=' (by decide), hne '~' (by decide),
      hne '\x7d' (by decide), hne '/' (by decide), hne '.' (by decide), hne ')' (by decide),
      hne '|' (by decide)]
  exact inTag_dot (hne '.' (by decide)) hstop

lemma inTag_groupOpen (cs : List Char) : inTag ('(' :: cs) = lexeme 1 .groupOpen .tag := by
  rw [inTag_sign (by decide)]
  rfl

lemma inTag_groupClose (cs : List Char) : inTag (')' :: cs) = lexeme 1 .groupClose .tag := by
  rw [inTag_sign (by decide)]
  rfl

def isPlainString (s : String) : Bool :=
  s.toList.all fun c => c != '"' && c != '\\'

lemma quotedEnd?_append {mark : Char} (hm : mark ≠ '\\') {cs : List Char}
    (h : cs.all (fun c => c != mark && c != '\\') = true) (rest : List Char) :
    quotedEnd? mark (cs ++ mark :: rest) = some (cs.length + 1) := by
  induction cs with
  | nil => simp [quotedEnd?, hm]
  | cons c cs ih =>
    simp only [List.all_cons, Bool.and_eq_true, bne_iff_ne] at h
    have hc := ih (by simpa using h.2)
    simp [quotedEnd?, h.1, hc]

lemma unescape_eq_self {cs : List Char} (marks : List Char) (h : '\\' ∉ cs) :
    unescape marks cs = cs := by
  induction cs with
  | nil => rfl
  | cons c cs ih =>
    rw [List.mem_cons, not_or] at h
    have hc : c ≠ '\\' := Ne.symm h.1
    simp [unescape, hc, ih h.2]

lemma not_mem_of_all {mark : Char} {cs : List Char}
    (h : cs.all (fun c => c != mark && c != '\\') = true) : '\\' ∉ cs := by
  intro hmem
  simpa using List.all_eq_true.mp h _ hmem

lemma inTag_string {s : String} (h : isPlainString s = true) (rest : List Char) :
    inTag ('"' :: (s.toList ++ '"' :: rest)) = lexeme (s.toList.length + 2) (.string s) .tag := by
  have hopen := opening?_of_ne (show '"' ≠ '\x7b' by decide) (s.toList ++ '"' :: rest)
  have hclose := closing?_of_ne (show '"' ≠ '\x7d' by decide) (by decide) (s.toList ++ '"' :: rest)
  have hblank := blanks?_eq_none (show isBlank '"' = false by decide) (s.toList ++ '"' :: rest)
  have hquoted : quoted? ('"' :: (s.toList ++ '"' :: rest)) =
      lexeme (s.toList.length + 2) (.string s) .tag := by
    simp [quoted?, quotedEnd?_append (by decide) h, unescape_eq_self ['"'] (not_mem_of_all h)]
  simp only [inTag, hopen, List.findSome?_cons, hclose, hblank, hquoted]
  rfl

def isBracketable (s : String) : Bool :=
  s.toList.all fun c => c != ']' && c != '\\'

def inBrackets (s : String) : String := "[" ++ s ++ "]"

lemma toList_inBrackets (s : String) : (inBrackets s).toList = '[' :: (s.toList ++ [']']) := by
  simp [inBrackets]

lemma bracketed?_append {s : String} (h : isBracketable s = true) (rest : List Char) :
    bracketed? ('[' :: (s.toList ++ ']' :: rest)) =
      lexeme (s.toList.length + 2) (.name (inBrackets s)) .tag := by
  have hend := quotedEnd?_append (by decide) h rest
  have hmem : '\\' ∉ (inBrackets s).toList := by
    simpa [toList_inBrackets] using not_mem_of_all h
  have htake : ('[' :: (s.toList ++ ']' :: rest)).take (s.toList.length + 2) =
      (inBrackets s).toList := by
    have hchars : '[' :: (s.toList ++ ']' :: rest) = (inBrackets s).toList ++ rest := by
      simp [toList_inBrackets]
    rw [hchars]
    exact List.take_left' (by simp [toList_inBrackets])
  rw [bracketed?, hend, Option.bind_some, htake, unescape_eq_self _ hmem, String.ofList_toList]

lemma inTag_bracketed {s : String} (h : isBracketable s = true) (rest : List Char) :
    inTag ('[' :: (s.toList ++ ']' :: rest)) =
      lexeme (s.toList.length + 2) (.name (inBrackets s)) .tag := by
  have hopen := opening?_of_ne (show '[' ≠ '\x7b' by decide) (s.toList ++ ']' :: rest)
  have hclose := closing?_of_ne (show '[' ≠ '\x7d' by decide) (by decide) (s.toList ++ ']' :: rest)
  have hblank := blanks?_eq_none (show isBlank '[' = false by decide) (s.toList ++ ']' :: rest)
  have hnumber := number?_eq_none (show '['.isDigit = false by decide) (by decide)
    (s.toList ++ ']' :: rest)
  have hname : name? ('[' :: (s.toList ++ ']' :: rest)) = none := by
    simp [name?, show isNameChar '[' = false by decide]
  have hwords (word : String) (t : Token) (hword : word.toList.head?.any (· != '[') = true) :
      word? word t ('[' :: (s.toList ++ ']' :: rest)) = none := by
    cases hw : word.toList with
    | nil => simp [hw] at hword
    | cons d ds =>
      have hd : d ≠ '[' := by simpa [hw] using hword
      simp [word?, hw, after?, hd]
  simp only [inTag, hopen, List.findSome?_cons, hclose, hblank, hnumber, hname,
    hwords "true" _ (by decide), hwords "false" _ (by decide), hwords "undefined" _ (by decide),
    hwords "null" _ (by decide), bracketed?_append h]
  rfl

lemma inTag_close {rest : List Char} (h : rest.head? ≠ some '\x7d') :
    inTag ('\x7d' :: '\x7d' :: rest) = lexeme 2 (.close false) .text := by
  have hopen := opening?_of_ne (show '\x7d' ≠ '\x7b' by decide) ('\x7d' :: rest)
  have hclose : closing? ('\x7d' :: '\x7d' :: rest) = lexeme 2 (.close false) .text := by
    cases rest with
    | nil => rfl
    | cons c rest =>
      have hc : '\x7d' ≠ c := by simpa [eq_comm] using h
      simp [closing?, startsWith, closing, List.replicate_succ, after?, closeTag?, dropTilde, hc,
        tildeSize]
  simp only [inTag, hopen, List.findSome?_cons, hclose]
  rfl

lemma inTag_opening {rest : List Char} (h : rest.head? ≠ some '\x7b') (ht : rest.head? ≠ some '~') :
    inTag ('\x7b' :: '\x7b' :: rest) = tagKind ('\x7b' :: '\x7b' :: rest) false rest := by
  cases rest with
  | nil => rfl
  | cons c rest =>
    have hc : '\x7b' ≠ c := by simpa [eq_comm] using h
    have hd : dropTilde (c :: rest) = (false, c :: rest) := by
      unfold dropTilde
      split <;> simp_all
    simp [inTag, opening?, startsWith, braces, List.replicate_succ, after?, hc, hd]

lemma blankClose?_eq_none {c : Char} (h : isNameChar c = true) (cs : List Char) :
    blankClose? (c :: cs) = none := by
  have hne (d : Char) (hd : isNameChar d = false) : c ≠ d := ne_of_isNameChar h hd
  have hd : dropTilde (c :: cs) = (false, c :: cs) := by
    unfold dropTilde
    split
    · next he => exact absurd (List.cons.inj he).1 (hne '~' (by decide))
    · rfl
  simp [blankClose?, isBlank_of_isNameChar h, closeTag?, hd, startsWith, closing,
    List.replicate_succ, after?, Ne.symm (hne '\x7d' (by decide))]

lemma inTag_output {c : Char} {cs : List Char} (h : isNameChar c = true)
    (he : ∀ more, after? "else".toList (c :: cs) = some more →
      ∃ d ds, more = d :: ds ∧ isNameChar d = true ∧ isWordChar d = true) :
    inTag ('\x7b' :: '\x7b' :: c :: cs) = lexeme 2 (.outputOpen false .escaped) .tag := by
  have hne (d : Char) (hd : isNameChar d = false) : c ≠ d := ne_of_isNameChar h hd
  rw [inTag_opening (by simp [hne '\x7b' (by decide)]) (by simp [hne '~' (by decide)])]
  cases ha : after? "else".toList (c :: cs) with
  | none =>
    simp at ha
    simp [tagKind, hne '>' (by decide), hne '#' (by decide), hne '/' (by decide),
      hne '^' (by decide), hne '\x7b' (by decide), hne '&' (by decide), hne '!' (by decide),
      hne '*' (by decide), tildeSize, isBlank_of_isNameChar h, ha]
  | some more =>
    obtain ⟨d, ds, rfl, hd, hw⟩ := he more ha
    simp at ha
    simp [tagKind, hne '>' (by decide), hne '#' (by decide), hne '/' (by decide),
      hne '^' (by decide), hne '\x7b' (by decide), hne '&' (by decide), hne '!' (by decide),
      hne '*' (by decide), tildeSize, isBlank_of_isNameChar h, ha, blankClose?_eq_none hd, hw]

lemma inTag_blockOpen {c : Char} (h : isNameChar c = true) (cs : List Char) :
    inTag ('\x7b' :: '\x7b' :: '#' :: c :: cs) = lexeme 3 (.blockOpen false false) .tag := by
  have hne (d : Char) (hd : isNameChar d = false) : c ≠ d := ne_of_isNameChar h hd
  rw [inTag_opening (by simp) (by simp)]
  simp [tagKind, hne '>' (by decide), hne '*' (by decide), tildeSize]

lemma inTag_endOpen (cs : List Char) :
    inTag ('\x7b' :: '\x7b' :: '/' :: cs) = lexeme 3 (.endOpen false) .tag := by
  rw [inTag_opening (by simp) (by simp)]
  rfl

lemma inTag_else (cs : List Char) :
    inTag ('\x7b' :: '\x7b' :: 'e' :: 'l' :: 's' :: 'e' :: '\x7d' :: '\x7d' :: cs) =
      lexeme 8 (.inverse .none) .text := by
  have hclose : blankClose? ('\x7d' :: '\x7d' :: cs) = some (false, 2) := rfl
  rw [inTag_opening (by simp) (by simp)]
  simp [tagKind, show isBlank 'e' = false by decide, after?, hclose, tildeSize, Strip.none]

def isLiteralChar (c : Char) : Bool :=
  c != '\x7b' && c != '\x7d' && c != '\\' && !isNul c

lemma isLiteralChar_iff {c : Char} :
    isLiteralChar c = true ↔ c ≠ '\x7b' ∧ c ≠ '\x7d' ∧ c ≠ '\\' ∧ isNul c = false := by
  simp [isLiteralChar, and_assoc]

lemma step_text_opening (cs : List Char) :
    step .text ('\x7b' :: '\x7b' :: cs) = step .tag ('\x7b' :: '\x7b' :: cs) := by
  simp [step, inText, breakAt?, startsWith, braces, List.replicate_succ, after?]

lemma kinds_text_opening (cs : List Char) :
    kinds .text ('\x7b' :: '\x7b' :: cs) = kinds .tag ('\x7b' :: '\x7b' :: cs) := by
  rw [kinds, kinds, scan, scan, step_text_opening]

lemma startsWith_braces_eq_false {c : Char} (h : isLiteralChar c = true) (cs : List Char) :
    startsWith (braces 2) (c :: cs) = false := by
  simp [startsWith, braces, List.replicate_succ, after?, Ne.symm (isLiteralChar_iff.mp h).1]

lemma breakAt?_literal {cs : List Char} (h : cs.all isLiteralChar = true) (rest : List Char) :
    breakAt? (braces 2) (cs ++ '\x7b' :: '\x7b' :: rest) =
      some (cs, '\x7b' :: '\x7b' :: rest) := by
  induction cs with
  | nil => simp [breakAt?, startsWith, braces, List.replicate_succ, after?]
  | cons c cs ih =>
    simp only [List.all_cons, Bool.and_eq_true] at h
    simp [breakAt?, startsWith_braces_eq_false h.1, ih h.2]

lemma breakAt?_literal_end {cs : List Char} (h : cs.all isLiteralChar = true) :
    breakAt? (braces 2) cs = none := by
  induction cs with
  | nil => simp [breakAt?, braces]
  | cons c cs ih =>
    simp only [List.all_cons, Bool.and_eq_true] at h
    simp [breakAt?, startsWith_braces_eq_false h.1, ih h.2]

lemma kinds_literal_opening {cs : List Char} (h : cs.all isLiteralChar = true) (hn : cs ≠ [])
    (rest : List Char) :
    kinds .text (cs ++ '\x7b' :: '\x7b' :: rest) =
      .content (String.ofList cs) :: kinds .text ('\x7b' :: '\x7b' :: rest) := by
  rw [List.all_eq_true] at h
  have hnul : cs.any isNul = false := by
    rw [List.any_eq_false]
    intro c hc
    simp [(isLiteralChar_iff.mp (h c hc)).2.2.2]
  have hmem : '\\' ∉ cs := fun hc => (isLiteralChar_iff.mp (h _ hc)).2.2.1 rfl
  have hlast : cs.getLast? ≠ some '\\' := fun hc => hmem (List.mem_of_getLast? hc)
  have htake : cs.reverse.take 2 ≠ ['\\', '\\'] := by
    intro hc
    have hm : '\\' ∈ cs.reverse.take 2 := by simp [hc]
    exact hmem (List.mem_reverse.mp (List.mem_of_mem_take hm))
  have hs : step .text (cs ++ '\x7b' :: '\x7b' :: rest) =
      lexeme cs.length (.content (String.ofList cs)) .tag := by
    simp [step, inText, breakAt?_literal (List.all_eq_true.mpr h), hn, hnul, beforeTag, hlast,
      htake, lexeme]
  rw [kinds_token _ _ hn hs, kinds_text_opening]

lemma kinds_literal_end {cs : List Char} (h : cs.all isLiteralChar = true) (hn : cs ≠ []) :
    kinds .text cs = [.content (String.ofList cs), .finish] := by
  have hall : cs.takeWhile (! isNul ·) = cs := by
    rw [List.takeWhile_eq_self_iff]
    intro c hc
    simp [(isLiteralChar_iff.mp (List.all_eq_true.mp h c hc)).2.2.2]
  have hs : step .text (cs ++ []) = lexeme cs.length (.content (String.ofList cs)) .text := by
    simp [step, inText, breakAt?_literal_end h, inText.untilNul, hall, hn]
  rw [← List.append_nil cs, kinds_token _ _ hn hs, kinds_nil, List.append_nil]

end BuildNotice.Template.Lexer
