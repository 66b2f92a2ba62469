import BuildNotice.Proofs.Template.Written

namespace BuildNotice.Template.Written

open Lexer Text.Blank Text.Search

lemma isPlainName_cons {s : String} (h : isPlainName s = true) :
    ∃ c cs, s.toList = c :: cs ∧ isNameChar c = true ∧ cs.all isNameChar = true := by
  rw [isPlainName] at h
  split at h
  · exact absurd h (by simp)
  · next c cs hc =>
    simp only [Bool.and_eq_true, List.all_cons] at h
    exact ⟨c, cs, hc, h.1.1.1.1, h.1.1.1.2⟩

lemma isPlainName_of_isIdentifier {s : String} (h : isIdentifier s = true) :
    isPlainName s = true := by
  simp only [isIdentifier, Bool.and_eq_true] at h
  exact h.1.1

lemma kinds_name {s : String} {rest : List Char} (hs : isIdentifier s = true)
    (hr : endsName rest = true) :
    kinds .tag (s.toList ++ rest) = .name s :: kinds .tag rest := by
  have hp := isPlainName_of_isIdentifier hs
  obtain ⟨c, cs, hc, -⟩ := isPlainName_cons hp
  exact kinds_token _ _ (by simp [hc]) (inTag_name hp hr)

lemma isPlainPath_cons {name : String} {rest : List String}
    (h : isPlainPath (name :: rest) = true) :
    isIdentifier name = true ∧ (rest = [] ∨ isPlainPath rest = true) := by
  simp only [isPlainPath, List.all_cons, List.isEmpty_cons, Bool.not_false, Bool.true_and,
    Bool.and_eq_true] at h
  refine ⟨h.1, ?_⟩
  cases rest with
  | nil => exact Or.inl rfl
  | cons name rest => exact Or.inr (by simpa [isPlainPath] using h.2)

lemma pathChars_cons {names : List String} (h : isPlainPath names = true) :
    ∃ c cs, pathChars names = c :: cs ∧ isNameChar c = true := by
  match names, h with
  | name :: rest, h =>
    obtain ⟨c, cs, hc, hn, -⟩ :=
      isPlainName_cons (isPlainName_of_isIdentifier (isPlainPath_cons h).1)
    cases rest <;> simp [pathChars, hc, hn]

lemma kinds_path {names : List String} {rest : List Char} (hs : isPlainPath names = true)
    (hr : endsName rest = true) :
    kinds .tag (pathChars names ++ rest) = pathTokens names ++ kinds .tag rest := by
  induction names with
  | nil => exact absurd hs (by simp [isPlainPath])
  | cons name names ih =>
    obtain ⟨hn, rfl | hp⟩ := isPlainPath_cons hs
    · exact kinds_name hn hr
    · obtain ⟨d, ds, hd, hdn⟩ := pathChars_cons hp
      have hsep : kinds .tag ('.' :: (pathChars names ++ rest)) =
          .separator "." :: (pathTokens names ++ kinds .tag rest) := by
        rw [← ih hp, hd]
        exact kinds_token ['.'] _ (by simp) (inTag_separator hdn (ds ++ rest))
      have hcons : names ≠ [] := by
        rintro rfl
        exact absurd hp (by simp [isPlainPath])
      obtain ⟨second, more, rfl⟩ := List.exists_cons_of_ne_nil hcons
      simp only [pathChars, pathTokens, List.append_assoc, List.cons_append]
      rw [kinds_name hn rfl, hsep]

lemma Term.chars_cons {t : Term} (h : t.isPlain = true) :
    ∃ c cs, t.chars = c :: cs ∧ isBlank c = false ∧ c ≠ '|' := by
  cases t with
  | path names =>
    obtain ⟨c, cs, hc, hn⟩ := pathChars_cons (by simpa [Term.isPlain] using h)
    exact ⟨c, cs, by simpa [Term.chars] using hc, isBlank_of_isNameChar hn,
      ne_of_isNameChar hn (by decide)⟩
  | string s => exact ⟨'"', _, by rw [Term.chars], by decide, by decide⟩
  | call helper args => exact ⟨'(', _, by rw [Term.chars], by decide, by decide⟩

lemma endsName_args {args : List Term} {rest : List Char} (h : arePlain args = true)
    (hr : endsName rest = true) : endsName (argChars args ++ rest) = true := by
  cases args with
  | nil => simpa [argChars] using hr
  | cons t ts =>
    simp only [arePlain, Bool.and_eq_true] at h
    obtain ⟨c, cs, hc, hb, hp⟩ := Term.chars_cons h.1
    simp [argChars, hc, endsName, hb, hp]

mutual

lemma kinds_term : (t : Term) → (rest : List Char) → t.isPlain = true → endsName rest = true →
    kinds .tag (t.chars ++ rest) = t.tokens ++ kinds .tag rest
  | .path names, rest, h, hr => by
    simp only [Term.chars, Term.tokens]
    exact kinds_path (by simpa [Term.isPlain] using h) hr
  | .string s, rest, h, hr => by
    simp only [Term.isPlain] at h
    have hs := inTag_string h rest
    have ht : kinds .tag ('"' :: (s.toList ++ ['"']) ++ rest) = .string s :: kinds .tag rest :=
      kinds_token _ _ (by simp) (by simpa [step] using hs)
    simpa [Term.chars, Term.tokens] using ht
  | .call helper args, rest, h, hr => by
    simp only [Term.isPlain, Bool.and_eq_true] at h
    have hclose : kinds .tag (')' :: rest) = .groupClose :: kinds .tag rest :=
      kinds_token [')'] _ (by simp) (inTag_groupClose rest)
    have hopen (cs : List Char) : kinds .tag ('(' :: cs) = .groupOpen :: kinds .tag cs :=
      kinds_token ['('] _ (by simp) (inTag_groupOpen cs)
    have hargs := kinds_args args (')' :: rest) h.2 rfl
    simp only [Term.chars, Term.tokens, List.cons_append, List.append_assoc, List.nil_append]
    rw [hopen, kinds_name h.1 (endsName_args h.2 rfl), hargs, hclose]

lemma kinds_args : (args : List Term) → (rest : List Char) → arePlain args = true →
    endsName rest = true → kinds .tag (argChars args ++ rest) = argTokens args ++ kinds .tag rest
  | [], rest, _, _ => by simp [argChars, argTokens]
  | t :: ts, rest, h, hr => by
    simp only [arePlain, Bool.and_eq_true] at h
    obtain ⟨c, cs, hc, hb, -⟩ := Term.chars_cons h.1
    have ht := kinds_term t (argChars ts ++ rest) h.1 (endsName_args h.2 hr)
    have hblank : kinds .tag (' ' :: (t.chars ++ (argChars ts ++ rest))) =
        kinds .tag (t.chars ++ (argChars ts ++ rest)) := by
      rw [hc]
      have hs : step .tag (' ' :: c :: (cs ++ (argChars ts ++ rest))) = some ⟨0, none, .tag⟩ :=
        inTag_blank hb _
      exact kinds_lexeme [' '] _ (by simp) hs
    simp only [argChars, argTokens, List.cons_append, List.append_assoc]
    rw [hblank, ht, kinds_args ts rest h.2 hr]

end

def opensTag (cs : List Char) : Prop := cs = [] ∨ ∃ more, cs = '\x7b' :: '\x7b' :: more

lemma kinds_close {rest : List Char} (h : rest.head? ≠ some '\x7d') :
    kinds .tag ('\x7d' :: '\x7d' :: rest) = .close false :: kinds .text rest :=
  kinds_token ['\x7d', '\x7d'] rest (by simp) (inTag_close h)

lemma kinds_text {s : String} {rest : List Char} (h : (Piece.text s).isPlain = true)
    (hr : opensTag rest) : kinds .text (s.toList ++ rest) = .content s :: kinds .text rest := by
  simp only [Piece.isPlain, Bool.and_eq_true, bne_iff_ne] at h
  have hn : s.toList ≠ [] := by simpa using h.1
  rcases hr with rfl | ⟨more, rfl⟩
  · rw [List.append_nil, kinds_literal_end h.2 hn, String.ofList_toList, kinds_nil]
  · rw [kinds_literal_opening h.2 hn, String.ofList_toList]

lemma Piece.opensTag_chars {p : Piece} (h : p.isText = false) (rest : List Char) :
    opensTag (p.chars ++ rest) := by
  cases p with
  | text s => exact absurd h (by simp [Piece.isText])
  | output names args => exact Or.inr ⟨_, by rw [Piece.chars]; rfl⟩
  | block helper args body alternative => exact Or.inr ⟨_, by rw [Piece.chars]; rfl⟩

lemma opensTag_chars {ps : List Piece} {rest : List Char} (h : startsWithText ps = false)
    (hr : opensTag rest) : opensTag (chars ps ++ rest) := by
  cases ps with
  | nil => simpa [chars] using hr
  | cons p ps =>
    simp only [chars, List.append_assoc]
    exact Piece.opensTag_chars (by simpa [startsWithText] using h) _

lemma head?_chars {ps : List Piece} {rest : List Char} (h : isPlain ps = true)
    (hr : opensTag rest) : (chars ps ++ rest).head? ≠ some '\x7d' := by
  cases ps with
  | nil =>
    rcases hr with rfl | ⟨more, rfl⟩ <;> simp [chars]
  | cons p ps =>
    simp only [isPlain, Bool.and_eq_true] at h
    cases ht : p.isText with
    | false =>
      simp only [chars, List.append_assoc]
      rcases Piece.opensTag_chars ht (chars ps ++ rest) with ho | ⟨more, ho⟩ <;> simp [ho]
    | true =>
      cases p with
      | text s =>
        have hp := h.1.1
        simp only [Piece.isPlain, Bool.and_eq_true, bne_iff_ne] at hp
        obtain ⟨c, cs, hc⟩ := List.exists_cons_of_ne_nil (show s.toList ≠ [] by simpa using hp.1)
        have hl : isLiteralChar c = true := by simp_all
        simpa [chars, Piece.chars, hc] using (isLiteralChar_iff.mp hl).2.1
      | output names args => exact absurd ht (by simp [Piece.isText])
      | block helper args body alternative => exact absurd ht (by simp [Piece.isText])

lemma after?_else {s : String} {rest more : List Char} (hs : isIdentifier s = true)
    (hr : endsName rest = true) (h : after? "else".toList (s.toList ++ rest) = some more) :
    ∃ d ds, more = d :: ds ∧ isNameChar d = true ∧ isWordChar d = true := by
  simp only [isIdentifier, Bool.and_eq_true, Bool.not_eq_true'] at hs
  obtain ⟨c, cs, hc, hn, hall⟩ := isPlainName_cons hs.1.1
  have hnames : s.toList.all isNameChar = true := by simp [hc, hn, hall]
  obtain ⟨u, hu, rfl⟩ := after?_append_of (by decide) hnames (head?_of_endsName hr) h
  have hd := hs.2
  rw [startsAlternative, hu, after?_append] at hd
  cases u with
  | nil => exact absurd hd (by simp)
  | cons d ds =>
    have hmem : isNameChar d = true := by
      rw [hu, List.all_append, List.all_cons] at hnames
      simp only [Bool.and_eq_true] at hnames
      exact hnames.2.1
    exact ⟨d, ds ++ rest, rfl, hmem, by simpa using hd⟩

lemma kinds_outputOpen {names : List String} {rest : List Char} (h : isPlainPath names = true)
    (hr : endsName rest = true) :
    kinds .text ('\x7b' :: '\x7b' :: (pathChars names ++ rest)) =
      .outputOpen false .escaped :: kinds .tag (pathChars names ++ rest) := by
  obtain ⟨c, cs, hc, hn⟩ := pathChars_cons h
  have helse : ∀ more, after? "else".toList (pathChars names ++ rest) = some more →
      ∃ d ds, more = d :: ds ∧ isNameChar d = true ∧ isWordChar d = true := by
    match names, h with
    | [name], h => exact fun more hm => after?_else (isPlainPath_cons h).1 hr hm
    | name :: second :: names, h =>
      intro more hm
      simp only [pathChars, List.append_assoc] at hm
      exact after?_else (isPlainPath_cons h).1 rfl hm
  rw [kinds_text_opening]
  rw [hc] at helse ⊢
  exact kinds_token ['\x7b', '\x7b'] _ (by simp) (inTag_output hn helse)

lemma kinds_output {names : List String} {args : List Term} {rest : List Char}
    (h : (Piece.output names args).isPlain = true) (hr : rest.head? ≠ some '\x7d') :
    kinds .text ((Piece.output names args).chars ++ rest) =
      (Piece.output names args).tokens ++ kinds .text rest := by
  simp only [Piece.isPlain, Bool.and_eq_true] at h
  have hends : endsName (argChars args ++ '\x7d' :: '\x7d' :: rest) = true :=
    endsName_args h.2 rfl
  have hargs := kinds_args args ('\x7d' :: '\x7d' :: rest) h.2 rfl
  simp only [Piece.chars, Piece.tokens, List.cons_append, List.append_assoc, List.nil_append]
  rw [kinds_outputOpen h.1 hends, kinds_path h.1 hends, hargs, kinds_close hr]

lemma kinds_blockOpen {helper : String} (h : isIdentifier helper = true) (rest : List Char) :
    kinds .text ('\x7b' :: '\x7b' :: '#' :: (helper.toList ++ rest)) =
      .blockOpen false false :: kinds .tag (helper.toList ++ rest) := by
  obtain ⟨c, cs, hc, hn, -⟩ := isPlainName_cons (isPlainName_of_isIdentifier h)
  rw [kinds_text_opening, hc]
  exact kinds_token ['\x7b', '\x7b', '#'] _ (by simp) (inTag_blockOpen hn _)

lemma kinds_ending {helper : String} {rest : List Char} (h : isIdentifier helper = true)
    (hr : rest.head? ≠ some '\x7d') :
    kinds .text ('\x7b' :: '\x7b' :: '/' :: (helper.toList ++ '\x7d' :: '\x7d' :: rest)) =
      .endOpen false :: .name helper :: .close false :: kinds .text rest := by
  rw [kinds_text_opening, ← kinds_close hr, ← kinds_name h rfl]
  let more := helper.toList ++ '\x7d' :: '\x7d' :: rest
  exact kinds_token ['\x7b', '\x7b', '/'] more (by simp) (inTag_endOpen more)

lemma kinds_else (rest : List Char) :
    kinds .text ('\x7b' :: '\x7b' :: 'e' :: 'l' :: 's' :: 'e' :: '\x7d' :: '\x7d' :: rest) =
      .inverse .none :: kinds .text rest := by
  rw [kinds_text_opening]
  exact kinds_token ['\x7b', '\x7b', 'e', 'l', 's', 'e', '\x7d', '\x7d'] rest (by simp)
    (inTag_else rest)

lemma opensTag_alternative (alternative : Option (List Piece)) {rest : List Char}
    (hr : opensTag rest) : opensTag (alternativeChars alternative ++ rest) := by
  cases alternative with
  | none => exact hr
  | some ps => exact Or.inr ⟨_, by rw [alternativeChars]; rfl⟩

mutual

lemma kinds_piece : (p : Piece) → (rest : List Char) → p.isPlain = true →
    rest.head? ≠ some '\x7d' → (p.isText = true → opensTag rest) →
    kinds .text (p.chars ++ rest) = p.tokens ++ kinds .text rest
  | .text s, rest, h, _, ho => by
    simpa [Piece.chars, Piece.tokens] using kinds_text h (ho rfl)
  | .output names args, rest, h, hr, _ => kinds_output h hr
  | .block helper args body alternative, rest, h, hr, _ => by
    simp only [Piece.isPlain, Bool.and_eq_true] at h
    obtain ⟨⟨⟨hh, ha⟩, hb⟩, hal⟩ := h
    have hending : opensTag ('\x7b' :: '\x7b' :: '/' :: (helper.toList ++
        '\x7d' :: '\x7d' :: rest)) := Or.inr ⟨_, rfl⟩
    have hother := opensTag_alternative alternative hending
    have hbody := kinds_pieces body _ hb hother
    have halternative := kinds_alternative alternative _ hal hending
    have hargs := kinds_args args ('\x7d' :: '\x7d' :: (chars body ++
      (alternativeChars alternative ++
        '\x7b' :: '\x7b' :: '/' :: (helper.toList ++ '\x7d' :: '\x7d' :: rest)))) ha rfl
    simp only [Piece.chars, Piece.tokens, List.cons_append, List.append_assoc, List.nil_append]
    rw [kinds_blockOpen hh, kinds_name hh (endsName_args ha rfl), hargs,
      kinds_close (head?_chars hb hother), hbody, halternative, kinds_ending hh hr]

lemma kinds_pieces : (ps : List Piece) → (rest : List Char) → isPlain ps = true →
    opensTag rest → kinds .text (chars ps ++ rest) = tokens ps ++ kinds .text rest
  | [], rest, _, _ => by simp [chars, tokens]
  | p :: ps, rest, h, hr => by
    simp only [isPlain, Bool.and_eq_true, Bool.not_eq_true', Bool.and_eq_false_iff] at h
    obtain ⟨⟨hp, hs⟩, hps⟩ := h
    have ho (ht : p.isText = true) : opensTag (chars ps ++ rest) := by
      apply opensTag_chars _ hr
      simpa [ht] using hs
    simp only [chars, tokens, List.append_assoc]
    rw [kinds_piece p _ hp (head?_chars hps hr) ho, kinds_pieces ps rest hps hr]

lemma kinds_alternative : (alternative : Option (List Piece)) → (rest : List Char) →
    isPlainAlternative alternative = true → opensTag rest →
    kinds .text (alternativeChars alternative ++ rest) =
      alternativeTokens alternative ++ kinds .text rest
  | none, rest, _, _ => by simp [alternativeChars, alternativeTokens]
  | some ps, rest, h, hr => by
    have hps := kinds_pieces ps rest (by simpa [isPlainAlternative] using h) hr
    simp only [alternativeChars, alternativeTokens, List.cons_append]
    rw [kinds_else, hps]

end

lemma kinds_write {ps : List Piece} (h : isPlain ps = true) :
    kinds .text (write ps).toList = tokens ps ++ [.finish] := by
  have hp := kinds_pieces ps [] h (Or.inl rfl)
  simpa [write, kinds_nil] using hp

end BuildNotice.Template.Written
