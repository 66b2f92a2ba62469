import BuildNotice.Template.Parser
import BuildNotice.Proofs.Template.Tokens

/-! A template that is written from pieces is read as the nodes of those pieces. -/

namespace BuildNotice.Template

open Written

structure Path.Names (p : Path) (names : List String) : Prop where
  data : p.data = false
  depth : p.depth = 0
  parts : p.parts = names
  written : p.written = String.ofList (pathChars names)

mutual

def Written.Term.Reads : Term → Expr → Prop
  | .path names, .path p => p.Names names
  | .string s, .string t => t = s
  | .call helper args, .group (.mk callee es hash) =>
    callee.Names [helper] ∧ hash = [] ∧ ReadAll args es
  | _, _ => False

def Written.ReadAll : List Term → List Expr → Prop
  | [], [] => True
  | t :: ts, e :: es => t.Reads e ∧ ReadAll ts es
  | _, _ => False

end

mutual

def Written.Piece.Reads : Piece → Node → Prop
  | .text s, .content c => c = .ofText s
  | .output names args, .output escaped (.mk callee es hash) strip =>
    escaped = true ∧ callee.Names names ∧ ReadAll args es ∧ hash = [] ∧ strip = .none
  | .block helper args body alternative,
      .block (.section (.mk callee es hash)) (some (.mk params chained nodes)) other strip =>
    callee.Names [helper] ∧ ReadAll args es ∧ hash = [] ∧ params = [] ∧ chained = false ∧
      PiecesRead body nodes ∧ AlternativeReads alternative other ∧ strip = ⟨.none, .none, .none⟩
  | _, _ => False

def Written.PiecesRead : List Piece → List Node → Prop
  | [], [] => True
  | p :: ps, n :: ns => p.Reads n ∧ PiecesRead ps ns
  | _, _ => False

def Written.AlternativeReads : Option (List Piece) → Option Body → Prop
  | none, none => True
  | some ps, some (.mk params chained nodes) =>
    params = [] ∧ chained = false ∧ PiecesRead ps nodes
  | _, _ => False

end

namespace Written

lemma PiecesRead.cons {p : Piece} {ps : List Piece} {ns : List Node}
    (h : PiecesRead (p :: ps) ns) :
    ∃ n rest, ns = n :: rest ∧ p.Reads n ∧ PiecesRead ps rest := by
  cases ns with
  | nil => exact absurd h (by simp [PiecesRead])
  | cons n rest =>
    obtain ⟨hn, hrest⟩ : p.Reads n ∧ PiecesRead ps rest := by simpa [PiecesRead] using h
    exact ⟨n, rest, rfl, hn, hrest⟩

lemma PiecesRead.nil {ns : List Node} (h : PiecesRead [] ns) : ns = [] := by
  cases ns with
  | nil => rfl
  | cons n ns => exact absurd h (by simp [PiecesRead])

lemma Piece.Reads.of_text {s : String} {n : Node} (h : (Piece.text s).Reads n) :
    n = .content (.ofText s) := by
  cases n with
  | content c =>
    obtain rfl : c = .ofText s := by simpa [Piece.Reads] using h
    rfl
  | _ => exact absurd h (by simp [Piece.Reads])

lemma Piece.Reads.of_output {names : List String} {args : List Term} {n : Node}
    (h : (Piece.output names args).Reads n) :
    ∃ callee es, n = .output true (.mk callee es []) .none ∧ callee.Names names ∧
      ReadAll args es := by
  cases n with
  | output escaped call strip =>
    obtain ⟨callee, es, pairs⟩ := call
    obtain ⟨rfl, hcallee, hes, rfl, rfl⟩ := by simpa [Piece.Reads] using h
    exact ⟨callee, es, rfl, hcallee, hes⟩
  | _ => exact absurd h (by simp [Piece.Reads])

lemma Piece.Reads.exists_block {helper : String} {args : List Term} {body : List Piece}
    {alternative : Option (List Piece)} {n : Node}
    (h : (Piece.block helper args body alternative).Reads n) :
    ∃ callee es nodes other, n = .block (.section (.mk callee es [])) (some (.mk [] false nodes))
        other ⟨.none, .none, .none⟩ ∧
      callee.Names [helper] ∧ ReadAll args es ∧ PiecesRead body nodes ∧
      AlternativeReads alternative other := by
  cases n with
  | block kind main other strip =>
    cases kind with
    | «section» call =>
      obtain ⟨callee, es, pairs⟩ := call
      cases main with
      | none => exact absurd h (by simp [Piece.Reads])
      | some main =>
        obtain ⟨params, chained, nodes⟩ := main
        obtain ⟨hcallee, hes, rfl, rfl, rfl, hbody, hother, rfl⟩ := by
          simpa [Piece.Reads] using h
        exact ⟨callee, es, nodes, other, rfl, hcallee, hes, hbody, hother⟩
    | _ => exact absurd h (by simp [Piece.Reads])
  | _ => exact absurd h (by simp [Piece.Reads])

lemma Piece.Reads.of_block {helper : String} {args : List Term} {body : List Piece} {n : Node}
    (h : (Piece.block helper args body none).Reads n) :
    ∃ callee es nodes, n = .block (.section (.mk callee es [])) (some (.mk [] false nodes)) none
        ⟨.none, .none, .none⟩ ∧
      callee.Names [helper] ∧ ReadAll args es ∧ PiecesRead body nodes := by
  obtain ⟨callee, es, nodes, other, rfl, hcallee, hes, hbody, hother⟩ := h.exists_block
  cases other with
  | none => exact ⟨callee, es, nodes, rfl, hcallee, hes, hbody⟩
  | some other => exact absurd hother (by simp [AlternativeReads])

end Written

namespace Parser

lemma unbracket_name {s : String} (h : isIdentifier s = true) : unbracket s = s := by
  obtain ⟨c, cs, hc, hn, -⟩ := isPlainName_cons (isPlainName_of_isIdentifier h)
  have hb : c ≠ '[' := Lexer.ne_of_isNameChar hn (by decide)
  simp [unbracket, hc, hb]

lemma not_special_name {s : String} (h : isIdentifier s = true) :
    ¬ (s = ".." ∨ s = "." ∨ s = "this") := by
  obtain ⟨c, cs, hc, hn, -⟩ := isPlainName_cons (isPlainName_of_isIdentifier h)
  have hdot : c ≠ '.' := Lexer.ne_of_isNameChar hn (by decide)
  rintro (rfl | rfl | rfl)
  · exact hdot (List.cons.inj hc).1.symm
  · exact hdot (List.cons.inj hc).1.symm
  · exact absurd h (by simp [isIdentifier])

lemma resolve_names {position : Position} {path : Path} {names : List String}
    (h : names.all isIdentifier = true) :
    resolve position path (names.map (⟨·, "."⟩)) =
      .ok { path with
        written := path.written ++ String.ofList (names.flatMap fun s => '.' :: s.toList)
        parts := path.parts ++ names } := by
  induction names generalizing path with
  | nil => simp [resolve]
  | cons s names ih =>
    simp only [List.all_cons, Bool.and_eq_true] at h
    have hs := not_special_name h.1
    simp only [List.map_cons, resolve, unbracket_name h.1, hs, and_false, if_false, ih h.2]
    simp [String.append_assoc]

lemma segments_names {more : List Token} (hm : ∀ sep, more.head? ≠ some (.separator sep))
    (first : Segment) (names : List String) (ps : List Placed)
    (h : ps.map Placed.token =
      names.flatMap (fun s => [.separator ".", .name s]) ++ more) :
    ∃ rest, segments first ps = .ok (first :: names.map (⟨·, "."⟩), rest) ∧
      rest.map Placed.token = more := by
  induction names generalizing first ps with
  | nil =>
    cases ps with
    | nil => exact ⟨[], by simp [segments], by simpa using h⟩
    | cons p ps =>
      obtain rfl : p.token :: ps.map Placed.token = more := by simpa using h
      refine ⟨p :: ps, ?_, rfl⟩
      rw [segments]
      split
      · next sep hp => exact absurd (by simp [hp]) (hm sep)
      · rfl
  | cons s names ih =>
    simp only [List.flatMap_cons, List.cons_append, List.nil_append] at h
    obtain ⟨p, ps, rfl, hp, h⟩ := List.map_eq_cons_iff.mp h
    obtain ⟨q, qs, rfl, hq, h⟩ := List.map_eq_cons_iff.mp h
    obtain ⟨rest, hs, hrest⟩ := ih ⟨s, "."⟩ qs h
    refine ⟨rest, ?_, hrest⟩
    simp [segments, hp, hq, hs, Except.map]

lemma pathChars_flatMap (s : String) (names : List String) :
    pathChars (s :: names) = s.toList ++ names.flatMap fun s => '.' :: s.toList := by
  induction names generalizing s with
  | nil => simp [pathChars]
  | cons t names ih => simp [pathChars, ih t]

lemma pathTokens_flatMap (s : String) (names : List String) :
    pathTokens (s :: names) = .name s :: names.flatMap fun s => [.separator ".", .name s] := by
  induction names generalizing s with
  | nil => simp [pathTokens]
  | cons t names ih => simp [pathTokens, ih t]

def followsPathAt (more : List Token) : Bool := more.head?.any followsPath

lemma not_separator_of_follows {more : List Token} (h : followsPathAt more = true) (sep : String) :
    more.head? ≠ some (.separator sep) := by
  intro hs
  simp [followsPathAt, hs, followsPath] at h

lemma name_segments {s : String} {names : List String} {more : List Token}
    (hm : followsPathAt more = true) (ps : List Placed)
    (h : ps.map Placed.token = pathTokens (s :: names) ++ more) :
    ∃ position rest, rest.map Placed.token = more ∧ ∀ path,
      resolve position ⟨false, 0, [], "", position⟩ (⟨s, ""⟩ :: names.map (⟨·, "."⟩)) = .ok path →
        name ps = .ok (.path path, rest) := by
  rw [pathTokens_flatMap, List.cons_append] at h
  obtain ⟨p, ps, rfl, hp, h⟩ := List.map_eq_cons_iff.mp h
  obtain ⟨rest, hseg, hrest⟩ :=
    segments_names (not_separator_of_follows hm) ⟨s, ""⟩ names ps h
  obtain ⟨q, qs, rfl⟩ : ∃ q qs, rest = q :: qs := by
    cases rest with
    | nil => simp [← hrest, followsPathAt] at hm
    | cons q qs => exact ⟨q, qs, rfl⟩
  have hq : followsPath q.token = true := by simpa [← hrest, followsPathAt] using hm
  refine ⟨p.start, q :: qs, hrest, fun path hres => ?_⟩
  simp [name, hp, pathFrom, hseg, hq, hres, Except.map, bind, Except.bind]

lemma resolve_path {s : String} {names : List String} (h : isPlainPath (s :: names) = true)
    (position : Position) :
    resolve position ⟨false, 0, [], "", position⟩ (⟨s, ""⟩ :: names.map (⟨·, "."⟩)) =
      .ok ⟨false, 0, s :: names, String.ofList (pathChars (s :: names)), position⟩ := by
  have hs := (isPlainPath_cons h).1
  have hall : names.all isIdentifier = true := by
    simp only [isPlainPath, List.all_cons, Bool.and_eq_true] at h
    exact h.2.2
  simp only [resolve, unbracket_name hs, not_special_name hs, and_false, if_false,
    resolve_names hall]
  simp [pathChars_flatMap]

lemma name_path {names : List String} {more : List Token} (hn : isPlainPath names = true)
    (hm : followsPathAt more = true) (ps : List Placed)
    (h : ps.map Placed.token = pathTokens names ++ more) :
    ∃ p rest, name ps = .ok (.path p, rest) ∧ p.Names names ∧ rest.map Placed.token = more := by
  match names, hn with
  | s :: names, hn =>
    obtain ⟨position, rest, hrest, hname⟩ := name_segments hm ps h
    exact ⟨_, rest, hname _ (resolve_path hn position), ⟨rfl, rfl, rfl, rfl⟩, hrest⟩

def endsArgs (more : List Token) : Bool :=
  more.head?.any fun t => followsPath t && !startsExpr t

lemma followsPathAt_of_endsArgs {more : List Token} (h : endsArgs more = true) :
    followsPathAt more = true := by
  cases more with
  | nil => exact absurd h (by simp [endsArgs])
  | cons t more => simp_all [endsArgs, followsPathAt]

lemma Term.tokens_cons {t : Term} (h : t.isPlain = true) :
    ∃ k ks, t.tokens = k :: ks ∧ startsExpr k = true ∧ followsPath k = true := by
  cases t with
  | path names =>
    match names, h with
    | s :: names, _ => exact ⟨_, _, by rw [Term.tokens, pathTokens_flatMap], rfl, rfl⟩
  | string s => exact ⟨_, _, by rw [Term.tokens], rfl, rfl⟩
  | call helper args => exact ⟨_, _, by rw [Term.tokens], rfl, rfl⟩

lemma followsPathAt_args {args : List Term} {more : List Token} (h : arePlain args = true)
    (hm : endsArgs more = true) : followsPathAt (argTokens args ++ more) = true := by
  cases args with
  | nil => exact followsPathAt_of_endsArgs hm
  | cons t ts =>
    simp only [arePlain, Bool.and_eq_true] at h
    obtain ⟨k, ks, hk, -, hf⟩ := Term.tokens_cons h.1
    simp [argTokens, hk, followsPathAt, hf]

lemma ne_equals_of_follows {more : List Token} (h : followsPathAt more = true) :
    more.head? ≠ some .equals := by
  intro hs
  simp [followsPathAt, hs, followsPath] at h

lemma startsPair_term {t : Term} {more : List Token} (h : t.isPlain = true)
    (hm : followsPathAt more = true) (ps : List Placed)
    (hp : ps.map Placed.token = t.tokens ++ more) : startsPair ps = false := by
  have hpair (p : Placed) (qs : List Placed) (hn : (∀ s, p.token ≠ .name s) ∨
      (qs.map Placed.token).head? ≠ some .equals) : startsPair (p :: qs) = false := by
    cases qs with
    | nil => rfl
    | cons q qs =>
      simp only [startsPair]
      split
      · next s h₁ h₂ =>
        rcases hn with hn | hn
        · exact absurd h₁ (hn s)
        · exact absurd (by simp [h₂]) hn
      · rfl
  cases t with
  | path names =>
    match names, h with
    | s :: names, _ =>
      rw [Term.tokens, pathTokens_flatMap, List.cons_append] at hp
      obtain ⟨p, ps, rfl, -, hps⟩ := List.map_eq_cons_iff.mp hp
      apply hpair
      right
      cases names with
      | nil => simpa [hps] using ne_equals_of_follows hm
      | cons s names => simp [hps]
  | string s =>
    rw [Term.tokens, List.cons_append] at hp
    obtain ⟨p, ps, rfl, hk, -⟩ := List.map_eq_cons_iff.mp hp
    exact hpair p ps (Or.inl (by simp [hk]))
  | call helper args =>
    rw [Term.tokens, List.cons_append] at hp
    obtain ⟨p, ps, rfl, hk, -⟩ := List.map_eq_cons_iff.mp hp
    exact hpair p ps (Or.inl (by simp [hk]))

lemma pairs_ends {more : List Token} (hm : endsArgs more = true) (fuel : Nat) (ps : List Placed)
    (h : ps.map Placed.token = more) : pairs (fuel + 1) ps = .ok ([], ps) := by
  match ps with
  | [] => rfl
  | [p] => rfl
  | p :: q :: ps =>
    obtain rfl := h
    simp only [List.map_cons, endsArgs, List.head?_cons, Option.any_some, Bool.and_eq_true,
      Bool.not_eq_true'] at hm
    rw [pairs]
    split
    · next key hk _ => exact absurd hm.2 (by simp [hk, startsExpr])
    · next key hk _ => exact absurd hm.2 (by simp [hk, startsExpr])
    · rfl

lemma expr_name (fuel : Nat) (p : Placed) (ps : List Placed) (h : p.token ≠ .groupOpen) :
    expr (fuel + 1) (p :: ps) = (name (p :: ps)).map fun (n, rest) => (n.toExpr, rest) := by
  rw [expr]
  split
  · next hp => exact absurd hp h
  · rfl

mutual

lemma expr_term : (t : Term) → (fuel : Nat) → (more : List Token) → (ps : List Placed) →
    t.isPlain = true → followsPathAt more = true → 3 * t.tokens.length < fuel →
    ps.map Placed.token = t.tokens ++ more →
    ∃ e rest, expr fuel ps = .ok (e, rest) ∧ t.Reads e ∧ rest.map Placed.token = more
  | t, 0, more, ps, _, _, hf, _ => absurd hf (by omega)
  | .path names, fuel + 1, more, ps, h, hm, hf, hp => by
    simp only [Term.isPlain] at h
    rw [Term.tokens] at hp
    obtain ⟨path, rest, hn, hnames, hrest⟩ := name_path h hm ps hp
    match names, h with
    | s :: names, h =>
      rw [pathTokens_flatMap, List.cons_append] at hp
      obtain ⟨p, ps, rfl, hk, -⟩ := List.map_eq_cons_iff.mp hp
      refine ⟨.path path, rest, ?_, by simpa [Term.Reads] using hnames, hrest⟩
      rw [expr_name fuel p ps (by simp [hk]), hn]
      rfl
  | .string s, fuel + 1, more, ps, h, hm, hf, hp => by
    rw [Term.tokens] at hp
    obtain ⟨p, ps, rfl, hk, hrest⟩ := List.map_eq_cons_iff.mp hp
    refine ⟨.string s, ps, ?_, by simp [Term.Reads], by simpa using hrest⟩
    simp [expr_name fuel p ps (by simp [hk]), name, hk, Except.map, Name.toExpr]
  | .call helper args, fuel + 1, more, ps, h, hm, hf, hp => by
    simp only [Term.isPlain, Bool.and_eq_true] at h
    rw [Term.tokens] at hp
    simp only [Term.tokens, List.length_cons, List.length_append, List.length_nil] at hf
    simp only [List.cons_append, List.append_assoc, List.nil_append] at hp
    obtain ⟨f, rfl⟩ : ∃ f, fuel = f + 2 := ⟨fuel - 2, by omega⟩
    obtain ⟨p, ps, rfl, hk, hp⟩ := List.map_eq_cons_iff.mp hp
    have hends : endsArgs (.groupClose :: more) = true := rfl
    have hhelper : isPlainPath [helper] = true := by simp [isPlainPath, h.1]
    obtain ⟨path, rest, hn, hnames, hrest⟩ :=
      name_path hhelper (followsPathAt_args h.2 hends) ps hp
    obtain ⟨es, rest', hes, hreads, hrest'⟩ :=
      exprs_args args (f + 1) (.groupClose :: more) rest h.2 hends (by omega) hrest
    have hpairs := pairs_ends hends f rest' hrest'
    obtain ⟨q, qs, rfl, hq, hqs⟩ := List.map_eq_cons_iff.mp hrest'
    refine ⟨.group (.mk path es []), qs, ?_, by simp [Term.Reads, hnames, hreads], hqs⟩
    simp [expr, hk, group, hn, hes, hpairs, hq, Except.map, bind, Except.bind, Name.toPath]

lemma exprs_args : (args : List Term) → (fuel : Nat) → (more : List Token) → (ps : List Placed) →
    arePlain args = true → endsArgs more = true → 3 * (argTokens args).length + 1 < fuel →
    ps.map Placed.token = argTokens args ++ more →
    ∃ es rest, exprs fuel ps = .ok (es, rest) ∧ ReadAll args es ∧ rest.map Placed.token = more
  | args, 0, more, ps, _, _, hf, _ => absurd hf (by omega)
  | [], fuel + 1, more, ps, h, hm, hf, hp => by
    obtain rfl : ps.map Placed.token = more := by simpa [argTokens] using hp
    refine ⟨[], ps, ?_, by simp [ReadAll], rfl⟩
    cases ps with
    | nil => rfl
    | cons p ps =>
      have hs : startsExpr p.token = false := by
        simp only [List.map_cons, endsArgs, List.head?_cons, Option.any_some, Bool.and_eq_true,
          Bool.not_eq_true'] at hm
        exact hm.2
      simp [exprs, hs]
  | t :: ts, fuel + 1, more, ps, h, hm, hf, hp => by
    simp only [arePlain, Bool.and_eq_true] at h
    simp only [argTokens, List.length_append] at hf
    simp only [argTokens, List.append_assoc] at hp
    have hfollows := followsPathAt_args h.2 hm
    have hpair := startsPair_term h.1 hfollows ps hp
    obtain ⟨k, ks, hk, hstart, -⟩ := Term.tokens_cons h.1
    have hpos : 0 < t.tokens.length := by simp [hk]
    obtain ⟨e, rest, he, hread, hrest⟩ :=
      expr_term t fuel (argTokens ts ++ more) ps h.1 hfollows (by omega) hp
    obtain ⟨es, rest', hes, hreads, hrest'⟩ := exprs_args ts fuel more rest h.2 hm (by omega) hrest
    rw [hk, List.cons_append] at hp
    obtain ⟨p, ps, rfl, rfl, -⟩ := List.map_eq_cons_iff.mp hp
    refine ⟨e :: es, rest', ?_, by simp [ReadAll, hread, hreads], hrest'⟩
    simp [exprs, hstart, hpair, he, hes, bind, Except.bind]

end

lemma head_path {names : List String} {args : List Term} {more : List Token}
    (hn : isPlainPath names = true) (ha : arePlain args = true) (hm : endsArgs more = true)
    (ps : List Placed) (h : ps.map Placed.token = pathTokens names ++ (argTokens args ++ more)) :
    ∃ p es rest, head ps = .ok (⟨.path p, .mk p es [], position ps⟩, rest) ∧ p.Names names ∧
      ReadAll args es ∧ rest.map Placed.token = more := by
  obtain ⟨p, rest, hname, hp, hrest⟩ := name_path hn (followsPathAt_args ha hm) ps h
  have hlen := congrArg List.length h
  simp only [List.length_map, List.length_append] at hlen
  obtain ⟨es, rest', hes, hreads, hrest'⟩ :=
    exprs_args args (fuelFor ps) more rest ha hm (by rw [fuelFor]; omega) hrest
  have hpairs : pairs (fuelFor ps) rest' = .ok ([], rest') := pairs_ends hm _ rest' hrest'
  refine ⟨p, es, rest', ?_, hp, hreads, hrest'⟩
  simp [head, hname, hes, hpairs, bind, Except.bind, Name.toPath]

lemma close_tokens {more : List Token} (ps : List Placed)
    (h : ps.map Placed.token = .close false :: more) :
    ∃ rest, close ps = .ok (false, rest) ∧ rest.map Placed.token = more := by
  obtain ⟨p, ps, rfl, hp, hrest⟩ := List.map_eq_cons_iff.mp h
  exact ⟨ps, by simp [close, hp], hrest⟩

lemma opening_tokens {helper : String} {args : List Term} {more : List Token}
    (hh : isIdentifier helper = true) (ha : arePlain args = true) (ps : List Placed)
    (h : ps.map Placed.token = .name helper :: (argTokens args ++ .close false :: more)) :
    ∃ p es rest, opening false ps =
        .ok (⟨⟨.path p, .mk p es [], position ps⟩, [], ⟨false, false⟩⟩, rest) ∧
      p.Names [helper] ∧ ReadAll args es ∧ rest.map Placed.token = more := by
  have hends : endsArgs (.close false :: more) = true := rfl
  have hname : isPlainPath [helper] = true := by simp [isPlainPath, hh]
  obtain ⟨p, es, rest, hhead, hp, hes, hrest⟩ := head_path hname ha hends ps h
  obtain ⟨rest', hclose, hrest'⟩ := close_tokens rest hrest
  have hparams : params rest = .ok ([], rest) := by
    obtain ⟨q, qs, rfl, hq, -⟩ := List.map_eq_cons_iff.mp hrest
    simp [params, hq]
  exact ⟨p, es, rest', by simp [opening, hhead, hparams, hclose, bind, Except.bind], hp, hes,
    hrest'⟩

lemma ending_tokens {helper : String} {more : List Token} (hh : isIdentifier helper = true)
    {p : Path} (hp : p.Names [helper]) (place : Position) (ps : List Placed)
    (h : ps.map Placed.token = .endOpen false :: .name helper :: .close false :: more) :
    ∃ rest, ending (.path p) place ps = .ok (⟨false, false⟩, rest) ∧
      rest.map Placed.token = more := by
  obtain ⟨k, ps, rfl, hk, hps⟩ := List.map_eq_cons_iff.mp h
  have hfollows : followsPathAt (.close false :: more) = true := rfl
  have hpath : isPlainPath [helper] = true := by simp [isPlainPath, hh]
  obtain ⟨q, rest, hname, hq, hrest⟩ := name_path hpath hfollows ps hps
  obtain ⟨rest', hclose, hrest'⟩ := close_tokens rest hrest
  refine ⟨rest', ?_, hrest'⟩
  simp [ending, hk, hname, hclose, Name.agree, hp.written, hq.written, bind, Except.bind]

def endsNodes (more : List Token) : Bool :=
  more.head?.any fun t => !startsNode t

lemma Piece.tokens_cons (p : Piece) : ∃ k ks, p.tokens = k :: ks ∧ startsNode k = true := by
  cases p with
  | text s => exact ⟨_, _, by rw [Piece.tokens], rfl⟩
  | output names args => exact ⟨_, _, by rw [Piece.tokens], rfl⟩
  | block helper args body alternative => exact ⟨_, _, by rw [Piece.tokens], rfl⟩

def endsBlock (more : List Token) : Bool :=
  more.head?.any fun
    | .endOpen _ => true
    | _ => false

lemma endsNodes_of_endsBlock {more : List Token} (h : endsBlock more = true) :
    endsNodes more = true := by
  match more with
  | .endOpen _ :: _ => rfl

lemma assemble_reads {helper : String} {args : List Term} {body : List Piece}
    {alternative : Option (List Piece)} {path : Path} {es : List Expr} {ns : List Node}
    {other : Option Alternative} (hpath : path.Names [helper]) (hes : ReadAll args es)
    (hbody : PiecesRead body ns)
    (halternative : AlternativeReads alternative (other.map Alternative.body))
    (hstrip : ∀ a ∈ other, a.strip = .none) :
    (Piece.block helper args body alternative).Reads
      (assemble (.section (.mk path es [])) false .none .none (.mk [] false ns) other) := by
  cases other with
  | none => simpa [assemble, Piece.Reads, hpath, hes, hbody] using halternative
  | some a =>
    obtain ⟨strip, params, chained, nodes⟩ := a
    obtain rfl : strip = .none := by simpa using hstrip
    cases alternative with
    | none => exact absurd halternative (by simp [AlternativeReads])
    | some ps =>
      obtain ⟨rfl, rfl, hnodes⟩ : params = [] ∧ chained = false ∧ PiecesRead ps nodes := by
        simpa [AlternativeReads] using halternative
      simp [assemble, Body.endAt, Piece.Reads, AlternativeReads, hpath, hes, hbody, hnodes]

mutual

lemma node_piece : (p : Piece) → (fuel : Nat) → (more : List Token) → (k : Placed) →
    (ps : List Placed) → p.isPlain = true → 2 * p.tokens.length ≤ fuel →
    (k :: ps).map Placed.token = p.tokens ++ more →
    ∃ n rest, node fuel k ps = .ok (n, rest) ∧ p.Reads n ∧ rest.map Placed.token = more
  | p, 0, more, k, ps, _, hf, _ => by
    obtain ⟨t, ts, hts, -⟩ := Piece.tokens_cons p
    simp [hts] at hf
  | .text s, fuel + 1, more, k, ps, _, _, h => by
    rw [Piece.tokens, List.map_cons, List.cons_append, List.cons.injEq] at h
    exact ⟨.content (.ofText s), ps, by simp [node, h.1], by simp [Piece.Reads],
      by simpa using h.2⟩
  | .output names args, fuel + 1, more, k, ps, hp, _, h => by
    simp only [Piece.isPlain, Bool.and_eq_true] at hp
    simp only [Piece.tokens, List.map_cons, List.cons_append, List.append_assoc, List.nil_append,
      List.cons.injEq] at h
    have hends : endsArgs (.close false :: more) = true := rfl
    obtain ⟨path, es, rest, hhead, hpath, hes, hrest⟩ := head_path hp.1 hp.2 hends ps h.2
    obtain ⟨rest', hclose, hrest'⟩ := close_tokens rest hrest
    refine ⟨.output true (.mk path es []) .none, rest', ?_, by simp [Piece.Reads, hpath, hes],
      hrest'⟩
    simp [node, h.1, hhead, hclose, bind, Except.bind, Strip.none]
  | .block helper args body alternative, fuel + 1, more, k, ps, hp, hf, h => by
    simp only [Piece.isPlain, Bool.and_eq_true] at hp
    obtain ⟨⟨⟨hh, ha⟩, hb⟩, hal⟩ := hp
    simp only [Piece.tokens, List.length_cons, List.length_append, List.length_nil] at hf
    simp only [Piece.tokens, List.map_cons, List.cons_append, List.append_assoc, List.nil_append,
      List.cons.injEq] at h
    obtain ⟨hk, h⟩ := h
    obtain ⟨path, es, rest₁, hopening, hpath, hes, hrest₁⟩ := opening_tokens hh ha ps h
    have hends : endsNodes (alternativeTokens alternative ++
        .endOpen false :: .name helper :: .close false :: more) = true := by
      cases alternative with
      | none => rfl
      | some ps => rfl
    obtain ⟨ns, rest₂, hns, hbody, hrest₂⟩ :=
      nodes_pieces body fuel _ rest₁ hb hends (by omega) hrest₁
    obtain ⟨other, rest₃, hother, halternative, hstrip, hrest₃⟩ :=
      alternative_reads alternative fuel _ rest₂ hal rfl (by omega) hrest₂
    obtain ⟨rest₄, hending, hrest₄⟩ := ending_tokens hh hpath (position ps) rest₃ hrest₃
    refine ⟨assemble (.section (.mk path es [])) false .none .none (.mk [] false ns) other, rest₄,
      ?_, assemble_reads hpath hes hbody halternative hstrip, hrest₄⟩
    simp [node, hk, hopening, hns, hother, hending, bind, Except.bind, Strip.none]

lemma nodes_pieces : (pieces : List Piece) → (fuel : Nat) → (more : List Token) →
    (ps : List Placed) → isPlain pieces = true → endsNodes more = true →
    2 * (tokens pieces).length < fuel → ps.map Placed.token = tokens pieces ++ more →
    ∃ ns rest, nodes fuel ps = .ok (ns, rest) ∧ PiecesRead pieces ns ∧
      rest.map Placed.token = more
  | pieces, 0, more, ps, _, _, hf, _ => absurd hf (by omega)
  | [], fuel + 1, more, ps, _, hm, _, h => by
    obtain rfl : ps.map Placed.token = more := by simpa [tokens] using h
    refine ⟨[], ps, ?_, by simp [PiecesRead], rfl⟩
    cases ps with
    | nil => rfl
    | cons q ps =>
      have hq : startsNode q.token = false := by simpa [endsNodes] using hm
      simp [nodes, hq]
  | p :: pieces, fuel + 1, more, ps, hp, hm, hf, h => by
    simp only [isPlain, Bool.and_eq_true] at hp
    simp only [tokens, List.length_append] at hf
    simp only [tokens, List.append_assoc] at h
    obtain ⟨t, ts, ht, hstart⟩ := Piece.tokens_cons p
    have hpos : 0 < p.tokens.length := by simp [ht]
    obtain ⟨k, ps, rfl⟩ : ∃ k qs, ps = k :: qs := by
      rw [ht, List.cons_append] at h
      obtain ⟨k, qs, hps, -⟩ := List.map_eq_cons_iff.mp h
      exact ⟨k, qs, hps⟩
    have hk : startsNode k.token = true := by
      rw [ht, List.cons_append, List.map_cons, List.cons.injEq] at h
      rw [h.1, hstart]
    obtain ⟨n, rest, hn, hread, hrest⟩ := node_piece p fuel _ k ps hp.1.1 (by omega) h
    obtain ⟨ns, rest', hns, hreads, hrest'⟩ :=
      nodes_pieces pieces fuel more rest hp.2 hm (by omega) hrest
    refine ⟨n :: ns, rest', ?_, by simp [PiecesRead, hread, hreads], hrest'⟩
    simp [nodes, hk, hn, hns, bind, Except.bind]

lemma alternative_reads : (alternative : Option (List Piece)) → (fuel : Nat) →
    (more : List Token) → (ps : List Placed) → isPlainAlternative alternative = true →
    endsBlock more = true → 2 * (alternativeTokens alternative).length + 1 < fuel →
    ps.map Placed.token = alternativeTokens alternative ++ more →
    ∃ other rest, alternative? fuel true ps = .ok (other, rest) ∧
      AlternativeReads alternative (other.map Alternative.body) ∧
      (∀ a ∈ other, a.strip = .none) ∧ rest.map Placed.token = more
  | alternative, 0, more, ps, _, _, hf, _ => absurd hf (by omega)
  | none, fuel + 1, more, ps, _, hm, _, h => by
    obtain rfl : ps.map Placed.token = more := by simpa [alternativeTokens] using h
    refine ⟨none, ps, ?_, by simp [AlternativeReads], by simp, rfl⟩
    cases ps with
    | nil => rfl
    | cons q ps =>
      obtain ⟨before, hq⟩ : ∃ before, q.token = .endOpen before := by
        simp only [List.map_cons, endsBlock, List.head?_cons, Option.any_some] at hm
        split at hm
        · next before hq => exact ⟨before, hq⟩
        · exact absurd hm (by decide)
      simp [alternative?, hq]
  | some pieces, fuel + 1, more, ps, hp, hm, hf, h => by
    simp only [isPlainAlternative] at hp
    simp only [alternativeTokens, List.length_cons] at hf
    simp only [alternativeTokens, List.cons_append] at h
    obtain ⟨k, ps, rfl, hk, hps⟩ := List.map_eq_cons_iff.mp h
    obtain ⟨ns, rest, hns, hreads, hrest⟩ :=
      nodes_pieces pieces fuel more ps hp (endsNodes_of_endsBlock hm) (by omega) hps
    refine ⟨some ⟨.none, .mk [] false ns⟩, rest, ?_, by simp [AlternativeReads, hreads], by simp,
      hrest⟩
    simp [alternative?, hk, hns, bind, Except.bind]

end

lemma parse_write {pieces : List Piece} (h : isPlain pieces = true) :
    ∃ ns, parse (write pieces) = .ok ns ∧ PiecesRead pieces ns := by
  have htokens : (Lexer.tokens (write pieces)).map Placed.token = tokens pieces ++ [.finish] := by
    rw [Lexer.tokens_kinds, kinds_write h]
  have hlen := congrArg List.length htokens
  simp only [List.length_map, List.length_append, List.length_cons, List.length_nil] at hlen
  obtain ⟨ns, rest, hns, hreads, hrest⟩ :=
    nodes_pieces pieces (fuelFor (Lexer.tokens (write pieces))) [.finish] _ h rfl
      (by rw [fuelFor]; omega) htokens
  refine ⟨ns, ?_, hreads⟩
  obtain ⟨q, qs, rfl, hq, -⟩ := List.map_eq_cons_iff.mp hrest
  simp [parse, hns, hq, bind, Except.bind]

end Parser

end BuildNotice.Template
