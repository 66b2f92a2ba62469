import BuildNotice.Template
import BuildNotice.Proofs.Template.Evaluation
import BuildNotice.Proofs.Template.Parsing

namespace BuildNotice.Template

open Render Written

def reached (v : Value) (names : List String) : Value := names.foldl Value.own v

/-- The name that stops a strict lookup: the first one below nothing, or the last one where its
parent is no list or record that knows it. -/
def missing? (v : Value) : List String → Option String
  | [] => none
  | [key] => if v.isComposite && v.knows key then none else some key
  | key :: next :: rest =>
    if (v.own key).isNullish then some next else missing? (v.own key) (next :: rest)

lemma missing?_mem {v : Value} {names : List String} {key : String}
    (h : missing? v names = some key) : key ∈ names := by
  induction names generalizing v with
  | nil => exact absurd h (by simp [missing?])
  | cons name names ih =>
    cases names with
    | nil =>
      rw [missing?] at h
      split at h
      · exact absurd h (by simp)
      · obtain rfl := Option.some.inj h
        exact List.mem_cons_self
    | cons next names =>
      rw [missing?] at h
      split at h
      · obtain rfl := Option.some.inj h
        simp
      · exact List.mem_cons_of_mem _ (ih h)

lemma reached_isPrintable {v : Value} (h : v.isPrintable = true) (names : List String) :
    (reached v names).isPrintable = true := by
  induction names generalizing v with
  | nil => exact h
  | cons name names ih => exact ih (Value.own_isPrintable h name)

def RenderError.Lacks (key : String) : RenderError → Prop
  | .notDefined k _ _ => k = key
  | .notSearchable k _ => k = key
  | .memberOfNothing nothing k => k = key ∧ (nothing = "undefined" ∨ nothing = "null")
  | _ => False

lemma isTruthy_of_isComposite {v : Value} (h : v.isComposite = true) : v.isTruthy = true := by
  cases v with
  | list label items => rfl
  | record label fields => rfl
  | _ => exact absurd h (by simp [Value.isComposite])

lemma isNullish_of_isComposite {v : Value} (h : v.isComposite = true) : v.isNullish = false := by
  cases v with
  | list label items => rfl
  | record label fields => rfl
  | _ => exact absurd h (by simp [Value.isComposite])

lemma knows_of_own {v : Value} {key : String} (hc : v.isComposite = true)
    (h : (v.own key).isNullish = false) : v.knows key = true := by
  have hown : (v.own? key).isSome = true := by
    cases ho : v.own? key with
    | some w => rfl
    | none => simp [Value.own, ho, Value.isNullish] at h
  cases v with
  | list label items => simp [Value.knows, hown]
  | record label fields =>
    have hget : (Record.get? key fields).isSome = true := hown
    simp [Value.knows, Record.has_iff_get?_isSome, hget]
  | _ => exact absurd hc (by simp [Value.isComposite])

lemma member_yields {v : Value} (h : v.isNullish = false) (key : String) :
    Yields (member v key) (v.own key) := by
  rw [member, if_neg (by simp [h])]
  exact yields_pure _

lemma nothingText_cases (v : Value) : nothingText v = "undefined" ∨ nothingText v = "null" := by
  cases v with
  | null => exact .inr rfl
  | _ => exact .inl rfl

lemma member_stops {v : Value} (h : v.isNullish = true) (key : String) :
    ∃ e, Stops (member v key) e ∧ e.Lacks key := by
  refine ⟨.memberOfNothing (nothingText v) key, ?_, rfl, nothingText_cases v⟩
  rw [member, if_pos h]
  exact stops_fail _

lemma knownMember_yields {v : Value} {key : String} (hc : v.isComposite = true)
    (hk : v.knows key = true) (position : Position) :
    Yields (knownMember v key position) (v.own key) := by
  have ht := isTruthy_of_isComposite hc
  rw [knownMember, if_neg (by simp [hc]), if_pos (by simp [ht, hk])]
  exact yields_pure _

lemma knownMember_stops {v : Value} {key : String} (hp : v.isPrintable = true)
    (h : ¬ (v.isComposite && v.knows key) = true) (position : Position) :
    ∃ e, Stops (knownMember v key position) e ∧ e.Lacks key := by
  obtain ⟨s, hs⟩ := Value.exists_print hp
  have hprint := yields_ofOption hs
  rw [knownMember]
  split
  · exact ⟨.notSearchable key s, hprint.bind_stops (stops_fail _), rfl⟩
  · next hsearch =>
    have hknows : ¬ (v.isTruthy && v.knows key) = true := by
      intro hk
      simp only [Bool.and_eq_true] at hk h
      refine h ⟨?_, hk.2⟩
      simpa [hk.1] using hsearch
    rw [if_neg hknows]
    exact ⟨.notDefined key s position, hprint.bind_stops (stops_fail _), rfl⟩

lemma knownMembers_yields (position : Position) :
    (names : List String) → (v : Value) → v.isNullish = false → missing? v names = none →
    Yields (knownMembers v position names) (reached v names)
  | [], v, _, _ => yields_pure v
  | [key], v, _, h => by
    simp only [missing?, ite_eq_left_iff, reduceCtorEq, imp_false, Bool.and_eq_true,
      Decidable.not_not] at h
    exact knownMember_yields h.1 h.2 position
  | key :: next :: rest, v, hv, h => by
    rw [missing?] at h
    split at h
    · exact absurd h (by simp)
    · next hn =>
      have hrest := knownMembers_yields position (next :: rest) (v.own key) (by simpa using hn) h
      exact (member_yields hv key).bind hrest

lemma knownMembers_stops (position : Position) {missing : String} :
    (names : List String) → (v : Value) → v.isNullish = false → v.isPrintable = true →
    missing? v names = some missing →
    ∃ e, Stops (knownMembers v position names) e ∧ e.Lacks missing
  | [], v, _, _, h => absurd h (by simp [missing?])
  | [key], v, _, hp, h => by
    rw [missing?] at h
    split at h
    · exact absurd h (by simp)
    · next hk =>
      obtain rfl := Option.some.inj h
      exact knownMember_stops hp hk position
  | key :: next :: rest, v, hv, hp, h => by
    have hown := Value.own_isPrintable hp key
    have hmember := member_yields hv key
    rw [missing?] at h
    split at h
    · next hn =>
      obtain rfl := Option.some.inj h
      -- the parent of `next` is nothing, and either kind of lookup says so
      cases rest with
      | nil =>
        have hc : ¬ ((v.own key).isComposite && (v.own key).knows next) = true := by
          cases hw : v.own key <;> simp_all [Value.isComposite, Value.isNullish]
        obtain ⟨e, he, hl⟩ := knownMember_stops hown hc position
        exact ⟨e, hmember.bind_stops he, hl⟩
      | cons last rest =>
        obtain ⟨e, he, hl⟩ := member_stops hn next
        exact ⟨e, hmember.bind_stops he.bind, hl⟩
    · next hn =>
      obtain ⟨e, he, hl⟩ :=
        knownMembers_stops position (next :: rest) (v.own key) (by simpa using hn) hown h
      exact ⟨e, hmember.bind_stops he, hl⟩

section Paths

variable {sc : Scope} {c : Value} {p : Path} {names : List String}

lemma Path.head_ne {name : String} {rest : List String} (hp : p.parts = name :: rest)
    (hn : isIdentifier name = true) : p.head ≠ "" := by
  obtain ⟨d, ds, hd, -⟩ := isPlainName_cons (isPlainName_of_isIdentifier hn)
  rintro hs
  simp [Path.head, hp] at hs
  simp [hs] at hd

lemma Path.Names.head_ne (hp : p.Names names) (hn : isPlainPath names = true) : p.head ≠ "" := by
  match names, hn with
  | _ :: _, hn => exact Path.head_ne hp.parts (isPlainPath_cons hn).1

lemma base_yields (h : sc.Sees c) (hp : p.Names names) : Yields (sc.base p) c := by
  intro s
  simp [Scope.base, hp.data, hp.depth, Scope.contextAt, h.context]

lemma lookup_strict_yields (h : sc.Sees c) (hp : p.Names names) (hn : isPlainPath names = true)
    (hc : c.isNullish = false) (hm : missing? c names = none) :
    Yields (sc.lookup true p) (reached c names) := by
  rw [Scope.lookup, h.declared?_path]
  simp only [hp.head_ne hn, if_false, if_true, hp.parts]
  exact (base_yields h hp).bind (knownMembers_yields _ names c hc hm)

lemma lookup_strict_stops (h : sc.Sees c) (hp : p.Names names) (hn : isPlainPath names = true)
    (hc : c.isNullish = false) (hpr : c.isPrintable = true) {key : String}
    (hm : missing? c names = some key) :
    ∃ e, Stops (sc.lookup true p) e ∧ e.Lacks key := by
  obtain ⟨e, he, hl⟩ := knownMembers_stops p.position names c hc hpr hm
  refine ⟨e, ?_, hl⟩
  rw [Scope.lookup, h.declared?_path]
  simp only [hp.head_ne hn, if_false, if_true, hp.parts]
  exact (base_yields h hp).bind_stops he

end Paths

namespace RenderError

open Lexer Text Text.Search

def isKey (s : String) : Bool := s != "" && s.toList.all isNameChar

lemma isKey_of_isIdentifier {s : String} (h : isIdentifier s = true) : isKey s = true := by
  obtain ⟨c, cs, hc, hn, hcs⟩ := isPlainName_cons (isPlainName_of_isIdentifier h)
  have hne : s ≠ "" := by
    rintro rfl
    simp at hc
  simp [isKey, hne, hc, hn, hcs]

lemma isLineEnd_of_isNameChar {c : Char} (h : isNameChar c = true) : Blank.isLineEnd c = false := by
  have hn : c ≠ '\n' := ne_of_isNameChar h (by decide)
  have hr : c ≠ '\x0d' := ne_of_isNameChar h (by decide)
  have hl : c ≠ '\u2028' := ne_of_isNameChar h (by decide)
  have hp : c ≠ '\u2029' := ne_of_isNameChar h (by decide)
  simp [Blank.isLineEnd, hn, hr, hl, hp]

lemma quotedBefore_name (mark : Char) (hm : isNameChar mark = false) (close rest : List Char) :
    (cs : List Char) → cs ≠ [] → cs.all isNameChar = true →
    quotedBefore (mark :: close) (cs ++ mark :: (close ++ rest)) = some cs
  | [], h, _ => absurd rfl h
  | [c], _, h => by
    simp only [List.all_cons, List.all_nil, Bool.and_true] at h
    simp [quotedBefore, isLineEnd_of_isNameChar h, startsWith, after?, after?_append]
  | c :: d :: cs, _, h => by
    rw [List.all_cons, Bool.and_eq_true] at h
    have ih := quotedBefore_name mark hm close rest (d :: cs) (by simp) h.2
    have hd : mark ≠ d := by
      simp only [List.all_cons, Bool.and_eq_true] at h
      exact (ne_of_isNameChar h.2.1 hm).symm
    have hstart : startsWith (mark :: close) (d :: cs ++ mark :: (close ++ rest)) = false := by
      simp [startsWith, after?, hd]
    rw [List.cons_append, quotedBefore, hstart, ih]
    simp [isLineEnd_of_isNameChar h.1]

def quotedKey? (quote : String × String) (message : String) : Option String :=
  (after? quote.1.toList message.toList).bind fun rest =>
    (quotedBefore quote.2.toList rest).map String.ofList

lemma quotedKey?_append {mark : Char} (hm : isNameChar mark = false) {key : String}
    (hk : isKey key = true) {before after : String} {close : List Char}
    (ha : after.toList = mark :: close) (rest : String) :
    quotedKey? (before, after) (before ++ (key ++ (after ++ rest))) = some key := by
  rw [isKey, Bool.and_eq_true, bne_iff_ne] at hk
  have hq := quotedBefore_name mark hm close rest.toList key.toList (by simpa using hk.1) hk.2
  have hrest : (before ++ (key ++ (after ++ rest))).toList =
      before.toList ++ (key.toList ++ mark :: (close ++ rest.toList)) := by
    simp [ha]
  simp only [quotedKey?, hrest, after?_append, Option.bind_some, ha, hq, Option.map_some,
    String.ofList_toList]

lemma quotedKey?_eq_none {quote : String × String} {message : String}
    (h : after? quote.1.toList message.toList = none) : quotedKey? quote message = none := by
  rw [quotedKey?, h]
  rfl

lemma missingKeyIn?_eq (message : String) :
    missingKeyIn? message = keyQuotes.findSome? (quotedKey? · message) := rfl

lemma message_notDefined (key container : String) (position : Position) :
    message (.notDefined key container position) = "\"" ++ (key ++ ("\" not defined in" ++
      (" " ++ (container ++ (" - " ++ position.toText))))) := by
  have hs : "\" not defined in " = "\" not defined in" ++ " " := by decide
  change "\"" ++ key ++ "\" not defined in " ++ container ++ " - " ++ position.toText = _
  simp only [hs, String.append_assoc]

lemma Lacks.missingKey? {key : String} {e : RenderError} (hk : isKey key = true)
    (h : e.Lacks key) : e.missingKey? = some key := by
  have hquote : isNameChar '"' = false := by decide
  have htick : isNameChar '\'' = false := by decide
  rw [RenderError.missingKey?, missingKeyIn?_eq, keyQuotes]
  cases e with
  | notDefined k container position =>
    obtain rfl : k = key := h
    rw [message_notDefined, List.findSome?_cons, quotedKey?_append hquote hk rfl]
  | notSearchable k container =>
    obtain rfl : k = key := h
    have hm : message (.notSearchable k container) =
        "Cannot use 'in' operator to search for '" ++ (k ++ ("' in" ++ (" " ++ container))) := by
      have hs : "' in " = "' in" ++ " " := by decide
      change "Cannot use 'in' operator to search for '" ++ k ++ "' in " ++ container = _
      simp only [hs, String.append_assoc]
    rw [hm, List.findSome?_cons, quotedKey?_eq_none (by simp [after?]), List.findSome?_cons,
      quotedKey?_append htick hk rfl]
  | memberOfNothing nothing k =>
    obtain ⟨rfl, hnothing⟩ := h
    have hm : message (.memberOfNothing nothing k) =
        "Cannot read properties of " ++ nothing ++ " (reading '" ++ (k ++ ("')" ++ "")) := by
      change "Cannot read properties of " ++ nothing ++ " (reading '" ++ k ++ "')" = _
      simp only [String.append_assoc, String.append_empty]
    rw [hm, List.findSome?_cons, quotedKey?_eq_none (by simp [after?]), List.findSome?_cons,
      quotedKey?_eq_none (by simp [after?]), List.findSome?_cons]
    rcases hnothing with rfl | rfl
    · rw [show "Cannot read properties of " ++ "undefined" ++ " (reading '" =
        "Cannot read properties of undefined (reading '" by decide, quotedKey?_append htick hk rfl]
    · rw [quotedKey?_eq_none (by simp [after?]), List.findSome?_cons,
        show "Cannot read properties of " ++ "null" ++ " (reading '" =
          "Cannot read properties of null (reading '" by decide, quotedKey?_append htick hk rfl]
  | missingArgument k => exact absurd h id
  | failure message => exact absurd h id
  | wrongKind => exact absurd h id
  | tooDeep => exact absurd h id

lemma Lacks.renderFailure {key : String} {e : RenderError} (hk : isKey key = true)
    (h : e.Lacks key) (source : Source) : Template.renderFailure source e =
      .fault (.undefinedKey (.text key) (Value.ofFields [("template", .text source.id)])) := by
  have hm := h.missingKey? hk
  cases e with
  | missingArgument k => exact absurd h id
  | _ => simp [Template.renderFailure, hm]

end RenderError

end BuildNotice.Template
