import BuildNotice.Build.Stamp
import BuildNotice.Options
import Mathlib.Data.List.Induction
import Mathlib.Tactic.Common

namespace BuildNotice

namespace Value

def isTextOrNothing : Value → Bool
  | .text _ => true
  | v => v.isNullish

def words? : Value → Option String
  | .text s => if s = "" then none else some s
  | _ => none

lemma words?_eq_some_iff {v : Value} {s : String} : v.words? = some s ↔ s ≠ "" ∧ v = .text s := by
  cases v with
  | text t =>
    simp only [words?]
    grind
  | _ => simp [words?]

lemma printItems?_texts (names : List String) : printItems? (names.map .text) = some names := by
  induction names with
  | nil => rfl
  | cons name names ih => simp [printItems?, printItem?, ih]

end Value

namespace Build

def isStamp (v : Value) : Bool :=
  Options.isRecord v &&
    ["branch", "revision", "codebase", "project"].all fun key => (v.own key).isTextOrNothing

lemma isNullish_of_isRecord {v : Value} (h : Options.isRecord v = true) : v.isNullish = false := by
  cases v with
  | record label fields => rfl
  | _ => exact absurd h (by simp [Options.isRecord])

structure ReadsAsStamp (stamp : Value) : Prop where
  isNullish : stamp.isNullish = false
  branch : (stamp.own "branch").isTextOrNothing = true
  revision : (stamp.own "revision").isTextOrNothing = true
  codebase : (stamp.own "codebase").isTextOrNothing = true
  project : (stamp.own "project").isTextOrNothing = true

lemma readsAsStamp {stamp : Value} (h : isStamp stamp = true) : ReadsAsStamp stamp := by
  simp only [isStamp, Bool.and_eq_true, List.all_cons, List.all_nil, Bool.and_true] at h
  obtain ⟨hr, hbranch, hrevision, hcodebase, hproject⟩ := h
  exact ⟨isNullish_of_isRecord hr, hbranch, hrevision, hcodebase, hproject⟩

def namedProjects (stamps : List Value) : List String :=
  stamps.filterMap fun stamp => (stamp.own "project").words?

def projectNames (stamps : List Value) : List String :=
  (namedProjects stamps).eraseDups

def firstNaming (name : String) (stamps : List Value) : Nat :=
  stamps.findIdx fun stamp => (stamp.own "project").words? == some name

lemma mem_projectNames {name : String} {stamps : List Value} :
    name ∈ projectNames stamps ↔ ∃ stamp ∈ stamps, (stamp.own "project").words? = some name := by
  simp [projectNames, namedProjects]

lemma eraseDups_filter (p : String → Bool) (names : List String) :
    (names.filter p).eraseDups = names.eraseDups.filter p := by
  induction names using List.reverseRecOn with
  | nil => simp
  | append_singleton names name ih =>
    rw [List.filter_append, List.eraseDups_append, List.eraseDups_append, List.filter_append, ih]
    by_cases hp : p name = true <;> by_cases hn : name ∈ names <;>
      simp [hp, hn, List.removeAll, List.eraseDups_cons]

lemma projectNames_append (xs ys : List Value) :
    projectNames (xs ++ ys) =
      projectNames xs ++ (projectNames ys).filter fun name => name ∉ projectNames xs := by
  rw [projectNames, namedProjects, List.filterMap_append, List.eraseDups_append, List.removeAll,
    eraseDups_filter]
  simp only [projectNames, namedProjects, List.mem_eraseDups, List.elem_eq_mem, decide_not]

lemma projectNames_append_of_mem {xs ys : List Value}
    (h : ∀ name ∈ projectNames ys, name ∈ projectNames xs) :
    projectNames (xs ++ ys) = projectNames xs := by
  rw [projectNames_append, List.filter_eq_nil_iff.mpr (by simpa using h), List.append_nil]

lemma firstNaming_lt {name : String} {stamps : List Value} :
    firstNaming name stamps < stamps.length ↔ name ∈ projectNames stamps := by
  simp [firstNaming, mem_projectNames]

lemma firstNaming_append (name : String) (xs ys : List Value) :
    firstNaming name (xs ++ ys) = if name ∈ projectNames xs then firstNaming name xs
      else firstNaming name ys + xs.length := by
  simp only [← firstNaming_lt]
  exact List.findIdx_append

lemma projectNames_ordered (stamps : List Value) : (projectNames stamps).Pairwise
    fun name later => firstNaming name stamps < firstNaming later stamps := by
  induction stamps using List.reverseRecOn with
  | nil => simp [projectNames, namedProjects]
  | append_singleton stamps stamp ih =>
    rw [projectNames_append, List.pairwise_append]
    refine ⟨?_, ?_, ?_⟩
    · refine ih.imp_of_mem fun hname hlater hlt => ?_
      rwa [firstNaming_append, firstNaming_append, if_pos hname, if_pos hlater]
    · -- one stamp names one project at most
      have hone : (projectNames [stamp]).length ≤ 1 := by
        cases hv : (stamp.own "project").words? <;>
          simp [projectNames, namedProjects, hv, List.eraseDups_cons]
      have hlength := List.length_filter_le (fun name => decide (name ∉ projectNames stamps))
        (projectNames [stamp])
      exact List.pairwise_iff_getElem.mpr fun i j _ hj hlt => by omega
    · intro name hname later hlater
      have hnew : later ∉ projectNames stamps := by simpa using (List.mem_filter.mp hlater).2
      rw [firstNaming_append, firstNaming_append, if_pos hname, if_neg hnew]
      exact Nat.lt_of_lt_of_le (firstNaming_lt.mpr hname) (Nat.le_add_left _ _)

lemma addProject_names (seen : List String) {v : Value} (h : v.isTextOrNothing = true) :
    addProject (seen.eraseDups.map .text) v = ((seen ++ v.words?.toList).eraseDups).map .text := by
  cases v with
  | text s =>
    have hany : (seen.eraseDups.map Value.text).any (·.sameOrNaN (.text s)) =
        decide (s ∈ seen) := by
      rw [Bool.eq_iff_iff]
      simp [Value.sameOrNaN, Value.same]
    rw [addProject, hany]
    by_cases hs : s = ""
    · simp [Value.isTruthy, Value.words?, hs]
    · by_cases hseen : s ∈ seen <;> simp [Value.isTruthy, Value.words?, hs, hseen,
        List.eraseDups_append, List.removeAll, List.eraseDups_cons]
  | undefined => simp [addProject, Value.isTruthy, Value.words?]
  | null => simp [addProject, Value.isTruthy, Value.words?]
  | _ => exact absurd h (by simp [Value.isTextOrNothing, Value.isNullish])

lemma projectsFrom_names {stamps : List Value} (h : stamps.all isStamp = true)
    (seen : List String) : projectsFrom (seen.eraseDups.map .text) stamps =
      .ok ((seen ++ namedProjects stamps).eraseDups.map .text) := by
  -- what has been found is always `eraseDups` of all names seen so far
  induction stamps generalizing seen with
  | nil => simp [projectsFrom, namedProjects]
  | cons stamp stamps ih =>
    simp only [List.all_cons, Bool.and_eq_true] at h
    have hstamp := readsAsStamp h.1
    have hnamed : namedProjects (stamp :: stamps) =
        (stamp.own "project").words?.toList ++ namedProjects stamps := by
      cases hv : (stamp.own "project").words? <;> simp [namedProjects, hv]
    rw [projectsFrom, projectOf, hstamp.isNullish, hnamed, ← List.append_assoc, ← ih h.2,
      ← addProject_names seen hstamp.project]
    rfl

lemma projectsText_eq {stamps : List Value} (h : stamps.all isStamp = true) (label : Nat)
    (title : Value) : projectsText (.list label stamps) title =
      .ok (if (projectNames stamps).isEmpty then title
        else .text (String.intercalate ", " (projectNames stamps))) := by
  have hprojects : projects (.list label stamps) = .ok ((projectNames stamps).map .text) :=
    projectsFrom_names h []
  have hempty : ((projectNames stamps).map Value.text).isEmpty = (projectNames stamps).isEmpty :=
    List.isEmpty_map
  rw [projectsText, hprojects]
  simp only [bind, Except.bind, hempty, Value.printItems?_texts]
  split <;> rfl

lemma projectsText_congr {xs ys : List Value} (hxs : xs.all isStamp = true)
    (hys : ys.all isStamp = true) (h : projectNames xs = projectNames ys) (l m : Nat)
    (title : Value) :
    projectsText (.list l xs) title = projectsText (.list m ys) title := by
  rw [projectsText_eq hxs, projectsText_eq hys, h]

structure AreProjectsOf (names : List String) (stamps : List Value) : Prop where
  nodup : names.Nodup
  mem_iff : ∀ name, name ∈ names ↔ name ≠ "" ∧ ∃ stamp ∈ stamps, stamp.own "project" = .text name
  ordered : names.Pairwise fun name later => firstNaming name stamps < firstNaming later stamps

lemma projectNames_areProjectsOf (stamps : List Value) :
    AreProjectsOf (projectNames stamps) stamps where
  nodup := (projectNames_ordered stamps).imp fun hlt heq => absurd hlt (by simp [heq])
  mem_iff name := by
    simp only [mem_projectNames, Value.words?_eq_some_iff]
    grind
  ordered := projectNames_ordered stamps

lemma all_isStamp_replicate {stamps : List Value} (h : stamps.all isStamp = true) (n : Nat) :
    (List.replicate n stamps).flatten.all isStamp = true := by
  simp only [List.all_eq_true] at h ⊢
  intro stamp hstamp
  obtain ⟨_, hcopy, hmem⟩ := List.mem_flatten.mp hstamp
  exact h stamp (List.eq_of_mem_replicate hcopy ▸ hmem)

lemma projectNames_replicate (stamps : List Value) (n : Nat) :
    projectNames (List.replicate (n + 1) stamps).flatten = projectNames stamps := by
  rw [List.replicate_succ, List.flatten_cons]
  refine projectNames_append_of_mem fun name hname => ?_
  obtain ⟨stamp, hstamp, hv⟩ := mem_projectNames.mp hname
  obtain ⟨_, hcopy, hmem⟩ := List.mem_flatten.mp hstamp
  exact mem_projectNames.mpr ⟨stamp, List.eq_of_mem_replicate hcopy ▸ hmem, hv⟩

/-- The text of the projects is the title where no stamp names one, and else the names of all of
them; more stamps only add the names that are new. -/
theorem projectsText_lists_names {xs ys : List Value} (hxs : xs.all isStamp = true)
    (hys : ys.all isStamp = true) (title : Value) (l m : Nat) :
    ((∀ stamp ∈ xs, (stamp.own "project").words? = none) →
      projectsText (.list l xs) title = .ok title) ∧
    ((∃ stamp ∈ xs, (stamp.own "project").words? ≠ none) → projectsText (.list l xs) title =
      .ok (.text (String.intercalate ", " (projectNames xs)))) ∧
    AreProjectsOf (projectNames xs) xs ∧
    projectNames (xs ++ ys) =
      projectNames xs ++ (projectNames ys).filter (fun name => name ∉ projectNames xs) ∧
    (∀ n, projectsText (.list m (List.replicate (n + 1) xs).flatten) title =
      projectsText (.list l xs) title) ∧
    ((∀ stamp ∈ ys, (stamp.own "project").words? = none ∨
        ∃ earlier ∈ xs, stamp.own "project" = earlier.own "project") →
      projectsText (.list m (xs ++ ys)) title = projectsText (.list l xs) title) := by
  refine ⟨fun h => ?_, fun h => ?_, projectNames_areProjectsOf xs, projectNames_append xs ys,
    fun n => ?_, fun h => ?_⟩
  · have hnone : projectNames xs = [] := by
      refine List.eq_nil_iff_forall_not_mem.mpr fun name hname => ?_
      obtain ⟨stamp, hstamp, hv⟩ := mem_projectNames.mp hname
      exact absurd hv (by simp [h stamp hstamp])
    rw [projectsText_eq hxs, hnone]
    rfl
  · obtain ⟨stamp, hstamp, hv⟩ := h
    obtain ⟨name, hname⟩ := Option.ne_none_iff_exists'.mp hv
    have hne : (projectNames xs).isEmpty = false := by
      rw [List.isEmpty_eq_false_iff_exists_mem]
      exact ⟨name, mem_projectNames.mpr ⟨stamp, hstamp, hname⟩⟩
    rw [projectsText_eq hxs, hne]
    rfl
  · exact projectsText_congr (all_isStamp_replicate hxs _) hxs (projectNames_replicate xs n) m l
      title
  · have hall : (xs ++ ys).all isStamp = true := by rw [List.all_append, hxs, hys]; rfl
    refine projectsText_congr hall hxs (projectNames_append_of_mem fun name hname => ?_) m l title
    obtain ⟨stamp, hstamp, hv⟩ := mem_projectNames.mp hname
    rcases h stamp hstamp with hnone | ⟨earlier, hearlier, heq⟩
    · exact absurd hv (by simp [hnone])
    · exact mem_projectNames.mpr ⟨earlier, hearlier, heq ▸ hv⟩

def namedStamp (name : String) : Value := .record 1 [("project", .text name)]

theorem projectsText_lists_names_once :
    [namedStamp "B", namedStamp "", namedStamp "A"].all isStamp = true ∧
      [namedStamp "A", .record 1 []].all isStamp = true ∧
      projectsText (.list 1 [namedStamp "B", namedStamp "", namedStamp "A"]) (.text "CI") =
        .ok (.text "B, A") ∧
      projectsText (.list 2 ([namedStamp "B", namedStamp "", namedStamp "A"] ++
        [namedStamp "A", .record 1 []])) (.text "CI") = .ok (.text "B, A") ∧
      projectsText (.list 1 [.record 1 []]) (.text "CI") = .ok (.text "CI") := by
  have hfirst : [namedStamp "B", namedStamp "", namedStamp "A"].all isStamp = true := rfl
  have hlater : [namedStamp "A", .record 1 []].all isStamp = true := rfl
  obtain ⟨-, hnamed, -, -, -, hseen⟩ :=
    projectsText_lists_names hfirst hlater (.text "CI") 1 2
  obtain ⟨hunnamed, -⟩ :=
    projectsText_lists_names (show [Value.record 1 []].all isStamp = true from rfl) hlater
      (.text "CI") 1 2
  have htext := hnamed ⟨namedStamp "B", List.mem_cons_self, by decide⟩
  have hnames : projectNames [namedStamp "B", namedStamp "", namedStamp "A"] = ["B", "A"] := by
    decide
  rw [hnames] at htext
  refine ⟨hfirst, hlater, htext, (hseen fun stamp hstamp => ?_).trans htext, hunnamed ?_⟩
  · simp only [List.mem_cons, List.not_mem_nil, or_false] at hstamp
    rcases hstamp with rfl | rfl
    · exact .inr ⟨namedStamp "A", by simp, rfl⟩
    · exact .inl rfl
  · simp [Value.own, Value.own?, Record.get?, Value.words?]

lemma given_eq {v : Value} (h : v.isTextOrNothing = true) (write : String → String)
    (absent : String) : given v write absent = .ok (v.words?.elim absent write) := by
  cases v with
  | text s =>
    by_cases hs : s = ""
    · simp [given, Value.isTruthy, Value.words?, hs]
    · simp [given, Value.isTruthy, Value.words?, hs, textOf, Value.print?, bind, Except.bind]
  | undefined => rfl
  | null => rfl
  | _ => exact absurd h (by simp [Value.isTextOrNothing, Value.isNullish])

def lineOf (stamp : Value) : String :=
  "Build Source Stamp" ++ (stamp.own "codebase").words?.elim "" (fun s => " '" ++ s ++ "'") ++
    ": " ++ (stamp.own "branch").words?.elim "" (fun s => "[branch " ++ s ++ "] ") ++
    (stamp.own "revision").words?.elim "HEAD" (fun s => s) ++
    if (stamp.own "patch").isNullish then "" else " (plus patch)"

def writeLines (stamps : List Value) : String :=
  String.join (stamps.map fun stamp => lineOf stamp ++ "\n")

lemma stampLine_eq {stamp : Value} (h : isStamp stamp = true) :
    stampLine stamp = .ok (lineOf stamp ++ "\n") := by
  have hstamp := readsAsStamp h
  rw [stampLine, hstamp.isNullish, given_eq hstamp.branch, given_eq hstamp.revision,
    given_eq hstamp.codebase]
  rfl

lemma stampText_eq {stamps : List Value} (h : stamps.all isStamp = true) (label : Nat) :
    stampText (.list label stamps) = .ok (writeLines stamps) := by
  change stampLines stamps = _
  induction stamps with
  | nil => rfl
  | cons stamp stamps ih =>
    simp only [List.all_cons, Bool.and_eq_true] at h
    have hcons : writeLines (stamp :: stamps) = lineOf stamp ++ "\n" ++ writeLines stamps := by
      rw [writeLines, List.map_cons, String.join_cons, writeLines]
    rw [stampLines, stampLine_eq h.1, ih h.2, hcons]
    rfl

lemma splitOn_lines {lines : List (List Char)} (h : ∀ line ∈ lines, '\n' ∉ line) :
    (lines.flatMap (· ++ ['\n'])).splitOn '\n' = lines ++ [[]] := by
  induction lines with
  | nil => rfl
  | cons line lines ih =>
    have hline : ∀ c ∈ line, (c == '\n') = false := by
      intro c hc
      simpa using fun heq : c = '\n' => h line List.mem_cons_self (heq ▸ hc)
    have hlines := ih fun line' hmem => h line' (List.mem_cons_of_mem _ hmem)
    rw [List.splitOn_eq_splitOnP] at hlines ⊢
    rw [List.flatMap_cons, List.append_assoc, List.singleton_append,
      List.splitOnP_append_cons_of_forall_mem hline '\n' rfl, hlines, List.cons_append]

def IsOneLine (stamp : Value) : Prop :=
  ∀ key ∈ ["branch", "revision", "codebase"], ∀ s, stamp.own key = .text s → '\n' ∉ s.toList

lemma not_mem_elim {v : Value} {c : Char} {absent : String} {write : String → String}
    (habsent : c ∉ absent.toList) (hwrite : ∀ s, v = .text s → c ∉ (write s).toList) :
    c ∉ (v.words?.elim absent write).toList := by
  cases hv : v.words? with
  | none => exact habsent
  | some s => exact hwrite s (Value.words?_eq_some_iff.mp hv).2

lemma IsOneLine.not_mem_lineOf {stamp : Value} (h : IsOneLine stamp) :
    '\n' ∉ (lineOf stamp).toList := by
  have hcodebase : '\n' ∉ ((stamp.own "codebase").words?.elim ""
      fun s => " '" ++ s ++ "'").toList :=
    not_mem_elim (by simp) fun s hs => by simpa using h "codebase" (by simp) s hs
  have hbranch : '\n' ∉ ((stamp.own "branch").words?.elim ""
      fun s => "[branch " ++ s ++ "] ").toList :=
    not_mem_elim (by simp) fun s hs => by simpa using h "branch" (by simp) s hs
  have hrevision : '\n' ∉ ((stamp.own "revision").words?.elim "HEAD" fun s => s).toList :=
    not_mem_elim (by simp) fun s hs => h "revision" (by simp) s hs
  have hpatch : '\n' ∉ (if (stamp.own "patch").isNullish then "" else " (plus patch)").toList := by
    split <;> simp
  unfold lineOf
  simp only [String.toList_append, List.mem_append, not_or]
  exact ⟨⟨⟨⟨⟨by simp, hcodebase⟩, by simp⟩, hbranch⟩, hrevision⟩, hpatch⟩

lemma splitOn_writeLines {stamps : List Value} (h : ∀ stamp ∈ stamps, IsOneLine stamp) :
    (writeLines stamps).toList.splitOn '\n' =
      stamps.map (fun stamp => (lineOf stamp).toList) ++ [[]] := by
  have hlines : ∀ line ∈ stamps.map (fun stamp => (lineOf stamp).toList), '\n' ∉ line := by
    intro line hline
    obtain ⟨stamp, hstamp, rfl⟩ := List.mem_map.mp hline
    exact (h stamp hstamp).not_mem_lineOf
  have htoList : (writeLines stamps).toList =
      (stamps.map fun stamp => (lineOf stamp).toList).flatMap (· ++ ['\n']) := by
    simp [writeLines, String.toList_join, List.flatMap_map]
  rw [htoList, splitOn_lines hlines]

theorem stampText_writes_lines {xs ys : List Value} (hxs : xs.all isStamp = true)
    (hys : ys.all isStamp = true) (l m n : Nat) :
    ∃ s t, stampText (.list l xs) = .ok s ∧ stampText (.list m ys) = .ok t ∧
      stampText (.list n (xs ++ ys)) = .ok (s ++ t) ∧
      ((∀ stamp ∈ xs, IsOneLine stamp) →
        s.toList.splitOn '\n' = xs.map (fun stamp => (lineOf stamp).toList) ++ [[]]) := by
  have hall : (xs ++ ys).all isStamp = true := by rw [List.all_append, hxs, hys]; rfl
  have happend : writeLines (xs ++ ys) = writeLines xs ++ writeLines ys := by
    rw [writeLines, List.map_append, String.join_append, writeLines, writeLines]
  exact ⟨writeLines xs, writeLines ys, stampText_eq hxs l, stampText_eq hys m,
    happend ▸ stampText_eq hall n, splitOn_writeLines⟩

def patchedStamp : Value :=
  .record 1 [("codebase", .text "lib"), ("branch", .text "main"), ("patch", .bool false)]

theorem stampText_writes_lines_patched :
    [patchedStamp, .record 2 []].all isStamp = true ∧
      [Value.record 3 [("revision", .text "f00d")]].all isStamp = true ∧
      ∃ s t, stampText (.list 1 [patchedStamp, .record 2 []]) = .ok s ∧
        stampText (.list 1 [.record 3 [("revision", .text "f00d")]]) = .ok t ∧
        stampText (.list 1 ([patchedStamp, .record 2 []] ++
          [.record 3 [("revision", .text "f00d")]])) = .ok (s ++ t) ∧
        s.toList.splitOn '\n' =
          ["Build Source Stamp 'lib': [branch main] HEAD (plus patch)".toList,
            "Build Source Stamp: HEAD".toList, []] := by
  have hfirst : [patchedStamp, .record 2 []].all isStamp = true := rfl
  have hlater : [Value.record 3 [("revision", .text "f00d")]].all isStamp = true := rfl
  obtain ⟨s, t, hs, ht, hst, hlines⟩ := stampText_writes_lines hfirst hlater 1 1 1
  have hpatched : IsOneLine patchedStamp := by
    simp [IsOneLine, patchedStamp, Value.own, Value.own?, Record.get?]
  have hbare : IsOneLine (.record 2 []) := by
    simp [IsOneLine, Value.own, Value.own?, Record.get?]
  refine ⟨hfirst, hlater, s, t, hs, ht, hst, ?_⟩
  rw [hlines (by simpa using ⟨hpatched, hbare⟩)]
  decide

end Build

end BuildNotice
