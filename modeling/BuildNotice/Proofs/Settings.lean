import BuildNotice.Settings
import BuildNotice.Proofs.Record
import Mathlib.Data.List.Forall2

namespace BuildNotice.Settings

def restricted : List (String × List String) :=
  [("NODE_ENV", ["development", "production", "test"]),
    ("LOG_LEVEL", ["fatal", "error", "warn", "info", "debug", "trace", "silent"])]

def IsRefused (env : Environment) (key : String) (names : List String) : Prop :=
  ∃ s, Record.get? key env = some s ∧ s ∉ names

def refusal? (env : Environment) (key : String) (names : List String) : Option Problem :=
  (Record.get? key env).bind fun s => if s ∈ names then none else some (.noChoice [key] names s)

def refusals (env : Environment) : List Problem :=
  restricted.filterMap fun (key, names) => refusal? env key names

def SaysTrue (s : String) : Prop :=
  List.Forall₂ (fun c d => c = d ∨ c = d.toUpper) s.toList "true".toList

structure IsReadFrom (s : Settings) (env : Environment) : Prop where
  stage : s.stage.name = (Record.get? "NODE_ENV" env).getD "development"
  level : s.level.name = (Record.get? "LOG_LEVEL" env).getD "info"
  pretty : s.pretty = true ↔ ∀ v, Record.get? "LOG_PRETTY" env = some v → SaysTrue v
  writesPretty : s.writesPretty = true ↔ s.pretty = true ∧ s.stage.name = "development"

section Choice

variable {α : Type} {env : Environment} {key : String} {all : List α} {name : α → String}
  {default : α}

lemma choice_error {p : Problem} (h : choice env key all name default = .error p) :
    refusal? env key (all.map name) = some p := by
  rw [choice] at h
  split at h
  · exact absurd h (by simp)
  · next s hs =>
    split at h
    · exact absurd h (by simp)
    · next hnone =>
      obtain rfl := Except.error.inj h
      have hmem : s ∉ all.map name := by
        rw [List.mem_map]
        rintro ⟨a, ha, rfl⟩
        exact absurd (List.find?_eq_none.mp hnone a ha) (by simp)
      rw [refusal?, hs, Option.bind_some, if_neg hmem]

lemma choice_ok {a : α} (h : choice env key all name default = .ok a) :
    refusal? env key (all.map name) = none ∧
      name a = (Record.get? key env).getD (name default) := by
  rw [choice] at h
  split at h
  · next hs =>
    obtain rfl := Except.ok.inj h
    simp [refusal?, hs]
  · next s hs =>
    split at h
    · next b hb =>
      obtain rfl := Except.ok.inj h
      have hname : name b = s := by simpa using List.find?_some hb
      have hmem : s ∈ all.map name := List.mem_map.mpr ⟨b, List.mem_of_find?_eq_some hb, hname⟩
      rw [refusal?, hs, Option.bind_some, if_pos hmem]
      exact ⟨rfl, hname⟩
    · exact absurd h (by simp)

end Choice

lemma refusal?_isSome (env : Environment) (key : String) (names : List String) :
    (refusal? env key names).isSome = true ↔ IsRefused env key names := by
  rw [refusal?, IsRefused]
  cases Record.get? key env with
  | none => simp
  | some s => by_cases hs : s ∈ names <;> simp [hs]

lemma refusals_eq (env : Environment) :
    refusals env =
      (refusal? env "NODE_ENV" (Stage.all.map Stage.name)).toList ++
        (refusal? env "LOG_LEVEL" (Level.all.map Level.name)).toList := by
  have htwo : ∀ first second : Option Problem,
      [first, second].filterMap id = first.toList ++ second.toList := by
    intro first second
    cases first <;> cases second <;> rfl
  exact htwo _ _

lemma refusals_eq_nil_iff (env : Environment) :
    refusals env = [] ↔ ¬ ∃ v ∈ restricted, IsRefused env v.1 v.2 := by
  rw [refusals, List.filterMap_eq_nil_iff]
  constructor
  · rintro hnone ⟨v, hv, hrefused⟩
    have hv : refusal? env v.1 v.2 = none := hnone v hv
    rw [← refusal?_isSome, hv] at hrefused
    exact absurd hrefused (by simp)
  · rintro hno ⟨key, names⟩ hv
    rw [← Option.not_isSome_iff_eq_none, refusal?_isSome]
    exact fun hrefused => hno ⟨_, hv, hrefused⟩

lemma toLower_eq_iff {d : Char} (hd : d.isLower = true) (c : Char) :
    c.toLower = d ↔ c = d ∨ c = d.toUpper := by
  delta Char.isLower at hd
  delta Char.toLower Char.toUpper
  simp only [Bool.and_eq_true, decide_eq_true_eq, ge_iff_le, UInt32.le_iff_toNat_le] at hd
  simp only [Char.ext_iff, ge_iff_le]
  split <;> split <;>
    grind [UInt32.toNat_add, Char.toNat_val, UInt32.le_iff_toNat_le, UInt32.toNat_inj]

lemma map_toLower_eq_iff {cs : List Char} {word : List Char} (hword : word.all Char.isLower) :
    cs.map Char.toLower = word ↔ List.Forall₂ (fun c d => c = d ∨ c = d.toUpper) cs word := by
  induction word generalizing cs with
  | nil => simp
  | cons d word ih =>
    obtain ⟨hd, hword⟩ := Bool.and_eq_true_iff.mp hword
    cases cs with
    | nil => simp
    | cons c cs =>
      rw [List.map_cons, List.cons.injEq, List.forall₂_cons, toLower_eq_iff hd, ih hword]

lemma prettyOf_iff (env : Environment) :
    prettyOf env = true ↔ ∀ v, Record.get? "LOG_PRETTY" env = some v → SaysTrue v := by
  rw [prettyOf]
  cases Record.get? "LOG_PRETTY" env with
  | none => simp
  | some v =>
    have hv : v.toList.map Char.toLower = "true".toList ↔ SaysTrue v :=
      map_toLower_eq_iff (by decide)
    simpa using hv

lemma writesPretty_iff (s : Settings) :
    s.writesPretty = true ↔ s.pretty = true ∧ s.stage.name = "development" := by
  obtain ⟨stage, level, pretty⟩ := s
  cases stage <;> simp [writesPretty, isDevelopment, Stage.name]

lemma ofEnvironment_error {env : Environment} {f : Fault} (h : ofEnvironment env = .error f) :
    refusals env ≠ [] ∧ f = invalid (refusals env) := by
  rw [refusals_eq]
  rw [ofEnvironment] at h
  -- Both variables are looked at, whether or not the first one is refused.
  cases hstage : stageOf env with
  | ok stage =>
    obtain ⟨hnone, -⟩ := choice_ok hstage
    cases hlevel : levelOf env with
    | ok level => simp [hstage, hlevel] at h
    | error p =>
      rw [hstage, hlevel] at h
      rw [hnone, choice_error hlevel]
      exact ⟨by simp, (Except.error.inj h).symm⟩
  | error p =>
    rw [hstage] at h
    rw [choice_error hstage]
    refine ⟨by simp, ?_⟩
    cases hlevel : levelOf env with
    | ok level =>
      rw [hlevel] at h
      rw [(choice_ok hlevel).1]
      exact (Except.error.inj h).symm
    | error q =>
      rw [hlevel] at h
      rw [choice_error hlevel]
      exact (Except.error.inj h).symm

lemma ofEnvironment_ok {env : Environment} {s : Settings} (h : ofEnvironment env = .ok s) :
    refusals env = [] ∧ s.IsReadFrom env := by
  rw [ofEnvironment] at h
  split at h
  · next stage level hstage hlevel =>
    obtain rfl := Except.ok.inj h
    obtain ⟨hnostage, hstage⟩ := choice_ok hstage
    obtain ⟨hnolevel, hlevel⟩ := choice_ok hlevel
    exact ⟨by rw [refusals_eq, hnostage, hnolevel]; rfl, hstage, hlevel, prettyOf_iff env,
      writesPretty_iff _⟩
  · exact absurd h (by simp)

lemma distinct_parse (text : String) : Record.Distinct (EnvFile.parse text) :=
  (Record.distinct_ofList _).erase "__proto__"

lemma distinct_added (env : Environment) (text : String) :
    Record.Distinct (added env (some text)) := by
  rw [Record.Distinct, added, Record.keys, List.map_map]
  exact List.Nodup.sublist (List.filter_sublist.map Prod.fst) (distinct_parse text)

lemma mem_added_iff (env : Environment) (text key s : String) :
    (key, s) ∈ added env (some text) ↔
      Record.get? key env = none ∧ (Record.get? key (EnvFile.parse text)).map kept = some s := by
  have hlacks : (!Record.has key env) = true ↔ Record.get? key env = none := by
    rw [Record.has_iff_get?_isSome]
    cases Record.get? key env <;> simp
  have hfile (t : String) : (key, t) ∈ EnvFile.parse text ↔
      Record.get? key (EnvFile.parse text) = some t :=
    ⟨(distinct_parse text).get?_of_mem, Record.mem_of_get?⟩
  rw [added, List.mem_map, Option.map_eq_some_iff]
  constructor
  · rintro ⟨⟨_, t⟩, ht, ⟨⟩⟩
    obtain ⟨ht, hkey⟩ := List.mem_filter.mp ht
    exact ⟨hlacks.mp hkey, t, (hfile t).mp ht, rfl⟩
  · rintro ⟨henv, t, ht, rfl⟩
    exact ⟨(key, t), List.mem_filter.mpr ⟨(hfile t).mpr ht, hlacks.mpr henv⟩, rfl⟩

lemma get?_extended (env : Environment) (text key : String) :
    Record.get? key (extended env (some text)) =
      (Record.get? key env).or ((Record.get? key (EnvFile.parse text)).map kept) := by
  rw [extended, Record.get?_append]
  cases henv : Record.get? key env with
  | some s => rfl
  | none =>
    rw [Option.none_or, Option.none_or]
    apply Option.ext
    intro s
    constructor
    · intro hs
      exact ((mem_added_iff env text key s).mp (Record.mem_of_get? hs)).2
    · intro hs
      exact (distinct_added env text).get?_of_mem ((mem_added_iff env text key s).mpr ⟨henv, hs⟩)

theorem loadIn_extends (env : Environment) (text : String) :
    ∃ outcome,
      (loadIn (some text)).run.run env = (outcome, env ++ added env (some text)) ∧
      (loadIn none).run.run (env ++ added env (some text)) =
        (outcome, env ++ added env (some text)) ∧
      Record.Distinct (added env (some text)) ∧
      (∀ key s, (key, s) ∈ added env (some text) ↔
        Record.get? key env = none ∧ (Record.get? key (EnvFile.parse text)).map kept = some s) ∧
      (∀ key, Record.get? key (env ++ added env (some text)) =
        (Record.get? key env).or ((Record.get? key (EnvFile.parse text)).map kept)) ∧
      ((∃ f, outcome = .error f) ↔
        ∃ v ∈ restricted, IsRefused (env ++ added env (some text)) v.1 v.2) ∧
      (∀ f, outcome = .error f → f = invalid (refusals (env ++ added env (some text)))) ∧
      (∀ s, outcome = .ok s → s.IsReadFrom (env ++ added env (some text))) := by
  have hnone : ∀ after : Environment, extended after none = after := List.append_nil
  refine ⟨ofEnvironment (extended env (some text)), rfl, ?_, distinct_added env text,
    mem_added_iff env text, get?_extended env text, ?_, fun f hf => (ofEnvironment_error hf).2,
    fun s hs => (ofEnvironment_ok hs).2⟩
  · -- Once the variables of the file are there, loading without a file changes nothing.
    change (ofEnvironment (extended (extended env (some text)) none),
      extended (extended env (some text)) none) = _
    rw [hnone]
    rfl
  · rw [← not_iff_comm.mp (refusals_eq_nil_iff _).symm]
    constructor
    · rintro ⟨f, hf⟩
      exact (ofEnvironment_error hf).1
    · intro hsome
      cases houtcome : ofEnvironment (extended env (some text)) with
      | ok s => exact absurd (ofEnvironment_ok houtcome).1 hsome
      | error f => exact ⟨f, rfl⟩

theorem loadIn_cuts_value :
    Record.get? "NODE_ENV" (EnvFile.parse "NODE_ENV=production\x00x") = some "production\x00x" ∧
      "production\x00x" ∉ ["development", "production", "test"] ∧
      (loadIn (some "NODE_ENV=production\x00x")).run.run [] =
        (.ok ⟨.production, .info, true⟩, [("NODE_ENV", "production")]) := by
  have hparse : EnvFile.parse "NODE_ENV=production\x00x" = [("NODE_ENV", "production\x00x")] := by
    decide +kernel
  have hadded : added [] (some "NODE_ENV=production\x00x") = [("NODE_ENV", "production")] := by
    rw [added, hparse]
    decide
  refine ⟨by rw [hparse]; rfl, by decide, ?_⟩
  change (ofEnvironment (added [] (some "NODE_ENV=production\x00x")),
    added [] (some "NODE_ENV=production\x00x")) = _
  rw [hadded]
  rfl

end BuildNotice.Settings
