import BuildNotice.Session
import BuildNotice.Proofs.Store
import BuildNotice.Proofs.Template.Compiling

/-! Runs of one store, read by the place of a step. -/

namespace BuildNotice

def Request.key? (r : Request) (disk : Disk) : Option (Bool × String) :=
  if r.content.isTruthy then none else (r.path disk).toOption.map fun path => (r.escapes, path)

lemma Request.key?_congr (r : Request) {disk other : Disk} (hhere : disk.here = other.here)
    (hbundled : disk.bundled = other.bundled) : r.key? disk = r.key? other := by
  simp only [key?, path, hhere, hbundled]

namespace Store

variable {s : Store} {disk : Disk} {request : Request} {r : Resolved}

lemma find?_cons (key : Bool × String) (t : Template) (s : Store) (next : Nat) (escapes : Bool)
    (path : String) : find? ⟨(key, t) :: s.kept, next⟩ escapes path =
      if key = (escapes, path) then some t else s.find? escapes path := by
  by_cases h : key = (escapes, path) <;> simp [find?, h]

lemma resolve_cases (h : s.resolve disk request = .ok r) :
    (request.content.isTruthy = true ∧ r.template.serial = s.next ∧
      r.store = { s with next := s.next + 1 }) ∨
    (∃ key text, request.key? disk = some key ∧ s.find? key.1 key.2 = none ∧
      disk.read? key.2 = some text ∧
      Template.ofText s.next (.file key.2) key.1 text = .ok r.template ∧
      r.store = ⟨(key, r.template) :: s.kept, s.next + 1⟩) ∨
    (∃ key, request.key? disk = some key ∧ s.find? key.1 key.2 = some r.template ∧
      r.store = s) := by
  rw [resolve] at h
  split at h
  · exact absurd h (by simp)
  · split at h
    · next hcontent =>
      refine .inl ⟨hcontent, ?_⟩
      rw [resolveContent] at h
      split at h
      · next content _ =>
        cases ht : Template.ofText s.next (.inline content) request.escapes content with
        | error e => simp [ht, bind, Except.bind] at h
        | ok t =>
          simp only [ht, bind, Except.bind, Except.ok.injEq] at h
          subst h
          refine ⟨?_, rfl⟩
          rw [Template.ofText] at ht
          split at ht
          · rw [← Except.ok.inj ht]
          · exact absurd ht (by simp)
      · split at h <;> exact absurd h (by simp)
    · next hcontent =>
      cases hp : request.path disk with
      | error e => simp [hp, bind, Except.bind] at h
      | ok path =>
        have hkey : request.key? disk = some (request.escapes, path) := by
          simp [Request.key?, hcontent, hp, Except.toOption]
        simp only [hp, bind, Except.bind] at h
        split at h
        · next t ht =>
          obtain rfl := Except.ok.inj h
          exact .inr (.inr ⟨(request.escapes, path), hkey, ht, rfl⟩)
        · next hfind =>
          rw [resolveFile] at h
          split at h
          · exact absurd h (by simp)
          · next text htext =>
            cases ht : Template.ofText s.next (.file path) request.escapes text with
            | error e => simp [ht, bind, Except.bind] at h
            | ok t =>
              simp only [ht, bind, Except.bind, Except.ok.injEq] at h
              subst h
              exact .inr (.inl ⟨(request.escapes, path), text, hkey, hfind, htext, ht, rfl⟩)

lemma exists_path_of_key {key : Bool × String} (hkey : request.key? disk = some key) :
    request.content.isTruthy = false ∧ request.hasConflict = false ∧
      request.path disk = .ok key.2 ∧ request.escapes = key.1 := by
  rw [Request.key?] at hkey
  split at hkey
  · exact absurd hkey (by simp)
  · next hcontent =>
    cases hp : request.path disk with
    | error e => simp [hp, Except.toOption] at hkey
    | ok path =>
      obtain rfl : (request.escapes, path) = key := by simpa [hp, Except.toOption] using hkey
      exact ⟨by simpa using hcontent, by simp [Request.hasConflict, hcontent], rfl, rfl⟩

lemma resolve_kept {key : Bool × String} {t : Template} (hkey : request.key? disk = some key)
    (hfind : s.find? key.1 key.2 = some t) : s.resolve disk request = .ok ⟨t, s, []⟩ := by
  obtain ⟨hcontent, hconflict, hpath, hescapes⟩ := exists_path_of_key hkey
  simp [resolve, hconflict, hcontent, hpath, hescapes, hfind, bind, Except.bind]

lemma resolve_read {key : Bool × String} {text : String} {t : Template}
    (hkey : request.key? disk = some key) (hfind : s.find? key.1 key.2 = none)
    (htext : disk.read? key.2 = some text)
    (ht : Template.ofText s.next (.file key.2) key.1 text = .ok t) :
    s.resolve disk request = .ok ⟨t, ⟨(key, t) :: s.kept, s.next + 1⟩, [compiled request t]⟩ := by
  obtain ⟨hcontent, hconflict, hpath, hescapes⟩ := exists_path_of_key hkey
  simp [resolve, hconflict, hcontent, hpath, hescapes, hfind, resolveFile, htext, ht, bind,
    Except.bind]

end Store

namespace Session

def Step.usesStore : Step → Bool
  | .resolve _ _ => true
  | .render _ _ => true
  | .clear => true
  | .write _ _ => true
  | .remove _ => true
  | .makeDirectory _ => true
  | _ => false

def sessionAt (disk : Disk) (steps : List Step) (n : Nat) : Session :=
  (steps.take n).foldl (fun s step => (s.step step).session) (start disk)

def Resolves (disk : Disk) (steps : List Step) (i : Nat) (request : Request) (t : Template) : Prop :=
  ∃ name same outcome, steps[i]? = some (.resolve name request) ∧
    (run (start disk) steps)[i]? = some outcome ∧ outcome.answer = .resolved t same

def Uncleared (steps : List Step) (i j : Nat) : Prop :=
  ∀ k, i < k → k < j → steps[k]? ≠ some .clear

variable {disk : Disk} {steps : List Step} {i j n : Nat} {request : Request} {t u : Template}

lemma getElem?_run_from (s : Session) (steps : List Step) (n : Nat) :
    (run s steps)[n]? =
      steps[n]?.map ((steps.take n).foldl (fun s step => (s.step step).session) s).step := by
  induction steps generalizing s n with
  | nil => simp [run]
  | cons step steps ih =>
    cases n with
    | zero => simp [run]
    | succ n => simp [run, ih]

lemma getElem?_run (disk : Disk) (steps : List Step) (n : Nat) :
    (run (start disk) steps)[n]? = steps[n]?.map (sessionAt disk steps n).step :=
  getElem?_run_from (start disk) steps n

lemma sessionAt_succ {step : Step} (h : steps[n]? = some step) :
    sessionAt disk steps (n + 1) = ((sessionAt disk steps n).step step).session := by
  simp [sessionAt, List.take_add_one, h]

lemma sessionAt_succ_of_none (h : steps[n]? = none) :
    sessionAt disk steps (n + 1) = sessionAt disk steps n := by
  simp [sessionAt, List.take_add_one, h]

@[simp] lemma session_withFormatter (s : Session) (name : String)
    (k : Formatter → Answer × List Event) : (s.withFormatter name k).session = s := by
  rw [withFormatter]
  split <;> rfl

lemma step_disk (s : Session) (step : Step) :
    (s.step step).session.disk.here = s.disk.here ∧
      (s.step step).session.disk.bundled = s.disk.bundled := by
  cases step with
  | resolve name request =>
    rw [Session.step, resolve]
    split <;> exact ⟨rfl, rfl⟩
  | make name kind options hook =>
    rw [Session.step, make]
    split <;> exact ⟨rfl, rfl⟩
  | info name => simp [Session.step]
  | formatBuild name mode builder build master blamelist => simp [Session.step]
  | formatWorker name master worker => simp [Session.step]
  | equals name other => simp [Session.step]
  | equalsValue name => simp [Session.step]
  | _ => exact ⟨rfl, rfl⟩

lemma disk_sessionAt (disk : Disk) (steps : List Step) (n : Nat) :
    (sessionAt disk steps n).disk.here = disk.here ∧
      (sessionAt disk steps n).disk.bundled = disk.bundled := by
  -- files come and go, but no step moves the directories that paths start from
  induction n with
  | zero => exact ⟨rfl, rfl⟩
  | succ n ih =>
    cases hn : steps[n]? with
    | none => rwa [sessionAt_succ_of_none hn]
    | some step =>
      rw [sessionAt_succ hn]
      have hstep := step_disk (sessionAt disk steps n) step
      exact ⟨hstep.1.trans ih.1, hstep.2.trans ih.2⟩

lemma key?_sessionAt (request : Request) (disk : Disk) (steps : List Step) (n : Nat) :
    request.key? (sessionAt disk steps n).disk = request.key? disk :=
  request.key?_congr (disk_sessionAt disk steps n).1 (disk_sessionAt disk steps n).2

lemma resolves_iff : Resolves disk steps i request t ↔
    ∃ name r, steps[i]? = some (.resolve name request) ∧
      (sessionAt disk steps i).store.resolve (sessionAt disk steps i).disk request = .ok r ∧
        r.template = t := by
  constructor
  · rintro ⟨name, same, outcome, hstep, hrun, hanswer⟩
    rw [getElem?_run, hstep, Option.map_some, Option.some.injEq] at hrun
    subst hrun
    rw [step, resolve] at hanswer
    split at hanswer
    · exact absurd hanswer (by simp [quiet])
    · next r hr =>
      obtain ⟨ht, -⟩ := by simpa using hanswer
      exact ⟨name, r, hstep, hr, ht⟩
  · rintro ⟨name, r, hstep, hr, rfl⟩
    have hrun : (run (start disk) steps)[i]? =
        some ((sessionAt disk steps i).step (.resolve name request)) := by
      rw [getElem?_run, hstep, Option.map_some]
    exact ⟨name, _, _, hstep, hrun, by rw [step, resolve, hr]⟩

lemma Resolves.ne_clear (ht : Resolves disk steps i request t) : steps[i]? ≠ some .clear := by
  obtain ⟨name, same, outcome, hstep, -⟩ := ht
  simp [hstep]

lemma store_resolved {name : String} {r : Store.Resolved}
    (hstep : steps[n]? = some (.resolve name request))
    (hr : (sessionAt disk steps n).store.resolve (sessionAt disk steps n).disk request = .ok r) :
    (sessionAt disk steps (n + 1)).store = r.store := by
  rw [sessionAt_succ hstep, step, resolve, hr]

lemma store_succ (h : steps.all Step.usesStore = true) (n : Nat) :
    (steps[n]? = some .clear ∧
      (sessionAt disk steps (n + 1)).store = (sessionAt disk steps n).store.clear) ∨
    (∃ request t key, Resolves disk steps n request t ∧ request.key? disk = some key ∧
      (sessionAt disk steps n).store.find? key.1 key.2 = none ∧
      (sessionAt disk steps (n + 1)).store =
        ⟨(key, t) :: (sessionAt disk steps n).store.kept,
          (sessionAt disk steps n).store.next + 1⟩) ∨
    (steps[n]? ≠ some .clear ∧
      (sessionAt disk steps (n + 1)).store.kept = (sessionAt disk steps n).store.kept ∧
      (sessionAt disk steps n).store.next ≤ (sessionAt disk steps (n + 1)).store.next) := by
  have hsame (hc : steps[n]? ≠ some .clear)
      (hs : (sessionAt disk steps (n + 1)).store = (sessionAt disk steps n).store) :
      steps[n]? ≠ some .clear ∧
        (sessionAt disk steps (n + 1)).store.kept = (sessionAt disk steps n).store.kept ∧
        (sessionAt disk steps n).store.next ≤ (sessionAt disk steps (n + 1)).store.next :=
    ⟨hc, congrArg Store.kept hs, Nat.le_of_eq (congrArg Store.next hs).symm⟩
  cases hn : steps[n]? with
  | none => exact .inr (.inr (hn ▸ hsame (by simp [hn]) (by rw [sessionAt_succ_of_none hn])))
  | some step =>
    have huses := List.all_eq_true.mp h step (List.mem_of_getElem? hn)
    have hquiet (hc : step ≠ .clear)
        (hs : ((sessionAt disk steps n).step step).session.store = (sessionAt disk steps n).store) :=
      hn ▸ hsame (by simp [hn, hc]) (by rw [sessionAt_succ hn, hs])
    cases step with
    | resolve name request =>
      cases hr : (sessionAt disk steps n).store.resolve (sessionAt disk steps n).disk request with
      | ok r =>
        have hstore := store_resolved hn hr
        obtain ⟨-, -, hst⟩ | ⟨key, text, hkey, hfind, -, -, hst⟩ | ⟨key, -, -, hst⟩ :=
          Store.resolve_cases hr
        · refine .inr (.inr ⟨by simp, ?_, ?_⟩) <;> simp [hstore, hst]
        · rw [key?_sessionAt] at hkey
          exact .inr (.inl ⟨request, r.template, key, resolves_iff.mpr ⟨name, r, hn, hr, rfl⟩,
            hkey, hfind, by rw [hstore, hst]⟩)
        · exact .inr (.inr (hn ▸ hsame (by simp [hn]) (by rw [hstore, hst])))
      | error f =>
        refine .inr (.inr (hquiet (by simp) ?_))
        rw [Session.step, resolve, hr]
        rfl
    | clear => exact .inl ⟨rfl, by rw [sessionAt_succ hn]; rfl⟩
    | render name context => exact .inr (.inr (hquiet (by simp) rfl))
    | write path text => exact .inr (.inr (hquiet (by simp) rfl))
    | remove path => exact .inr (.inr (hquiet (by simp) rfl))
    | makeDirectory path => exact .inr (.inr (hquiet (by simp) rfl))
    | _ => exact absurd huses (by simp [Step.usesStore])

lemma next_mono (h : steps.all Step.usesStore = true) (hij : i ≤ j) :
    (sessionAt disk steps i).store.next ≤ (sessionAt disk steps j).store.next := by
  induction hij with
  | refl => exact Nat.le_refl _
  | @step m _ ih =>
    refine Nat.le_trans ih ?_
    obtain ⟨-, hs⟩ | ⟨request, t, key, -, -, -, hs⟩ | ⟨-, -, hle⟩ :=
      @store_succ disk steps h m
    · exact Nat.le_of_eq (congrArg Store.next hs).symm
    · rw [hs]
      exact Nat.le_succ _
    · exact hle

lemma find?_of_kept {s s' : Store} (h : s'.kept = s.kept) (escapes : Bool) (path : String) :
    s'.find? escapes path = s.find? escapes path := by
  rw [Store.find?, h, Store.find?]

lemma find?_of_resolves (h : steps.all Step.usesStore = true) {key : Bool × String}
    (ht : Resolves disk steps i request t) (hkey : request.key? disk = some key) (hij : i < j)
    (hclear : Uncleared steps i j) :
    (sessionAt disk steps j).store.find? key.1 key.2 = some t := by
  induction hij with
  | refl =>
    obtain ⟨name, r, hstep, hr, rfl⟩ := resolves_iff.mp ht
    rw [store_resolved hstep hr]
    have hkey' := (key?_sessionAt request disk steps i).trans hkey
    obtain ⟨hcontent, -, -⟩ | ⟨k, text, hk, -, -, -, hst⟩ | ⟨k, hk, hfind, hst⟩ :=
      Store.resolve_cases hr
    · exact absurd hkey (by simp [Request.key?, hcontent])
    · obtain rfl : k = key := Option.some.inj (hk.symm.trans hkey')
      rw [hst, Store.find?_cons, if_pos rfl]
    · obtain rfl : k = key := Option.some.inj (hk.symm.trans hkey')
      rw [hst, hfind]
  | @step m hm ih =>
    have hfind := ih fun k hi hk => hclear k hi (Nat.lt_succ_of_lt hk)
    obtain ⟨hc, -⟩ | ⟨q, u, k, -, -, hnone, hs⟩ | ⟨-, hs, -⟩ := @store_succ disk steps h m
    · exact absurd hc (hclear m hm (Nat.lt_succ_self m))
    · -- a template is only put where none is kept, so not in place of this one
      have hne : k ≠ (key.1, key.2) := by
        rintro rfl
        exact absurd (hnone.symm.trans hfind) (by simp)
      rw [hs, Store.find?_cons, if_neg hne, hfind]
    · rw [find?_of_kept hs, hfind]

lemma exists_resolves (h : steps.all Step.usesStore = true) {key : Bool × String}
    (ht : (sessionAt disk steps j).store.find? key.1 key.2 = some t) :
    ∃ i request, i < j ∧ Resolves disk steps i request t ∧ request.key? disk = some key ∧
      Uncleared steps i j := by
  induction j with
  | zero => exact absurd ht (by simp [sessionAt, start, Store.empty, Store.find?])
  | succ n ih =>
    have hbefore (hc : steps[n]? ≠ some .clear)
        (hf : (sessionAt disk steps n).store.find? key.1 key.2 = some t) :
        ∃ i request, i < n + 1 ∧ Resolves disk steps i request t ∧ request.key? disk = some key ∧
          Uncleared steps i (n + 1) := by
      obtain ⟨i, request, hi, hr, hkey, hclear⟩ := ih hf
      refine ⟨i, request, Nat.lt_succ_of_lt hi, hr, hkey, fun k hik hk => ?_⟩
      rcases Nat.lt_succ_iff_lt_or_eq.mp hk with hk | rfl
      · exact hclear k hik hk
      · exact hc
    obtain ⟨-, hs⟩ | ⟨q, u, k, hq, hkey, -, hs⟩ | ⟨hc, hs, -⟩ := @store_succ disk steps h n
    · rw [hs] at ht
      exact absurd ht (by simp [Store.clear, Store.find?])
    · -- what is found is what the step has put, or has been there before it
      rw [hs, Store.find?_cons] at ht
      split at ht
      · next hk =>
        obtain rfl := Option.some.inj ht
        refine ⟨n, q, Nat.lt_succ_self n, hq, by rw [hkey, hk], ?_⟩
        intro m hnm hm
        omega
      · exact hbefore hq.ne_clear ht
    · rw [find?_of_kept hs] at ht
      exact hbefore hc ht

structure Makes (disk : Disk) (steps : List Step) (i : Nat) (request : Request) (t : Template) :
    Prop where
  resolves : Resolves disk steps i request t
  serial : t.serial = (sessionAt disk steps i).store.next
  next : (sessionAt disk steps (i + 1)).store.next = (sessionAt disk steps i).store.next + 1
  file : ∀ key, request.key? disk = some key →
    (sessionAt disk steps i).store.find? key.1 key.2 = none ∧
      ∃ text, (sessionAt disk steps i).disk.read? key.2 = some text ∧
        Template.ofText t.serial (.file key.2) key.1 text = .ok t

lemma ofText_serial {serial : Nat} {source : Source} {escapes : Bool} {text : String}
    (h : Template.ofText serial source escapes text = .ok t) : t.serial = serial := by
  rw [Template.ofText] at h
  split at h
  · rw [← Except.ok.inj h]
  · exact absurd h (by simp)

lemma makes_or_kept (ht : Resolves disk steps i request t) :
    Makes disk steps i request t ∨ ∃ key, request.key? disk = some key ∧
      (sessionAt disk steps i).store.find? key.1 key.2 = some t := by
  obtain ⟨name, r, hstep, hr, rfl⟩ := resolves_iff.mp ht
  have hstore := store_resolved hstep hr
  have hkeys := key?_sessionAt request disk steps i
  obtain ⟨hcontent, hserial, hst⟩ | ⟨key, text, hk, hnone, htext, hof, hst⟩ | ⟨key, hk, hfind, -⟩ :=
    Store.resolve_cases hr
  · refine .inl ⟨ht, hserial, by rw [hstore, hst], fun key hkey => ?_⟩
    exact absurd hkey (by simp [Request.key?, hcontent])
  · have hserial := ofText_serial hof
    refine .inl ⟨ht, hserial, by rw [hstore, hst], fun key' hkey => ?_⟩
    obtain rfl : key = key' := Option.some.inj (hk.symm.trans (hkeys.trans hkey))
    exact ⟨hnone, text, htext, hserial ▸ hof⟩
  · exact .inr ⟨key, hkeys ▸ hk, hfind⟩

lemma Uncleared.trans {k : Nat} (hij : Uncleared steps i j) (hj : steps[j]? ≠ some .clear)
    (hjk : Uncleared steps j k) : Uncleared steps i k := by
  intro m him hmk
  rcases Nat.lt_trichotomy m j with hm | rfl | hm
  · exact hij m him hm
  · exact hj
  · exact hjk m hm hmk

lemma exists_makes (h : steps.all Step.usesStore = true) (ht : Resolves disk steps j request t) :
    Makes disk steps j request t ∨ ∃ i r key, i < j ∧ Makes disk steps i r t ∧
      r.key? disk = some key ∧ request.key? disk = some key ∧ Uncleared steps i j := by
  induction j using Nat.strongRecOn generalizing request with
  | ind j ih =>
    obtain hmakes | ⟨key, hkey, hfind⟩ := makes_or_kept ht
    · exact .inl hmakes
    · -- a step that has put the template may have been given it too, but earlier
      obtain ⟨i, r, hij, hr, hrkey, hclear⟩ := exists_resolves h hfind
      obtain hmakes | ⟨m, q, k, hmi, hmakes, hqk, hrk, hmclear⟩ := ih i hij hr
      · exact .inr ⟨i, r, key, hij, hmakes, hrkey, hkey, hclear⟩
      · obtain rfl : k = key := Option.some.inj (hrk.symm.trans hrkey)
        exact .inr ⟨m, q, k, Nat.lt_trans hmi hij, hmakes, hqk, hkey,
          hmclear.trans hr.ne_clear hclear⟩

lemma Makes.serial_lt (h : steps.all Step.usesStore = true) {r q : Request}
    (ht : Makes disk steps i r t) (hu : Makes disk steps j q u) (hij : i < j) :
    t.serial < u.serial := by
  have hle := @next_mono disk steps (i + 1) j h (Nat.succ_le_of_lt hij)
  rw [ht.next, ← ht.serial, ← hu.serial] at hle
  omega

lemma Makes.place_eq (h : steps.all Step.usesStore = true) {r q : Request}
    (ht : Makes disk steps i r t) (hu : Makes disk steps j q u) (hs : t.serial = u.serial) :
    i = j := by
  rcases Nat.lt_trichotomy i j with hij | hij | hij
  · exact absurd (ht.serial_lt h hu hij) (by omega)
  · exact hij
  · exact absurd (hu.serial_lt h ht hij) (by omega)

lemma Resolves.step_eq {name : String} {r : Request} (ht : Resolves disk steps i r t)
    (hstep : steps[i]? = some (.resolve name request)) : request = r := by
  obtain ⟨name', same, outcome, hstep', -⟩ := ht
  simp only [hstep, Option.some.injEq, Step.resolve.injEq] at hstep'
  exact hstep'.2

lemma Makes.request_eq {r q : Request} (ht : Makes disk steps i r t)
    (hu : Makes disk steps i q u) : r = q := by
  obtain ⟨name, same, outcome, hstep, -⟩ := ht.resolves
  exact hu.resolves.step_eq hstep

lemma resolves_kept (h : steps.all Step.usesStore = true) {name : String} {r : Request}
    {key : Bool × String} (hij : i < j) (ht : Resolves disk steps i r t)
    (hstep : steps[j]? = some (.resolve name request)) (hr : r.key? disk = some key)
    (hkey : request.key? disk = some key) (hclear : Uncleared steps i j) :
    Resolves disk steps j request t := by
  have hfind := find?_of_resolves h ht hr hij hclear
  exact resolves_iff.mpr ⟨name, _, hstep,
    Store.resolve_kept ((key?_sessionAt request disk steps j).trans hkey) hfind, rfl⟩

lemma Resolves.template_eq (ht : Resolves disk steps i request t)
    (hu : Resolves disk steps i request u) : t = u := by
  obtain ⟨name, r, -, hr, rfl⟩ := resolves_iff.mp ht
  obtain ⟨name', r', -, hr', rfl⟩ := resolves_iff.mp hu
  rw [Except.ok.inj (hr.symm.trans hr')]

lemma serial_eq_iff (h : steps.all Step.usesStore = true) {r : Request} (hij : i < j)
    (ht : Resolves disk steps i r t) (hu : Resolves disk steps j request u) :
    u.serial = t.serial ↔ ∃ key, r.key? disk = some key ∧ request.key? disk = some key ∧
      Uncleared steps i j := by
  constructor
  · intro hserial
    obtain hmade | ⟨m, q, key, hmj, hmade, hqkey, hkey, hclear⟩ := exists_makes h hu
    · -- the later one cannot be made anew with the serial of a template made before it
      obtain hmade' | ⟨m, q, -, hmi, hmade', -⟩ := exists_makes h ht
      · exact absurd (hmade.place_eq h hmade' hserial) (by omega)
      · exact absurd (hmade.place_eq h hmade' hserial) (by omega)
    · obtain hmade' | ⟨m', q', key', hmi, hmade', hq', hr, hclear'⟩ := exists_makes h ht
      · obtain rfl := hmade.place_eq h hmade' hserial
        obtain rfl := hmade.request_eq hmade'
        exact ⟨key, hqkey, hkey, hclear⟩
      · obtain rfl := hmade.place_eq h hmade' hserial
        obtain rfl := hmade.request_eq hmade'
        obtain rfl : key' = key := Option.some.inj (hq'.symm.trans hqkey)
        exact ⟨key', hr, hkey, fun k hk hkj => hclear k (Nat.lt_trans hmi hk) hkj⟩
  · rintro ⟨key, hr, hkey, hclear⟩
    obtain ⟨name, same, outcome, hstep, -⟩ := id hu
    rw [hu.template_eq (resolves_kept h hij ht hstep hr hkey hclear)]

lemma serial_ne_of_content (h : steps.all Step.usesStore = true) {r : Request} (hij : i < j)
    (ht : Resolves disk steps i r t) (hu : Resolves disk steps j request u)
    (hcontent : request.content.isTruthy = true) : u.serial ≠ t.serial := by
  intro hserial
  obtain ⟨key, -, hkey, -⟩ := (serial_eq_iff h hij ht hu).mp hserial
  exact absurd hkey (by simp [Request.key?, hcontent])

lemma Resolves.exists_key (ht : Resolves disk steps i request t)
    (hcontent : request.content.isTruthy = false) : ∃ key, request.key? disk = some key := by
  obtain ⟨name, r, hstep, hr, rfl⟩ := resolves_iff.mp ht
  rw [← key?_sessionAt request disk steps i]
  obtain ⟨hc, -, -⟩ | ⟨key, -, hkey, -⟩ | ⟨key, hkey, -⟩ := Store.resolve_cases hr
  · exact absurd hc (by simp [hcontent])
  · exact ⟨key, hkey⟩
  · exact ⟨key, hkey⟩

def IsFirst (disk : Disk) (steps : List Step) (key : Bool × String) (i : Nat) : Prop :=
  ∀ k < i, ∀ request t, Resolves disk steps k request t → request.key? disk = some key →
    ¬ Uncleared steps k i

lemma Makes.isFirst (h : steps.all Step.usesStore = true) {key : Bool × String}
    (ht : Makes disk steps i request t) (hkey : request.key? disk = some key) :
    IsFirst disk steps key i := by
  intro k hki r u hu hr hclear
  have hfind := find?_of_resolves h hu hr hki hclear
  exact absurd ((ht.file key hkey).1.symm.trans hfind) (by simp)

lemma exists_read (h : steps.all Step.usesStore = true) {key : Bool × String}
    (hu : Resolves disk steps j request u) (hkey : request.key? disk = some key) :
    ∃ i r text, i ≤ j ∧ Resolves disk steps i r u ∧ r.key? disk = some key ∧
      Uncleared steps i j ∧ IsFirst disk steps key i ∧
      (sessionAt disk steps i).disk.read? key.2 = some text ∧
      Template.ofText u.serial (.file key.2) key.1 text = .ok u := by
  obtain hmade | ⟨i, r, k, hij, hmade, hr, hk, hclear⟩ := exists_makes h hu
  · obtain ⟨-, text, htext, hof⟩ := hmade.file key hkey
    exact ⟨j, request, text, Nat.le_refl j, hu, hkey, fun k hj hk => by omega,
      hmade.isFirst h hkey, htext, hof⟩
  · obtain rfl : k = key := Option.some.inj (hk.symm.trans hkey)
    obtain ⟨-, text, htext, hof⟩ := hmade.file k hr
    exact ⟨i, r, text, by omega, hmade.resolves, hr, hclear, hmade.isFirst h hr, htext, hof⟩

lemma run_eraseIdx_from (s : Session) (steps : List Step) (i : Nat) {step : Step}
    (hstep : steps[i]? = some step) :
    let t := (steps.take i).foldl (fun s step => (s.step step).session) s
    (t.step step).session = t → run s (steps.eraseIdx i) = (run s steps).eraseIdx i := by
  induction steps generalizing s i with
  | nil => exact absurd hstep (by simp)
  | cons x steps ih =>
    cases i with
    | zero =>
      obtain rfl : x = step := by simpa using hstep
      intro t ht
      have hx : (s.step x).session = s := ht
      simp [run, hx]
    | succ i =>
      intro t ht
      have hrest := ih (s.step x).session i (by simpa using hstep) ht
      simp [run, hrest]

lemma run_eraseIdx {name : String} {outcome : Outcome} {f : Failure}
    (hstep : steps[i]? = some (.resolve name request))
    (hrun : (run (start disk) steps)[i]? = some outcome) (hf : outcome.answer = .failed f) :
    run (start disk) (steps.eraseIdx i) = (run (start disk) steps).eraseIdx i := by
  apply run_eraseIdx_from _ _ _ hstep
  rw [getElem?_run, hstep, Option.map_some, Option.some.injEq] at hrun
  subst hrun
  change ((sessionAt disk steps i).step _).session = sessionAt disk steps i
  rw [step, resolve] at hf ⊢
  split at hf
  · simp [quiet]
  · exact absurd hf (by simp)

theorem run_reuses_templates (disk : Disk) {steps : List Step}
    (h : steps.all Step.usesStore = true) :
    (∀ i j r q t u, i < j → Resolves disk steps i r t → Resolves disk steps j q u →
      if q.content.isTruthy then u.serial ≠ t.serial
      else (u.serial = t.serial ↔ ∃ key, r.key? disk = some key ∧ q.key? disk = some key ∧
        Uncleared steps i j)) ∧
    (∀ i j name r q t key, i < j → Resolves disk steps i r t →
      steps[j]? = some (.resolve name q) → r.key? disk = some key → q.key? disk = some key →
      Uncleared steps i j → Resolves disk steps j q t) ∧
    (∀ j q u, Resolves disk steps j q u → q.content.isTruthy = false →
      ∃ i r key text, i ≤ j ∧ Resolves disk steps i r u ∧ r.key? disk = some key ∧
        q.key? disk = some key ∧ Uncleared steps i j ∧ IsFirst disk steps key i ∧
        (sessionAt disk steps i).disk.read? key.2 = some text ∧
        Template.ofText u.serial (.file key.2) key.1 text = .ok u) ∧
    (∀ i name q outcome f, steps[i]? = some (.resolve name q) →
      (run (start disk) steps)[i]? = some outcome → outcome.answer = .failed f →
      run (start disk) (steps.eraseIdx i) = (run (start disk) steps).eraseIdx i) := by
  refine ⟨fun i j r q t u hij ht hu => ?_, fun i j name r q t key hij ht hstep hr hq hclear => ?_,
    fun j q u hu hcontent => ?_, fun i name q outcome f hstep hrun hf => ?_⟩
  · split
    · next hcontent => exact (serial_ne_of_content h hij ht hu hcontent)
    · exact serial_eq_iff h hij ht hu
  · exact resolves_kept h hij ht hstep hr hq hclear
  · obtain ⟨key, hkey⟩ := hu.exists_key hcontent
    obtain ⟨i, r, text, hij, hr, hrkey, hclear, hfirst, htext, hof⟩ := exists_read h hu hkey
    exact ⟨i, r, key, text, hij, hr, hrkey, hkey, hclear, hfirst, htext, hof⟩
  · exact run_eraseIdx hstep hrun hf

theorem run_reuses_templates_rewritten :
    let r : Request := ⟨.undefined, .text "/t", .text "a.txt", .text "x", .undefined⟩
    let q : Request := ⟨.null, .undefined, .text "/t/../t/./a.txt", .text "x", .bool false⟩
    let steps : List Step := [.resolve "a" r, .write "/t/a.txt" "new", .resolve "b" q]
    let disk : Disk := ⟨"/", "/b", [("/t/a.txt", "old")]⟩
    steps.all Step.usesStore = true ∧ ∃ t, Resolves disk steps 0 r t ∧ Resolves disk steps 2 q t ∧
      Template.ofText t.serial (.file "/t/a.txt") true "old" = .ok t := by
  intro r q steps disk
  have hsteps : steps.all Step.usesStore = true := rfl
  have hr : r.key? disk = some (true, "/t/a.txt") := by decide
  have hq : q.key? disk = some (true, "/t/a.txt") := by decide
  have hcompile : Template.compile "old" = .ok (.mk [] [.content "old"]) :=
    Template.compile_text (by decide) (by decide)
  let t : Template := ⟨0, .file "/t/a.txt", true, .mk [] [.content "old"]⟩
  have hof : Template.ofText 0 (.file "/t/a.txt") true "old" = .ok t :=
    Store.ofText_of_compile hcompile 0 (.file "/t/a.txt") true
  have ht : Resolves disk steps 0 r t :=
    resolves_iff.mpr ⟨"a", _, rfl, Store.resolve_read hr rfl rfl hof, rfl⟩
  obtain ⟨-, hkept, -⟩ := run_reuses_templates disk hsteps
  have hclear : Uncleared steps 0 2 := by
    intro k hk hk2
    obtain rfl : k = 1 := by omega
    simp [steps]
  exact ⟨hsteps, t, ht, hkept 0 2 "b" r q t _ (by omega) ht rfl hr hq hclear, hof⟩

end Session

end BuildNotice
