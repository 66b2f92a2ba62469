import BuildNotice.Store
import Mathlib.Logic.Basic

namespace BuildNotice.Store

/-- The stores that come from resolving and clearing while the file at `path` holds `text`. -/
inductive Serves (path text : String) : Store → Prop
  | empty : Serves path text Store.empty
  | resolve {s : Store} {disk : Disk} {request : Request} {r : Resolved} :
      Serves path text s → disk.read? path = some text → s.resolve disk request = .ok r →
      Serves path text r.store
  | clear {s : Store} : Serves path text s → Serves path text s.clear

structure OfFile (path text : String) (escapes : Bool) (t : Template) : Prop where
  source : t.source = .file path
  escapes : t.escapes = escapes
  program : Template.compile text = .ok t.program

def Keeps (path text : String) (s : Store) : Prop :=
  ∀ escapes t, ((escapes, path), t) ∈ s.kept → OfFile path text escapes t

variable {s : Store} {disk : Disk} {request : Request} {path text : String} {r : Resolved}

lemma ofText_ok {serial : Nat} {source : Source} {escapes : Bool} {t : Template}
    (h : Template.ofText serial source escapes text = .ok t) :
    t.source = source ∧ t.escapes = escapes ∧ Template.compile text = .ok t.program := by
  rw [Template.ofText] at h
  split at h
  · next program hp =>
    obtain rfl := Except.ok.inj h
    exact ⟨rfl, rfl, hp⟩
  · exact absurd h (by simp)

lemma ofText_of_compile {program : Template.Program} (h : Template.compile text = .ok program)
    (serial : Nat) (source : Source) (escapes : Bool) :
    Template.ofText serial source escapes text = .ok ⟨serial, source, escapes, program⟩ := by
  rw [Template.ofText, h]

lemma resolveContent_kept (h : s.resolveContent request = .ok r) : r.store.kept = s.kept := by
  rw [resolveContent] at h
  split at h
  · next content _ =>
    cases ht : Template.ofText s.next (.inline content) request.escapes content with
    | error e => simp [ht, bind, Except.bind] at h
    | ok t =>
      simp only [ht, bind, Except.bind, Except.ok.injEq] at h
      rw [← h]
  · split at h <;> exact absurd h (by simp)

lemma resolveFile_kept {p : String} (h : s.resolveFile disk request p = .ok r) :
    ∃ content t, disk.read? p = some content ∧ OfFile p content request.escapes t ∧
      r.template = t ∧ r.store.kept = ((request.escapes, p), t) :: s.kept := by
  rw [resolveFile] at h
  split at h
  · exact absurd h (by simp)
  · next content hcontent =>
    cases ht : Template.ofText s.next (.file p) request.escapes content with
    | error e => simp [ht, bind, Except.bind] at h
    | ok t =>
      simp only [ht, bind, Except.bind, Except.ok.injEq] at h
      obtain ⟨hsource, hescapes, hprogram⟩ := ofText_ok ht
      exact ⟨content, t, hcontent, ⟨hsource, hescapes, hprogram⟩, by rw [← h], by rw [← h]⟩

lemma Keeps.resolve (hs : s.Keeps path text) (hdisk : disk.read? path = some text)
    (h : s.resolve disk request = .ok r) : r.store.Keeps path text := by
  rw [Store.resolve] at h
  split at h
  · exact absurd h (by simp)
  · split at h
    · intro escapes t ht
      rw [resolveContent_kept h] at ht
      exact hs escapes t ht
    · cases hp : request.path disk with
      | error e => simp [hp, bind, Except.bind] at h
      | ok p =>
        simp only [hp, bind, Except.bind] at h
        split at h
        · obtain rfl := Except.ok.inj h
          exact hs
        · obtain ⟨content, t, hcontent, hfile, -, hkept⟩ := resolveFile_kept h
          intro escapes u hu
          rw [hkept, List.mem_cons] at hu
          rcases hu with hu | hu
          · obtain ⟨⟨rfl, rfl⟩, rfl⟩ := by simpa using hu
            obtain rfl : content = text := Option.some.inj (hcontent.symm.trans hdisk)
            exact hfile
          · exact hs escapes u hu

lemma Serves.keeps (h : s.Serves path text) : s.Keeps path text := by
  induction h with
  | empty =>
    intro escapes t ht
    exact absurd ht (by simp [Store.empty])
  | resolve _ hdisk hr ih => exact ih.resolve hdisk hr
  | clear _ _ =>
    intro escapes t ht
    exact absurd ht (by simp [Store.clear])

lemma Keeps.find? (hs : s.Keeps path text) {escapes : Bool} {t : Template}
    (h : s.find? escapes path = some t) : OfFile path text escapes t := by
  obtain ⟨⟨key, u⟩, hfind, rfl⟩ := Option.map_eq_some_iff.mp h
  obtain rfl : key = (escapes, path) := by simpa using List.find?_some hfind
  exact hs escapes u (List.mem_of_find?_eq_some hfind)

lemma Serves.resolve_file (hs : s.Serves path text) (hdisk : disk.read? path = some text)
    {program : Template.Program} (hp : Template.compile text = .ok program)
    (hcontent : request.content.isTruthy = false) (hpath : request.path disk = .ok path) :
    ∃ r, s.resolve disk request = .ok r ∧ OfFile path text request.escapes r.template := by
  have hconflict : request.hasConflict = false := by simp [Request.hasConflict, hcontent]
  cases hfind : s.find? request.escapes path with
  | some t =>
    refine ⟨⟨t, s, []⟩, ?_, hs.keeps.find? hfind⟩
    simp [Store.resolve, hconflict, hcontent, hpath, hfind, bind, Except.bind]
  | none =>
    let t : Template := ⟨s.next, .file path, request.escapes, program⟩
    have ht : Template.ofText s.next (.file path) request.escapes text = .ok t :=
      ofText_of_compile hp s.next (.file path) request.escapes
    refine ⟨⟨t, ⟨((request.escapes, path), t) :: s.kept, s.next + 1⟩, [compiled request t]⟩, ?_,
      ⟨rfl, rfl, hp⟩⟩
    simp [Store.resolve, hconflict, hcontent, hpath, hfind, resolveFile, hdisk, ht, bind,
      Except.bind]

end BuildNotice.Store
