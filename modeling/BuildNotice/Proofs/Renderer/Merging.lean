import BuildNotice.Renderer.Desk
import BuildNotice.Proofs.Record.Order

namespace BuildNotice

open Value (Fields)

namespace Heap

variable {heap : Heap} {place p : Nat} {fields : Fields} {f : Fields → Fields}

lemma look_add (h : place < heap.length) : (heap.add fields).look place = heap.look place := by
  rw [look, look, add, List.getElem?_append_left h]

lemma look_add_new (heap : Heap) (fields : Fields) :
    (heap.add fields).look heap.length = fields := by
  simp [look, add]

lemma length_add (heap : Heap) (fields : Fields) :
    (heap.add fields).length = heap.length + 1 := by
  simp [add]

lemma look_change (h : place ≠ p) : (heap.change place f).look p = heap.look p := by
  rw [look, look, change, List.getElem?_modify_ne _ _ h]

lemma length_change (heap : Heap) (place : Nat) (f : Fields → Fields) :
    (heap.change place f).length = heap.length :=
  List.length_modify f heap place

def Sorted (heap : Heap) : Prop := ∀ record ∈ heap, Record.Ordered record

instance (heap : Heap) : Decidable heap.Sorted :=
  inferInstanceAs (Decidable (∀ record ∈ heap, Record.Ordered record))

lemma Sorted.look (h : heap.Sorted) (place : Nat) : Record.Ordered (heap.look place) := by
  rw [Heap.look]
  cases hp : heap[place]? with
  | none => exact Record.ordered_nil
  | some record => exact h record (List.mem_of_getElem? hp)

lemma Sorted.add (h : heap.Sorted) (hfields : Record.Ordered fields) :
    (heap.add fields).Sorted :=
  List.forall_mem_append.mpr ⟨h, List.forall_mem_singleton.mpr hfields⟩

lemma Sorted.change (h : heap.Sorted) (hf : ∀ {fields}, Record.Ordered fields →
    Record.Ordered (f fields)) (place : Nat) : (heap.change place f).Sorted := by
  intro record hrecord
  obtain ⟨p, hp⟩ := List.mem_iff_getElem?.mp hrecord
  rw [Heap.change, List.getElem?_modify] at hp
  obtain ⟨before, hbefore, rfl⟩ := Option.map_eq_some_iff.mp hp
  have hordered := h before (List.mem_of_getElem? hbefore)
  split
  · exact hf hordered
  · exact hordered

end Heap

namespace Renderer.Desk

variable {d : Desk} {uses : List Use} {place : Nat} {fields : Fields}

def Use.changes? : Use → Option Nat
  | .assign place _ _ => some place
  | .delete place _ => some place
  | .merge _ => none
  | .render _ => none

lemma getElem?_run (d : Desk) (uses : List Use) (n : Nat) :
    (d.run uses)[n]? = uses[n]?.map (d.after (uses.take n)).step := by
  induction uses generalizing d n with
  | nil => rfl
  | cons use uses ih =>
    cases n with
    | zero => rfl
    | succ n => exact ih (d.step use).2 n

structure Sound (d : Desk) : Prop where
  sorted : d.heap.Sorted
  copied : d.copy < d.heap.length

lemma ordered_written (key : String) (v : Value) (h : Record.Ordered fields) :
    Record.Ordered (written key v fields) := by
  rw [written]
  split
  · exact h
  · exact h.set key v

lemma sound_start {heap : Heap} (h : heap.Sorted) (own : Nat) (body : Template)
    (subject : Option Template) (type : MessageType) :
    (start heap own body subject type).Sound where
  sorted := h.add (Record.ordered_ofList _)
  copied := by
    rw [start, Heap.length_add]
    exact Nat.lt_succ_self _

lemma Sound.change (h : d.Sound) {f : Fields → Fields} (hf : ∀ {fields}, Record.Ordered fields →
    Record.Ordered (f fields)) (place : Nat) : (d.change place f).Sound := by
  rw [Desk.change]
  split
  · exact h
  · refine ⟨h.sorted.change hf place, ?_⟩
    rw [Heap.length_change]
    exact h.copied

lemma Sound.step (h : d.Sound) (use : Use) : (d.step use).2.Sound := by
  cases use with
  | assign place key v => exact h.change (ordered_written key v) place
  | delete place key => exact h.change (fun hfields => hfields.erase key) place
  | render context => exact h
  | merge context =>
    refine ⟨h.sorted.add ((Record.ordered_ofList _).merge _), ?_⟩
    rw [Desk.step, Heap.length_add]
    exact h.copied.trans (Nat.lt_succ_self _)

lemma Sound.after (h : d.Sound) (uses : List Use) : (d.after uses).Sound := by
  induction uses generalizing d with
  | nil => exact h
  | cons use uses ih => exact ih (h.step use)

lemma length_change (d : Desk) (place : Nat) (f : Fields → Fields) :
    (d.change place f).heap.length = d.heap.length := by
  rw [change]
  split
  · rfl
  · exact Heap.length_change d.heap place f

lemma length_le_step (d : Desk) (use : Use) : d.heap.length ≤ (d.step use).2.heap.length := by
  cases use with
  | assign place key v => exact (length_change d place _).ge
  | delete place key => exact (length_change d place _).ge
  | render context => exact Nat.le_refl _
  | merge context =>
    rw [step, Heap.length_add]
    exact Nat.le_succ _

lemma look_change {p : Nat} (h : p ≠ place ∨ place = d.copy) (f : Fields → Fields) :
    (d.change p f).heap.look place = d.heap.look place := by
  rw [change]
  split
  · rfl
  · next hcopy =>
    rcases h with hne | rfl
    · exact Heap.look_change hne
    · exact Heap.look_change hcopy

lemma look_step (hplace : place < d.heap.length) {use : Use}
    (h : use.changes? ≠ some place ∨ place = d.copy) :
    (d.step use).2.heap.look place = d.heap.look place := by
  cases use with
  | assign p key v => exact look_change (h.imp_left fun hne heq => hne (congrArg some heq)) _
  | delete p key => exact look_change (h.imp_left fun hne heq => hne (congrArg some heq)) _
  | render context => rfl
  | merge context => exact Heap.look_add hplace

lemma copy_step (d : Desk) (use : Use) : (d.step use).2.copy = d.copy := by
  cases use with
  | assign p key v =>
    rw [step, change]
    split <;> rfl
  | delete p key =>
    rw [step, change]
    split <;> rfl
  | render context => rfl
  | merge context => rfl

lemma look_after (hplace : place < d.heap.length)
    (huses : ∀ use ∈ uses, use.changes? ≠ some place) :
    (d.after uses).heap.look place = d.heap.look place := by
  induction uses generalizing d with
  | nil => rfl
  | cons use uses ih =>
    obtain ⟨huse, hrest⟩ := List.forall_mem_cons.mp huses
    have hnext : place < (d.step use).2.heap.length := hplace.trans_le (length_le_step d use)
    exact (ih hnext hrest).trans (look_step hplace (Or.inl huse))

lemma extra_step (h : d.Sound) (use : Use) :
    (d.step use).2.renderer.extra = d.renderer.extra := by
  have hextra : (d.step use).2.renderer.extra = (d.step use).2.heap.look d.copy := by
    rw [← copy_step d use]
    rfl
  rw [hextra]
  exact look_step h.copied (Or.inr rfl)

lemma extra_after (h : d.Sound) (uses : List Use) :
    (d.after uses).renderer.extra = d.renderer.extra := by
  induction uses generalizing d with
  | nil => rfl
  | cons use uses ih => exact (ih (h.step use)).trans (extra_step h use)

lemma extra_start {heap : Heap} (h : heap.Sorted) (own : Nat) (body : Template)
    (subject : Option Template) (type : MessageType) :
    (start heap own body subject type).renderer.extra = heap.look own := by
  have hcopy : (start heap own body subject type).renderer.extra =
      Record.ofList (heap.look own) := Heap.look_add_new heap _
  rw [hcopy, Record.ofList_eq_self (h.look own)]

def GivesMerged (d : Desk) (place : Nat) (merged : Fields) : Prop :=
  (d.step (.merge (.held place))).1 = .merged d.heap.length ∧
    (d.step (.merge (.held place))).2.heap.look d.heap.length = merged

lemma givesMerged (h : d.Sound) (place : Nat) :
    d.GivesMerged place (Record.merge (d.heap.look place) d.renderer.extra) := by
  refine ⟨rfl, ?_⟩
  have hlook : (d.step (.merge (.held place))).2.heap.look d.heap.length =
      Record.merge (Record.ofList (d.heap.look place)) d.renderer.extra :=
    Heap.look_add_new d.heap _
  rw [hlook, Record.ofList_eq_self (h.sorted.look place)]

/-- After any uses of a desk, a merge lays the extra fields as they were at the start over the
context it is given. Merging the result again changes nothing, and only changes to the context
itself tell in what it is and in what later merges of it give. -/
theorem merge_lays_first_extra_over {heap : Heap} (hheap : heap.Sorted) (own : Nat)
    (body : Template) (subject : Option Template) (type : MessageType) (before : List Use)
    {place : Nat}
    (hplace : place < ((start heap own body subject type).after before).heap.length) :
    let d := (start heap own body subject type).after before
    let made := (d.step (.merge (.held place))).2
    let extra := heap.look own
    let context := d.heap.look place
    ∃ merged, d.GivesMerged place merged ∧
      (∀ key, Record.get? key merged = (Record.get? key extra).or (Record.get? key context)) ∧
      (∀ key, key ∈ Record.keys merged ↔ key ∈ Record.keys context ∨ key ∈ Record.keys extra) ∧
      Record.LaidOver (Record.keys context) (Record.keys extra) (Record.keys merged) ∧
      (∀ later : List Use, (∀ use ∈ later, use.changes? ≠ some d.heap.length) →
        (made.after later).GivesMerged d.heap.length merged) ∧
      (∀ later : List Use, (∀ use ∈ later, use.changes? ≠ some place) →
        (made.after later).heap.look place = context ∧
          (made.after later).GivesMerged place merged) := by
  intro d made extra context
  have hstart := sound_start hheap own body subject type
  have hd : d.Sound := hstart.after before
  have hmade : made.Sound := hd.step _
  have hextra : d.renderer.extra = extra :=
    (extra_after hstart before).trans (extra_start hheap own body subject type)
  have hlater : ∀ later, (made.after later).renderer.extra = extra := by
    intro later
    rw [extra_after hmade, extra_step hd, hextra]
  have hdistinct : Record.Distinct extra := (hheap.look own).distinct
  have hmerged := givesMerged hd place
  rw [hextra] at hmerged
  refine ⟨Record.merge context extra, hmerged, ?_, fun key => Record.mem_keys_merge,
    Record.laidOver_merge (hd.sorted.look place) hdistinct, ?_, ?_⟩
  · intro key
    rw [Record.get?_merge, Record.get?_ofList key hdistinct]
  · intro later huses
    have hnew : d.heap.length < made.heap.length := by
      rw [show made.heap.length = d.heap.length + 1 from Heap.length_add d.heap _]
      exact Nat.lt_succ_self _
    have hagain := givesMerged (hmade.after later) d.heap.length
    rw [look_after hnew huses, hlater later, hmerged.2, Record.merge_merge context hdistinct]
      at hagain
    exact hagain
  · intro later huses
    have hlook : (made.after later).heap.look place = context := by
      rw [look_after (hplace.trans_le (length_le_step d _)) huses]
      exact look_step hplace (Or.inl (by simp [Use.changes?]))
    have hagain := givesMerged (hmade.after later) place
    rw [hlook, hlater later] at hagain
    exact ⟨hlook, hagain⟩

def sampleHeap : Heap :=
  [[("2", .text "two"), ("mode", .null), ("team", .text "infra")],
    [("1", .text "one"), ("10", .text "ten"), ("name", .text "docs"), ("mode", .text "all")]]

def sampleUses : List Use :=
  [.assign 0 "team" (.text "changed later"), .merge (.held 1), .delete 0 "mode",
    .assign 0 "0" .undefined]

def sampleDesk : Desk :=
  (start sampleHeap 0 ⟨0, .inline "", false, .mk [] []⟩ none .plain).after sampleUses

theorem merge_lays_sample_extra_over :
    sampleHeap.Sorted ∧ 1 < sampleDesk.heap.length ∧
      ∃ merged, sampleDesk.GivesMerged 1 merged ∧
        Record.keys merged = ["1", "2", "10", "name", "mode", "team"] ∧
        Record.get? "team" merged = some (.text "infra") := by
  have hheap : sampleHeap.Sorted := by decide +kernel
  have hplace : 1 < sampleDesk.heap.length := by decide +kernel
  obtain ⟨merged, hmerged, hget, -⟩ := merge_lays_first_extra_over hheap 0 _ none .plain
    sampleUses hplace
  refine ⟨hheap, hplace, merged, hmerged, ?_, ?_⟩
  · rw [← hmerged.2]
    decide +kernel
  · rw [hget]
    rfl

end Renderer.Desk

end BuildNotice
