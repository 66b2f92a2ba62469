import BuildNotice.Message
import BuildNotice.Proofs.Template.Outputs

namespace BuildNotice

open Value (Fields)
open Template Template.Render Template.Written

def MessageType.write (type : MessageType) (s : String) : String :=
  if type.escapes then Escape.text s else s

def MessageType.fill (type : MessageType) (v : Value) : String :=
  if v.isNullish then "" else type.write (v.print?.getD "")

lemma MessageType.printed_fill (type : MessageType) {v : Value} (h : v.isPrintable = true) :
    printed? type.escapes v = some (type.fill v) := by
  obtain ⟨s, hs⟩ := Value.exists_print h
  cases hn : v.isNullish <;> cases he : type.escapes <;>
    simp [printed?, Escape.value?, MessageType.fill, MessageType.write, hn, hs, he]

namespace Template

variable {sc : Scope} {label : Nat} {fields : Fields}

lemma own_field {key : String} {v : Value} (hv : Record.get? key fields = some v) :
    (Value.record label fields).own key = v := by
  simp [Value.own, Value.own?, hv]

lemma missing?_field {key : String} {v : Value} (hv : Record.get? key fields = some v) :
    missing? (.record label fields) [key] = none := by
  have hhas : Record.has key fields = true := by rw [Record.has_iff_get?_isSome, hv]; rfl
  simp [missing?, Value.isComposite, Value.knows, hhas]

lemma path_shows (invoke : Invoke) (h : sc.Sees (.record label fields)) (type : MessageType)
    (he : sc.escapes = type.escapes) {names : List String} (hn : isPlainPath names = true)
    (hl : looksUp names = true) (hm : missing? (.record label fields) names = none) {v : Value}
    (hv : reached (.record label fields) names = v) (hp : v.isPrintable = true) :
    (Piece.output names []).Shows invoke sc (type.fill v) := by
  apply lookup_shows h rfl hn hl hm
  rw [hv, he, type.printed_fill hp]

lemma field_shows (invoke : Invoke) (h : sc.Sees (.record label fields)) (type : MessageType)
    (he : sc.escapes = type.escapes) {key : String} (hn : isPlainPath [key] = true)
    (hl : looksUp [key] = true) {v : Value} (hv : Record.get? key fields = some v)
    (hp : v.isPrintable = true) : (Piece.output [key] []).Shows invoke sc (type.fill v) :=
  path_shows invoke h type he hn hl (missing?_field hv) (own_field hv) hp

lemma field_gives (h : sc.Sees (.record label fields)) {key : String}
    (hn : isPlainPath [key] = true) {v : Value} (hv : Record.get? key fields = some v) :
    (Term.path [key]).Gives sc v := by
  have hg := path_gives h hn (show leads (.record label fields) [key] = true from rfl)
  rwa [show reached (.record label fields) [key] = v from own_field hv] at hg

lemma property_prints (invoke : Invoke) (h : sc.Sees (.record label fields)) {key : String}
    (hn : isPlainPath [key] = true) {build : Value} (hv : Record.get? key fields = some build)
    (hbuild : build ≠ .undefined) {name default t : String}
    (ht : printed? sc.escapes (Helper.propertyOf [build, .text name, .text default]) = some t) :
    (Piece.output ["property"] [.path [key], .string name, .string default]).Shows invoke sc t := by
  have hargs : List.Forall₂ (Term.Gives sc) [.path [key], .string name, .string default]
      [build, .text name, .text default] :=
    .cons (field_gives h hn hv) (.cons (string_gives _) (.cons (string_gives _) .nil))
  refine call_shows h (show isHelperName "property" .property = true by decide) (by simp) hargs
    (fun ids => ?_) ht
  exact (require_yields (by simpa using hbuild) ids "property").bind (yields_pure _)

end Template

end BuildNotice
