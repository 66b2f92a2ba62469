import BuildNotice.Proofs.Formatter.Default
import BuildNotice.Proofs.Formatter.Blanks
import BuildNotice.Proofs.Template.Guards

namespace BuildNotice

open Value (Fields)
open Template Template.Render Template.Written

namespace Template.Bundled

def connectionPieces (gap : String) : List Piece :=
  [.text (gap ++ "It last disconnected at "), .output ["worker", "last_connection"] [],
    .text ".\n\n"]

def adminPieces (gap : String) : List Piece :=
  [.text (gap ++ "The admin on record (as reported by WORKER:info/admin)\nwas "),
    .output ["worker", "workerinfo", "admin"] [], .text ".\n\n"]

def workerPieces (gap : String) : List Piece :=
  [.text "The Buildbot working for '", .output ["buildbot_title"] [],
    .text "' has noticed that the worker named ", .output ["worker", "name"] [],
    .text " went away.\n\n",
    .block "if" [.call "has" [.path ["worker"], .string "last_connection"]]
      (connectionPieces gap) none,
    .text gap,
    .block "if" [.call "has" [.path ["worker"], .string "workerinfo"]]
      [.text gap,
        .block "if" [.call "has" [.path ["worker", "workerinfo"], .string "admin"]]
          (adminPieces gap) none,
        .text gap] none,
    .text (gap ++ "Buildbot URL: "), .output ["buildbot_url"] [],
    .text "\n\nSincerely,\n -The Buildbot\n"]

lemma write_workerPieces : write (workerPieces "\n") = workerText := by
  decide +kernel

lemma laid_workerPieces : laid false (workerPieces "\n") = workerPieces "" := by
  rfl

lemma compile_workerText : ∃ ss, compile workerText = .ok (.mk [] ss) ∧
    Compile (workerPieces "") ss := by
  rw [← write_workerPieces, ← laid_workerPieces]
  exact compile_laid (by decide +kernel) (by decide +kernel)

end Template.Bundled

namespace Formatter

def connectionPart (fill : Value → String) (worker : Value) : String :=
  if !(worker.own "last_connection").isNullish then
    "It last disconnected at " ++ fill (worker.own "last_connection") ++ ".\n\n"
  else ""

def adminPart (fill : Value → String) (info : Value) : String :=
  if info.isComposite && !(info.own "admin").isNullish then
    "The admin on record (as reported by WORKER:info/admin)\nwas " ++ fill (info.own "admin") ++
      ".\n\n"
  else ""

def workerMail (fill : Value → String) (title : String) (worker : Value) (url : String) : String :=
  "The Buildbot working for '" ++ fill (.text title) ++ "' has noticed that the worker named " ++
    fill (worker.own "name") ++ " went away.\n\n" ++ connectionPart fill worker ++
    adminPart fill (worker.own "workerinfo") ++ "Buildbot URL: " ++ fill (.text url) ++
    "\n\nSincerely,\n -The Buildbot\n"

structure IsWorker (worker : Value) : Prop where
  isRecord : Options.isRecord worker = true
  name : (worker.own "name").isText = true
  connection : (worker.own "last_connection").isComposite = false
  admin : ((worker.own "workerinfo").own "admin").isComposite = false

section Parts

variable {sc : Scope} {label : Nat} {fields : Fields} {worker : Value} {invoke : Invoke}
  {type : MessageType}

lemma IsWorker.isComposite (h : IsWorker worker) : worker.isComposite = true := by
  have hr := h.isRecord
  cases worker with
  | record label fields => rfl
  | _ => exact absurd hr (by simp [Options.isRecord])

lemma IsWorker.ne_undefined (h : IsWorker worker) : worker ≠ .undefined := by
  rintro rfl
  exact absurd h.isComposite (by simp [Value.isComposite])

lemma member_shows (h : sc.Sees (.record label fields)) (he : sc.escapes = type.escapes)
    (hworker : IsWorker worker) (hget : Record.get? "worker" fields = some worker) {key : String}
    (hn : isPlainPath ["worker", key] = true) (hkey : (worker.own key).isNullish = false)
    (hplain : (worker.own key).isComposite = false) :
    (Piece.output ["worker", key] []).Shows invoke sc (type.fill (worker.own key)) := by
  have hc := hworker.isComposite
  have hown : (Value.record label fields).own "worker" = worker := own_field hget
  refine path_shows invoke h type he hn rfl ?_ (by simp [reached, hown])
    (Value.isPrintable_of_simple hplain)
  simp [missing?, hown, isNullish_of_isComposite hc, hc, knows_of_own hc hkey]

lemma connection_tells (h : sc.Sees (.record label fields)) (he : sc.escapes = type.escapes)
    (hworker : IsWorker worker) (hget : Record.get? "worker" fields = some worker) :
    (Piece.block "if" [.call "has" [.path ["worker"], .string "last_connection"]]
      (Bundled.connectionPieces "") none).Tells invoke sc (connectionPart type.fill worker) := by
  have hhas : Helper.hasOf [worker, .text "last_connection"] =
      !(worker.own "last_connection").isNullish := by
    simp [Helper.hasOf, hworker.isComposite]
  have hbody : Helper.hasOf [worker, .text "last_connection"] = true →
      ∀ levels, ShowAll invoke (sc.inBody levels) (Bundled.connectionPieces "")
        ["It last disconnected at ", type.fill (worker.own "last_connection"), ".\n\n"] := by
    intro hshown levels
    have hkey : (worker.own "last_connection").isNullish = false := by simpa [hhas] using hshown
    have hshows : (Piece.output ["worker", "last_connection"] []).Shows invoke (sc.inBody levels)
        (type.fill (worker.own "last_connection")) :=
      member_shows (h.inBody levels) he hworker hget (by decide) hkey hworker.connection
    exact .text (text_tells (by decide)) (.cons hshows (.cons (text_shows _) .nil))
  have htells := guard_tells h (field_gives h (by decide) hget) hworker.ne_undefined
    "last_connection" hbody
  simpa [hhas, connectionPart, String.join_cons, String.append_assoc] using htells

lemma adminBlock_tells (h : sc.Sees (.record label fields)) (he : sc.escapes = type.escapes)
    (hworker : IsWorker worker) (hget : Record.get? "worker" fields = some worker)
    (hinfo : (worker.own "workerinfo").isNullish = false) :
    (Piece.block "if" [.call "has" [.path ["worker", "workerinfo"], .string "admin"]]
      (Bundled.adminPieces "") none).Tells invoke sc
        (adminPart type.fill (worker.own "workerinfo")) := by
  have hown : (Value.record label fields).own "worker" = worker := own_field hget
  have hc := hworker.isComposite
  have hleads : leads (.record label fields) ["worker", "workerinfo"] = true := by
    have hrecord : (Value.record label fields).isNullish = false := rfl
    simp [leads, hown, isNullish_of_isComposite hc, hrecord]
  have hgives : (Term.path ["worker", "workerinfo"]).Gives sc (worker.own "workerinfo") := by
    have hpath := path_gives h (by decide) hleads
    simpa [reached, hown] using hpath
  have hne : worker.own "workerinfo" ≠ .undefined := by
    intro hu
    simp [hu, Value.isNullish] at hinfo
  have hbody : Helper.hasOf [worker.own "workerinfo", .text "admin"] = true →
      ∀ levels, ShowAll invoke (sc.inBody levels) (Bundled.adminPieces "")
        ["The admin on record (as reported by WORKER:info/admin)\nwas ",
          type.fill ((worker.own "workerinfo").own "admin"), ".\n\n"] := by
    intro hshown levels
    obtain ⟨hic, hkey⟩ : (worker.own "workerinfo").isComposite = true ∧
        ((worker.own "workerinfo").own "admin").isNullish = false := by
      simpa [Helper.hasOf] using hshown
    have hmissing : missing? (.record label fields) ["worker", "workerinfo", "admin"] = none := by
      simp [missing?, hown, isNullish_of_isComposite hc, hinfo, hic, knows_of_own hic hkey]
    have hreached : reached (.record label fields) ["worker", "workerinfo", "admin"] =
        (worker.own "workerinfo").own "admin" := by
      simp [reached, hown]
    have hshows := path_shows invoke (h.inBody levels) type he (by decide) rfl hmissing hreached
      (Value.isPrintable_of_simple hworker.admin)
    exact .text (text_tells (by decide)) (.cons hshows (.cons (text_shows _) .nil))
  have htells := guard_tells h hgives hne "admin" hbody
  simpa [Helper.hasOf, adminPart, String.join_cons, String.append_assoc] using htells

lemma info_tells (h : sc.Sees (.record label fields)) (he : sc.escapes = type.escapes)
    (hworker : IsWorker worker) (hget : Record.get? "worker" fields = some worker) :
    (Piece.block "if" [.call "has" [.path ["worker"], .string "workerinfo"]]
      [.text "", .block "if" [.call "has" [.path ["worker", "workerinfo"], .string "admin"]]
        (Bundled.adminPieces "") none, .text ""] none).Tells invoke sc
        (adminPart type.fill (worker.own "workerinfo")) := by
  have hhas : Helper.hasOf [worker, .text "workerinfo"] =
      !(worker.own "workerinfo").isNullish := by
    simp [Helper.hasOf, hworker.isComposite]
  have hnone (hinfo : (worker.own "workerinfo").isNullish = true) :
      adminPart type.fill (worker.own "workerinfo") = "" := by
    cases hv : worker.own "workerinfo" <;>
      simp_all [adminPart, Value.isComposite, Value.isNullish]
  have hbody : Helper.hasOf [worker, .text "workerinfo"] = true →
      ∀ levels, ShowAll invoke (sc.inBody levels)
        [.text "", .block "if" [.call "has" [.path ["worker", "workerinfo"], .string "admin"]]
          (Bundled.adminPieces "") none, .text ""]
        ["", adminPart type.fill (worker.own "workerinfo"), ""] := by
    intro hshown levels
    have hinfo : (worker.own "workerinfo").isNullish = false := by simpa [hhas] using hshown
    exact .silent text_silent (.text (adminBlock_tells (h.inBody levels) he hworker hget hinfo)
      (.cons (text_shows _) .nil))
  have htells := guard_tells h (field_gives h (by decide) hget) hworker.ne_undefined
    "workerinfo" hbody
  cases hinfo : (worker.own "workerinfo").isNullish with
  | true => simpa [hhas, hinfo, hnone hinfo] using htells
  | false => simpa [hhas, hinfo, String.join_cons] using htells

lemma run_workerText {ss : List Statement} (hss : Compile (Bundled.workerPieces "") ss)
    (type : MessageType) (label : Nat) {title url : String} (hworker : IsWorker worker)
    (htitle : Record.get? "buildbot_title" fields = some (.text title))
    (hurl : Record.get? "buildbot_url" fields = some (.text url))
    (hget : Record.get? "worker" fields = some worker) :
    run type.escapes (.mk [] ss) (.record label fields) =
      .ok (workerMail type.fill title worker url) := by
  let levels := (Program.mk [] ss).looksOut
  have hsees := rootScope_sees type.escapes levels (.record label fields)
  let invoke := Render.invoke type.escapes depthLimit
  have hfield {key : String} (hn : isPlainPath [key] = true) (hl : looksUp [key] = true) {v : Value}
      (hv : Record.get? key fields = some v) (hp : v.isPrintable = true) :=
    field_shows invoke hsees type rfl hn hl hv hp
  have hname : (Piece.output ["worker", "name"] []).Shows invoke
      (rootScope type.escapes levels (.record label fields)) (type.fill (worker.own "name")) := by
    have htext := hworker.name
    refine member_shows hsees rfl hworker hget (by decide) ?_ ?_
    all_goals
      cases hv : worker.own "name" <;>
        simp_all [Value.isText, Value.isNullish, Value.isComposite]
  have hshows : List.Forall₂
      (Piece.Shows invoke (rootScope type.escapes levels (.record label fields)))
      (Bundled.workerPieces "").tail
      [type.fill (.text title), "' has noticed that the worker named ",
        type.fill (worker.own "name"), " went away.\n\n", connectionPart type.fill worker, "",
        adminPart type.fill (worker.own "workerinfo"), "Buildbot URL: ", type.fill (.text url),
        "\n\nSincerely,\n -The Buildbot\n"] := by
    rw [Bundled.workerPieces]
    refine .cons (hfield (by decide) (by decide) htitle rfl) (.cons (text_shows _) ?_)
    refine .cons hname (.cons (text_shows _) ?_)
    refine .cons (connection_tells hsees rfl hworker hget).shows (.cons (text_shows _) ?_)
    refine .cons (info_tells hsees rfl hworker hget).shows (.cons (text_shows _) ?_)
    exact .cons (hfield (by decide) (by decide) hurl rfl) (.cons (text_shows _) .nil)
  rw [run_shows (.text (text_tells (by decide)) hshows) hss]
  unfold workerMail
  simp [String.join_cons, String.append_assoc]

end Parts

lemma workerContext_ok {master worker : Value} {title url : String} (hworker : IsWorker worker)
    (htitle : (master.own "config").own "title" = .text title)
    (hurl : (master.own "config").own "buildbotURL" = .text url) :
    workerContext master worker =
      .ok (MessageContext.ofWorker (.text title) (.text url) worker) := by
  obtain ⟨hconfig, hmember⟩ := MessageContext.config_ok htitle
  have hname := MessageContext.memberOf_of_isNullish
    (isNullish_of_isComposite hworker.isComposite) "name"
  simp [workerContext, hconfig, hmember, hname, htitle, hurl, bind, Except.bind]

variable {s : Store} {disk : Disk} {options master worker : Value} {hook : Option Hook}
  {f : Formatter} {title url : String}

theorem formatWorker_workerMail (hs : s.Serves (bundledPath disk .worker) Bundled.workerText)
    (hdisk : disk.read? (bundledPath disk .worker) = some Bundled.workerText)
    (hoptions : AreDefault options) (hhook : hookOf options hook = [])
    (hmake : (make s disk .worker options hook).result = .ok f) (hworker : IsWorker worker)
    (htitle : (master.own "config").own "title" = .text title)
    (hurl : (master.own "config").own "buildbotURL" = .text url) :
    (f.formatWorker master worker).result =
      .ok ⟨workerMail f.renderer.type.fill title worker url, f.renderer.type, none⟩ := by
  obtain ⟨ss, hcompile, hss⟩ := Bundled.compile_workerText
  have hplain := make_default hs hdisk hcompile hoptions hhook hmake
  have hd : Record.Distinct (MessageContext.ofWorker (.text title) (.text url) worker) := by
    simp only [MessageContext.ofWorker, Record.Distinct, Record.keys, List.map_cons, List.map_nil]
    decide
  obtain ⟨m, hm, hmessage⟩ := hplain.messageOf_eq (by decide) hd master
  have hrun := run_workerText hss f.renderer.type (Value.fieldsBound m) hworker
    (hm "buildbot_title") (hm "buildbot_url") (hm "worker")
  rw [formatWorker, workerContext_ok hworker htitle hurl, renderMessage, hmessage, report_outcome]
  exact hplain.outcome_run hrun

def silentWorker : Value :=
  .record 1 [("name", .text "w<1>"), ("workerinfo", .text "none"), ("last_connection", .null)]

lemma read_workerText :
    bundledDisk.read? (bundledPath bundledDisk .worker) = some Bundled.workerText := by
  rfl

theorem formatWorker_workerMail_silent :
    ∃ f, (make Store.empty bundledDisk .worker htmlOptions none).result = .ok f ∧
      (f.formatWorker sampleMaster silentWorker).result =
        .ok ⟨workerMail f.renderer.type.fill "CI" silentWorker "http://ci/", f.renderer.type,
          none⟩ := by
  obtain ⟨ss, hcompile, -⟩ := Bundled.compile_workerText
  obtain ⟨f, hmake⟩ : ∃ f, (make Store.empty bundledDisk .worker htmlOptions none).result = .ok f :=
    exists_make .empty read_workerText hcompile rfl rfl rfl
  exact ⟨f, hmake, formatWorker_workerMail .empty read_workerText areDefault_htmlOptions rfl hmake
    ⟨rfl, rfl, rfl, rfl⟩ rfl rfl⟩

end Formatter

end BuildNotice
