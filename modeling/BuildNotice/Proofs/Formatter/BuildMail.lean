import BuildNotice.Proofs.Build.Finished
import BuildNotice.Proofs.Formatter.Default
import BuildNotice.Proofs.Formatter.Blanks

/-! The bundled template for finished builds is a fixed text with nine blanks. -/

namespace BuildNotice

open Value (Fields)
open Template Template.Render Template.Written

namespace Template

variable {sc : Scope} {label : Nat} {fields : Fields}

lemma printAll?_texts (names : List String) :
    Helper.printAll? (names.map Value.text) = some names := by
  induction names with
  | nil => rfl
  | cons name names ih => simp [Helper.printAll?, Value.print?, ih]

lemma join_shows (invoke : Invoke) (h : sc.Sees (.record label fields)) (type : MessageType)
    (he : sc.escapes = type.escapes) {key : String} (hn : isPlainPath [key] = true) {l : Nat}
    {names : List String} (hv : Record.get? key fields = some (.list l (names.map .text))) :
    (Piece.output ["join"] [.path [key]]).Shows invoke sc
      (type.fill (.text (String.intercalate ", " names))) := by
  have hargs : List.Forall₂ (Term.Gives sc) [.path [key]] [.list l (names.map .text)] :=
    .cons (field_gives h hn hv) .nil
  refine call_shows h (show isHelperName "join" .join = true by decide) (by simp) hargs
    (v := .text (String.intercalate ", " names)) ?_ ?_
  · intro ids
    have hjoin : Yields (Helper.joinOf [.list l (names.map .text)])
        (.text (String.intercalate ", " names)) :=
      (yields_ofOption (printAll?_texts names)).bind (yields_pure _)
    exact (require_yields (by simp) ids "join").bind hjoin
  · rw [he]
    exact type.printed_fill rfl

lemma propertyOf_first {build : Value} (h : Build.IsFinished build) (name : String) :
    Helper.propertyOf [build, .text name, .text "<unknown>"] = Build.firstOf build name := by
  obtain ⟨l, properties, hp, -⟩ := h.properties
  have hbuild : build.isComposite = true := by
    have hr := h.isRecord
    cases build with
    | record label fields => rfl
    | _ => exact absurd hr (by simp [Options.isRecord])
  have hknows : build.knows "properties" = true := knows_of_own hbuild (by rw [hp]; rfl)
  have hproperties : (Value.record l properties).isComposite = true := rfl
  rcases Build.property_cases h name with ⟨l', v, source, hv, -⟩ | hv
  · rw [hp] at hv
    simp [Helper.propertyOf, hbuild, hknows, hp, hv, hproperties, Build.firstOf]
  · rw [hp] at hv
    simp [Helper.propertyOf, hbuild, hknows, hp, hv, hproperties, Build.firstOf, Helper.textOr]

lemma property_shows (invoke : Invoke) (h : sc.Sees (.record label fields)) (type : MessageType)
    (he : sc.escapes = type.escapes) {key : String} (hn : isPlainPath [key] = true) {build : Value}
    (hbuild : Build.IsFinished build) (hv : Record.get? key fields = some build) (name : String) :
    (Piece.output ["property"] [.path [key], .string name, .string "<unknown>"]).Shows invoke sc
      (type.fill (Build.firstOf build name)) := by
  have hne : build ≠ .undefined := by
    rintro rfl
    exact absurd hbuild.isRecord (by simp [Options.isRecord])
  apply property_prints invoke h hn hv hne
  rw [propertyOf_first hbuild name, he]
  exact type.printed_fill (Build.firstOf_isPrintable hbuild name)

namespace Bundled

def buildPieces : List Piece :=
  [.output ["status_detected"] [], .text " on builder ", .output ["buildername"] [],
    .text " while building ", .output ["projects"] [],
    .text ".\nFull details are available at:\n    ", .output ["build_url"] [],
    .text "\n\nBuildbot URL: ", .output ["buildbot_url"] [], .text "\n\nWorker for this Build: ",
    .output ["workername"] [], .text "\n\nBuild Reason: ",
    .output ["property"] [.path ["build"], .string "reason", .string "<unknown>"],
    .text "\nBlamelist: ", .output ["join"] [.path ["blamelist"]], .text "\n\n",
    .output ["summary"] [], .text "\n\nSincerely,\n -The Buildbot\n"]

lemma write_buildPieces :
    write (.text "The Buildbot has detected a " :: buildPieces) = buildText := by
  decide +kernel

lemma compile_buildText : ∃ ss, compile buildText = .ok (.mk [] ss) ∧
    Compile (.text "The Buildbot has detected a " :: buildPieces) ss := by
  rw [← write_buildPieces]
  exact compile_write (by decide +kernel) (by decide)

end Bundled

end Template

namespace Formatter

def buildMail (fill : Value → String) (detected builder projects link url : String)
    (worker reason : Value) (names : List String) (summary : String) : String :=
  "The Buildbot has detected a " ++ fill (.text detected) ++ " on builder " ++
    fill (.text builder) ++ " while building " ++ fill (.text projects) ++
    ".\nFull details are available at:\n    " ++ fill (.text link) ++ "\n\nBuildbot URL: " ++
    fill (.text url) ++ "\n\nWorker for this Build: " ++ fill worker ++ "\n\nBuild Reason: " ++
    fill reason ++ "\nBlamelist: " ++ fill (.text (String.intercalate ", " names)) ++ "\n\n" ++
    fill (.text summary) ++ "\n\nSincerely,\n -The Buildbot\n"

lemma run_buildText {ss : List Statement}
    (hss : Compile (.text "The Buildbot has detected a " :: Bundled.buildPieces) ss)
    (type : MessageType) (label : Nat) {fields : Fields} {builder url : String} {build : Value}
    (hbuild : Build.IsFinished build) {l : Nat} {names : List String}
    {detected projects link summary : String}
    (h : Build.Holds fields (.text builder) build (.list l (names.map .text)) url detected projects
      link summary) :
    run type.escapes (.mk [] ss) (.record label fields) =
      .ok (buildMail type.fill detected builder projects link url (Build.firstOf build "workername")
        (Build.firstOf build "reason") names summary) := by
  let levels := (Program.mk [] ss).looksOut
  have hsees := rootScope_sees type.escapes levels (.record label fields)
  have hfield {key : String} (hn : isPlainPath [key] = true) (hl : looksUp [key] = true) {v : Value}
      (hv : Record.get? key fields = some v) (hp : v.isPrintable = true) :=
    field_shows (invoke type.escapes depthLimit) hsees type rfl hn hl hv hp
  have hworker : (Build.firstOf build "workername").isPrintable = true :=
    Build.firstOf_isPrintable hbuild "workername"
  have hreason := property_shows (invoke type.escapes depthLimit) hsees type rfl (by decide) hbuild
    h.build "reason"
  have hnames := join_shows (invoke type.escapes depthLimit) hsees type rfl (by decide) h.blamelist
  have hshows : List.Forall₂
      (Piece.Shows (invoke type.escapes depthLimit)
        (rootScope type.escapes levels (.record label fields)))
      Bundled.buildPieces
      [type.fill (.text detected), " on builder ", type.fill (.text builder), " while building ",
        type.fill (.text projects), ".\nFull details are available at:\n    ",
        type.fill (.text link), "\n\nBuildbot URL: ", type.fill (.text url),
        "\n\nWorker for this Build: ", type.fill (Build.firstOf build "workername"),
        "\n\nBuild Reason: ", type.fill (Build.firstOf build "reason"), "\nBlamelist: ",
        type.fill (.text (String.intercalate ", " names)), "\n\n", type.fill (.text summary),
        "\n\nSincerely,\n -The Buildbot\n"] := by
    rw [Bundled.buildPieces]
    refine .cons (hfield (by decide) (by decide) h.detected rfl) (.cons (text_shows _) ?_)
    refine .cons (hfield (by decide) (by decide) h.builder rfl) (.cons (text_shows _) ?_)
    refine .cons (hfield (by decide) (by decide) h.projects rfl) (.cons (text_shows _) ?_)
    refine .cons (hfield (by decide) (by decide) h.link rfl) (.cons (text_shows _) ?_)
    refine .cons (hfield (by decide) (by decide) h.url rfl) (.cons (text_shows _) ?_)
    refine .cons (hfield (by decide) (by decide) h.worker hworker) ?_
    refine .cons (text_shows _) (.cons hreason (.cons (text_shows _) ?_))
    refine .cons hnames (.cons (text_shows _) ?_)
    exact .cons (hfield (by decide) (by decide) h.summary rfl) (.cons (text_shows _) .nil)
  rw [run_shows (.text (text_tells (by decide)) hshows) hss]
  unfold buildMail
  simp [String.append_assoc]

variable {s : Store} {disk : Disk} {options build master : Value} {hook : Option Hook}
  {f : Formatter} {title url builder : String} {names : List String}

theorem formatBuild_buildMail (hs : s.Serves (bundledPath disk .build) Bundled.buildText)
    (hdisk : disk.read? (bundledPath disk .build) = some Bundled.buildText)
    (hoptions : AreDefault options) (hhook : hookOf options hook = [])
    (hmake : (make s disk .build options hook).result = .ok f) (hbuild : Build.IsFinished build)
    (htitle : (master.own "config").own "title" = .text title)
    (hurl : (master.own "config").own "buildbotURL" = .text url) (l₁ l₂ : Nat) (tags : List Value) :
    ∃ detected projects link summary,
      Build.Derives (.list l₁ tags) build master detected projects link summary ∧
      (f.formatBuild (.list l₁ tags) (.text builder) build master
        (.list l₂ (names.map .text))).result =
        .ok ⟨buildMail f.renderer.type.fill detected builder projects link url
          (Build.firstOf build "workername") (Build.firstOf build "reason") names summary,
          f.renderer.type, none⟩ := by
  obtain ⟨ss, hcompile, hss⟩ := Bundled.compile_buildText
  have hplain := make_default hs hdisk hcompile hoptions hhook hmake
  obtain ⟨base, detected, projects, link, summary, hbase, hderives, hholds⟩ :=
    Build.buildContext_ok hbuild htitle hurl l₁ tags (.text builder) (.list l₂ (names.map .text))
  have hd : Record.Distinct base := by
    obtain ⟨_, _, -, -, hof⟩ := isBase_of_buildContext hbase
    exact MessageContext.ofBuild_distinct hof
  obtain ⟨m, hm, hmessage⟩ := hplain.messageOf_eq (by decide) hd master
  have hrun := run_buildText hss f.renderer.type (Value.fieldsBound m) hbuild (hholds.congr hm)
  refine ⟨detected, projects, link, summary, hderives, ?_⟩
  rw [formatBuild, hbase, renderMessage, hmessage, report_outcome]
  exact hplain.outcome_run hrun

def finishedBuild : Value :=
  .record 4 [("number", .number 3), ("results", .number 0), ("state_string", .text "build <ok>"),
    ("properties", .record 2 [("reason", .list 1 [.null, .text "Force"])]),
    ("builder", .record 1 [("builderid", .number 7)]),
    ("buildset", .record 3 [("sourcestamps", .list 2 [.record 1 [("branch", .text "main")]])])]

lemma read_buildText :
    bundledDisk.read? (bundledPath bundledDisk .build) = some Bundled.buildText := by
  rfl

lemma finishedBuild_isFinished : Build.IsFinished finishedBuild := by
  refine ⟨rfl, rfl, rfl, rfl, rfl, ⟨2, _, rfl, ?_⟩, ⟨2, _, rfl, rfl⟩⟩
  intro name v hv
  obtain ⟨-, rfl⟩ : "reason" = name ∧ .list 1 [.null, .text "Force"] = v := by
    simpa [Record.get?] using ite_eq_iff.mp hv
  rfl

theorem formatBuild_buildMail_html :
    ∃ f, (make Store.empty bundledDisk .build htmlOptions none).result = .ok f ∧
      ∃ detected projects link summary,
        Build.Derives (.list 1 [.text "change"]) finishedBuild sampleMaster detected projects link summary ∧
        (f.formatBuild (.list 1 [.text "change"]) (.text "b<1>") finishedBuild sampleMaster
          (.list 1 (["ann", "bo"].map .text))).result =
          .ok ⟨buildMail f.renderer.type.fill detected "b<1>" projects link "http://ci/"
            (.text "<unknown>") .null ["ann", "bo"] summary, f.renderer.type, none⟩ := by
  obtain ⟨ss, hcompile, -⟩ := Bundled.compile_buildText
  obtain ⟨f, hmake⟩ : ∃ f, (make Store.empty bundledDisk .build htmlOptions none).result = .ok f :=
    exists_make .empty read_buildText hcompile rfl rfl rfl
  exact ⟨f, hmake, formatBuild_buildMail .empty read_buildText areDefault_htmlOptions rfl hmake
    finishedBuild_isFinished rfl rfl 1 1 [.text "change"]⟩

end Formatter

end BuildNotice
