import BuildNotice.Text.Utf8
import BuildNotice.Renderer.Desk
import BuildNotice.Proofs.Formatter.BuildMail
import BuildNotice.Proofs.Formatter.WorkerMail
import BuildNotice.Proofs.Formatter.Reporting
import BuildNotice.Proofs.Session.Resolving
import BuildNotice.Proofs.Session.Formatting
import BuildNotice.Proofs.Session.Uncached
import BuildNotice.Proofs.Template.MissingKey
import BuildNotice.Proofs.Template.PlainText
import BuildNotice.Proofs.Template.EscapedLeaves
import BuildNotice.Proofs.Template.AddedEntries
import BuildNotice.Proofs.Template.Classes
import BuildNotice.Proofs.Settings
import BuildNotice.Proofs.Template.Subjects
import BuildNotice.Proofs.Template.Rendered
import BuildNotice.Proofs.Template.Accusing
import BuildNotice.Proofs.Formatter.Making
import BuildNotice.Proofs.Template.Primitives
import BuildNotice.Proofs.Template.Brackets
import BuildNotice.Proofs.Renderer.Merging
import BuildNotice.Proofs.Template.Presence
import BuildNotice.Proofs.Formatter.Shadowing
import BuildNotice.Proofs.Session.Equality
import BuildNotice.Proofs.Build.Link
import BuildNotice.Proofs.MessageContext.Worker
import BuildNotice.Proofs.Log.Timer
