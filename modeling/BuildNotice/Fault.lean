import BuildNotice.Value.Print
import BuildNotice.Value.Member

namespace BuildNotice

open Value (Fields)

namespace Fault

inductive Kind where
  | general
  | configuration
  | templateNotFound
  | templateSyntax
  | undefinedKey
  deriving DecidableEq

def Kind.name : Kind → String
  | .general => "AppError"
  | .configuration => "ConfigurationError"
  | .templateNotFound => "TemplateNotFoundError"
  | .templateSyntax => "TemplateSyntaxError"
  | .undefinedKey => "UndefinedContextKeyError"

def Kind.all : List Kind :=
  [.general, .configuration, .templateNotFound, .templateSyntax, .undefinedKey]

def Kind.covers (k l : Kind) : Bool :=
  k == .general || k == l

end Fault

/-- The subject is the key that is undefined or the path where no template was found. A fault that
is not operational is a mistake in a template or in this library. -/
structure Fault where
  kind : Fault.Kind
  message : String
  operational : Bool
  code : Value
  context : Value
  subject : Value

namespace Fault

def general (message : String) (operational : Bool) (code context : Value) : Fault :=
  ⟨.general, message, operational, code, context, .undefined⟩

def defaultConfiguration : String := "Invalid configuration"

def configuration (message : String) (context : Value) : Fault :=
  ⟨.configuration, message, true, .text "CONFIGURATION_ERROR", context, .undefined⟩

def templateSyntax (message : String) (context : Value) : Fault :=
  ⟨.templateSyntax, message, true, .text "TEMPLATE_SYNTAX_ERROR", context, .undefined⟩

def shown (v : Value) : String := v.print?.getD ""

def templateNotFound (path context : Value) : Fault :=
  ⟨.templateNotFound, "Template not found: " ++ shown path, true, .text "TEMPLATE_NOT_FOUND",
    Value.ofFields (Record.merge [("templatePath", path)] context.spread), path⟩

def undefinedKey (key context : Value) : Fault :=
  ⟨.undefinedKey, "'" ++ shown key ++ "' is undefined in the rendering context", false,
    .text "UNDEFINED_CONTEXT_KEY", Value.ofFields (Record.merge [("key", key)] context.spread),
    key⟩

def optional (key : String) (v : Value) : Fields :=
  if v.isTruthy then [(key, v)] else []

def toFields (f : Fault) : Fields :=
  [("name", .text f.kind.name), ("message", .text f.message)] ++ optional "code" f.code ++
    optional "context" f.context

def kinds (f : Fault) : List Kind :=
  Kind.all.filter fun k => k.covers f.kind

end Fault

end BuildNotice
