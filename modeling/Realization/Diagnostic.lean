import Realization.Graph.Fault
import Realization.Settings.Basic

/-!
Diagnostics: the form in which errors of every part are reported, with the kind of error, the type
and member it is about, the location of the rule behind it, and a message that spells out the
causes.
-/
namespace Realization

inductive ErrorKind where
  | notAnInterface
  | extendsOther
  | invalidMember
  | unpairedProperty
  | unsupportedProperty
  | duplicateCreator
  | conflictingContract
  | noCreator
  | alreadyRealized
  | frozen
  | cyclic
  | ruleFailed
  | previouslyFailed
  | typeMismatch
  | depthExceeded
  | unknownProperty
  | unknownMember
  | argumentMismatch
  | settings
  | internal
  deriving DecidableEq, Repr

def ErrorKind.label : ErrorKind → String
  | .notAnInterface => "NotAnInterface"
  | .extendsOther => "ExtendsOtherContract"
  | .invalidMember => "InvalidMember"
  | .unpairedProperty => "UnpairedProperty"
  | .unsupportedProperty => "UnsupportedPropertyType"
  | .duplicateCreator => "DuplicateCreationRule"
  | .conflictingContract => "ConflictingContract"
  | .noCreator => "NoCreatorForSubject"
  | .alreadyRealized => "SubjectAlreadyRealized"
  | .frozen => "RegistryFrozen"
  | .cyclic => "CyclicDependency"
  | .ruleFailed => "RuleFailed"
  | .previouslyFailed => "PreviouslyFailed"
  | .typeMismatch => "TypeMismatch"
  | .depthExceeded => "DepthExceeded"
  | .unknownProperty => "UnknownProperty"
  | .unknownMember => "UnknownMember"
  | .argumentMismatch => "ArgumentMismatch"
  | .settings => "Config"
  | .internal => "Internal"

structure Diagnostic where
  kind : ErrorKind
  type : Option String := none
  member : Option String := none
  location : Option Locator := none
  message : String
  deriving DecidableEq, Repr

def Diagnostic.display (d : Diagnostic) : String :=
  "[" ++ d.kind.label ++ "] " ++ d.message ++
    match d.location with
    | some location => " at " ++ location
    | none => ""

def chained (message : String) : List String → String
  | [] => message
  | cause :: causes => chained (message ++ ": " ++ cause) causes

def Violation.kind : Violation → ErrorKind
  | .notAnInterface _ _ => .notAnInterface
  | .extendsOther _ _ => .extendsOther
  | .invalidMember _ _ _ => .invalidMember
  | .unpairedProperty _ _ _ => .unpairedProperty
  | .unsupportedProperty _ _ _ _ => .unsupportedProperty

def Violation.diagnostic (v : Violation) : Diagnostic :=
  { kind := v.kind, type := some v.type, member := v.member?, message := v.message }

def AccessError.kind : AccessError → ErrorKind
  | .unknownProperty _ _ => .unknownProperty
  | .unknownMember _ _ => .unknownMember
  | .argumentMismatch _ _ _ _ => .argumentMismatch

def AccessError.diagnostic (e : AccessError) : Diagnostic :=
  { kind := e.kind, type := some e.contract, member := some e.asked, message := e.message }

/-- A contract that is refused is reported as the violation found in it. -/
def Refusal.diagnostic (r : Refusal) : Diagnostic :=
  let message := chained r.message r.causes
  let about (kind : ErrorKind) (subject : TypeRef) : Diagnostic :=
    { kind, type := some subject.name, message }
  let diagnostic := match r with
    | .duplicateCreator subject _ _ => about .duplicateCreator subject
    | .invalidContract _ _ violation => { violation.diagnostic with message }
    | .conflictingContract subject _ _ _ => about .conflictingContract subject
    | .noCreator subject _ => about .noCreator subject
    | .alreadyRealized subject _ => about .alreadyRealized subject
    | .frozen _ => { kind := .frozen, message }
  { diagnostic with location := some r.rule }

def Fault.diagnostic (f : Fault) : Diagnostic :=
  let message := chained f.message f.causes
  let located (kind : ErrorKind) : Diagnostic :=
    { kind, type := f.subject?.map (·.name), location := f.rule?, message }
  match f with
  | .refused refusal => refusal.diagnostic
  | .invalidContract _ violation => { violation.diagnostic with message }
  | .noCreator _ _ _ => located .noCreator
  | .cyclic _ _ => located .cyclic
  | .ruleFailed _ _ _ => located .ruleFailed
  | .previouslyFailed _ => located .previouslyFailed
  | .typeMismatch _ _ _ => located .typeMismatch
  | .depthExceeded _ _ => located .depthExceeded
  | .internal _ => located .internal

def SettingsError.diagnostic (e : SettingsError) : Diagnostic :=
  { kind := .settings, message := e.message }

end Realization
