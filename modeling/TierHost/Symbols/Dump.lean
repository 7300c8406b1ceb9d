import TierHost.Sexp.Reader
import TierHost.Symbols.Basic

/-!
Symbol dumps: compilations and assemblies as s-expressions, with the names and the nesting of their
symbols. Reading a dump restores the paths of all symbols.
-/

namespace TierHost

/-- Why a dump does not describe symbols. -/
inductive DumpError where
  | unreadable (cause : Sexp.ReadError)
  | notForm (form : Sexp)
  | notSymbol (head : Sexp)
  | noName (tag : String) (form : Sexp)
  | notNestedType (form : Sexp)
  | notMember (tag : String) (form : Sexp)
  | notSegment (form : Sexp)
  | notAssembly (form : Sexp)
  | notCompilation (form : Sexp)
  deriving Repr

def DumpError.message : DumpError → String
  | .unreadable cause => "Malformed s-expression (" ++ cause.message ++ ")"
  | .notForm form => "Expected a non-empty list form: " ++ form.describe
  | .notSymbol head => "Expected symbol, got " ++ head.typeName ++ ": " ++ head.describe
  | .noName tag form => "(" ++ tag ++ " ...) requires a string name: " ++ form.describe
  | .notNestedType form =>
    "Only (type ...) forms may be nested in a type: " ++ form.describe
  | .notMember tag form =>
    "Unexpected (" ++ tag ++ " ...) inside a namespace: " ++ form.describe
  | .notSegment form => "Namespace names are single non-empty segments: " ++ form.describe
  | .notAssembly form => "Expected (assembly ...): " ++ form.describe
  | .notCompilation form => "Expected (compilation ...): " ++ form.describe

namespace Dump

def tagOf : Sexp → Except DumpError String
  | .symbol name => .ok name
  | head => .error (.notSymbol head)

mutual

def loadType (space outer : String) : Sexp → Except DumpError NamedType
  | .list (head :: body) => do
    let form := Sexp.list (head :: body)
    if (← tagOf head) != "type" then throw (.notNestedType form)
    match body with
    | .text name :: nested =>
      return ⟨name, space, outer, ← loadTypes space (extendPath outer name) nested⟩
    | _ => throw (.noName "type" form)
  | form => .error (.notForm form)

def loadTypes (space outer : String) : List Sexp → Except DumpError (List NamedType)
  | [] => .ok []
  | form :: forms => do
    let t ← loadType space outer form
    return t :: (← loadTypes space outer forms)

end

mutual

def loadMember (path : String) : Sexp → Except DumpError Member
  | .list (head :: body) => do
    let form := Sexp.list (head :: body)
    let tag ← tagOf head
    if tag = "namespace" then
      match body with
      | .text name :: members =>
        if name.isEmpty || name.toList.contains '.' then throw (.notSegment form)
        return .space name path (← loadMembers (extendPath path name) members)
      | _ => throw (.noName tag form)
    else if tag = "type" then return .type (← loadType path "" form)
    else throw (.notMember tag form)
  | form => .error (.notForm form)

/-- Reads the members of the namespace with the given path. -/
def loadMembers (path : String) : List Sexp → Except DumpError (List Member)
  | [] => .ok []
  | form :: forms => do
    let m ← loadMember path form
    return m :: (← loadMembers path forms)

end

def loadAssemblyForm : Sexp → Except DumpError Assembly
  | .list (head :: body) => do
    let form := Sexp.list (head :: body)
    if (← tagOf head) != "assembly" then throw (.notAssembly form)
    match body with
    | .text name :: members => return ⟨name, ⟨"", "", ← loadMembers "" members⟩⟩
    | _ => throw (.noName "assembly" form)
  | form => .error (.notForm form)

/-- Reads a compilation; its name may be left out. -/
def loadCompilationForm : Sexp → Except DumpError Compilation
  | .list (head :: body) => do
    if (← tagOf head) != "compilation" then throw (.notCompilation (.list (head :: body)))
    let (name, references) := match body with
      | .text name :: rest => (some name, rest)
      | rest => (none, rest)
    return ⟨name, ← references.mapM loadAssemblyForm⟩
  | form => .error (.notForm form)

mutual

def typeForm : NamedType → Sexp
  | ⟨name, _, _, nested⟩ => .list (.symbol "type" :: .text name :: typeForms nested)

def typeForms : List NamedType → List Sexp
  | [] => []
  | t :: ts => typeForm t :: typeForms ts

end

mutual

def memberForm : Member → Sexp
  | .space name _ members => .list (.symbol "namespace" :: .text name :: memberForms members)
  | .type t => typeForm t

def memberForms : List Member → List Sexp
  | [] => []
  | m :: ms => memberForm m :: memberForms ms

end

def assemblyForm (a : Assembly) : Sexp :=
  .list (.symbol "assembly" :: .text a.name :: memberForms a.root.members)

def compilationForm (c : Compilation) : Sexp :=
  let name := c.name.toList.map Sexp.text
  .list (.symbol "compilation" :: name ++ c.references.map assemblyForm)

end Dump

def Assembly.load (text : String) : Except DumpError Assembly := do
  Dump.loadAssemblyForm (← (Sexp.read text).mapError .unreadable)

def Compilation.load (text : String) : Except DumpError Compilation := do
  Dump.loadCompilationForm (← (Sexp.read text).mapError .unreadable)

def Assembly.dump (a : Assembly) : String := String.ofList (Dump.assemblyForm a).write

def Compilation.dump (c : Compilation) : String := String.ofList (Dump.compilationForm c).write

end TierHost
