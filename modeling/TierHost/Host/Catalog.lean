import TierHost.Host.Event
import TierHost.Text.Occurrence
import TierHost.Text.Order

/-!
The modules of the host interface, the names that each defines, and the names that the package
offers as a whole.
-/

namespace TierHost.Catalog

/-- A module: the names that the package offers from it, and the others that it defines or takes in
itself. -/
structure Module where
  name : String
  offered : List String
  others : List String
  deriving DecidableEq, Repr

/-- The modules, in the order in which the package takes them in. -/
def modules : List Module := [
  ⟨"cancellation",
    ["CancellationToken", "OperationCanceledError"],
    ["annotations", "threading", "Optional", "throw_if_canceled"]⟩,
  ⟨"symbols",
    ["SymbolKind", "AssemblySymbol", "NamespaceSymbol", "NamedTypeSymbol", "Compilation",
      "SymbolVisitor", "build_assembly", "build_namespace_tree"],
    ["annotations", "hashlib", "dataclass", "field", "Enum", "ClassVar", "Dict", "Generic",
      "Iterable", "Iterator", "List", "Optional", "Tuple", "TypeVar", "Union", "GLOBAL_PREFIX",
      "R", "Symbol", "_fingerprint_lines", "_DISPATCH", "_split_qualified"]⟩,
  ⟨"syntax",
    ["SourceLocation", "SyntaxKind", "SyntaxNode", "Document"],
    ["annotations", "dataclass", "field", "replace", "Enum", "Iterator", "Optional", "Tuple"]⟩,
  ⟨"checkers",
    ["Diagnostic", "DiagnosticDescriptor", "DiagnosticSeverity", "DiagnosticAnalyzer",
      "CodeFixProvider", "AnalysisContext", "AnalyzerRegistry", "AnalyzerDriver",
      "SuppressionManager"],
    ["annotations", "json", "logging", "time", "ABC", "abstractmethod", "defaultdict",
      "dataclass", "field", "Enum", "fnmatch", "Any", "Callable", "ClassVar", "Dict", "FrozenSet",
      "Iterable", "List", "Mapping", "Optional", "Sequence", "Set", "Tuple", "Type",
      "CancellationToken", "OperationCanceledError", "Document", "SourceLocation", "SyntaxKind",
      "SyntaxNode", "logger", "ANALYZER_EXCEPTION_DESCRIPTOR", "SyntaxNodeAction",
      "SyntaxNodeAnalysisContext", "apply_code_fix", "_SEVERITY_OPTIONS", "effective_severity",
      "AnalyzerRunResults"]⟩,
  ⟨"ordering_rules",
    ["SA1213EventAccessorsMustFollowOrder", "SA1213CodeFixProvider"],
    ["annotations", "logging", "ClassVar", "FrozenSet", "Optional", "AnalysisContext",
      "CodeFixProvider", "Diagnostic", "DiagnosticAnalyzer", "DiagnosticDescriptor",
      "DiagnosticSeverity", "SyntaxNodeAnalysisContext", "Document", "SyntaxKind", "SyntaxNode",
      "logger", "_misordered_accessor_list"]⟩,
  ⟨"symbol_dump",
    ["load_assembly", "load_compilation", "dump_assembly", "SymbolDumpError"],
    ["annotations", "Any", "List", "Optional", "Tuple", "Union", "sexpdata", "Symbol",
      "AssemblySymbol", "Compilation", "NamedTypeSymbol", "NamespaceSymbol", "SymbolKind", "Sexp",
      "_sym_name", "_head", "_expect_name", "_parse", "_load_type", "_load_members",
      "_load_namespace", "_load_assembly_form", "_type_form", "_member_forms", "_assembly_form",
      "dump_compilation"]⟩]

def commonNames : List String :=
  ["__all__", "__annotations__", "__builtins__", "__cached__", "__class__", "__delattr__",
    "__dict__", "__dir__", "__doc__", "__eq__", "__file__", "__format__", "__ge__",
    "__getattribute__", "__getstate__", "__gt__", "__hash__", "__init__", "__init_subclass__",
    "__le__", "__loader__", "__lt__", "__name__", "__ne__", "__new__", "__package__",
    "__reduce__", "__reduce_ex__", "__repr__", "__setattr__", "__sizeof__", "__spec__", "__str__",
    "__subclasshook__"]

def Module.has (m : Module) (name : String) : Bool :=
  m.offered.contains name || m.others.contains name || commonNames.contains name

def package : String := "analyzer_shims"

def moduleNames : List String := Text.sorted (modules.map (·.name))

/-- All names that the package offers, in increasing order. -/
def hostNames : List String :=
  Text.sorted (modules.flatMap (fun m => m.name :: m.offered) ++ ["list_submodules", "__version__"])

/-- All names that the generator's package offers, in increasing order. -/
def generatorNames : List String := Text.sorted [
  "__version__", "DEFAULT_CONFIG", "ConfigError", "DuplicateHintNameError", "GeneratedClassSpec",
  "GeneratedSource", "GenerationCache", "GeneratorConfig", "InternalError", "MirrorError",
  "MirrorPipeline", "SourceOutput", "TestClassCollector", "VersionChain", "VersionChainResolver",
  "collect_candidates", "configure_logging", "emit_source", "generate_sources", "render_source",
  "resolve_version_chain", "rewrite_name"]

def version : String := "0.3.0"

/-- Why names are not taken in. -/
inductive ImportError where
  | noModule (name : String)
  | noName (module name : String)
  | readOnly
  deriving DecidableEq, Repr

/-- The wording of a missing module, under the module or the package that was to hold it. -/
def missingIn (holder name : String) : String :=
  let text := "No module named " ++ Text.literal (holder ++ "." ++ name)
  if holder = package then text else text ++ "; " ++ Text.literal holder ++ " is not a package"

def requiredMessage (name cause : String) : String :=
  package ++ ": required submodule '" ++ name ++ "' failed to import: " ++ cause

/-- The module that holds the package's own text. It fails to load, because it requires the first
module inside itself. -/
def selfName : String := "__init__"

/-- What looking for a missing module is answered with. A dotted name is looked up segment by
segment, and modules hold no others. -/
def noModuleMessage (name : String) : String :=
  match (Text.pieces '.' name.toList).map String.ofList with
  | first :: rest =>
    if first = selfName then
      let inner := (modules.map (·.name)).headD ""
      requiredMessage inner (missingIn (package ++ "." ++ selfName) inner)
    else match rest with
      | second :: _ =>
        if modules.any (·.name = first) then missingIn (package ++ "." ++ first) second
        else missingIn package first
      | [] => missingIn package first
  | [] => missingIn package name

def noNameMessage (module name : String) : String :=
  package ++ "." ++ module ++ " does not export '" ++ name ++ "'"

def ImportError.message : ImportError → String
  | .noModule name => requiredMessage name (noModuleMessage name)
  | .noName module name => noNameMessage module name
  | .readOnly => "readonly attribute"

/-- The warning about an optional module that is missing. -/
def optionalWarning (name : String) : String :=
  package ++ ": optional submodule '" ++ name ++ "' could not be imported (" ++
    noModuleMessage name ++ "); related symbols will be unavailable."

/-- What taking names in has done: the names added, warnings, log entries, and an error if it ended
early. -/
structure Import where
  added : List String
  warnings : List String
  events : List Event
  error : Option ImportError
  deriving DecidableEq, Repr

/-- The name of a module's table of names. The package's own table cannot be replaced by it. -/
def tableName : String := "__dict__"

def listName : String := "__all__"

/-- Takes names of a module in, up to the first missing one if all are required, and never past the
module's table of names. -/
def importFrom (required : Bool) (m : Module) : List String → Import
  | [] => ⟨[], [], [], none⟩
  | name :: names =>
    if name = tableName then ⟨[], [], [], some .readOnly⟩
    else if m.has name then
      let r := importFrom required m names
      { r with added := name :: r.added }
    else if required then ⟨[], [], [], some (.noName m.name name)⟩
    else
      let r := importFrom required m names
      { r with events := .missingExport (noNameMessage m.name name) :: r.events }

/-- What shows as added: with a module's own list, which is the shorter, in place of the package's
list, nothing does. -/
def Import.shown (r : Import) : Import :=
  if r.added.contains listName then { r with added := [] } else r

/-- Takes names of a module in; an optional module may be missing. -/
def importNames (required : Bool) (module : String) (names : List String) : Import :=
  match modules.find? fun m => m.name = module with
  | some m => (importFrom required m names).shown
  | none =>
    if required then ⟨[], [], [], some (.noModule module)⟩
    else ⟨[], [optionalWarning module], [.skippedModule module (noModuleMessage module)], none⟩

end TierHost.Catalog
