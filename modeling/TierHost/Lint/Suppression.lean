import TierHost.Lint.Diagnostic
import TierHost.Listing
import TierHost.Text.Wildcard

/-!
Suppressions: rules that are silenced everywhere, or in the files that a pattern covers. A star in
place of a rule silences all of them. They are kept in groups, the rules of one pattern together.
-/

namespace TierHost

/-- A suppression of a rule, everywhere or in files. -/
inductive Suppression where
  | everywhere (id : String)
  | inFiles (id pattern : String)
  deriving DecidableEq, Repr

/-- The suppressions that a host adds, one after another. -/
abbrev Suppressions := List Suppression

/-- Suppressions in groups: the rules that are silenced everywhere, and for each pattern those that are
silenced in the files it covers. -/
structure SuppressionTable where
  everywhere : List String
  inFiles : Listing String (List String)

namespace SuppressionTable

def empty : SuppressionTable := ⟨[], []⟩

/-- The rules that are silenced under a pattern. -/
def under (t : SuppressionTable) (pattern : String) : List String :=
  (t.inFiles.get? pattern).getD []

def add (t : SuppressionTable) : Suppression → SuppressionTable
  | .everywhere id => { t with everywhere := id :: t.everywhere }
  | .inFiles id pattern => { t with inFiles := t.inFiles.put pattern (id :: t.under pattern) }

/-- Whether a rule is one of a group, or all are. -/
def holds (group : List String) (rule : String) : Bool := group.contains rule || group.contains "*"

/-- Whether a pattern covers a path: it is the path, ends it, or matches it with wildcards. -/
def covers (pattern path : String) : Bool :=
  pattern = path || pattern.toList.isSuffixOf path.toList || Text.matchesWildcard pattern path

/-- Looks through the groups up to the first that silences a diagnostic. -/
def silences (t : SuppressionTable) (d : Diagnostic) : Bool :=
  holds t.everywhere d.id ||
    t.inFiles.any fun group => holds group.2 d.id && covers group.1 d.location.file

end SuppressionTable

namespace Suppressions

def table (s : Suppressions) : SuppressionTable := s.foldl .add .empty

def silence (s : Suppressions) (d : Diagnostic) : Bool := s.table.silences d

def keep (s : Suppressions) (ds : List Diagnostic) : List Diagnostic :=
  ds.filter fun d => !s.silence d

end Suppressions

end TierHost
