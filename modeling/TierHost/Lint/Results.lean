import TierHost.Lint.Diagnostic
import TierHost.Listing

/-!
The results of running analyzers: all diagnostics, those of each analyzer, and the time each took.
-/

namespace TierHost

/-- Results; the times are in milliseconds. -/
structure Results where
  diagnostics : List Diagnostic
  byAnalyzer : Listing String (List Diagnostic)
  times : Listing String Binary64
  analyzers : List String
  deriving Repr

namespace Results

def empty : Results := ⟨[], [], [], []⟩

/-- The key under which an analyzer's time is kept. -/
def timeKey (name : String) : String := name ++ "_elapsed_ms"

/-- Results with one analyzer's block added; a name that has run before gives up its old block. -/
def addBlock (r : Results) (name : String) (block : List Diagnostic) (time : Binary64) :
    Results where
  diagnostics := r.diagnostics ++ block
  byAnalyzer := r.byAnalyzer.put name block
  times := r.times.put (timeKey name) time
  analyzers := r.analyzers ++ [name]

/-- A dictionary in which the block of a name is made longer. -/
def extendBlock (l : Listing String (List Diagnostic)) (e : String × List Diagnostic) :
    Listing String (List Diagnostic) :=
  l.put e.1 ((l.get? e.1).getD [] ++ e.2)

/-- Times with one more; those of one analyzer add up. -/
def addTime (l : Listing String Binary64) (e : String × Binary64) : Listing String Binary64 :=
  l.put e.1 (((l.get? e.1).getD (Binary64.zero false)).add e.2)

/-- Results of several documents: blocks are joined, times add up, and names are not repeated. -/
def merge (r s : Results) : Results where
  diagnostics := r.diagnostics ++ s.diagnostics
  byAnalyzer := s.byAnalyzer.foldl extendBlock r.byAnalyzer
  times := s.times.foldl addTime r.times
  analyzers := s.analyzers.foldl (fun l n => if l.contains n then l else l ++ [n]) r.analyzers

/-- Results made of diagnostics that name their analyzers. -/
def ofDiagnostics (ds : List Diagnostic) (analyzers : List String)
    (times : Listing String Binary64) : Results where
  diagnostics := ds
  byAnalyzer := ds.foldl (fun l d => extendBlock l (d.analyzer, [d])) []
  times := times
  analyzers := analyzers

def bySeverity (r : Results) (s : Severity) : List Diagnostic :=
  r.diagnostics.filter fun d => d.effectiveSeverity = s

def byId (r : Results) (id : String) : List Diagnostic := r.diagnostics.filter fun d => d.id = id

def byFile (r : Results) (file : String) : List Diagnostic :=
  r.diagnostics.filter fun d => d.location.file = file

def countOf (r : Results) (name : String) : Nat := ((r.byAnalyzer.get? name).getD []).length

def jsonLines (r : Results) : Except Template.Error String :=
  (r.diagnostics.mapM Diagnostic.json).map ("\n".intercalate ·)

/-- All diagnostics as compiler messages, one on each line. -/
def lines (r : Results) : Except Template.Error String :=
  (r.diagnostics.mapM Diagnostic.line).map ("\n".intercalate ·)

def summaryLine (r : Results) (name : String) : String :=
  let time := (r.times.get? (timeKey name)).getD (Binary64.zero false)
  "  " ++ name ++ ": " ++ toString (r.countOf name) ++ " findings (" ++ time.renderFixed 1 ++ "ms)"

def summary (r : Results) : String :=
  let total := "Analysis complete: " ++ toString r.diagnostics.length ++ " diagnostics (" ++
    toString (r.bySeverity .error).length ++ " errors, " ++
    toString (r.bySeverity .warning).length ++ " warnings)"
  "\n".intercalate (total :: r.analyzers.map r.summaryLine)

end Results

end TierHost
