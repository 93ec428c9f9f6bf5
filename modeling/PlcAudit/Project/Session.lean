import PlcAudit.Project.Analysis

/-!
One validation of a project: its files, what was found in them, and its quality score.
-/

namespace PlcAudit.Project

open Code

inductive ValidationMode where
  | full | incremental
  deriving DecidableEq, Inhabited, Repr

namespace ValidationMode

def all : List ValidationMode := [.full, .incremental]

def name : ValidationMode → String
  | .full => "Full"
  | .incremental => "Incremental"

end ValidationMode

structure ScannedFile where
  path : String
  language : String := "StructuredText"
  lineCount : Nat
  deriving DecidableEq, Inhabited, Repr

/-- The last directory or file name of a path; a path that ends in none names itself. -/
def lastName (path : String) : String :=
  match ((Text.pieces '/' path).filter fun part => part ≠ "" && part ≠ ".").getLast? with
  | none | some ".." => path
  | some name => name

structure Session where
  path : String
  mode : ValidationMode := .full
  files : List ScannedFile := []
  trees : List Tree := []
  violations : List Issue := []
  qualityScore : Float := 0.0
  completed : Bool := false
  usage : Option Usage.Analysis := none
  dependencies : Option Graph.Dependencies := none

namespace Session

def projectName (session : Session) : String := lastName session.path

def addTree (session : Session) (tree : Tree) : Session :=
  { session with
    files := session.files ++ [{ path := tree.file, lineCount := tree.lineCount }]
    trees := session.trees ++ [tree] }

def addViolations (session : Session) (issues : List Issue) : Session :=
  { session with violations := session.violations ++ issues }

def complete (session : Session) : Session :=
  { session with completed := true }

def totalLines (session : Session) : Nat :=
  (session.files.map ScannedFile.lineCount).foldr (· + ·) 0

/-- Number of violations of each severity that occurs, the least severe first. -/
def bySeverity (session : Session) : List (Severity × Nat) :=
  (Severity.all.map fun severity =>
    (severity, (session.violations.filter fun issue => issue.severity == severity).length)).filter
      fun entry => entry.2 ≠ 0

private def clamped (low high value : Float) : Float :=
  if value < low then low else if high < value then high else value

/-- A hundred less the weights of the violations per file, within 0 and 100; nothing without
files. -/
def score (session : Session) : Float :=
  if session.files.isEmpty then 0.0
  else
    let penalty := (session.violations.map fun issue => issue.severity.weight).foldr (· + ·) 0
    clamped 0.0 100.0
      (100.0 - penalty.toUInt64.toFloat / session.files.length.toUInt64.toFloat)

def scored (session : Session) : Session :=
  { session with qualityScore := session.score }

/-- For every category with violations, one less the violations per file, within 0 and 1. -/
def compliance (session : Session) : List (String × Float) :=
  let files := (max session.files.length 1).toUInt64.toFloat
  let counts := session.violations.foldl
    (fun counts issue => Metrics.bump counts issue.category) Table.empty
  counts.entries.map fun (category, count) =>
    (category, clamped 0.0 1.0 (1.0 - count.toUInt64.toFloat / files))

/-- Analyses the files of the session and keeps what was found. An error leaves the session as it
is. -/
def analyze (session : Session) (plan : Plan) : Except AnalysisError Result × Session :=
  match (plan.run session.path session.trees false).1 with
  | .error error => (.error error, session)
  | .ok result =>
    (.ok result, { session.addViolations result.issues with
      usage := result.usage, dependencies := result.dependencies })

end Session

end PlcAudit.Project
