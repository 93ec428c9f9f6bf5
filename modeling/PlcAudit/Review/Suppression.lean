import PlcAudit.Issue.Basic
import PlcAudit.Text.Pattern.Matcher

/-!
Suppression of findings by comments in the source and by configuration. A comment
`qa-ignore: RULES` covers its line and the next one, `qa-ignore-start` and `qa-ignore-end` enclose
a region, and `qa-ignore-file` among the first lines covers the whole file.
-/

namespace PlcAudit.Review

inductive SuppressionSource where
  | inline | block | file | config | feedback
  deriving DecidableEq, Inhabited, Repr

namespace SuppressionSource

def all : List SuppressionSource := [.inline, .block, .file, .config, .feedback]

def name : SuppressionSource → String
  | .inline => "Inline"
  | .block => "Block"
  | .file => "File"
  | .config => "Config"
  | .feedback => "Feedback"

/-- The name in running text. -/
def word (source : SuppressionSource) : String := Text.lower source.name

end SuppressionSource

structure Suppression where
  reason : String
  source : SuppressionSource
  deriving DecidableEq, Inhabited, Repr

/-- Rules that a marker covers. -/
structure RuleSet where
  all : Bool := false
  ids : List String := []
  deriving DecidableEq, Inhabited, Repr

namespace RuleSet

/-- Reads a list of rules between commas and blanks; the word `all`, and a missing list, cover
every rule. -/
def ofText (list : Option String) : RuleSet :=
  let separated := ((list.getD "all").toList.map fun c => if c == ',' then ' ' else c)
  let names := (Text.words (String.ofList separated)).map Text.upper
  { all := names.contains "ALL", ids := names.filter (· != "ALL") }

def covers (rules : RuleSet) (ruleId : String) : Bool :=
  rules.all || rules.ids.contains (Text.upper ruleId)

end RuleSet

inductive Marker where
  | line (rules : RuleSet)
  | start (rules : RuleSet)
  | stop
  | file (rules : RuleSet)
  deriving DecidableEq, Inhabited, Repr

/-- A comment with a marker: its kind is the first group, its rules are the second. -/
def markerPattern : Pattern.Program := Pattern.compile
  "(?i)(?://|\\(\\*)\\s*qa-ignore(-start|-end|-file)?\\s*(?::\\s*([A-Za-z0-9_,\\s]+?))?\\s*(?:\\*\\)|$)"

/-- The first marker on a line. -/
def Marker.ofLine? (line : String) : Option Marker :=
  let chars := line.toList
  (markerPattern.findFrom? chars 0).map fun found =>
    let rules := RuleSet.ofText (found.group? chars 2)
    match (found.group? chars 1).map Text.lower with
    | some "-start" => .start rules
    | some "-end" => .stop
    | some "-file" => .file rules
    | _ => .line rules

/-- A region of lines, both ends included, and the rules it covers. -/
structure Region where
  first : Nat
  last : Nat
  rules : RuleSet
  deriving DecidableEq, Inhabited, Repr

/-- The markers of a source file, and the rules that configuration switches off. -/
structure Suppressions where
  inline : List (Nat × RuleSet) := []
  regions : List Region := []
  file : List RuleSet := []
  disabled : List String := []
  deriving Inhabited

namespace Suppressions

/-- Number of lines in which a marker for the whole file counts. -/
def fileWindow : Nat := 10

/-- Marks read so far and the regions that are still open, the innermost first. -/
structure Scan where
  marks : Suppressions := {}
  openRegions : List (Nat × RuleSet) := []

/-- Reads the marker of one more line. -/
def Scan.step (scan : Scan) (number : Nat) (marker : Option Marker) : Scan :=
  match marker with
  | some (.line rules) =>
    { scan with marks := { scan.marks with inline := scan.marks.inline ++ [(number, rules)] } }
  | some (.start rules) => { scan with openRegions := (number, rules) :: scan.openRegions }
  | some .stop =>
    match scan.openRegions with
    | (first, rules) :: rest =>
      { marks := { scan.marks with
          regions := scan.marks.regions ++ [{ first, last := number, rules }] }
        openRegions := rest }
    | [] => scan
  | some (.file rules) =>
    if number ≤ fileWindow then
      { scan with marks := { scan.marks with file := scan.marks.file ++ [rules] } }
    else scan
  | none => scan

/-- Regions without an end run to the last line. -/
def Scan.finish (scan : Scan) (lastLine : Nat) : Suppressions :=
  { scan.marks with
    regions := scan.marks.regions ++ scan.openRegions.reverse.map fun (first, rules) =>
      { first, last := lastLine, rules } }

/-- The markers of a list of lines, given as one marker or none for each. -/
def ofMarkers (markers : List (Option Marker)) : Suppressions :=
  let scan := markers.zipIdx.foldl (fun scan (marker, index) => scan.step (index + 1) marker)
    ({} : Scan)
  scan.finish markers.length

def ofSource (source : String) : Suppressions :=
  ofMarkers ((Text.lines source).map Marker.ofLine?)

def withDisabled (suppressions : Suppressions) (rules : List String) : Suppressions :=
  { suppressions with disabled := rules.map Text.upper }

/-- Why a finding of a rule at a line is suppressed: configuration first, then the file, then the
line, then a region. -/
def check (suppressions : Suppressions) (ruleId : String) (line : Nat) : Option Suppression :=
  if suppressions.disabled.contains (Text.upper ruleId) then
    some ⟨s!"{ruleId} disabled in configuration", .config⟩
  else if suppressions.file.any (·.covers ruleId) then
    some ⟨s!"qa-ignore-file: {ruleId}", .file⟩
  else if suppressions.inline.any fun (marked, rules) =>
      (marked == line || marked + 1 == line) && rules.covers ruleId then
    some ⟨s!"qa-ignore: {ruleId}", .inline⟩
  else
    (suppressions.regions.find? fun region =>
      region.first ≤ line && line ≤ region.last && region.rules.covers ruleId).map fun region =>
        ⟨s!"qa-ignore-start: {ruleId} (lines {region.first}-{region.last})", .block⟩

end Suppressions

end PlcAudit.Review
