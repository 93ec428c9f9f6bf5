import PlcAudit.Proofs.Review.Marker

/-!
Looking a finding up in the markers of a file. The scan turns markers into entries for lines, files
and regions; what it answers is what a reading line by line finds, where a start marker puts its
rules on a stack and an end marker takes the latest ones off. A start marker hides an end marker
behind it on its line, so that a region written on one line stays open below it.
-/

namespace PlcAudit.Review

namespace Marker

def lineRules? : Marker → Option RuleSet
  | .line rules => some rules
  | _ => none

def startRules? : Marker → Option RuleSet
  | .start rules => some rules
  | _ => none

def fileRules? : Marker → Option RuleSet
  | .file rules => some rules
  | _ => none

end Marker

/-! Reading line by line -/

/-- The marker on a line; lines are counted from one. -/
def markerOn (markers : List (Option Marker)) : Nat → Option Marker
  | 0 => none
  | index + 1 => markers[index]?.join

/-- A start marker puts its rules on the stack, an end marker takes the top off. -/
def stackAfter (stack : List RuleSet) : Option Marker → List RuleSet
  | some (.start rules) => rules :: stack
  | some .stop => stack.tail
  | _ => stack

/-- The rules of the regions that are open behind some lines. -/
def openRules (markers : List (Option Marker)) : List RuleSet :=
  markers.foldl stackAfter []

/-- A marker for the file, among its first lines, covers the rule. -/
def fileMarked (markers : List (Option Marker)) (ruleId : String) : Bool :=
  (markers.take Suppressions.fileWindow).any fun marker =>
    (marker.bind Marker.fileRules?).any (·.covers ruleId)

/-- A marker on the line or on the line above it covers the rule. -/
def lineMarked (markers : List (Option Marker)) (ruleId : String) (line : Nat) : Bool :=
  [line, line - 1].any fun number =>
    ((markerOn markers number).bind Marker.lineRules?).any (·.covers ruleId)

/-- A region that is open above the line, or that the line opens, covers the rule. -/
def regionMarked (markers : List (Option Marker)) (ruleId : String) (line : Nat) : Bool :=
  (openRules (markers.take (line - 1))).any (·.covers ruleId) ||
    ((markerOn markers line).bind Marker.startRules?).any (·.covers ruleId)

namespace Suppressions

/-! The scan, one marker at a time -/

/-- Reads the markers of consecutive lines, the first of which has the number. -/
def Scan.readFrom (scan : Scan) (number : Nat) : List (Option Marker) → Scan
  | [] => scan
  | marker :: rest => (scan.step number marker).readFrom (number + 1) rest

theorem ofMarkers_eq (markers : List (Option Marker)) :
    ofMarkers markers = (({} : Scan).readFrom 1 markers).finish markers.length := by
  have fold : ∀ (scan : Scan) (index : Nat),
      (markers.zipIdx index).foldl (fun scan entry => scan.step (entry.2 + 1) entry.1) scan =
        scan.readFrom (index + 1) markers := by
    induction markers with
    | nil => exact fun _ _ => rfl
    | cons marker rest ih => exact fun scan index => ih (scan.step (index + 1) marker) (index + 1)
  exact congrArg (Scan.finish · markers.length) (fold {} 0)

theorem Scan.readFrom_append (scan : Scan) (number : Nat) (above below : List (Option Marker)) :
    scan.readFrom number (above ++ below) =
      (scan.readFrom number above).readFrom (number + above.length) below := by
  induction above generalizing scan number with
  | nil => rfl
  | cons marker rest ih =>
    rw [List.cons_append, readFrom, readFrom, ih, List.length_cons, Nat.add_right_comm,
      Nat.add_assoc]

/-- What one line adds, all lines add. -/
theorem Scan.readFrom_iff (holds : Scan → Prop) (adds : Nat → Option Marker → Prop) {least : Nat}
    (step : ∀ (scan : Scan) (number : Nat) (marker : Option Marker), least ≤ number →
      (holds (scan.step number marker) ↔ holds scan ∨ adds number marker))
    (scan : Scan) {number : Nat} (behind : least ≤ number) (markers : List (Option Marker)) :
    holds (scan.readFrom number markers) ↔
      holds scan ∨
        ∃ index marker, markers[index]? = some marker ∧ adds (number + index) marker := by
  induction markers generalizing scan number with
  | nil => simp [readFrom]
  | cons marker rest ih =>
    rw [readFrom, ih _ (Nat.le_succ_of_le behind), step scan number marker behind, or_assoc]
    refine or_congr_right ⟨?_, ?_⟩
    · rintro (here | ⟨index, other, found, added⟩)
      · exact ⟨0, marker, rfl, here⟩
      · exact ⟨index + 1, other, found, by rwa [← Nat.succ_add_eq_add_succ]⟩
    · rintro ⟨index, other, found, added⟩
      cases index with
      | zero =>
        rw [List.getElem?_cons_zero, Option.some.injEq] at found
        exact .inl (found ▸ added)
      | succ index => exact .inr ⟨index, other, found, by rwa [Nat.succ_add_eq_add_succ]⟩

section

variable {scan : Scan} {number : Nat} {marker : Option Marker} {markers : List (Option Marker)}

theorem Scan.step_disabled : (scan.step number marker).marks.disabled = scan.marks.disabled := by
  unfold Scan.step
  split <;> (try split) <;> rfl

theorem Scan.readFrom_disabled :
    (scan.readFrom number markers).marks.disabled = scan.marks.disabled := by
  induction markers generalizing scan number with
  | nil => rfl
  | cons marker rest ih => rw [readFrom, ih, step_disabled]

/-! Entries for lines and for the file -/

theorem Scan.mem_step_inline {entry : Nat × RuleSet} :
    entry ∈ (scan.step number marker).marks.inline ↔
      entry ∈ scan.marks.inline ∨
        entry.1 = number ∧ marker.bind Marker.lineRules? = some entry.2 := by
  unfold Scan.step
  split <;> (try split) <;> simp [Marker.lineRules?, Prod.ext_iff, eq_comm]

theorem Scan.mem_step_file {rules : RuleSet} :
    rules ∈ (scan.step number marker).marks.file ↔
      rules ∈ scan.marks.file ∨
        number ≤ fileWindow ∧ marker.bind Marker.fileRules? = some rules := by
  rcases marker with _ | ⟨other | other | _ | other⟩
  · simp [Scan.step]
  · simp [Scan.step, Marker.fileRules?]
  · simp [Scan.step, Marker.fileRules?]
  · cases opened : scan.openRegions <;> simp [Scan.step, opened, Marker.fileRules?]
  · by_cases early : number ≤ fileWindow
    · simp [Scan.step, early, Marker.fileRules?, eq_comm]
    · simp [Scan.step, early]

theorem mem_inline_iff {entry : Nat × RuleSet} :
    entry ∈ (ofMarkers markers).inline ↔
      (markerOn markers entry.1).bind Marker.lineRules? = some entry.2 := by
  have run := Scan.readFrom_iff (fun scan => entry ∈ scan.marks.inline)
    (fun number marker => entry.1 = number ∧ marker.bind Marker.lineRules? = some entry.2)
    (fun _ _ _ _ => Scan.mem_step_inline) {} (Nat.zero_le 1) markers
  rw [ofMarkers_eq, Scan.finish, run]
  obtain ⟨line, rules⟩ := entry
  constructor
  · rintro (never | ⟨index, marker, found, rfl, written⟩)
    · cases never
    · simpa [Nat.add_comm 1 index, markerOn, found] using written
  · intro written
    cases line with
    | zero => cases written
    | succ index =>
      obtain ⟨marker, found, read⟩ := Option.bind_eq_some_iff.mp written
      exact .inr ⟨index, some marker, Option.join_eq_some_iff.mp found, Nat.add_comm index 1, read⟩

theorem mem_file_iff {rules : RuleSet} :
    rules ∈ (ofMarkers markers).file ↔
      ∃ marker ∈ markers.take fileWindow, marker.bind Marker.fileRules? = some rules := by
  have run := Scan.readFrom_iff (fun scan => rules ∈ scan.marks.file)
    (fun number marker => number ≤ fileWindow ∧ marker.bind Marker.fileRules? = some rules)
    (fun _ _ _ _ => Scan.mem_step_file) {} (Nat.zero_le 1) markers
  rw [ofMarkers_eq, Scan.finish, run]
  constructor
  · rintro (never | ⟨index, marker, found, early, written⟩)
    · cases never
    · refine ⟨marker, List.mem_of_getElem? (i := index) ?_, written⟩
      rwa [List.getElem?_take_of_lt (by omega)]
  · rintro ⟨marker, member, written⟩
    obtain ⟨index, found⟩ := List.getElem?_of_mem member
    have early : index < fileWindow := by
      have bound := (List.getElem?_eq_some_iff.mp found).1
      rw [List.length_take] at bound
      omega
    rw [List.getElem?_take_of_lt early] at found
    exact .inr ⟨index, marker, found, by omega, written⟩

theorem any_inline (ruleId : String) (line : Nat) :
    (ofMarkers markers).inline.any (fun (marked, rules) =>
      (marked == line || marked + 1 == line) && rules.covers ruleId) =
      lineMarked markers ruleId line := by
  rw [Bool.eq_iff_iff, lineMarked, List.any_eq_true, List.any_eq_true]
  simp only [Option.any_eq_true]
  constructor
  · rintro ⟨⟨marked, rules⟩, member, near⟩
    simp only [Bool.and_eq_true, Bool.or_eq_true, beq_iff_eq] at near
    refine ⟨marked, ?_, rules, mem_inline_iff.mp member, near.2⟩
    simp only [List.mem_cons, List.not_mem_nil, or_false]
    omega
  · rintro ⟨number, near, rules, written, covered⟩
    refine ⟨(number, rules), mem_inline_iff.mpr written, ?_⟩
    simp only [List.mem_cons, List.not_mem_nil, or_false] at near
    have positive : number ≠ 0 := by
      rintro rfl
      cases written
    simp only [covered, Bool.and_true, Bool.or_eq_true, beq_iff_eq]
    omega

theorem any_file (ruleId : String) :
    (ofMarkers markers).file.any (·.covers ruleId) = fileMarked markers ruleId := by
  rw [Bool.eq_iff_iff, fileMarked, List.any_eq_true, List.any_eq_true]
  simp only [mem_file_iff, Option.any_eq_true]
  constructor
  · rintro ⟨rules, ⟨marker, member, written⟩, covered⟩
    exact ⟨marker, member, rules, written, covered⟩
  · rintro ⟨marker, member, rules, written, covered⟩
    exact ⟨rules, ⟨marker, member, written⟩, covered⟩

/-! Regions -/

/-- A region that is closed or still open takes in the line and covers the rule. -/
def Scan.Reaches (scan : Scan) (ruleId : String) (line : Nat) : Prop :=
  (∃ region ∈ scan.marks.regions,
    region.first ≤ line ∧ line ≤ region.last ∧ region.rules.covers ruleId = true) ∨
  ∃ entry ∈ scan.openRegions, entry.1 ≤ line ∧ entry.2.covers ruleId = true

/-- From its line on, a finding is reached by what reached it before, and by a region that its own
line opens. -/
theorem Scan.reaches_step {ruleId : String} {line : Nat} (behind : line ≤ number) :
    (scan.step number marker).Reaches ruleId line ↔
      scan.Reaches ruleId line ∨
        number = line ∧ ∃ rules, marker.bind Marker.startRules? = some rules ∧
          rules.covers ruleId = true := by
  rcases marker with _ | ⟨rules | rules | _ | rules⟩
  · simp [Scan.step, Reaches]
  · simp [Scan.step, Reaches, Marker.startRules?]
  · have here : number ≤ line ↔ number = line := by omega
    simp only [Scan.step, Reaches, List.mem_cons, exists_eq_or_imp, Option.bind_some,
      Marker.startRules?, Option.some.injEq, exists_eq_left', here]
    exact (or_assoc.trans (or_congr_right or_comm)).symm
  · cases opened : scan.openRegions with
    | nil => simp [Scan.step, opened, Reaches, Marker.startRules?]
    | cons entry rest =>
      obtain ⟨first, rules⟩ := entry
      simp only [Scan.step, opened, Reaches, List.mem_append, List.mem_cons, List.not_mem_nil,
        or_false, or_and_right, exists_or, exists_eq_left, behind, true_and, Option.bind_some,
        Marker.startRules?, reduceCtorEq, false_and, exists_const, and_false]
      rw [or_assoc]
  · simp only [Scan.step]
    split <;> simp [Reaches, Marker.startRules?]

/-- Above a line, the scan has closed its regions there and keeps the others on the stack. -/
structure Scan.Above (scan : Scan) (number : Nat) (stack : List RuleSet) : Prop where
  closed : ∀ region ∈ scan.marks.regions, region.last < number
  opened : ∀ entry ∈ scan.openRegions, entry.1 < number
  kept : scan.openRegions.map Prod.snd = stack

theorem Scan.Above.step {stack : List RuleSet} (above : scan.Above number stack)
    (marker : Option Marker) :
    (scan.step number marker).Above (number + 1) (stackAfter stack marker) := by
  have closed : ∀ region ∈ scan.marks.regions, region.last < number + 1 := fun region member =>
    Nat.lt_succ_of_lt (above.closed region member)
  have opened : ∀ entry ∈ scan.openRegions, entry.1 < number + 1 := fun entry member =>
    Nat.lt_succ_of_lt (above.opened entry member)
  rcases marker with _ | ⟨rules | rules | _ | rules⟩
  · exact ⟨closed, opened, above.kept⟩
  · exact ⟨closed, opened, above.kept⟩
  · refine ⟨closed, List.forall_mem_cons.mpr ⟨Nat.lt_succ_self number, opened⟩, ?_⟩
    exact congrArg (rules :: ·) above.kept
  · have kept := above.kept
    cases shape : scan.openRegions with
    | nil =>
      rw [shape] at kept
      simp only [Scan.step, shape, ← kept]
      exact ⟨closed, opened, by rw [shape]; rfl⟩
    | cons entry rest =>
      rw [shape] at kept opened
      simp only [Scan.step, shape, ← kept]
      refine ⟨?_, fun other member => opened other (List.mem_cons_of_mem _ member), rfl⟩
      exact List.forall_mem_append.mpr ⟨closed, by simp⟩
  · simp only [Scan.step]
    split
    · exact ⟨closed, opened, above.kept⟩
    · exact ⟨closed, opened, above.kept⟩

theorem Scan.Above.readFrom {stack : List RuleSet} (above : scan.Above number stack)
    (markers : List (Option Marker)) :
    (scan.readFrom number markers).Above (number + markers.length)
      (markers.foldl stackAfter stack) := by
  induction markers generalizing scan number stack with
  | nil => exact above
  | cons marker rest ih =>
    rw [List.length_cons, Nat.add_comm rest.length, ← Nat.add_assoc]
    exact ih (above.step marker)

theorem Scan.Above.reaches_iff {stack : List RuleSet} (above : scan.Above number stack) {line : Nat}
    (bound : number ≤ line) {ruleId : String} :
    scan.Reaches ruleId line ↔ ∃ rules ∈ stack, rules.covers ruleId = true := by
  rw [← above.kept]
  constructor
  · rintro (⟨region, member, _, late, _⟩ | ⟨entry, member, _, covered⟩)
    · have := above.closed region member
      omega
    · exact ⟨entry.2, List.mem_map_of_mem member, covered⟩
  · rintro ⟨rules, member, covered⟩
    obtain ⟨entry, waiting, rfl⟩ := List.mem_map.mp member
    have early := above.opened entry waiting
    exact .inr ⟨entry, waiting, by omega, covered⟩

/-- Every region that the end of the file closes takes in what it reached. -/
theorem Scan.reaches_iff_finish {ruleId : String} {line last : Nat} (inside : line ≤ last) :
    scan.Reaches ruleId line ↔ ∃ region ∈ (scan.finish last).regions,
      region.first ≤ line ∧ line ≤ region.last ∧ region.rules.covers ruleId = true := by
  simp only [Reaches, finish, List.mem_append, List.mem_map, List.mem_reverse, or_and_right,
    exists_or]
  refine or_congr_right ⟨?_, ?_⟩
  · rintro ⟨entry, member, early, covered⟩
    exact ⟨_, ⟨entry, member, rfl⟩, early, inside, covered⟩
  · rintro ⟨_, ⟨entry, member, rfl⟩, early, _, covered⟩
    exact ⟨entry, member, early, covered⟩

theorem Scan.above_start : ({} : Scan).Above 1 [] where
  closed := by simp
  opened := by simp
  kept := rfl

/-- After all lines, a finding is reached by the regions on the stack above its line and by the one
that its line opens. -/
theorem Scan.reaches_readFrom (markers : List (Option Marker)) (ruleId : String) (line : Nat) :
    (({} : Scan).readFrom 1 markers).Reaches ruleId line ↔
      regionMarked markers ruleId line = true := by
  have run := Scan.readFrom_iff (fun scan => scan.Reaches ruleId line)
    (fun number marker => number = line ∧ ∃ rules, marker.bind Marker.startRules? = some rules ∧
      rules.covers ruleId = true) (fun _ _ _ => Scan.reaches_step)
  rw [regionMarked, Bool.or_eq_true, List.any_eq_true, Option.any_eq_true]
  cases line with
  | zero =>
    rw [run {} (Nat.zero_le 1)]
    simp [Reaches, openRules, markerOn]
  | succ index =>
    have above := above_start.readFrom (markers.take index)
    rw [← List.take_append_drop index markers, readFrom_append, List.take_append_drop]
    rcases Nat.lt_or_ge markers.length index with short | long
    · have whole := List.take_of_length_le (Nat.le_of_lt short)
      rw [whole] at above
      rw [List.drop_of_length_le (Nat.le_of_lt short), readFrom, whole,
        above.reaches_iff (by omega)]
      simp [openRules, markerOn, whole, Nat.le_of_lt short]
    · rw [List.length_take, Nat.min_eq_left long, Nat.add_comm] at above ⊢
      rw [run _ (Nat.le_refl _), above.reaches_iff (Nat.le_refl _)]
      refine or_congr_right ⟨?_, ?_⟩
      · rintro ⟨offset, marker, found, place, rules, opened, covered⟩
        obtain rfl : offset = 0 := by omega
        rw [List.getElem?_drop, Nat.add_zero] at found
        exact ⟨rules, by rw [markerOn, found]; exact opened, covered⟩
      · rintro ⟨rules, opened, covered⟩
        obtain ⟨marker, found, started⟩ := Option.bind_eq_some_iff.mp opened
        refine ⟨0, some marker, ?_, rfl, rules, started, covered⟩
        rw [List.getElem?_drop]
        exact Option.join_eq_some_iff.mp found

theorem any_regions (ruleId : String) (line : Nat) :
    (ofMarkers markers).regions.any (fun region =>
      region.first ≤ line && line ≤ region.last && region.rules.covers ruleId) =
      (decide (line ≤ markers.length) && regionMarked markers ruleId line) := by
  rw [Bool.eq_iff_iff, List.any_eq_true, ofMarkers_eq]
  simp only [Bool.and_eq_true, decide_eq_true_eq, and_assoc]
  by_cases inside : line ≤ markers.length
  · rw [← Scan.reaches_iff_finish inside, Scan.reaches_readFrom]
    exact (and_iff_right inside).symm
  · refine iff_of_false ?_ fun ⟨bound, _⟩ => inside bound
    have above := Scan.above_start.readFrom markers
    rintro ⟨region, member, _, late, _⟩
    rcases List.mem_append.mp member with closed | waiting
    · have := above.closed region closed
      omega
    · obtain ⟨entry, _, rfl⟩ := List.mem_map.mp waiting
      exact inside late

end

/-! Looking a finding up -/

theorem check_source {suppressions : Suppressions} (enabled : suppressions.disabled = [])
    (ruleId : String) (line : Nat) :
    (suppressions.check ruleId line).map (·.source) =
      if suppressions.file.any (·.covers ruleId) then some .file
      else if suppressions.inline.any fun (marked, rules) =>
          (marked == line || marked + 1 == line) && rules.covers ruleId then some .inline
      else if suppressions.regions.any fun region =>
          region.first ≤ line && line ≤ region.last && region.rules.covers ruleId then some .block
      else none := by
  rw [check, enabled, if_neg (by simp)]
  split_ifs with filed lined covered
  · rfl
  · rfl
  · obtain ⟨region, found⟩ := Option.isSome_iff_exists.mp
      (List.find?_isSome.mpr (List.any_eq_true.mp covered))
    rw [found]
    rfl
  · rw [List.find?_eq_none.mpr (by simpa using covered)]
    rfl

/-- For every list of markers, a finding is looked up as a reading line by line finds it; behind the
last line there are no regions. -/
theorem check_ofMarkers (markers : List (Option Marker)) (ruleId : String) (line : Nat) :
    ((ofMarkers markers).check ruleId line).map (·.source) =
      if fileMarked markers ruleId then some .file
      else if lineMarked markers ruleId line then some .inline
      else if line ≤ markers.length && regionMarked markers ruleId line then some .block
      else none := by
  have enabled : (ofMarkers markers).disabled = [] := by
    rw [ofMarkers_eq]
    exact Scan.readFrom_disabled
  rw [check_source enabled, any_file, any_inline, any_regions]

/-- Looking a finding up in a source agrees with reading its lines one by one: a marker for the file
comes first, then one on the line or the line above, then a region that is open above the line or
begins there. A marker covers the rules that its list names in any letter case; the word `all`, and
a missing list, cover every rule. -/
theorem check_eq_reading (source ruleId : String) {line : Nat}
    (inside : line ≤ (Text.lines source).length) :
    (((ofSource source).check ruleId line).map (·.source) =
      if fileMarked ((Text.lines source).map Marker.ofLine?) ruleId then some .file
      else if lineMarked ((Text.lines source).map Marker.ofLine?) ruleId line then some .inline
      else if regionMarked ((Text.lines source).map Marker.ofLine?) ruleId line then some .block
      else none) ∧
    ∀ list, (RuleSet.ofText list).covers ruleId = true ↔
      ∀ text, list = some text → ∃ name ∈ listedNames text,
        Text.sameName name "all" = true ∨ Text.sameName name ruleId = true := by
  refine ⟨?_, fun list => RuleSet.covers_ofText list ruleId⟩
  rw [ofSource, check_ofMarkers, List.length_map]
  simp only [inside, decide_true, Bool.true_and]

/-- A region in a region, and the outer one without an end. -/
theorem check_eq_reading_nested :
    let source := "(* qa-ignore-start: qa002 *)\n// qa-ignore-start\n(* qa-ignore-end *)\nx"
    4 ≤ (Text.lines source).length ∧
    ((ofSource source).check "QA002" 4).map (·.source) =
      if fileMarked ((Text.lines source).map Marker.ofLine?) "QA002" then some .file
      else if lineMarked ((Text.lines source).map Marker.ofLine?) "QA002" 4 then some .inline
      else if regionMarked ((Text.lines source).map Marker.ofLine?) "QA002" 4 then some .block
      else none := by
  intro source
  have inside : 4 ≤ (Text.lines source).length := by decide +kernel
  exact ⟨inside, (check_eq_reading source "QA002" inside).1⟩

/-! A region that is opened in addition -/

end Suppressions

/-- The rules that stay on the stack behind some lines because a region was opened in addition. Of
the regions above it `inside` are open, and `outer` are those below it. An end marker that meets it
takes it off in the place of the next outer region, which then stays instead. -/
def leftOpen (inside : Nat) (outer : List RuleSet) (extra : RuleSet) :
    List (Option Marker) → Option RuleSet
  | [] => some extra
  | some (.start _) :: rest => leftOpen (inside + 1) outer extra rest
  | some .stop :: rest =>
    match inside, outer with
    | inside + 1, outer => leftOpen inside outer extra rest
    | 0, next :: outer => leftOpen 0 outer next rest
    | 0, [] => none
  | some (.line _) :: rest => leftOpen inside outer extra rest
  | some (.file _) :: rest => leftOpen inside outer extra rest
  | none :: rest => leftOpen inside outer extra rest

theorem any_foldl_stackAfter (test : RuleSet → Bool) (inner outer : List RuleSet) (extra : RuleSet)
    (markers : List (Option Marker)) :
    (markers.foldl stackAfter (inner ++ extra :: outer)).any test =
      ((markers.foldl stackAfter (inner ++ outer)).any test ||
        (leftOpen inner.length outer extra markers).any test) := by
  induction markers generalizing inner outer extra with
  | nil =>
    simp only [List.foldl_nil, List.any_append, List.any_cons, leftOpen, Option.any_some]
    rw [Bool.or_assoc, Bool.or_comm (test extra)]
  | cons marker rest ih =>
    rcases marker with _ | ⟨rules | rules | _ | rules⟩
    · exact ih inner outer extra
    · exact ih inner outer extra
    · exact ih (rules :: inner) outer extra
    · cases inner with
      | cons top inner => exact ih inner outer extra
      | nil =>
        cases outer with
        | cons next outer => exact ih [] outer next
        | nil => exact (Bool.or_false _).symm
    · exact ih inner outer extra

section

variable {above below : List (Option Marker)}

theorem bind_markerOn (part : Marker → Option RuleSet) (marker : Option Marker) {number : Nat}
    (silent : marker.bind part = none ∨ number ≠ above.length + 1) :
    (markerOn (above ++ marker :: below) number).bind part =
      (markerOn (above ++ none :: below) number).bind part := by
  cases number with
  | zero => rfl
  | succ index =>
    rcases Nat.lt_trichotomy index above.length with sooner | rfl | later
    · simp only [markerOn, List.getElem?_append_left sooner]
    · have quiet := silent.resolve_right (not_not.mpr rfl)
      simpa [markerOn] using quiet
    · obtain ⟨count, rfl⟩ := Nat.exists_eq_add_of_lt later
      have place : above.length + count + 1 - above.length = count + 1 := by omega
      simp only [markerOn, List.getElem?_append_right (Nat.le_of_lt later), place,
        List.getElem?_cons_succ]

theorem lineMarked_replaced {marker : Option Marker}
    (silent : marker.bind Marker.lineRules? = none) (ruleId : String) (line : Nat) :
    lineMarked (above ++ marker :: below) ruleId line =
      lineMarked (above ++ none :: below) ruleId line := by
  simp only [lineMarked, bind_markerOn _ marker (.inl silent)]

theorem fileMarked_replaced {marker : Option Marker}
    (silent : marker.bind Marker.fileRules? = none) (ruleId : String) :
    fileMarked (above ++ marker :: below) ruleId = fileMarked (above ++ none :: below) ruleId := by
  rw [fileMarked, fileMarked, List.take_append, List.take_append]
  cases Suppressions.fileWindow - above.length with
  | zero => rfl
  | succ count => simp [silent]

theorem regionMarked_started (extra : RuleSet) (ruleId : String) {line : Nat}
    (other : line ≠ above.length + 1) :
    regionMarked (above ++ some (.start extra) :: below) ruleId line =
      (regionMarked (above ++ none :: below) ruleId line ||
        (decide (above.length + 1 < line) &&
          (leftOpen 0 (openRules above) extra (below.take (line - (above.length + 2)))).any
            (·.covers ruleId))) := by
  rw [regionMarked, regionMarked, bind_markerOn _ (some (.start extra)) (.inr other)]
  rcases Nat.lt_or_gt_of_ne other with sooner | later
  · have early : line - 1 ≤ above.length := by omega
    rw [List.take_append_of_le_length early, List.take_append_of_le_length early,
      decide_eq_false (by omega), Bool.false_and, Bool.or_false]
  · obtain ⟨count, rfl⟩ : ∃ count, line = above.length + 2 + count :=
      ⟨line - (above.length + 2), by omega⟩
    have taken : ∀ marker, (above ++ marker :: below).take (above.length + 2 + count - 1) =
        above ++ marker :: below.take count := by
      intro marker
      rw [List.take_append, List.take_of_length_le (by omega),
        show above.length + 2 + count - 1 - above.length = count + 1 by omega, List.take_succ_cons]
    have started : openRules (above ++ some (.start extra) :: below.take count) =
        (below.take count).foldl stackAfter ([] ++ extra :: openRules above) := by
      rw [openRules, List.foldl_append]
      rfl
    have unstarted : openRules (above ++ none :: below.take count) =
        (below.take count).foldl stackAfter ([] ++ openRules above) := by
      rw [openRules, List.foldl_append]
      rfl
    rw [taken, taken, decide_eq_true later, Bool.true_and, Nat.add_sub_cancel_left, started,
      any_foldl_stackAfter, ← unstarted, List.length_nil, Bool.or_right_comm]

/-- A region opened in addition reaches below its line, as far as the lines there leave it open. -/
theorem check_started (above below : List (Option Marker)) (extra : RuleSet) (ruleId : String)
    {line : Nat} (other : line ≠ above.length + 1) :
    ((Suppressions.ofMarkers (above ++ some (.start extra) :: below)).check ruleId line).map
        (·.source) =
      (((Suppressions.ofMarkers (above ++ none :: below)).check ruleId line).map (·.source)).or
        (if above.length + 1 < line ∧ line ≤ above.length + 1 + below.length ∧
            (leftOpen 0 (openRules above) extra (below.take (line - (above.length + 2)))).any
              (·.covers ruleId) = true then some .block else none) := by
  rw [Suppressions.check_ofMarkers, Suppressions.check_ofMarkers, fileMarked_replaced rfl,
    lineMarked_replaced rfl, regionMarked_started extra ruleId other]
  have length : (above ++ none :: below).length = above.length + 1 + below.length := by
    rw [List.length_append, List.length_cons, Nat.add_right_comm, Nat.add_assoc]
  have same : (above ++ some (.start extra) :: below).length = (above ++ none :: below).length := by
    rw [List.length_append, List.length_append, List.length_cons, List.length_cons]
  rw [same, length]
  split_ifs with filed lined reached bare leaks <;> simp_all

/-- An empty line behind the last one makes no difference elsewhere. -/
theorem check_append_none (markers : List (Option Marker)) (ruleId : String) {line : Nat}
    (other : line ≠ markers.length + 1) :
    ((Suppressions.ofMarkers (markers ++ [none])).check ruleId line).map (·.source) =
      ((Suppressions.ofMarkers markers).check ruleId line).map (·.source) := by
  have lookup : ∀ number, markerOn (markers ++ [none]) number = markerOn markers number := by
    intro number
    cases number with
    | zero => rfl
    | succ index =>
      rcases Nat.lt_or_ge index markers.length with inside | outside
      · rw [markerOn, List.getElem?_append_left inside]
        rfl
      · rw [markerOn, markerOn, List.getElem?_append_right outside, List.getElem?_eq_none outside]
        cases index - markers.length <;> rfl
  have filed : fileMarked (markers ++ [none]) ruleId = fileMarked markers ruleId := by
    rw [fileMarked, fileMarked, List.take_append, List.any_append]
    cases Suppressions.fileWindow - markers.length <;> simp
  have lined : lineMarked (markers ++ [none]) ruleId line = lineMarked markers ruleId line := by
    simp only [lineMarked, lookup]
  rw [Suppressions.check_ofMarkers, Suppressions.check_ofMarkers, filed, lined]
  rcases Nat.lt_or_gt_of_ne other with inside | outside
  · have regions : regionMarked (markers ++ [none]) ruleId line =
        regionMarked markers ruleId line := by
      rw [regionMarked, regionMarked, lookup, List.take_append_of_le_length (by omega)]
    rw [regions, List.length_append, decide_eq_true (by omega), decide_eq_true (by omega)]
  · rw [List.length_append, decide_eq_false (by simpa using outside), decide_eq_false (by omega),
      Bool.false_and, Bool.false_and]

end

/-! A region on one line -/

/-- A line that opens a region and closes it again. -/
def oneLineRegion (before rules between after : String) : String :=
  before ++ "(* qa-ignore-start: " ++ rules ++ " *)" ++ between ++ "(* qa-ignore-end *)" ++ after

/-- The end marker of such a line is not read. -/
theorem ofLine?_oneLineRegion {before rules between after : String}
    (listed : ∀ c ∈ rules.toList, listedChars.contains c = true)
    (earliest : ∀ place < before.length,
      ¬ Marker.StandsAt (oneLineRegion before rules between after) place) :
    Marker.ofLine? (oneLineRegion before rules between after) =
      some (.start (RuleSet.ofText (some rules))) := by
  have opening : "(* qa-ignore-start: ".toList = startOpening ++ [' '] := by decide
  have ending : " *)".toList = ' ' :: commentEnd := by decide
  have shape : (oneLineRegion before rules between after).toList =
      before.toList ++ (startComment ([' '] ++ rules.toList ++ [' ']) ++
        (between.toList ++ ("(* qa-ignore-end *)".toList ++ after.toList))) := by
    simp only [oneLineRegion, String.toList_append, opening, ending, startComment,
      List.append_assoc, List.cons_append, List.nil_append]
  have blank : ∀ c ∈ [' '], isSeparator c = true := List.forall_mem_singleton.mpr (by decide)
  have names :
      listedNames (String.ofList ([' '] ++ rules.toList ++ [' '])) = listedNames rules := by
    rw [listedNames_surrounded blank blank, String.ofList_toList]
  rw [Marker.ofLine?_startComment shape (by simp) ?_ (by rwa [String.length_toList]),
    RuleSet.ofText_some, RuleSet.ofText_some, names]
  intro c member
  simp only [List.mem_append, List.mem_singleton] at member
  rcases member with (rfl | within) | rfl
  · decide
  · exact listed c within
  · decide

/-- A region that is opened and closed on one line stays open below it. Findings elsewhere are
looked up as without the two comments, and below the line also in the region that the lines there
leave open in addition. -/
theorem check_oneLineRegion {source bare : String} {above below : List String}
    {before rules between after : String}
    (written : Text.lines source = above ++ oneLineRegion before rules between after :: below)
    (removed : Text.lines bare = above ++ (before ++ between ++ after) :: below ∨
      before ++ between ++ after = "" ∧ below = [] ∧ Text.lines bare = above)
    (listed : ∀ c ∈ rules.toList, listedChars.contains c = true)
    (earliest : ∀ place < before.length,
      ¬ Marker.StandsAt (oneLineRegion before rules between after) place)
    (unmarked : Marker.ofLine? (before ++ between ++ after) = none)
    (ruleId : String) {line : Nat} (other : line ≠ above.length + 1) :
    ((Suppressions.ofSource source).check ruleId line).map (·.source) =
      (((Suppressions.ofSource bare).check ruleId line).map (·.source)).or
        (if above.length + 1 < line ∧ line ≤ (Text.lines source).length ∧
            (leftOpen 0 (openRules (above.map Marker.ofLine?)) (RuleSet.ofText (some rules))
              ((below.take (line - (above.length + 2))).map Marker.ofLine?)).any
                (·.covers ruleId) = true
          then some .block else none) := by
  have elsewhere : line ≠ (above.map Marker.ofLine?).length + 1 := by
    rwa [List.length_map]
  have bareAnswer : ((Suppressions.ofSource bare).check ruleId line).map (·.source) =
      ((Suppressions.ofMarkers
        (above.map Marker.ofLine? ++ none :: below.map Marker.ofLine?)).check ruleId line).map
          (·.source) := by
    rcases removed with kept | ⟨_, rfl, gone⟩
    · rw [Suppressions.ofSource, kept, List.map_append, List.map_cons, unmarked]
    · rw [Suppressions.ofSource, gone, List.map_nil, check_append_none _ _ elsewhere]
  rw [bareAnswer, Suppressions.ofSource, written, List.map_append, List.map_cons,
    ofLine?_oneLineRegion listed earliest, check_started _ _ _ _ elsewhere]
  simp only [List.length_map, List.map_take, List.length_append, List.length_cons,
    Nat.add_right_comm, Nat.add_assoc]

theorem check_oneLineRegion_word :
    let source := "(* qa-ignore-start: QA001 *) x (* qa-ignore-end *)\ny"
    Text.lines source = [] ++ oneLineRegion "" "QA001" " x " "" :: ["y"] ∧
    Text.lines " x \ny" = [] ++ ("" ++ " x " ++ "") :: ["y"] ∧
    ((Suppressions.ofSource source).check "QA001" 2).map (·.source) =
      (((Suppressions.ofSource " x \ny").check "QA001" 2).map (·.source)).or
        (if 0 + 1 < 2 ∧ 2 ≤ (Text.lines source).length ∧
            (leftOpen 0 (openRules []) (RuleSet.ofText (some "QA001")) []).any
              (·.covers "QA001") = true
          then some .block else none) := by
  intro source
  have written : Text.lines source = [] ++ oneLineRegion "" "QA001" " x " "" :: ["y"] := by
    decide +kernel
  have removed : Text.lines " x \ny" = [] ++ ("" ++ " x " ++ "") :: ["y"] := by decide +kernel
  have unmarked : Marker.ofLine? ("" ++ " x " ++ "") = none := by
    rw [Marker.ofLine?, markerPattern_eq]
    decide +kernel
  exact ⟨written, removed,
    check_oneLineRegion written (.inl removed) (List.all_eq_true.mp (by decide)) (by simp) unmarked
      "QA001" (by decide)⟩

/-- With the two comments on the first line, a finding on the second is suppressed; without them it
is not. -/
theorem oneLineRegion_leaks :
    ((Suppressions.ofSource "(* qa-ignore-start: QA001 *) x (* qa-ignore-end *)\ny").check
      "QA001" 2).isSome = true ∧
    (Suppressions.ofSource " x \ny").check "QA001" 2 = none := by
  -- The pattern is read once and for all, not at every line.
  unfold Suppressions.ofSource Marker.ofLine?
  rw [markerPattern_eq]
  decide +kernel

end PlcAudit.Review
