import Mathlib.Data.List.Perm.Basic
import Mathlib.Tactic.Common
import PlcAudit.Code.Comment

/-!
Where the normalized lines of a code come from. Every character is followed with its position
through the removal of comments, the division into lines and the removal of blanks. A normalized
line comes from the line of the source on which its first character stands. These source lines
increase, so that the index of a normalized line falls short of the index of its source line by the
number of source lines above it from which no normalized line comes.
-/

namespace PlcAudit.Code

/-! Characters with their positions -/

/-- The text without its closed block comments. -/
def withoutBlocksAt : Bool → List (Char × Nat) → List (Char × Nat)
  | _, [] => []
  | true, ('*', _) :: (')', _) :: rest => withoutBlocksAt false rest
  | true, _ :: rest => withoutBlocksAt true rest
  | false, ('(', opening) :: ('*', star) :: rest =>
    if (Text.cutFirst? ['*', ')'] (rest.map Prod.fst)).isSome then withoutBlocksAt true rest
    else ('(', opening) :: ('*', star) :: rest
  | false, c :: rest => c :: withoutBlocksAt false rest

/-- The characters of one line that stand in no comment. -/
def uncommentedAt : Bool → List (Char × Nat) → List (Char × Nat)
  | _, [] => []
  | true, ('*', _) :: (')', _) :: rest => uncommentedAt false rest
  | true, _ :: rest => uncommentedAt true rest
  | false, ('/', _) :: ('/', _) :: _ => []
  | false, ('(', _) :: ('*', _) :: rest => uncommentedAt true rest
  | false, c :: rest => c :: uncommentedAt false rest

def dropReturnAt : List (Char × Nat) → List (Char × Nat)
  | ('\r', _) :: rest => rest
  | other => other

/-- The lines of a text behind the characters of a line that has begun, the latest first. -/
def linesAt (current : List (Char × Nat)) : List (Char × Nat) → List (List (Char × Nat))
  | [] => if current.isEmpty then [] else [current.reverse]
  | ('\n', _) :: rest => (dropReturnAt current).reverse :: linesAt [] rest
  | c :: rest => linesAt (c :: current) rest

/-- The lines of a code without comments. -/
def barePlaces (code : String) : List (List (Char × Nat)) :=
  (linesAt [] (withoutBlocksAt false code.toList.zipIdx)).map (uncommentedAt false)

/-- The first character of a line that is no blank. -/
def firstVisible? (line : List (Char × Nat)) : Option (Char × Nat) :=
  line.find? fun c => !Text.isBlank c.1

/-- The form in which a line without comments is compared. -/
def normalForm (line : List Char) : String :=
  Text.upper (Text.joined " " (Text.words (String.ofList line)))

/-- The normalized lines of a code, each with the position of its first character. -/
def tracedLines (code : String) : List (String × Nat) :=
  (barePlaces code).filterMap fun line =>
    (firstVisible? line).map fun first => (normalForm (line.map Prod.fst), first.2)

/-- For each normalized line the index of the source line it comes from. -/
def sourceLines (code : String) : List Nat :=
  (tracedLines code).map fun traced => Text.lineFeeds code.toList traced.2

/-! The same lines without positions -/

/-- Two characters that do not stand at the beginning of a text do not stand there without their
positions either. -/
theorem unlike_of_places {c : Char × Nat} {rest : List (Char × Nat)} {first second : Char}
    (unlike : ∀ place next behind, c = (first, place) → rest = (second, next) :: behind → False)
    (tail : List Char) (here : c.1 = first) (there : rest.map Prod.fst = second :: tail) :
    False := by
  obtain ⟨next, behind, rfl, same, -⟩ := List.map_eq_cons_iff.mp there
  exact unlike c.2 next.2 behind (Prod.ext here rfl) (by rw [← same])

theorem map_withoutBlocksAt (inside : Bool) (text : List (Char × Nat)) :
    (withoutBlocksAt inside text).map Prod.fst = withoutBlocksFrom inside (text.map Prod.fst) := by
  fun_induction withoutBlocksAt inside text with
  | case1 inside => rw [List.map_nil, withoutBlocksFrom]
  | case2 star closing rest ih => simpa [withoutBlocksFrom] using ih
  | case3 c rest noEnd ih =>
    rw [ih, List.map_cons, withoutBlocksFrom]
    exact unlike_of_places noEnd
  | case4 opening star rest closed ih => simpa [withoutBlocksFrom, closed] using ih
  | case5 opening star rest unclosed => simp [withoutBlocksFrom, unclosed]
  | case6 c rest noStart ih =>
    rw [List.map_cons, ih, List.map_cons, withoutBlocksFrom]
    exact unlike_of_places noStart

theorem map_uncommentedAt (inside : Bool) (text : List (Char × Nat)) :
    (uncommentedAt inside text).map Prod.fst = uncommentedFrom inside (text.map Prod.fst) := by
  fun_induction uncommentedAt inside text with
  | case1 inside => rw [List.map_nil, uncommentedFrom]
  | case2 star closing rest ih => simpa [uncommentedFrom] using ih
  | case3 c rest noEnd ih =>
    rw [ih, List.map_cons, uncommentedFrom]
    exact unlike_of_places noEnd
  | case4 first second rest => simp [uncommentedFrom]
  | case5 opening star rest ih => simpa [uncommentedFrom] using ih
  | case6 c rest noSlashes noStart ih =>
    rw [List.map_cons, ih, List.map_cons, uncommentedFrom]
    · exact unlike_of_places noSlashes
    · exact unlike_of_places noStart

theorem map_dropReturnAt (current : List (Char × Nat)) :
    (dropReturnAt current).map Prod.fst = Text.dropReturn (current.map Prod.fst) := by
  fun_cases dropReturnAt current with
  | case1 place rest => rfl
  | case2 _ noReturn =>
    rw [Text.dropReturn]
    intro rest there
    obtain ⟨c, behind, rfl, same, -⟩ := List.map_eq_cons_iff.mp there
    exact noReturn c.2 behind (by rw [← same])

theorem map_linesAt (current text : List (Char × Nat)) :
    (linesAt current text).map (fun line => String.ofList (line.map Prod.fst)) =
      Text.linesFrom (current.map Prod.fst) (text.map Prod.fst) := by
  fun_induction linesAt current text with
  | case1 current empty => simp_all [Text.linesFrom]
  | case2 current started => simp_all [Text.linesFrom]
  | case3 current place rest ih =>
    rw [List.map_cons, ih, List.map_cons, Text.linesFrom, List.map_reverse, map_dropReturnAt]
    rfl
  | case4 current c rest noFeed ih =>
    rw [ih, List.map_cons, List.map_cons, Text.linesFrom]
    exact fun feed => noFeed c.2 (Prod.ext feed rfl)

/-! Normal forms -/

theorem wordsFrom_eq_nil_iff (current text : List Char) :
    Text.wordsFrom current text = [] ↔ current = [] ∧ ∀ c ∈ text, Text.isBlank c = true := by
  fun_induction Text.wordsFrom current text with
  | case1 current empty => simp_all
  | case2 current started => simp_all
  | case3 current c rest blank empty ih => simp_all
  | case4 current c rest blank started ih => simp_all
  | case5 current c rest visible ih => simp_all

theorem ne_empty_of_mem_wordsFrom {current text : List Char} {word : String}
    (member : word ∈ Text.wordsFrom current text) : word ≠ "" := by
  fun_induction Text.wordsFrom current text with
  | case1 current empty => cases member
  | case2 current started => simp_all
  | case3 current c rest blank empty ih => exact ih member
  | case4 current c rest blank started ih =>
    rcases List.mem_cons.mp member with rfl | later
    · simp_all
    · exact ih later
  | case5 current c rest visible ih => exact ih member

theorem joined_eq_empty_iff {words : List String} (nonempty : ∀ word ∈ words, word ≠ "") :
    Text.joined " " words = "" ↔ words = [] := by
  cases words with
  | nil => decide
  | cons word rest =>
    have first := nonempty word List.mem_cons_self
    cases rest <;> simp [Text.joined, first]

/-- A line has an empty normal form exactly if it holds nothing but blanks. -/
theorem normalForm_eq_empty_iff (line : List Char) :
    normalForm line = "" ↔ ∀ c ∈ line, Text.isBlank c = true := by
  have letters (text : String) : Text.upper text = "" ↔ text = "" := by
    simp [Text.upper]
  rw [normalForm, letters, Text.words, String.toList_ofList,
    joined_eq_empty_iff fun word member => ne_empty_of_mem_wordsFrom member, wordsFrom_eq_nil_iff]
  simp

/-- Following the characters changes nothing about the lines. -/
theorem map_tracedLines (code : String) :
    (tracedLines code).map Prod.fst = normalizedLines code := by
  have bare : (barePlaces code).map (fun line => normalForm (line.map Prod.fst)) =
      (Text.lines (String.ofList (withoutBlocksFrom false code.toList))).map fun line =>
        Text.upper (Text.joined " " (Text.words (uncommented line))) := by
    have stripped := map_withoutBlocksAt false code.toList.zipIdx
    have divided := map_linesAt [] (withoutBlocksAt false code.toList.zipIdx)
    rw [List.zipIdx_map_fst] at stripped
    rw [stripped, List.map_nil] at divided
    rw [Text.lines, String.toList_ofList, ← divided, barePlaces, List.map_map, List.map_map]
    refine List.map_congr_left fun line _ => ?_
    simp only [Function.comp_apply, map_uncommentedAt, uncommented, String.toList_ofList,
      normalForm]
  rw [normalizedLines, ← bare, tracedLines, List.map_filterMap, ← List.filterMap_eq_filter,
    List.filterMap_map]
  refine List.filterMap_congr fun line _ => ?_
  cases found : firstVisible? line with
  | none =>
    have empty : normalForm (line.map Prod.fst) = "" := by
      rw [normalForm_eq_empty_iff]
      simpa [firstVisible?] using found
    simp [Option.guard, empty]
  | some first =>
    have visible : normalForm (line.map Prod.fst) ≠ "" := by
      rw [ne_eq, normalForm_eq_empty_iff]
      intro blank
      have shown := List.find?_some found
      rw [blank first.1 (List.mem_map_of_mem (List.mem_of_find?_eq_some found))] at shown
      cases shown
    simp [visible]

/-! Source lines -/

theorem lineFeeds_mono (text : List Char) {first second : Nat} (ordered : first ≤ second) :
    Text.lineFeeds text first ≤ Text.lineFeeds text second :=
  (List.take_sublist_take_left ordered).count_le '\n'

/-- Behind a line feed one more is counted. -/
theorem lineFeeds_lt {text : List Char} {first feed second : Nat} (before : first ≤ feed)
    (behind : feed < second) (read : text[feed]? = some '\n') :
    Text.lineFeeds text first < Text.lineFeeds text second := by
  have counted : Text.lineFeeds text (feed + 1) = Text.lineFeeds text feed + 1 := by
    simp [Text.lineFeeds, List.take_add_one, read]
  calc Text.lineFeeds text first
    _ ≤ Text.lineFeeds text feed := lineFeeds_mono text before
    _ < Text.lineFeeds text (feed + 1) := by omega
    _ ≤ Text.lineFeeds text second := lineFeeds_mono text behind

theorem withoutBlocksAt_sublist (inside : Bool) (text : List (Char × Nat)) :
    (withoutBlocksAt inside text).Sublist text := by
  fun_induction withoutBlocksAt inside text with
  | case1 inside => exact .slnil
  | case2 star closing rest ih => exact (ih.cons _).cons _
  | case3 c rest noEnd ih => exact ih.cons _
  | case4 opening star rest closed ih => exact (ih.cons _).cons _
  | case5 opening star rest unclosed => exact .refl _
  | case6 c rest noStart ih => exact ih.cons_cons _

theorem uncommentedAt_sublist (inside : Bool) (text : List (Char × Nat)) :
    (uncommentedAt inside text).Sublist text := by
  fun_induction uncommentedAt inside text with
  | case1 inside => exact .slnil
  | case2 star closing rest ih => exact (ih.cons _).cons _
  | case3 c rest noEnd ih => exact ih.cons _
  | case4 first second rest => exact List.nil_sublist _
  | case5 opening star rest ih => exact (ih.cons _).cons _
  | case6 c rest noSlashes noStart ih => exact ih.cons_cons _

theorem dropReturnAt_sublist (current : List (Char × Nat)) :
    (dropReturnAt current).Sublist current := by
  fun_cases dropReturnAt current with
  | case1 place rest => exact (List.Sublist.refl _).cons _
  | case2 _ noReturn => exact .refl _

/-- A character of one line stands before one of a later line, with a line feed between them. -/
def Apart (text : List (Char × Nat)) (earlier later : List (Char × Nat)) : Prop :=
  ∀ c ∈ earlier, ∀ d ∈ later, ∃ feed, ('\n', feed) ∈ text ∧ c.2 < feed ∧ feed < d.2

theorem mem_of_mem_linesAt {current text line : List (Char × Nat)} {c : Char × Nat}
    (listed : line ∈ linesAt current text) (member : c ∈ line) : c ∈ current.reverse ++ text := by
  fun_induction linesAt current text with
  | case1 current empty => cases listed
  | case2 current started =>
    rw [List.mem_singleton.mp listed] at member
    exact List.mem_append_left _ member
  | case3 current place rest ih =>
    rcases List.mem_cons.mp listed with rfl | later
    · have kept := (dropReturnAt_sublist current).subset (List.mem_reverse.mp member)
      exact List.mem_append_left _ (List.mem_reverse.mpr kept)
    · exact List.mem_append_right _ (List.mem_cons_of_mem _ (ih later))
  | case4 current d rest noFeed ih => simpa using ih listed

theorem linesAt_apart {current text : List (Char × Nat)}
    (ordered : (current.reverse ++ text).Pairwise fun c d => c.2 < d.2) :
    (linesAt current text).Pairwise (Apart text) := by
  fun_induction linesAt current text with
  | case1 current empty => exact .nil
  | case2 current started => exact List.pairwise_singleton _ _
  | case3 current place rest ih =>
    obtain ⟨-, behind, across⟩ := List.pairwise_append.mp ordered
    obtain ⟨beyond, behind⟩ := List.pairwise_cons.mp behind
    refine .cons (fun line listed c begun d member => ?_) ((ih (by simpa using behind)).imp ?_)
    · -- The line feed that ends the current line stands between the two.
      have kept := (dropReturnAt_sublist current).subset (List.mem_reverse.mp begun)
      refine ⟨place, List.mem_cons_self, ?_, ?_⟩
      · exact across c (List.mem_reverse.mpr kept) _ List.mem_cons_self
      · exact beyond d (by simpa using mem_of_mem_linesAt listed member)
    · intro earlier later apart c first d second
      obtain ⟨feed, present, between⟩ := apart c first d second
      exact ⟨feed, List.mem_cons_of_mem _ present, between⟩
  | case4 current c rest noFeed ih =>
    refine (ih (by simpa using ordered)).imp ?_
    intro earlier later apart d first e second
    obtain ⟨feed, present, between⟩ := apart d first e second
    exact ⟨feed, List.mem_cons_of_mem _ present, between⟩

/-- Each normalized line comes from a source line behind those of the lines above it. -/
theorem sourceLines_increasing (code : String) : (sourceLines code).Pairwise (· < ·) := by
  have places : (code.toList.zipIdx).Pairwise fun c d => c.2 < d.2 := by
    rw [← List.pairwise_map, List.zipIdx_map_snd]
    exact List.pairwise_lt_range'
  have stripped := withoutBlocksAt_sublist false code.toList.zipIdx
  have apart := @linesAt_apart [] _ (places.sublist stripped)
  rw [sourceLines, List.pairwise_map, tracedLines, List.pairwise_filterMap, barePlaces,
    List.pairwise_map]
  refine apart.imp fun {earlier later} between traced here other there => ?_
  obtain ⟨c, first, rfl⟩ := Option.map_eq_some_iff.mp here
  obtain ⟨d, second, rfl⟩ := Option.map_eq_some_iff.mp there
  have inFirst := (uncommentedAt_sublist false earlier).subset (List.mem_of_find?_eq_some first)
  have inSecond := (uncommentedAt_sublist false later).subset (List.mem_of_find?_eq_some second)
  obtain ⟨feed, present, before, behind⟩ := between c inFirst d inSecond
  have read := List.mem_zipIdx_iff_getElem?.mp (stripped.subset present)
  exact lineFeeds_lt (Nat.le_of_lt before) behind read

/-- Number of lines of a code above a line from which no normalized line comes. -/
def passedOver (code : String) (line : Nat) : Nat :=
  (List.range line).countP (· ∉ sourceLines code)

/-- The place of a value in an increasing list and the numbers below it that are missing there add
up to the value. -/
theorem index_add_countP_range {values : List Nat} (increasing : values.Pairwise (· < ·))
    {index value : Nat} (found : values[index]? = some value) :
    index + (List.range value).countP (· ∉ values) = value := by
  obtain ⟨inside, rfl⟩ := List.getElem?_eq_some_iff.mp found
  have split : values = values.take index ++ values[index] :: values.drop (index + 1) := by
    rw [← List.drop_eq_getElem_cons inside, List.take_append_drop]
  rw [split] at increasing
  obtain ⟨ordered, behind, ahead⟩ := List.pairwise_append.mp increasing
  -- The values below this one are those in front of it.
  have perm : ((List.range values[index]).filter (· ∈ values)).Perm (values.take index) := by
    refine (List.perm_ext_iff_of_nodup (List.nodup_range.filter _)
      (ordered.imp Nat.ne_of_lt)).mpr fun value => ?_
    simp only [List.mem_filter, List.mem_range, decide_eq_true_eq]
    constructor
    · rintro ⟨below, member⟩
      rw [split, List.mem_append, List.mem_cons] at member
      rcases member with front | same | back
      · exact front
      · omega
      · have above := (List.pairwise_cons.mp behind).1 value back
        omega
    · intro front
      exact ⟨ahead value front _ List.mem_cons_self, List.mem_of_mem_take front⟩
  have present : (List.range values[index]).countP (· ∈ values) = index := by
    rw [List.countP_eq_length_filter, perm.length_eq, List.length_take]
    omega
  have total := List.length_eq_countP_add_countP (l := List.range values[index]) (· ∈ values)
  simp only [List.length_range, present, decide_eq_true_eq] at total
  exact total.symm

theorem index_add_passedOver {code : String} {index source : Nat}
    (found : (sourceLines code)[index]? = some source) :
    index + passedOver code source = source :=
  index_add_countP_range (sourceLines_increasing code) found

theorem exists_sourceLine {code : String} {index : Nat}
    (inside : index < (normalizedLines code).length) :
    ∃ source, (sourceLines code)[index]? = some source := by
  rw [← map_tracedLines, List.length_map] at inside
  exact ⟨_, by rw [sourceLines, List.getElem?_map, List.getElem?_eq_getElem inside]; rfl⟩

end PlcAudit.Code
