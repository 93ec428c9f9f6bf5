import Mathlib.Data.List.DropRight
import PlcAudit.Proofs.Graph.ReadableType
import PlcAudit.Proofs.Text.Character
import PlcAudit.Proofs.Text.Cut

/-!
Types in wrappers. A wrapper is the head of an array, or the words of a pointer or a reference, in
any letter case; a type stands behind any number of them. Arrays are cut off at the last OF in
capitals, and only if the type begins as an array; then each kind of indirection is taken off once,
in a fixed order. So a type comes out of its wrappers exactly if they stand in that order.
-/

namespace PlcAudit.Graph

open Code

/-! Wrappers -/

inductive Indirection where
  | pointer
  | reference
  | refTo
  deriving DecidableEq

namespace Indirection

/-- The kinds in the order in which they are taken off. -/
def all : List Indirection := [.pointer, .reference, .refTo]

def words : Indirection → String
  | .pointer => "POINTER TO"
  | .reference => "REFERENCE TO"
  | .refTo => "REF_TO"

/-- The first five letters, which tell the kind. -/
def opening (kind : Indirection) : List Char := kind.words.toList.take 5

theorem opening_ne_array (kind : Indirection) : "ARRAY".toList ≠ kind.opening := by
  cases kind <;> decide

theorem opening_injective : Function.Injective opening := by
  intro first second
  cases first <;> cases second <;> decide

theorem opening_prefix (kind : Indirection) :
    kind.opening <+: kind.words.toList.map Char.toUpper := by
  cases kind <;> decide

theorem wrappers_eq : wrappers = all.map fun kind => kind.words ++ " " := rfl

theorem utf8ByteSize_words (kind : Indirection) :
    (kind.words ++ " ").utf8ByteSize = kind.words.toList.length + 1 := by
  cases kind <;> rfl

end Indirection

/-- A wrapper as it is written. The bounds of an array are an ASCII text without an OF in capitals
between spaces. -/
inductive Wrapper where
  | array (word bounds joint : String) (opens : Text.sameName word "ARRAY" = true)
      (joins : Text.sameName joint "OF" = true) (ascii : IsAscii bounds.toList)
      (plain : ¬ " OF ".toList <:+: bounds.toList)
  | indirection (kind : Indirection) (words : String)
      (spells : Text.sameName words kind.words = true)

namespace Wrapper

def text : Wrapper → List Char
  | .array word bounds joint .. =>
    word.toList ++ '[' :: (bounds.toList ++ ']' :: ' ' :: joint.toList)
  | .indirection _ words _ => words.toList

def isArray : Wrapper → Bool
  | .array .. => true
  | .indirection .. => false

/-- The wrapper is an array whose OF is written in capitals. -/
def isCut : Wrapper → Bool
  | .array _ _ joint .. => joint == "OF"
  | .indirection .. => false

def indirection? : Wrapper → Option Indirection
  | .array .. => none
  | .indirection kind .. => some kind

/-- The first five letters in capitals. -/
def opening : Wrapper → List Char
  | .array .. => "ARRAY".toList
  | .indirection kind .. => kind.opening

end Wrapper

/-- A text behind wrappers, with a space behind each of them. -/
def wrappedText (wrappers : List Wrapper) (core : List Char) : List Char :=
  wrappers.foldr (fun wrapper text => wrapper.text ++ ' ' :: text) core

def wrapped (wrappers : List Wrapper) (name : String) : String :=
  String.ofList (wrappedText wrappers name.toList)

/-- Letters, digits and underscores of ASCII. -/
structure IsIdentifier (name : String) : Prop where
  nonempty : name.toList ≠ []
  word : ∀ c ∈ name.toList, (c.isAlphanum || c == '_') = true

/-! Letters in any case -/

theorem isAscii_of_upper_eq {text letters : List Char}
    (same : text.map Char.toUpper = letters.map Char.toUpper) (ascii : IsAscii letters) :
    IsAscii text := by
  intro c member
  have inside : c.toUpper ∈ letters.map Char.toUpper := same ▸ List.mem_map_of_mem member
  obtain ⟨d, letter, upper⟩ := List.mem_map.mp inside
  have codes := congrArg Char.toNat upper
  have bound := ascii d letter
  rw [toNat_toUpper, toNat_toUpper] at codes
  split at codes <;> split at codes <;> omega

/-- A text that begins with a letter of a word, in any case, begins with no blank. -/
theorem first_of_starts {text letters : List Char} {d : Char}
    (starts : d :: letters <+: text.map Char.toUpper) (word : Text.isWord d = true) :
    ∀ c ∈ text.head?, Text.isBlank c = false := by
  cases text with
  | nil => simp
  | cons c rest =>
    rw [List.map_cons, List.cons_prefix_cons] at starts
    intro first member
    cases member
    rw [starts.1, isWord_toUpper] at word
    exact not_isBlank_of_isWord word

namespace IsIdentifier

variable {name : String}

theorem alphanumeric_or (identifier : IsIdentifier name) {c : Char} (member : c ∈ name.toList) :
    c.isAlphanum = true ∨ c = '_' := by
  simpa using identifier.word c member

theorem isWord (identifier : IsIdentifier name) : ∀ c ∈ name.toList, Text.isWord c = true := by
  intro c member
  rcases identifier.alphanumeric_or member with alphanumeric | rfl
  · rw [Char.isAlphanum, Bool.or_eq_true] at alphanumeric
    have code : c.toNat < 0x80 := by
      rw [isAlpha_iff, isDigit_iff] at alphanumeric
      omega
    rw [Text.isWord, if_pos code, Char.isAlphanum, Bool.or_eq_true, Bool.or_eq_true]
    exact .inl alphanumeric
  · rfl

theorem not_isBlank (identifier : IsIdentifier name) :
    ∀ c ∈ name.toList, Text.isBlank c = false :=
  fun c member => not_isBlank_of_isWord (identifier.isWord c member)

theorem ascii (identifier : IsIdentifier name) : IsAscii name.toList := by
  intro c member
  rcases identifier.alphanumeric_or member with alphanumeric | rfl
  · rw [Char.isAlphanum, Bool.or_eq_true, isAlpha_iff, isDigit_iff] at alphanumeric
    omega
  · decide

theorem space_not_mem (identifier : IsIdentifier name) : ' ' ∉ name.toList := by
  intro member
  have blank := identifier.not_isBlank ' ' member
  exact absurd blank (by decide)

end IsIdentifier

/-! What a wrapper looks like -/

namespace Wrapper

theorem opening_prefix (wrapper : Wrapper) : wrapper.opening <+: wrapper.text.map Char.toUpper := by
  cases wrapper with
  | array word bounds joint opens =>
    rw [text, List.map_append, Text.sameName_iff.mp opens]
    exact List.prefix_append ..
  | indirection kind words spells =>
    rw [text, Text.sameName_iff.mp spells]
    exact kind.opening_prefix

theorem opening_append_prefix (wrapper : Wrapper) (more : List Char) :
    wrapper.opening <+: (wrapper.text ++ more).map Char.toUpper := by
  rw [List.map_append]
  exact wrapper.opening_prefix.trans (List.prefix_append ..)

theorem ascii (wrapper : Wrapper) : IsAscii wrapper.text := by
  cases wrapper with
  | array word bounds joint opens joins ascii =>
    have first := isAscii_of_upper_eq (Text.sameName_iff.mp opens) (by decide)
    have last := isAscii_of_upper_eq (Text.sameName_iff.mp joins) (by decide)
    intro c member
    simp only [text, List.mem_append, List.mem_cons] at member
    rcases member with inside | rfl | inside | rfl | rfl | inside
    · exact first c inside
    · decide
    · exact ascii c inside
    · decide
    · decide
    · exact last c inside
  | indirection kind words spells =>
    exact isAscii_of_upper_eq (Text.sameName_iff.mp spells) (by cases kind <;> decide)

/-- Each kind of wrapper has its own opening, also as the beginning of a longer text. -/
theorem opening_eq_of_prefix {wrapper : Wrapper} {letters more : List Char}
    (starts : letters <+: (wrapper.text ++ more).map Char.toUpper) (five : letters.length = 5) :
    letters = wrapper.opening := by
  have same : letters.length = wrapper.opening.length := by
    rw [five]
    rcases wrapper with _ | ⟨kind, _, _⟩
    · rfl
    · cases kind <;> rfl
  exact (List.prefix_of_prefix_length_le starts (wrapper.opening_append_prefix more)
    same.le).eq_of_length same

theorem exists_first (wrapper : Wrapper) :
    ∃ d letters, wrapper.opening = d :: letters ∧ Text.isWord d = true := by
  rcases wrapper with _ | ⟨kind, _, _⟩
  · exact ⟨_, _, rfl, by decide⟩
  · cases kind <;> exact ⟨_, _, rfl, by decide⟩

/-- A wrapper begins with no blank. -/
theorem first (wrapper : Wrapper) (more : List Char) :
    ∀ c ∈ (wrapper.text ++ more).head?, Text.isBlank c = false := by
  obtain ⟨d, letters, opening, word⟩ := wrapper.exists_first
  exact first_of_starts (opening ▸ wrapper.opening_append_prefix more) word

theorem starts_array_iff (wrapper : Wrapper) (more : List Char) :
    "ARRAY".toList <+: (wrapper.text ++ more).map Char.toUpper ↔ wrapper.isArray = true := by
  constructor
  · intro starts
    have opening := opening_eq_of_prefix starts rfl
    rcases wrapper with _ | ⟨kind, _, _⟩
    · rfl
    · exact absurd opening kind.opening_ne_array
  · intro array
    have starts := wrapper.opening_append_prefix more
    cases wrapper with
    | array => exact starts
    | indirection => cases array

theorem isArray_of_isCut {wrapper : Wrapper} (cut : wrapper.isCut = true) :
    wrapper.isArray = true := by
  cases wrapper with
  | array => rfl
  | indirection => cases cut

/-- An array with its OF in capitals is the head of an array in front of it. -/
theorem exists_head (wrapper : Wrapper) (cut : wrapper.isCut = true) :
    ∃ head, wrapper.text ++ [' '] = head ++ " OF ".toList ∧
      "ARRAY".toList <+: head.map Char.toUpper := by
  cases wrapper with
  | array word bounds joint opens =>
    obtain rfl : joint = "OF" := beq_iff_eq.mp cut
    refine ⟨word.toList ++ '[' :: (bounds.toList ++ [']']), ?_, ?_⟩
    · rw [text]
      simp
    · rw [List.map_append, Text.sameName_iff.mp opens]
      exact List.prefix_append ..
  | indirection => cases cut

/-- Only an array with its OF in capitals has such an OF. -/
theorem no_joint {wrapper : Wrapper} (uncut : wrapper.isCut = false) :
    ¬ " OF ".toList <:+: ' ' :: wrapper.text ++ [' '] := by
  intro occurs
  cases wrapper with
  | array word bounds joint opens joins ascii plain =>
    simp only [text, List.cons_append, List.append_assoc] at occurs
    rw [← List.cons_append] at occurs
    rcases Text.infix_append_foreign (by decide) (by decide) occurs with outer | inner
    · have letters := outer.map Char.toUpper
      rw [List.map_cons, Text.sameName_iff.mp opens] at letters
      exact absurd letters (by decide)
    · rcases Text.infix_append_foreign (by decide) (by decide) inner with inside | behind
      · exact plain inside
      · have length := congrArg List.length (Text.sameName_iff.mp joins)
        rw [List.length_map, List.length_map] at length
        have same := behind.eq_of_length (by simp [length])
        have capitals : "OF".toList = joint.toList :=
          List.append_cancel_right (List.cons.inj same).2
        rw [isCut, String.toList_inj.mp capitals, beq_self_eq_true] at uncut
        cases uncut
  | indirection kind words spells =>
    have letters := occurs.map Char.toUpper
    rw [text, List.cons_append, List.map_cons, List.map_append, Text.sameName_iff.mp spells]
      at letters
    cases kind <;> exact absurd letters (by decide)

end Wrapper

/-! Texts behind wrappers -/

section

variable {wrappers : List Wrapper} {name : String}

@[simp] theorem wrappedText_nil (core : List Char) : wrappedText [] core = core := rfl

@[simp] theorem wrappedText_cons (wrapper : Wrapper) (rest : List Wrapper) (core : List Char) :
    wrappedText (wrapper :: rest) core = wrapper.text ++ ' ' :: wrappedText rest core := rfl

theorem wrappedText_append (front back : List Wrapper) (core : List Char) :
    wrappedText (front ++ back) core = wrappedText front (wrappedText back core) :=
  List.foldr_append

theorem wrappedText_core_append (wrappers : List Wrapper) (core more : List Char) :
    wrappedText wrappers (core ++ more) = wrappedText wrappers core ++ more := by
  induction wrappers with
  | nil => rfl
  | cons wrapper rest ih => simp [ih]

theorem wrappedText_ascii (wrappers : List Wrapper) {core : List Char} (ascii : IsAscii core) :
    IsAscii (wrappedText wrappers core) := by
  induction wrappers with
  | nil => exact ascii
  | cons wrapper rest ih =>
    intro c member
    rcases List.mem_append.mp member with inside | behind
    · exact wrapper.ascii c inside
    · rcases List.mem_cons.mp behind with rfl | later
      · decide
      · exact ih c later

theorem wrappedText_ne_nil (identifier : IsIdentifier name) (wrappers : List Wrapper) :
    wrappedText wrappers name.toList ≠ [] := by
  cases wrappers with
  | nil => exact identifier.nonempty
  | cons wrapper rest => exact List.append_ne_nil_of_right_ne_nil _ (List.cons_ne_nil _ _)

theorem wrappedText_trimmed (identifier : IsIdentifier name) (wrappers : List Wrapper) :
    Text.IsTrimmed (wrappedText wrappers name.toList) := by
  constructor
  · cases wrappers with
    | nil => exact fun c first => identifier.not_isBlank c (List.mem_of_mem_head? first)
    | cons wrapper rest => exact wrapper.first _
  · induction wrappers with
    | nil => exact fun c last => identifier.not_isBlank c (List.mem_of_mem_getLast? last)
    | cons wrapper rest ih =>
      intro c last
      apply ih c
      rwa [wrappedText_cons, List.getLast?_append_of_ne_nil _ (List.cons_ne_nil _ _),
        List.getLast?_cons_of_ne_nil (wrappedText_ne_nil identifier rest)] at last

/-- A text behind wrappers is the name itself only if there are none. -/
theorem wrapped_eq_name_iff (identifier : IsIdentifier name) :
    wrapped wrappers name = name ↔ wrappers = [] := by
  constructor
  · intro same
    cases wrappers with
    | nil => rfl
    | cons wrapper rest =>
      have spaced : ' ' ∈ (wrapped (wrapper :: rest) name).toList := by
        rw [wrapped, String.toList_ofList, wrappedText_cons]
        exact List.mem_append_right _ List.mem_cons_self
      rw [same] at spaced
      exact absurd spaced identifier.space_not_mem
  · rintro rfl
    exact String.ofList_toList

/-- Without arrays that have their OF in capitals, a text has no such OF. -/
theorem wrappedText_no_joint (identifier : IsIdentifier name)
    (uncut : ∀ wrapper ∈ wrappers, wrapper.isCut = false) :
    ¬ " OF ".toList <:+: ' ' :: wrappedText wrappers name.toList := by
  induction wrappers with
  | nil =>
    intro occurs
    apply identifier.space_not_mem
    rcases List.infix_cons_iff.mp occurs with here | later
    · exact (List.cons_prefix_cons.mp here).2.subset (by decide)
    · exact later.subset (by decide)
  | cons wrapper rest ih =>
    obtain ⟨first, others⟩ := List.forall_mem_cons.mp uncut
    intro occurs
    rw [wrappedText_cons, ← List.cons_append] at occurs
    rcases Text.infix_append_mark (by decide : ' ' ∉ ['O', 'F']) occurs with here | later
    · exact wrapper.no_joint first here
    · exact ih others later

/-! Arrays -/

/-- What is left when arrays are cut off: what stands behind the last OF in capitals, if the type
begins as an array. -/
def elementWrappers (wrappers : List Wrapper) : List Wrapper :=
  if wrappers.head?.any Wrapper.isArray then wrappers.rtakeWhile fun wrapper => !wrapper.isCut
  else wrappers

/-- Either no wrapper is an array with its OF in capitals, or there is a last one. -/
theorem cut_cases (wrappers : List Wrapper) :
    (∀ wrapper ∈ wrappers, wrapper.isCut = false) ∨
      ∃ front wrapper rest, wrappers = front ++ wrapper :: rest ∧ wrapper.isCut = true ∧
        ∀ later ∈ rest, later.isCut = false := by
  induction wrappers with
  | nil => exact .inl (by simp)
  | cons wrapper rest ih =>
    rcases ih with uncut | ⟨front, last, behind, rfl, cut, uncut⟩
    · cases cut : wrapper.isCut with
      | false => exact .inl (List.forall_mem_cons.mpr ⟨cut, uncut⟩)
      | true => exact .inr ⟨[], wrapper, rest, rfl, cut, uncut⟩
    · exact .inr ⟨wrapper :: front, last, behind, rfl, cut, uncut⟩

theorem rtakeWhile_uncut (uncut : ∀ wrapper ∈ wrappers, wrapper.isCut = false) :
    wrappers.rtakeWhile (fun wrapper => !wrapper.isCut) = wrappers := by
  rw [List.rtakeWhile_eq_self_iff]
  intro wrapper member
  rw [uncut wrapper member]
  rfl

theorem rtakeWhile_cut (front : List Wrapper) {wrapper : Wrapper} (cut : wrapper.isCut = true)
    (uncut : ∀ later ∈ wrappers, later.isCut = false) :
    (front ++ wrapper :: wrappers).rtakeWhile (fun wrapper => !wrapper.isCut) = wrappers := by
  have kept : ∀ later ∈ wrappers.reverse, (!later.isCut) = true := by
    intro later member
    rw [uncut later (List.mem_reverse.mp member)]
    rfl
  rw [List.rtakeWhile, List.reverse_append, List.reverse_cons, List.append_assoc,
    List.takeWhile_append_of_pos kept, List.singleton_append,
    List.takeWhile_cons_of_neg (by simp [cut]), List.append_nil, List.reverse_reverse]

theorem elementWrappers_uncut (uncut : ∀ wrapper ∈ wrappers, wrapper.isCut = false) :
    elementWrappers wrappers = wrappers := by
  rw [elementWrappers, rtakeWhile_uncut uncut, ite_self]

theorem elementWrappers_cut {front rest : List Wrapper} {wrapper : Wrapper}
    (array : (front ++ [wrapper]).head?.any Wrapper.isArray = true) (cut : wrapper.isCut = true)
    (uncut : ∀ later ∈ rest, later.isCut = false) :
    elementWrappers (front ++ wrapper :: rest) = rest := by
  have same : (front ++ wrapper :: rest).head? = (front ++ [wrapper]).head? := by
    cases front <;> rfl
  rw [elementWrappers, same, if_pos array, rtakeWhile_cut front cut uncut]

/-- What stands in front of an OF begins as an array if the first wrapper is one. -/
theorem hasStart_array_iff {text : List Char}
    (first : ∀ c ∈ text.head?, Text.isBlank c = false) :
    Text.hasStart (Text.upper (String.ofList (Text.trimStart text))) "ARRAY" = true ↔
      "ARRAY".toList <+: text.map Char.toUpper := by
  rw [Text.hasStart, Text.upper, String.toList_ofList, String.toList_ofList,
    List.isPrefixOf_iff_prefix, Text.trimStart, Text.dropWhile_eq_self_of_head? first,
    String.toList_ofList]

theorem hasStart_front (front rest : List Wrapper) {wrapper : Wrapper} {head : List Char}
    (cut : wrapper.isCut = true) (opens : "ARRAY".toList <+: head.map Char.toUpper) :
    Text.hasStart (Text.upper (String.ofList (Text.trimStart (wrappedText front head)))) "ARRAY" =
      (front ++ wrapper :: rest).head?.any Wrapper.isArray := by
  rw [Bool.eq_iff_iff]
  cases front with
  | nil =>
    rw [wrappedText_nil, hasStart_array_iff (first_of_starts opens (by decide))]
    exact iff_of_true opens (Wrapper.isArray_of_isCut cut)
  | cons outer front =>
    rw [wrappedText_cons, hasStart_array_iff (outer.first _), outer.starts_array_iff]
    rfl

theorem elementType_of_none {type : List Char} (trimmed : Text.IsTrimmed type)
    (absent : Text.cutLast? " OF ".toList type = none) : elementType type = type := by
  simp only [elementType, trimmed.trimmed, absent]

theorem elementType_of_cut {type before after : List Char} (trimmed : Text.IsTrimmed type)
    (cut : Text.cutLast? " OF ".toList type = some (before, after)) :
    elementType type =
      if Text.hasStart (Text.upper (String.ofList (Text.trimStart before))) "ARRAY" then
        Text.trimEnd (Text.trimStart after)
      else type := by
  simp only [elementType, trimmed.trimmed, cut]

theorem cutLast?_uncut (identifier : IsIdentifier name)
    (uncut : ∀ wrapper ∈ wrappers, wrapper.isCut = false) :
    Text.cutLast? " OF ".toList (wrappedText wrappers name.toList) = none :=
  Text.cutLast?_eq_none_iff.mpr fun occurs =>
    wrappedText_no_joint identifier uncut (List.infix_cons occurs)

/-- A text is cut at its last array with the OF in capitals, behind the head of that array. -/
theorem cutLast?_cut (identifier : IsIdentifier name) (front : List Wrapper) {wrapper : Wrapper}
    (cut : wrapper.isCut = true) (uncut : ∀ later ∈ wrappers, later.isCut = false) :
    ∃ head, "ARRAY".toList <+: head.map Char.toUpper ∧
      Text.cutLast? " OF ".toList (wrappedText (front ++ wrapper :: wrappers) name.toList) =
        some (wrappedText front head, wrappedText wrappers name.toList) := by
  obtain ⟨head, text, opens⟩ := wrapper.exists_head cut
  have split : wrappedText (front ++ wrapper :: wrappers) name.toList =
      wrappedText front head ++ (" OF ".toList ++ wrappedText wrappers name.toList) := by
    rw [wrappedText_append, wrappedText_cons, ← List.singleton_append, ← List.append_assoc, text,
      List.append_assoc, wrappedText_core_append]
  have single :
      ¬ " OF ".toList <:+: (" OF ".toList ++ wrappedText wrappers name.toList).tail := by
    intro occurs
    rcases List.infix_cons_iff.mp occurs with here | later
    · exact absurd (List.cons_prefix_cons.mp here).1 (by decide)
    · rcases List.infix_cons_iff.mp later with here | later
      · exact absurd (List.cons_prefix_cons.mp here).1 (by decide)
      · exact wrappedText_no_joint identifier uncut later
  exact ⟨head, opens, by rw [split, Text.cutLast?_append _ single]⟩

theorem elementType_wrappedText (identifier : IsIdentifier name) (wrappers : List Wrapper) :
    elementType (wrappedText wrappers name.toList) =
      wrappedText (elementWrappers wrappers) name.toList := by
  have trimmed := wrappedText_trimmed identifier wrappers
  rcases cut_cases wrappers with uncut | ⟨front, wrapper, rest, rfl, cut, uncut⟩
  · rw [elementType_of_none trimmed (cutLast?_uncut identifier uncut), elementWrappers_uncut uncut]
  · obtain ⟨head, opens, divided⟩ := cutLast?_cut identifier front cut uncut
    rw [elementType_of_cut trimmed divided, hasStart_front front rest cut opens,
      (wrappedText_trimmed identifier rest).trimmed, elementWrappers,
      rtakeWhile_cut front cut uncut]
    split <;> rfl

/-! Pointers and references -/

theorem withoutWrapper_eq (removed : String) {type : List Char} (ascii : IsAscii type) :
    withoutWrapper removed type = .ok (
      if removed.utf8ByteSize ≤ type.length ∧
          Text.sameName (String.ofList (type.take removed.utf8ByteSize)) removed = true then
        Text.trimEnd (Text.trimStart (type.drop removed.utf8ByteSize))
      else type) := by
  rw [withoutWrapper, cutBytes_of_ascii _ ascii]
  by_cases fits : removed.utf8ByteSize ≤ type.length
  · rw [if_pos fits]
    by_cases same :
        Text.sameName (String.ofList (type.take removed.utf8ByteSize)) removed = true
    · rw [if_pos ⟨fits, same⟩]
      simp [same, bind, Except.bind, pure, Except.pure]
    · rw [if_neg fun both => same both.2]
      simp [same, bind, Except.bind, pure, Except.pure]
  · rw [if_neg fits, if_neg fun both => fits both.1]
    rfl

/-- The wrappers without the first one, if that is of the kind. -/
def withoutKind (wrappers : List Wrapper) (kind : Indirection) : List Wrapper :=
  match wrappers with
  | [] => []
  | wrapper :: rest => if wrapper.indirection? = some kind then rest else wrapper :: rest

theorem withoutKind_same {kind : Indirection} {words : String}
    (spells : Text.sameName words kind.words = true) (rest : List Wrapper) :
    withoutKind (.indirection kind words spells :: rest) kind = rest :=
  if_pos rfl

theorem withoutKind_other {kind : Indirection}
    (other : ¬ ∃ words spells rest, wrappers = .indirection kind words spells :: rest) :
    withoutKind wrappers kind = wrappers := by
  cases wrappers with
  | nil => rfl
  | cons wrapper rest =>
    refine if_neg fun ofKind => other ?_
    cases wrapper with
    | array => cases ofKind
    | indirection found words spells =>
      cases ofKind
      exact ⟨words, spells, rest, rfl⟩

/-- A text that begins with the words of a kind, in any case, is behind a wrapper of the kind. -/
theorem kind_of_sameName (identifier : IsIdentifier name) {kind : Indirection}
    (same : Text.sameName (String.ofList ((wrappedText wrappers name.toList).take
      (kind.words ++ " ").utf8ByteSize)) (kind.words ++ " ") = true) :
    ∃ words spells rest, wrappers = .indirection kind words spells :: rest := by
  rw [Text.sameName_iff, String.toList_ofList] at same
  cases wrappers with
  | nil =>
    -- A name has no spaces, in any letter case.
    have spaced : ' ' ∈ (kind.words ++ " ").toList.map Char.toUpper := by
      cases kind <;> decide
    rw [← same] at spaced
    obtain ⟨c, member, upper⟩ := List.mem_map.mp spaced
    have word := identifier.isWord c (List.mem_of_mem_take member)
    rw [← isWord_toUpper, upper] at word
    exact absurd word (by decide)
  | cons wrapper rest =>
    have starts : kind.opening <+:
        (wrapper.text ++ ' ' :: wrappedText rest name.toList).map Char.toUpper := by
      have begins := (List.take_prefix (kind.words ++ " ").utf8ByteSize
        (wrappedText (wrapper :: rest) name.toList)).map Char.toUpper
      rw [same, String.toList_append, List.map_append] at begins
      exact kind.opening_prefix.trans ((List.prefix_append ..).trans begins)
    have opening := Wrapper.opening_eq_of_prefix starts (by cases kind <;> rfl)
    cases wrapper with
    | array => exact absurd opening.symm kind.opening_ne_array
    | indirection other words spells =>
      obtain rfl := Indirection.opening_injective opening
      exact ⟨words, spells, rest, rfl⟩

theorem withoutWrapper_same (identifier : IsIdentifier name) {kind : Indirection} {words : String}
    (spells : Text.sameName words kind.words = true) (rest : List Wrapper) :
    withoutWrapper (kind.words ++ " ")
        (wrappedText (.indirection kind words spells :: rest) name.toList) =
      .ok (wrappedText rest name.toList) := by
  have length : words.toList.length = kind.words.toList.length := by
    simpa using congrArg List.length (Text.sameName_iff.mp spells)
  have split : wrappedText (.indirection kind words spells :: rest) name.toList =
      (words ++ " ").toList ++ wrappedText rest name.toList := by
    rw [wrappedText_cons, String.toList_append, List.append_assoc]
    rfl
  have width : (kind.words ++ " ").utf8ByteSize = (words ++ " ").toList.length := by
    rw [kind.utf8ByteSize_words, ← length, String.toList_append, List.length_append]
    rfl
  have same : Text.sameName (words ++ " ") (kind.words ++ " ") = true := by
    rw [Text.sameName_iff, String.toList_append, String.toList_append, List.map_append,
      List.map_append, Text.sameName_iff.mp spells]
  rw [withoutWrapper_eq _ (wrappedText_ascii _ identifier.ascii), split, width, List.take_left,
    List.drop_left, String.ofList_toList, if_pos ⟨by simp, same⟩,
    (wrappedText_trimmed identifier rest).trimmed]

theorem withoutWrapper_wrappedText (identifier : IsIdentifier name) (wrappers : List Wrapper)
    (kind : Indirection) :
    withoutWrapper (kind.words ++ " ") (wrappedText wrappers name.toList) =
      .ok (wrappedText (withoutKind wrappers kind) name.toList) := by
  by_cases begins : ∃ words spells rest, wrappers = .indirection kind words spells :: rest
  · obtain ⟨words, spells, rest, rfl⟩ := begins
    rw [withoutWrapper_same identifier, withoutKind_same]
  · rw [withoutWrapper_eq _ (wrappedText_ascii wrappers identifier.ascii),
      if_neg fun starts => begins (kind_of_sameName identifier starts.2),
      withoutKind_other begins]

/-- One kind after the other is taken off. -/
theorem foldlM_withoutWrapper (identifier : IsIdentifier name) (kinds : List Indirection)
    (wrappers : List Wrapper) :
    (kinds.map fun kind => kind.words ++ " ").foldlM
        (fun rest wrapper => withoutWrapper wrapper rest) (wrappedText wrappers name.toList) =
      .ok (wrappedText (kinds.foldl withoutKind wrappers) name.toList) := by
  induction kinds generalizing wrappers with
  | nil => rfl
  | cons kind kinds ih =>
    rw [List.map_cons, List.foldlM_cons, withoutWrapper_wrappedText identifier]
    exact ih (withoutKind wrappers kind)

end

/-! What is left of the wrappers -/

/-- The wrappers that stay. -/
def remaining (wrappers : List Wrapper) : List Wrapper :=
  Indirection.all.foldl withoutKind (elementWrappers wrappers)

theorem referencedType_wrapped {name : String} (identifier : IsIdentifier name)
    (wrappers : List Wrapper) :
    referencedType (wrapped wrappers name) = .ok (wrapped (remaining wrappers) name) := by
  rw [referencedType, wrapped, String.toList_ofList, elementType_wrappedText identifier,
    Indirection.wrappers_eq, foldlM_withoutWrapper identifier]
  rfl

theorem withoutKind_suffix (wrappers : List Wrapper) (kind : Indirection) :
    withoutKind wrappers kind <:+ wrappers := by
  unfold withoutKind
  split
  · exact List.suffix_rfl
  · split
    · exact List.suffix_cons ..
    · exact List.suffix_rfl

theorem remaining_suffix (wrappers : List Wrapper) : remaining wrappers <:+ wrappers := by
  have element : elementWrappers wrappers <:+ wrappers := by
    unfold elementWrappers
    split
    · exact List.rtakeWhile_suffix ..
    · exact List.suffix_rfl
  exact List.foldlRecOn (motive := (· <:+ wrappers)) Indirection.all _ element
    fun rest suffix kind _ => (withoutKind_suffix rest kind).trans suffix

/-- Kinds that are taken off one after the other take off those wrappers that follow their order. -/
theorem foldl_withoutKind_eq_nil_iff (kinds : List Indirection) (wrappers : List Wrapper) :
    kinds.foldl withoutKind wrappers = [] ↔
      (wrappers.map Wrapper.indirection?).Sublist (kinds.map some) := by
  induction kinds generalizing wrappers with
  | nil => simp
  | cons kind kinds ih =>
    rw [List.foldl_cons, ih, List.map_cons]
    cases wrappers with
    | nil => simp [withoutKind]
    | cons wrapper rest =>
      rw [withoutKind]
      split
      · rename_i ofKind
        rw [List.map_cons, ofKind, List.cons_sublist_cons]
      · rename_i other
        rw [List.map_cons]
        exact ⟨List.Sublist.cons _, List.Sublist.of_cons_of_ne other⟩

/-- Wrappers that all come off: nothing, or a stretch from an array to one with its OF in capitals;
and behind it indirections in their order, each kind once at most. -/
def Removable (wrappers : List Wrapper) : Prop :=
  ∃ arrays inner, wrappers = arrays ++ inner ∧
    (arrays = [] ∨
      arrays.head?.any Wrapper.isArray = true ∧ arrays.getLast?.any Wrapper.isCut = true) ∧
    (inner.map Wrapper.indirection?).Sublist (Indirection.all.map some)

theorem isCut_of_indirection {wrapper : Wrapper} {kind : Indirection}
    (ofKind : wrapper.indirection? = some kind) : wrapper.isCut = false := by
  cases wrapper with
  | array => cases ofKind
  | indirection => rfl

theorem remaining_eq_nil_iff (wrappers : List Wrapper) :
    remaining wrappers = [] ↔ Removable wrappers := by
  rw [remaining, foldl_withoutKind_eq_nil_iff]
  constructor
  · intro ordered
    by_cases array : wrappers.head?.any Wrapper.isArray = true
    · rcases cut_cases wrappers with uncut | ⟨front, wrapper, rest, rfl, cut, uncut⟩
      · rw [elementWrappers_uncut uncut] at ordered
        exact ⟨[], wrappers, rfl, .inl rfl, ordered⟩
      · have first : (front ++ [wrapper]).head?.any Wrapper.isArray = true := by
          cases front <;> exact array
        rw [elementWrappers_cut first cut uncut] at ordered
        exact ⟨front ++ [wrapper], rest, by simp, .inr ⟨first, by simpa using cut⟩, ordered⟩
    · rw [elementWrappers, if_neg array] at ordered
      exact ⟨[], wrappers, rfl, .inl rfl, ordered⟩
  · rintro ⟨arrays, inner, rfl, first, ordered⟩
    have uncut : ∀ wrapper ∈ inner, wrapper.isCut = false := by
      intro wrapper member
      have inside := ordered.subset (List.mem_map_of_mem member)
      obtain ⟨kind, _, ofKind⟩ := List.mem_map.mp inside
      exact isCut_of_indirection ofKind.symm
    rcases first with rfl | ⟨array, last⟩
    · rwa [List.nil_append, elementWrappers_uncut uncut]
    · cases found : arrays.getLast? with
      | none =>
        rw [found] at last
        cases last
      | some wrapper =>
        rw [found] at last
        obtain ⟨front, rfl⟩ := List.getLast?_eq_some_iff.mp found
        rwa [List.append_assoc, List.singleton_append, elementWrappers_cut array last uncut]

end PlcAudit.Graph
