import Xio.Occurrences
import Xio.Parsing
import Xio.Slices

/-!
`get_mimetype` of `lib/FileMgr.cpp` and `make_etag` of `include/xio/FileMgr.h`. The positions
of the last dot and the last slash are compared as they are returned, and `npos` is the
largest of all. The text of an entity tag has the minus sign for its separator.
-/

namespace Xio.FileMgr

open Environment MutableBuffer ListenFds

/-- The parts of `Config` that the two functions read. -/
structure Config where
  etagConsiderMtime : Bool
  etagConsiderSize : Bool
  etagConsiderInode : Bool
  mimetypes : List UInt8 → Option (List UInt8)
  defaultMimetype : List UInt8

structure Stat where
  mtime : Int
  size : Int
  ino : Nat

def lastOf (character : UInt8) : List UInt8 → Option Nat
  | [] => none
  | first :: rest =>
      match lastOf character rest with
      | some i => some (i + 1)
      | none => if first = character then some 0 else none

def findLastOf (text : List UInt8) (character : UInt8) : Nat := (lastOf character text).getD npos

-- `while (ext.size())`; the first argument is that size.
def stripLoop (config : Config) : Nat → List UInt8 → List UInt8
  | 0, _ => config.defaultMimetype
  | size + 1, ext =>
      match config.mimetypes ext with
      | some mimetype => mimetype
      | none =>
          if ext.getLast? ≠ some 126 then config.defaultMimetype
          else stripLoop config size (ext.take size)

def getMimetype (config : Config) (filename : List UInt8) : List UInt8 :=
  let ndot := findLastOf filename 46
  let nslash := findLastOf filename 47
  if ndot ≠ npos ∧ nslash < ndot then
    let ext := filename.drop (ndot + 1)
    stripLoop config ext.length ext
  else config.defaultMimetype

/-- One `if` of `make_etag`, on the counter and the stream. -/
def consider (considered : Bool) (number : List UInt8) (state : Nat × List UInt8) :
    Nat × List UInt8 :=
  if considered then
    (state.1 + 1, state.2 ++ (if state.1 ≠ 0 then [45] else []) ++ number)
  else state

def makeEtag (config : Config) (stat : Stat) : List UInt8 :=
  let state := consider config.etagConsiderMtime (printInt stat.mtime) (0, [34])
  let state := consider config.etagConsiderSize (printInt stat.size) state
  let state := consider config.etagConsiderInode (decimal stat.ino) state
  state.2 ++ [34]

/-! Mime types. -/

open Occurrences

/-- `ext` follows the last dot, and there is no slash behind that dot. -/
def Extension (filename ext : List UInt8) : Prop :=
  ∃ front, filename = front ++ 46 :: ext ∧ 46 ∉ ext ∧ 47 ∉ ext

def Candidate (filename candidate : List UInt8) : Prop :=
  ∃ tildes, Extension filename (candidate ++ List.replicate tildes 126)

def Listed (config : Config) (filename candidate : List UInt8) : Prop :=
  Candidate filename candidate ∧ (config.mimetypes candidate).isSome = true

/-- The entry of the longest candidate in the table, or else the default. -/
def Answers (config : Config) (filename mimetype : List UInt8) : Prop :=
  (∃ candidate, Candidate filename candidate ∧ config.mimetypes candidate = some mimetype ∧
      ∀ other, Listed config filename other → other.length ≤ candidate.length) ∨
    ((∀ candidate, ¬ Listed config filename candidate) ∧ mimetype = config.defaultMimetype)

theorem lastOf_absent (character : UInt8) (text : List UInt8) (absent : character ∉ text) :
    lastOf character text = none := by
  induction text with
  | nil => rfl
  | cons first rest ih =>
      rw [List.mem_cons, not_or] at absent
      obtain ⟨other, later⟩ := absent
      rw [lastOf, ih later]
      exact if_neg (Ne.symm other)

theorem lastOf_split (character : UInt8) (before after : List UInt8) (last : character ∉ after) :
    lastOf character (before ++ character :: after) = some before.length := by
  induction before with
  | nil =>
      rw [List.nil_append, lastOf, lastOf_absent character after last]
      exact if_pos rfl
  | cons first before ih =>
      rw [List.cons_append, lastOf, ih]
      rfl

theorem findLastOf_absent (character : UInt8) (text : List UInt8) (absent : character ∉ text) :
    findLastOf text character = npos := by
  rw [findLastOf, lastOf_absent character text absent]
  rfl

theorem findLastOf_split (character : UInt8) (text before after : List UInt8)
    (whole : text = before ++ character :: after) (last : character ∉ after) :
    findLastOf text character = before.length := by
  rw [findLastOf, whole, lastOf_split character before after last]
  rfl

theorem split_last (character : UInt8) (text : List UInt8) (present : character ∈ text) :
    ∃ before after, text = before ++ character :: after ∧ character ∉ after := by
  rcases last_split (· = character) text with none | ⟨before, _, after, whole, rfl, none⟩
  · exact absurd rfl (none character present)
  · exact ⟨before, after, whole, fun member => none _ member rfl⟩

theorem extension_unique (filename ext other : List UInt8) (first : Extension filename ext)
    (second : Extension filename other) : ext = other := by
  obtain ⟨front, rfl, free, _⟩ := first
  obtain ⟨front', same, free', _⟩ := second
  have position := lastOf_split 46 front ext free
  rw [same, lastOf_split 46 front' other free', Option.some.injEq] at position
  exact (List.cons.inj (List.append_inj_right same position.symm)).2

section
variable (config : Config)

-- With no extension, or without any slash, the comparison fails.
theorem getMimetype_default (filename : Object)
    (fails : (¬ ∃ ext, Extension filename.1 ext) ∨ 47 ∉ filename.1) :
    getMimetype config filename.1 = config.defaultMimetype := by
  have small := filename.2
  simp only [addressSpace] at small
  apply if_neg
  rintro ⟨dotted, behind⟩
  by_cases dot : 46 ∈ filename.1
  · obtain ⟨front, ext, whole, free⟩ := split_last 46 filename.1 dot
    have length : filename.1.length = front.length + (ext.length + 1) := by
      rw [whole, List.length_append, List.length_cons]
    rw [findLastOf_split 46 filename.1 front ext whole free] at behind
    by_cases slash : 47 ∈ ext
    · -- the dot is in a directory
      obtain ⟨middle, last, rest, none⟩ := split_last 47 ext slash
      have further : filename.1 = (front ++ 46 :: middle) ++ 47 :: last := by
        rw [whole, rest, List.append_assoc, List.cons_append]
      rw [findLastOf_split 47 filename.1 _ last further none, List.length_append] at behind
      omega
    · have absent : 47 ∉ filename.1 :=
        fails.resolve_left fun without => without ⟨ext, front, whole, free, slash⟩
      rw [findLastOf_absent 47 filename.1 absent, npos] at behind
      omega
  · exact dotted (findLastOf_absent 46 filename.1 dot)

theorem getMimetype_extension (filename : Object) (ext : List UInt8)
    (extension : Extension filename.1 ext) (slash : 47 ∈ filename.1) :
    getMimetype config filename.1 = stripLoop config ext.length ext := by
  have small := filename.2
  simp only [addressSpace] at small
  obtain ⟨front, whole, free, plain⟩ := extension
  have length : filename.1.length = front.length + (ext.length + 1) := by
    rw [whole, List.length_append, List.length_cons]
  have dot : (47 : UInt8) ≠ 46 := by decide
  have inside : 47 ∈ front := by
    rw [whole, List.mem_append, List.mem_cons, or_iff_right dot, or_iff_left plain] at slash
    exact slash
  obtain ⟨directory, stem, split, none⟩ := split_last 47 front inside
  have further : filename.1 = directory ++ 47 :: (stem ++ 46 :: ext) := by
    rw [whole, split, List.append_assoc, List.cons_append]
  have last : 47 ∉ stem ++ 46 :: ext := by
    rw [List.mem_append, List.mem_cons, or_iff_right dot, or_iff_left plain]
    exact none
  have shorter : directory.length < front.length := by
    rw [split, List.length_append, List.length_cons]
    omega
  have ndot := findLastOf_split 46 filename.1 front ext whole free
  have nslash := findLastOf_split 47 filename.1 directory _ further last
  have passed : findLastOf filename.1 46 ≠ npos ∧
      findLastOf filename.1 47 < findLastOf filename.1 46 := by
    rw [ndot, nslash, npos]
    omega
  have rest : filename.1.drop (findLastOf filename.1 46 + 1) = ext := by
    rw [ndot, whole, List.append_cons, List.drop_left' (by simp)]
  simp only [getMimetype]
  rw [if_pos passed, rest]

def Stripped (text candidate : List UInt8) : Prop :=
  ∃ tildes, text = candidate ++ List.replicate tildes 126

theorem stripped_length (text candidate : List UInt8) (stripped : Stripped text candidate) :
    candidate.length ≤ text.length := by
  obtain ⟨tildes, rfl⟩ := stripped
  rw [List.length_append]
  exact Nat.le_add_right _ _

-- It is the whole text, or it is left of the text without its last tilde.
theorem stripped_snoc (before : List UInt8) (last : UInt8) (candidate : List UInt8) :
    Stripped (before ++ [last]) candidate ↔
      candidate = before ++ [last] ∨ (last = 126 ∧ Stripped before candidate) := by
  constructor
  · rintro ⟨tildes, whole⟩
    cases tildes with
    | zero =>
        left
        rw [whole]
        exact (List.append_nil candidate).symm
    | succ tildes =>
        right
        rw [List.replicate_succ', ← List.append_assoc] at whole
        obtain ⟨front, tilde⟩ := List.append_inj' whole rfl
        exact ⟨(List.cons.inj tilde).1, tildes, front⟩
  · rintro (rfl | ⟨rfl, tildes, rfl⟩)
    · exact ⟨0, (List.append_nil _).symm⟩
    · exact ⟨tildes + 1, by rw [List.replicate_succ', List.append_assoc]⟩

-- One round of the loop.
theorem stripLoop_snoc (before : List UInt8) (last : UInt8) :
    stripLoop config (before ++ [last]).length (before ++ [last]) =
      match config.mimetypes (before ++ [last]) with
      | some mimetype => mimetype
      | none =>
          if last = 126 then stripLoop config before.length before
          else config.defaultMimetype := by
  have length : (before ++ [last]).length = before.length + 1 := List.length_append
  have shorter : (before ++ [last]).take before.length = before := List.take_left
  rw [length, stripLoop, shorter, List.getLast?_concat]
  cases config.mimetypes (before ++ [last]) with
  | some mimetype => rfl
  | none =>
      by_cases tilde : last = 126
      · rw [if_pos tilde]
        exact if_neg (by simp [tilde])
      · rw [if_neg tilde]
        exact if_pos (by simpa using tilde)

theorem stripLoop_cases (ext : List UInt8) :
    (∃ candidate, candidate ≠ [] ∧ Stripped ext candidate ∧
        config.mimetypes candidate = some (stripLoop config ext.length ext) ∧
        ∀ other, Stripped ext other → (config.mimetypes other).isSome = true →
          other.length ≤ candidate.length) ∨
      ((∀ candidate, candidate ≠ [] → Stripped ext candidate → config.mimetypes candidate = none) ∧
        stripLoop config ext.length ext = config.defaultMimetype) := by
  induction ext using List.reverseRecOn with
  | nil =>
      refine Or.inr ⟨?_, rfl⟩
      rintro candidate nonempty ⟨tildes, whole⟩
      exact absurd (List.append_eq_nil_iff.mp whole.symm).1 nonempty
  | append_singleton before last ih =>
      rw [stripLoop_snoc]
      simp only [stripped_snoc]
      cases entry : config.mimetypes (before ++ [last]) with
      | some mimetype =>
          refine Or.inl ⟨before ++ [last], by simp, Or.inl rfl, entry, ?_⟩
          intro other stripped _
          exact stripped_length _ _ ((stripped_snoc before last other).mpr stripped)
      | none =>
          by_cases tilde : last = 126
          · simp only [if_pos tilde]
            rcases ih with ⟨candidate, nonempty, stripped, found, longest⟩ | ⟨none, default⟩
            · refine Or.inl ⟨candidate, nonempty, Or.inr ⟨tilde, stripped⟩, found, ?_⟩
              rintro other (rfl | ⟨_, further⟩) listed
              · rw [entry] at listed
                cases listed
              · exact longest other further listed
            · refine Or.inr ⟨?_, default⟩
              rintro candidate nonempty (rfl | ⟨_, further⟩)
              · exact entry
              · exact none candidate nonempty further
          · refine Or.inr ⟨?_, if_neg tilde⟩
            rintro candidate _ (rfl | ⟨same, _⟩)
            · exact entry
            · exact absurd same tilde

theorem getMimetype_cases (filename : Object) :
    (47 ∈ filename.1 ∧ ∃ candidate, candidate ≠ [] ∧ Candidate filename.1 candidate ∧
        config.mimetypes candidate = some (getMimetype config filename.1) ∧
        ∀ other, Listed config filename.1 other → other.length ≤ candidate.length) ∨
      (getMimetype config filename.1 = config.defaultMimetype ∧
        (47 ∈ filename.1 → ∀ candidate, candidate ≠ [] →
          ¬ Listed config filename.1 candidate)) := by
  by_cases slash : 47 ∈ filename.1
  · by_cases dotted : ∃ ext, Extension filename.1 ext
    · obtain ⟨ext, extension⟩ := dotted
      have same (candidate : List UInt8) (further : Candidate filename.1 candidate) :
          Stripped ext candidate := by
        obtain ⟨tildes, other⟩ := further
        exact ⟨tildes, extension_unique filename.1 _ _ extension other⟩
      rw [getMimetype_extension config filename ext extension slash]
      rcases stripLoop_cases config ext with
        ⟨candidate, nonempty, ⟨tildes, rfl⟩, found, longest⟩ | ⟨none, default⟩
      · refine Or.inl ⟨slash, candidate, nonempty, ⟨tildes, extension⟩, found, ?_⟩
        rintro other ⟨further, listed⟩
        exact longest other (same other further) listed
      · refine Or.inr ⟨default, fun _ => ?_⟩
        rintro candidate nonempty ⟨further, listed⟩
        rw [none candidate nonempty (same candidate further)] at listed
        cases listed
    · refine Or.inr ⟨getMimetype_default config filename (Or.inl dotted), fun _ => ?_⟩
      rintro candidate _ ⟨⟨tildes, extension⟩, _⟩
      exact dotted ⟨_, extension⟩
  · exact Or.inr ⟨getMimetype_default config filename (Or.inr slash), fun here => absurd here slash⟩

/-- The lookup is right exactly where the name has a slash and a candidate that is not empty
is in the table, or where the default is the right answer. -/
theorem mimetype_lookup_iff (filename : Object) :
    Answers config filename.1 (getMimetype config filename.1) ↔
      (47 ∈ filename.1 ∧ ∃ candidate, candidate ≠ [] ∧ Listed config filename.1 candidate) ∨
        Answers config filename.1 config.defaultMimetype := by
  rcases getMimetype_cases config filename with
    ⟨slash, candidate, nonempty, possible, found, longest⟩ | ⟨default, absent⟩
  · have listed : Listed config filename.1 candidate := ⟨possible, by rw [found]; rfl⟩
    exact iff_of_true (Or.inl ⟨candidate, possible, found, longest⟩)
      (Or.inl ⟨slash, candidate, nonempty, listed⟩)
  · rw [default]
    constructor
    · exact Or.inr
    · rintro (⟨slash, candidate, nonempty, listed⟩ | right)
      · exact absurd listed (absent slash candidate nonempty)
      · exact right

end

def small : Config where
  etagConsiderMtime := true
  etagConsiderSize := true
  etagConsiderInode := false
  mimetypes ext := if ext = [104] then some [72] else if ext = [] then some [69] else none
  defaultMimetype := [68]

/-- `a.h` is not looked up at all, and the empty extension of `/a.` neither; `/a.h~` is. -/
theorem plain_name_gets_default :
    getMimetype small [97, 46, 104] = [68] ∧ small.mimetypes [104] = some [72] ∧
      getMimetype small [47, 97, 46] = [68] ∧ small.mimetypes [] = some [69] ∧
      getMimetype small [47, 97, 46, 104, 126] = [72] := by
  decide

/-! Entity tags. -/

open Parsing

def considered (config : Config) (stat : Stat) : List Int :=
  (if config.etagConsiderMtime then [stat.mtime] else []) ++
    (if config.etagConsiderSize then [stat.size] else []) ++
    (if config.etagConsiderInode then [(stat.ino : Int)] else [])

-- The numbers with their separators and the closing quote.
def joined : List Int → List UInt8
  | [] => [34]
  | [number] => printInt number ++ [34]
  | number :: next :: rest => printInt number ++ 45 :: joined (next :: rest)

theorem printInt_natCast (value : Nat) : printInt value = decimal value := by
  rw [printInt, if_neg (by omega), Int.natAbs_natCast]

theorem makeEtag_eq (config : Config) (stat : Stat) :
    makeEtag config stat = 34 :: joined (considered config stat) := by
  simp only [makeEtag, considered, ← printInt_natCast]
  cases config.etagConsiderMtime <;> cases config.etagConsiderSize <;>
    cases config.etagConsiderInode <;> simp [consider, joined]

theorem printInt_append_inj (left right : Int) (rest rest' : List UInt8)
    (ended : ∀ byte ∈ rest.head?, isDigit byte = false)
    (ended' : ∀ byte ∈ rest'.head?, isDigit byte = false)
    (same : printInt left ++ rest = printInt right ++ rest') : left = right ∧ rest = rest' := by
  have value : left = right := by
    rw [← decimalValue_printInt_append left rest ended, same,
      decimalValue_printInt_append right rest' ended']
  subst value
  exact ⟨rfl, List.append_cancel_left same⟩

theorem joined_inj (left right : List Int) (sizes : left.length = right.length)
    (same : joined left = joined right) : left = right := by
  have quote : ∀ byte ∈ ([34] : List UInt8).head?, isDigit byte = false := by
    rintro byte ⟨⟩
    rfl
  have minus : ∀ text : List UInt8, ∀ byte ∈ (45 :: text).head?, isDigit byte = false := by
    rintro text byte ⟨⟩
    rfl
  induction left generalizing right with
  | nil => exact (List.eq_nil_of_length_eq_zero sizes.symm).symm
  | cons first left ih =>
      cases right with
      | nil => cases sizes
      | cons second right =>
          have lengths : left.length = right.length := Nat.succ.inj sizes
          cases left with
          | nil =>
              rw [List.eq_nil_of_length_eq_zero lengths.symm] at same ⊢
              rw [(printInt_append_inj first second _ _ quote quote same).1]
          | cons next left =>
              cases right with
              | nil => cases lengths
              | cons next' right =>
                  obtain ⟨head, tail⟩ :=
                    printInt_append_inj first second _ _ (minus _) (minus _) same
                  rw [head, ih (next' :: right) lengths (List.cons.inj tail).2]

/-- Two files have the same entity tag exactly if they agree on all that is considered. -/
theorem etag_identifies (config : Config) (left right : Stat) :
    makeEtag config left = makeEtag config right ↔
      (config.etagConsiderMtime = true → left.mtime = right.mtime) ∧
        (config.etagConsiderSize = true → left.size = right.size) ∧
        (config.etagConsiderInode = true → left.ino = right.ino) := by
  have sizes : (considered config left).length = (considered config right).length := by
    simp only [considered, List.length_append, apply_ite List.length, List.length_cons,
      List.length_nil]
  have numbers : makeEtag config left = makeEtag config right ↔
      considered config left = considered config right := by
    rw [makeEtag_eq, makeEtag_eq, List.cons.injEq]
    constructor
    · rintro ⟨_, same⟩
      exact joined_inj _ _ sizes same
    · intro same
      exact ⟨rfl, by rw [same]⟩
  rw [numbers]
  simp only [considered]
  cases config.etagConsiderMtime <;> cases config.etagConsiderSize <;>
    cases config.etagConsiderInode <;> simp

end Xio.FileMgr
