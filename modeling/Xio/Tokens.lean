import Mathlib.Data.List.Basic
import Mathlib.Data.List.TakeWhile

/-!
Splitting a text at a delimiter the way `strtok_r` does: leading delimiters are skipped, a
token runs up to the next delimiter, and that delimiter is consumed with it. There are no
empty tokens, so joining pieces is undone only if no piece is empty or has a delimiter.
-/

namespace Xio.Tokens

universe u
variable {α : Type u} [DecidableEq α]

/-- One call: the token and the text behind it, or `none` at the end. -/
def strtok (delimiter : α) (text : List α) : Option (List α × List α) :=
  let start := text.dropWhile (· = delimiter)
  if start = [] then none
  else some (start.takeWhile (· ≠ delimiter), (start.dropWhile (· ≠ delimiter)).tail)

def tokensWithin (delimiter : α) : Nat → List α → List (List α)
  | 0, _ => []
  | calls + 1, text =>
      match strtok delimiter text with
      | none => []
      | some (token, rest) => token :: tokensWithin delimiter calls rest

/-- All tokens: a text has no more of them than characters. -/
def tokens (delimiter : α) (text : List α) : List (List α) :=
  tokensWithin delimiter text.length text

structure Piece (delimiter : α) (text : List α) : Prop where
  nonempty : text ≠ []
  free : delimiter ∉ text

theorem Piece.dropWhile {delimiter : α} {text : List α} (piece : Piece delimiter text)
    (rest : List α) : (text ++ rest).dropWhile (· = delimiter) = text ++ rest := by
  cases text with
  | nil => exact absurd rfl piece.nonempty
  | cons first more =>
      have other : first ≠ delimiter := fun same => piece.free (same ▸ List.mem_cons_self)
      simp [other]

theorem Piece.passes {delimiter : α} {text : List α} (piece : Piece delimiter text) :
    ∀ character ∈ text, decide (character ≠ delimiter) = true := by
  intro character member
  exact decide_eq_true fun same => piece.free (same ▸ member)

theorem strtok_piece {delimiter : α} {text : List α} (piece : Piece delimiter text)
    (rest : List α) : strtok delimiter (text ++ delimiter :: rest) = some (text, rest) := by
  have some_text : text ++ delimiter :: rest ≠ [] := by simp
  rw [strtok, piece.dropWhile, if_neg some_text, List.takeWhile_append_of_pos piece.passes,
    List.dropWhile_append_of_pos piece.passes]
  simp

theorem strtok_last {delimiter : α} {text : List α} (piece : Piece delimiter text) :
    strtok delimiter text = some (text, []) := by
  have whole : text.dropWhile (· = delimiter) = text := by
    simpa using piece.dropWhile []
  have taken : text.takeWhile (· ≠ delimiter) = text := by
    exact List.takeWhile_eq_self_iff.mpr piece.passes
  have dropped : text.dropWhile (· ≠ delimiter) = [] := by
    exact List.dropWhile_eq_nil_iff.mpr piece.passes
  rw [strtok, whole, if_neg piece.nonempty, taken, dropped, List.tail_nil]

theorem tokensWithin_intercalate (delimiter : α) (pieces : List (List α))
    (each : ∀ text ∈ pieces, Piece delimiter text) (calls : Nat) (enough : pieces.length ≤ calls) :
    tokensWithin delimiter calls ([delimiter].intercalate pieces) = pieces := by
  induction pieces generalizing calls with
  | nil =>
      cases calls with
      | zero => rfl
      | succ calls => rfl
  | cons text pieces ih =>
      rw [List.forall_mem_cons] at each
      cases calls with
      | zero => simp at enough
      | succ calls =>
          have fewer : pieces.length ≤ calls := Nat.le_of_succ_le_succ enough
          have tail := ih each.2 calls fewer
          cases pieces with
          | nil =>
              rw [List.intercalate_singleton, tokensWithin, strtok_last each.1]
              exact congrArg (text :: ·) tail
          | cons next more =>
              rw [List.intercalate_cons_cons, List.append_assoc, List.singleton_append,
                tokensWithin, strtok_piece each.1]
              exact congrArg (text :: ·) tail

omit [DecidableEq α] in
theorem length_le_intercalate (delimiter : α) (pieces : List (List α))
    (each : ∀ text ∈ pieces, Piece delimiter text) :
    pieces.length ≤ ([delimiter].intercalate pieces).length := by
  induction pieces with
  | nil => exact Nat.zero_le _
  | cons text pieces ih =>
      rw [List.forall_mem_cons] at each
      have positive := List.length_pos_of_ne_nil each.1.nonempty
      have tail := ih each.2
      cases pieces with
      | nil =>
          rw [List.intercalate_singleton]
          exact positive
      | cons next more =>
          rw [List.intercalate_cons_cons, List.length_append, List.length_append, List.length_cons]
          omega

theorem tokens_intercalate (delimiter : α) (pieces : List (List α))
    (each : ∀ text ∈ pieces, Piece delimiter text) :
    tokens delimiter ([delimiter].intercalate pieces) = pieces :=
  tokensWithin_intercalate delimiter pieces each _ (length_le_intercalate delimiter pieces each)

theorem strtok_skips (delimiter : α) (text : List α) :
    strtok delimiter (delimiter :: text) = strtok delimiter text := by
  simp [strtok]

theorem tokens_leading (delimiter : α) (pieces : List (List α))
    (each : ∀ text ∈ pieces, Piece delimiter text) :
    tokens delimiter (delimiter :: [delimiter].intercalate pieces) = pieces := by
  have enough := length_le_intercalate delimiter pieces each
  have split := tokensWithin_intercalate delimiter pieces each
    (([delimiter].intercalate pieces).length + 1) (Nat.le_succ_of_le enough)
  rw [tokensWithin] at split
  rw [tokens, List.length_cons, tokensWithin, strtok_skips]
  exact split

theorem tokensWithin_free (delimiter : α) (calls : Nat) (text token : List α)
    (member : token ∈ tokensWithin delimiter calls text) :
    delimiter ∉ token ∧ token ⊆ text := by
  induction calls generalizing text with
  | zero => cases member
  | succ calls ih =>
      simp only [tokensWithin, strtok] at member
      split at member
      · cases member
      · rename_i found
        split at found
        · cases found
        · cases found
          have start : text.dropWhile (· = delimiter) ⊆ text := List.dropWhile_subset _
          rcases List.mem_cons.mp member with rfl | later
          · constructor
            · intro inside
              simpa using List.mem_takeWhile_imp inside
            · exact List.Subset.trans (List.takeWhile_subset _) start
          · have tail := ih _ later
            refine ⟨tail.1, List.Subset.trans tail.2 ?_⟩
            exact fun character inside =>
              start (List.dropWhile_subset _ (List.mem_of_mem_tail inside))

theorem tokens_free (delimiter : α) (text token : List α) (member : token ∈ tokens delimiter text) :
    delimiter ∉ token ∧ token ⊆ text :=
  tokensWithin_free delimiter _ text token member

end Xio.Tokens
