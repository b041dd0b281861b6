import Mathlib.Data.List.TakeWhile

/-! The pieces of a text between separators as a line reader yields them: those of
splitOn, but no empty piece behind a last separator. Generic in the characters. -/
namespace Candy.Pieces

section
variable {α : Type*} [DecidableEq α] {sep : α}

def pieces (sep : α) (text : List α) : List (List α) :=
  if (text.splitOn sep).getLast? = some [] then (text.splitOn sep).dropLast else text.splitOn sep

theorem piecesNil : pieces sep ([] : List α) = [] := by
  simp [pieces]

theorem piecesLast {text : List α} (nonempty : text ≠ []) (last : sep ∉ text) : pieces sep text = [text] := by
  rw [pieces,List.splitOn_eq_singleton last,if_neg]
  simpa using nonempty

theorem piecesFirst {line rest : List α} (first : sep ∉ line) : pieces sep (line ++ sep::rest) = line :: pieces sep rest := by
  have more := List.splitOn_ne_nil sep rest
  have split := List.splitOn_append_cons_self_of_not_mem first rest
  rw [pieces,pieces,split,List.getLast?_cons_of_ne_nil more,List.dropLast_cons_of_ne_nil more]
  split <;> rfl

section
variable {line : List α} (first : sep ∉ line)
include first

theorem beforeSeparator : ∀ c ∈ line, (c != sep) = true := by
  intro c there
  rw [bne_iff_ne]
  rintro rfl
  exact first there

theorem takeFirst (rest : List α) : (line ++ sep::rest).takeWhile (· != sep) = line := by
  rw [List.takeWhile_append_of_pos (beforeSeparator first)]
  simp

theorem dropFirst (rest : List α) : ((line ++ sep::rest).dropWhile (· != sep)).drop 1 = rest := by
  rw [List.dropWhile_append_of_pos (beforeSeparator first)]
  simp

end

theorem piecesRead {text : List α} (nonempty : text ≠ []) :
    pieces sep text = text.takeWhile (· != sep) :: pieces sep ((text.dropWhile (· != sep)).drop 1) := by
  have first : sep ∉ text.takeWhile (· != sep) := fun member => by simpa using List.mem_takeWhile_imp member
  have parts := List.takeWhile_append_dropWhile (p := (· != sep)) (l := text)
  cases rest : text.dropWhile (· != sep) with
  | nil =>
    rw [rest,List.append_nil] at parts
    rw [parts] at first ⊢
    rw [piecesLast nonempty first]
    simp [piecesNil]
  | cons c more =>
    have separator : c = sep := by
      have left : text.dropWhile (· != sep) ≠ [] := by rw [rest]; nofun
      simpa [rest] using List.head_dropWhile_not (· != sep) left
    rw [rest,separator] at parts
    rw [← piecesFirst first]
    simp [parts]

end
end Candy.Pieces
