import Mathlib.Data.List.DropRight
import Montage.Proofs.Path

/-! Paths with another last name. They lead to the same directory, however it is written: the directory
of a path is what stands before its last name, without void pieces at the end. -/
namespace Montage.Path

variable {cs name : List Char} {ps above : List (List Char)}

theorem withoutVoidEnd_cons (first : List Char) (rest : List (List Char)) :
    withoutVoidEnd (first :: rest) = first :: rest.rdropWhile isVoid := rfl

theorem withoutVoidEnd_ne_nil (nonempty : ps ≠ []) : withoutVoidEnd ps ≠ [] := by
  obtain ⟨first, rest, rfl⟩ := List.exists_cons_of_ne_nil nonempty
  exact List.cons_ne_nil _ _

theorem withoutVoidEnd_isPrefix (ps : List (List Char)) : withoutVoidEnd ps <+: ps := by
  cases ps with
  | nil => exact List.prefix_rfl
  | cons first rest => exact (List.prefix_cons_inj first).2 (List.rdropWhile_prefix isVoid rest)

theorem withoutVoidEnd_idem (ps : List (List Char)) :
    withoutVoidEnd (withoutVoidEnd ps) = withoutVoidEnd ps := by
  cases ps with
  | nil => rfl
  | cons first rest =>
    rw [withoutVoidEnd_cons, withoutVoidEnd_cons, List.rdropWhile_idempotent]

theorem withoutVoidEnd_concat (kept : isVoid name = false) :
    withoutVoidEnd (above ++ [name]) = above ++ [name] := by
  cases above with
  | nil => rfl
  | cons first rest =>
    have other : ¬ isVoid name = true := by simp [kept]
    rw [List.cons_append, withoutVoidEnd_cons, List.rdropWhile_concat_neg _ _ _ other]

theorem withoutVoidEnd_append {voids : List (List Char)} (nonempty : ps ≠ [])
    (void : ∀ piece ∈ voids, isVoid piece = true) :
    withoutVoidEnd (ps ++ voids) = withoutVoidEnd ps := by
  obtain ⟨first, rest, rfl⟩ := List.exists_cons_of_ne_nil nonempty
  have gone : (rest ++ voids).rdropWhile isVoid = rest.rdropWhile isVoid := by
    rw [List.rdropWhile, List.rdropWhile, List.reverse_append, List.dropWhile_append_of_pos]
    exact fun piece among => void piece (List.mem_reverse.1 among)
  rw [List.cons_append, withoutVoidEnd_cons, withoutVoidEnd_cons, gone]

/-- Only a piece that the path begins with may be void and stay at the end. -/
theorem isVoid_last {last : List Char} (nonempty : above ≠ [])
    (ends : withoutVoidEnd ps = above ++ [last]) : isVoid last = false := by
  by_contra void
  have again := withoutVoidEnd_idem ps
  rw [ends, withoutVoidEnd_append nonempty (by simpa using void)] at again
  have shorter := (withoutVoidEnd_isPrefix above).length_le
  rw [again, List.length_append, List.length_singleton] at shorter
  omega

theorem exists_above_of_fileName? (h : fileName? cs = some name) :
    ∃ above, withoutVoidEnd (pieces cs) = above ++ [name] := by
  have kept := isVoid_of_isName (isName_of_fileName? h)
  have last := (fileName?_eq_some_iff.1 h).1
  rw [components, List.getLast?_filter, List.find?_eq_some_iff_append] at last
  obtain ⟨-, voids, above, parts, void⟩ := last
  refine ⟨above.reverse, ?_⟩
  have whole : pieces cs = (above.reverse ++ [name]) ++ voids.reverse := by
    simpa using congrArg List.reverse parts
  rw [whole, withoutVoidEnd_append (by simp) (fun piece among => ?_), withoutVoidEnd_concat kept]
  simpa using void piece (List.mem_reverse.1 among)

/-- The directory that some pieces lead to. Without pieces it is the one where the path begins. -/
def directoryOf (above : List (List Char)) : List Char :=
  if above = [] then [] else ofPieces (withoutVoidEnd above)

theorem parent?_of_pieces (h : IsName name) (parts : withoutVoidEnd (pieces cs) = above ++ [name]) :
    parent? cs = some (directoryOf above) := by
  rw [parent?, parts]
  cases above with
  | nil =>
    obtain ⟨c, rest, rfl⟩ := List.exists_cons_of_ne_nil h.nonempty
    rfl
  | cons first rest =>
    have nonempty : rest ++ [name] ≠ [] :=
      List.append_ne_nil_of_right_ne_nil rest (List.cons_ne_nil _ _)
    obtain ⟨second, others, more⟩ := List.exists_cons_of_ne_nil nonempty
    have all : (first :: second :: others).dropLast = first :: rest := by
      rw [← more, ← List.cons_append, List.dropLast_concat]
    rw [directoryOf, if_neg (List.cons_ne_nil _ _), List.cons_append, more]
    cases first <;> exact congrArg (fun above => some (ofPieces (withoutVoidEnd above))) all

theorem directoryOf_withoutVoidEnd (above : List (List Char)) :
    directoryOf (withoutVoidEnd above) = directoryOf above := by
  cases above with
  | nil => rfl
  | cons first rest => rw [directoryOf, withoutVoidEnd_idem]; rfl

section
variable (single : ∀ piece ∈ above, '/' ∉ piece) (nonempty : above ≠ [])
include single nonempty

theorem pieces_intercalate :
    pieces (['/'].intercalate (withoutVoidEnd above)) = withoutVoidEnd above := by
  have kept : ∀ piece ∈ withoutVoidEnd above, '/' ∉ piece :=
    fun piece among => single piece ((withoutVoidEnd_isPrefix above).subset among)
  rw [pieces, Text.splitOn_eq, List.splitOn_intercalate '/' kept (withoutVoidEnd_ne_nil nonempty)]

/-- No void piece stands at the end of a directory, so only the root ends in a slash. -/
theorem getLast?_intercalate :
    (['/'].intercalate (withoutVoidEnd above)).getLast? ≠ some '/' := by
  intro slash
  obtain ⟨front, ends⟩ := List.getLast?_eq_some_iff.1 slash
  have same := pieces_intercalate single nonempty
  rw [ends, pieces_append] at same
  cases isVoid_last (Text.splitOn_ne_nil '/' front) same.symm

end

theorem pieces_join_directoryOf (h : IsName name) (single : ∀ piece ∈ above, '/' ∉ piece) :
    pieces (join (directoryOf above) name) = withoutVoidEnd above ++ [name] := by
  have relative := head?_ne_slash h
  by_cases empty : above = []
  · rw [empty, directoryOf, if_pos rfl, join, if_pos (.inr rfl)]
    exact pieces_of_isName h
  · have same := pieces_intercalate single empty
    rw [directoryOf, if_neg empty, ofPieces]
    by_cases root : withoutVoidEnd above = [[]]
    · have placed : join ['/'] name = [] ++ '/' :: name := by simp [join, relative]
      rw [root, if_pos rfl, placed, pieces_append, pieces_of_isName h]
      rfl
    · have nonempty : ['/'].intercalate (withoutVoidEnd above) ≠ [] := by
        intro empty
        rw [empty] at same
        exact root same.symm
      rw [if_neg root, join, if_neg (not_or.2 ⟨relative, nonempty⟩),
        if_neg (getLast?_intercalate single empty), pieces_append, same, pieces_of_isName h]

theorem withFileName_of_fileName? {old : List Char} (h : fileName? cs = some old) (new : IsName name) :
    ∃ directory, parent? cs = some directory ∧ parent? (withFileName cs name) = some directory ∧
      fileName? (withFileName cs name) = some name := by
  obtain ⟨above, parts⟩ := exists_above_of_fileName? h
  have directory := parent?_of_pieces (isName_of_fileName? h) parts
  have single : ∀ piece ∈ above, '/' ∉ piece := by
    intro piece among
    have kept : piece ∈ withoutVoidEnd (pieces cs) := parts ▸ List.mem_append_left _ among
    exact Text.not_mem_of_mem_splitOn ((withoutVoidEnd_isPrefix _).subset kept)
  have placed : withFileName cs name = join (directoryOf above) name := by
    rw [withFileName, h, directory, Option.getD_some]
  have joined : pieces (withFileName cs name) = withoutVoidEnd above ++ [name] :=
    placed ▸ pieces_join_directoryOf new single
  have kept : isVoid name = false := isVoid_of_isName new
  refine ⟨directoryOf above, directory, ?_, ?_⟩
  · have ends : withoutVoidEnd (pieces (withFileName cs name)) = withoutVoidEnd above ++ [name] := by
      rw [joined, withoutVoidEnd_concat kept]
    rw [parent?_of_pieces new ends, directoryOf_withoutVoidEnd]
  · rw [fileName?_eq_some_iff, components, joined, List.filter_append,
      List.filter_cons_of_pos (by simp [kept]), List.filter_nil, List.getLast?_concat]
    exact ⟨rfl, new.above⟩

end Montage.Path
