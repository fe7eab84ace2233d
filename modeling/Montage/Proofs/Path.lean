import Mathlib.Data.List.TakeWhile
import Montage.Path
import Montage.Proofs.Text

/-! Paths that are a single name. Such a path names something in the directory it is followed from; it
leads neither above that directory nor back to it. -/
namespace Montage.Path

structure IsName (cs : List Char) : Prop where
  nonempty : cs ≠ []
  slash : '/' ∉ cs
  here : cs ≠ ['.']
  above : cs ≠ ['.', '.']

theorem pieces_of_isName {cs : List Char} (h : IsName cs) : pieces cs = [cs] :=
  Text.splitOn_of_not_mem h.slash

theorem isVoid_of_isName {cs : List Char} (h : IsName cs) : isVoid cs = false := by
  simp [isVoid, h.nonempty, h.here]

theorem head?_ne_slash {cs : List Char} (h : IsName cs) : cs.head? ≠ some '/' :=
  fun slash => h.slash (List.mem_of_head? slash)

theorem components_of_isName {cs : List Char} (h : IsName cs) : components cs = [cs] := by
  simp [components, pieces_of_isName h, isVoid_of_isName h]

theorem pieces_append (above below : List Char) :
    pieces (above ++ '/' :: below) = pieces above ++ pieces below :=
  Text.splitOn_append '/' above below

theorem components_append (above below : List Char) :
    components (above ++ '/' :: below) = components above ++ components below := by
  rw [components, pieces_append, List.filter_append, components, components]

/-- Names that do not start at the root are still told apart below a directory. -/
theorem join_inj {above a b : List Char} (ha : a.head? ≠ some '/') (hb : b.head? ≠ some '/') :
    join above a = join above b ↔ a = b := by
  simp only [join, ha, hb, false_or]
  split
  · exact Iff.rfl
  · split <;> simp

theorem fileName?_eq_some_iff {cs name : List Char} : fileName? cs = some name ↔
    (components cs).getLast? = some name ∧ name ≠ ['.', '.'] := by
  simp only [fileName?]
  split
  · rename_i last found
    rw [found, Option.some.injEq]
    split
    · rename_i above
      simp only [reduceCtorEq, false_iff, not_and, not_not]
      exact fun same => same ▸ above
    · rename_i other
      rw [Option.some.injEq, iff_self_and]
      exact fun same => same ▸ other
  · rename_i empty
    simp [empty]

theorem fileName?_of_isName {cs : List Char} (h : IsName cs) : fileName? cs = some cs := by
  rw [fileName?_eq_some_iff, components_of_isName h]
  exact ⟨rfl, h.above⟩

theorem fileName?_append {name : List Char} (h : IsName name) (above : List Char) :
    fileName? (above ++ '/' :: name) = some name := by
  rw [fileName?_eq_some_iff, components_append, components_of_isName h, List.getLast?_concat]
  exact ⟨rfl, h.above⟩

theorem isName_of_fileName? {cs name : List Char} (h : fileName? cs = some name) : IsName name := by
  obtain ⟨last, other⟩ := fileName?_eq_some_iff.1 h
  obtain ⟨among, kept⟩ := List.mem_filter.1 (List.mem_of_getLast? last)
  simp only [isVoid, Bool.not_eq_true', Bool.or_eq_false_iff, decide_eq_false_iff_not] at kept
  exact ⟨kept.1, Text.not_mem_of_mem_splitOn among, kept.2, other⟩

theorem stem?_of_isName {cs : List Char} (h : IsName cs) : stem? cs = some (stemOf cs) := by
  rw [stem?, fileName?_of_isName h, Option.map_some]

theorem stemOf_of_not_mem {name : List Char} (h : '.' ∉ name) : stemOf name = name := by
  have empty : name.reverse.dropWhile (· ≠ '.') = [] := by
    rw [List.dropWhile_eq_nil_iff]
    intro c hc
    have other : c ≠ '.' := fun same => h (same ▸ List.mem_reverse.1 hc)
    simpa using other
  simp only [stemOf, empty, List.drop_nil]

theorem stemOf_append {stem suffix : List Char} (h : '.' ∉ suffix) :
    stemOf (stem ++ '.' :: suffix) = if stem = [] then '.' :: suffix else stem := by
  have behind : (stem ++ '.' :: suffix).reverse.dropWhile (· ≠ '.') = '.' :: stem.reverse := by
    have before : ∀ c ∈ suffix.reverse, decide (c ≠ '.') = true := by
      intro c hc
      have other : c ≠ '.' := fun same => h (same ▸ List.mem_reverse.1 hc)
      simpa using other
    rw [List.reverse_append, List.reverse_cons, List.append_assoc,
      List.dropWhile_append_of_pos before]
    rfl
  simp only [stemOf, behind, List.drop_succ_cons, List.drop_zero]
  cases stem with
  | nil => rfl
  | cons c stem =>
    rw [if_neg (List.cons_ne_nil c stem)]
    cases again : (c :: stem).reverse with
    | nil => simp at again
    | cons d rest =>
      show (d :: rest).reverse = c :: stem
      rw [← again, List.reverse_reverse]

theorem stemOf_eq_self_or (name : List Char) : stemOf name = name ∨
    stemOf name ≠ [] ∧ ∃ suffix, name = stemOf name ++ '.' :: suffix ∧ '.' ∉ suffix := by
  by_cases point : '.' ∈ name
  · obtain ⟨after, before, whole, last⟩ := List.eq_append_cons_of_mem (List.mem_reverse.2 point)
    have parted : name = before.reverse ++ '.' :: after.reverse := by
      simpa using congrArg List.reverse whole
    have pointless : '.' ∉ after.reverse := fun found => last (List.mem_reverse.1 found)
    have stem : stemOf name = if before.reverse = [] then '.' :: after.reverse else before.reverse :=
      parted ▸ stemOf_append pointless
    by_cases empty : before.reverse = []
    · rw [empty, List.nil_append] at parted
      rw [if_pos empty, ← parted] at stem
      exact .inl stem
    · rw [if_neg empty] at stem
      exact .inr ⟨stem ▸ empty, after.reverse, stem ▸ parted, pointless⟩
  · exact .inl (stemOf_of_not_mem point)

theorem stemOf_prefix (name : List Char) : stemOf name <+: name := by
  rcases stemOf_eq_self_or name with same | ⟨-, suffix, whole, -⟩
  · exact same.symm ▸ List.prefix_rfl
  · exact ⟨'.' :: suffix, whole.symm⟩

theorem stemOf_ne_nil {name : List Char} (h : name ≠ []) : stemOf name ≠ [] := by
  rcases stemOf_eq_self_or name with same | ⟨nonempty, -⟩
  · rwa [same]
  · exact nonempty

end Montage.Path
