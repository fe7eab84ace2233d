import Montage.Command.Shell
import Montage.Proofs.Graph.Reading
import Montage.Proofs.Text

/-! How a shell takes a line apart again, by the rules of quotes and backslashes that graphs share. The
line of a command falls into the words it was made of, and nothing in it stands outside quotes that a
shell would take for more than itself. -/
namespace Montage

open Montage.Filter (Mode marks isSign Sealed)

namespace Shell

/-- The words of a line: what stands between its bare spaces, without the quotes and backslashes that
only say how the rest is to be read. A line that ends within quotes or behind a backslash has none. -/
def words? (line : String) : Option (List String) :=
  if Mode.plain.behind line.toList = .plain then
    some ((((marks .plain line.toList).splitOn (' ', .plain)).filter (· ≠ [])).map fun word =>
      String.ofList ((word.filter fun x => !isSign x).map Prod.fst))
  else none

/-- Characters that a shell takes for themselves wherever they stand. -/
def IsOrdinary (c : Char) : Prop :=
  c.isAlphanum = true ∨ c ∈ ['-', '_', '.', '/', ':', '=', '%', ',', '+', '@']

instance (c : Char) : Decidable (IsOrdinary c) := inferInstanceAs (Decidable (_ ∨ _))

/-- What may be met in a line: anything within quotes, a quote behind a backslash, and else ordinary
characters beside the signs themselves. -/
def IsHarmless : Char × Mode → Prop
  | (_, .quoted) => True
  | (c, .escaped) => c = '\''
  | (c, .plain) => c = '\'' ∨ c = '\\' ∨ IsOrdinary c

theorem isOrdinary_of_isPlain {c : Char} (h : isPlain c = true) : IsOrdinary c := by
  simp only [isPlain, Bool.or_eq_true, List.contains_iff_mem] at h
  exact h.imp_right id

theorem IsOrdinary.isInert {c : Char} (h : IsOrdinary c) : Filter.IsInert [' '] c := by
  have others : ∀ d ∈ ['\\', '\'', ' '], ¬ IsOrdinary d := Text.forall_mem_of_all (by decide)
  refine ⟨?_, ?_, ?_⟩
  · rintro rfl
    exact others _ (by decide) h
  · rintro rfl
    exact others _ (by decide) h
  · intro space
    rw [List.mem_singleton.1 space] at h
    exact others _ (by decide) h

theorem sealed_word (cs : List Char) : Sealed [' '] (word cs) := by
  rw [word]
  split
  · rename_i plain
    exact .of_isInert fun c hc =>
      (isOrdinary_of_isPlain (List.all_eq_true.1 plain.2 c hc)).isInert
  · exact .singleQuoted (by decide) (by decide) cs

theorem unquoted_word (cs : List Char) : Filter.unquoted (word cs) = cs := by
  rw [word]
  split
  · rename_i plain
    exact Filter.unquoted_of_isInert fun c hc =>
      (isOrdinary_of_isPlain (List.all_eq_true.1 plain.2 c hc)).isInert
  · exact Filter.unquoted_singleQuoted cs

/-- The empty word is written too, as quotes with nothing between them. -/
theorem word_ne_nil (cs : List Char) : word cs ≠ [] := by
  rw [word]
  split
  · rename_i plain
    exact plain.1
  · exact List.cons_ne_nil _ _

theorem isHarmless_of_mem_marks_word {cs : List Char} :
    ∀ x ∈ marks .plain (word cs), IsHarmless x := by
  intro x hx
  rw [word] at hx
  split at hx
  · rename_i plain
    have ordinary : ∀ c ∈ cs, IsOrdinary c :=
      fun c hc => isOrdinary_of_isPlain (List.all_eq_true.1 plain.2 c hc)
    rw [Filter.marks_of_isInert fun c hc => (ordinary c hc).isInert] at hx
    obtain ⟨c, hc, rfl⟩ := List.mem_map.1 hx
    exact .inr (.inr (ordinary c hc))
  · rcases Filter.marks_singleQuoted cs x hx with quoted | sign
    · obtain ⟨c, mode⟩ := x
      cases quoted
      trivial
    · simp only [List.mem_cons, List.not_mem_nil, or_false] at sign
      rcases sign with rfl | rfl | rfl
      · exact .inr (.inl rfl)
      · rfl
      · exact .inl rfl

/-- Between words there is nothing but the spaces that part them. -/
theorem mem_marks_line {texts : List (List Char)} (h : ∀ t ∈ texts, Sealed [' '] t) :
    ∀ x ∈ marks .plain ([' '].intercalate texts),
      x = (' ', .plain) ∨ ∃ t ∈ texts, x ∈ marks .plain t := by
  induction texts with
  | nil => exact fun x hx => nomatch hx
  | cons t rest ih =>
    intro x hx
    have later : (x = (' ', .plain) ∨ ∃ u ∈ rest, x ∈ marks .plain u) →
        x = (' ', .plain) ∨ ∃ u ∈ t :: rest, x ∈ marks .plain u :=
      Or.imp_right fun ⟨u, among, found⟩ => ⟨u, List.mem_cons_of_mem _ among, found⟩
    cases rest with
    | nil => exact .inr ⟨t, List.mem_singleton_self t, by simpa using hx⟩
    | cons u rest =>
      rw [List.intercalate_cons_cons, List.append_assoc, Filter.marks_append,
        (h t (List.mem_cons_self ..)).plain, List.mem_append] at hx
      rcases hx with first | others
      · exact .inr ⟨t, List.mem_cons_self .., first⟩
      · rcases List.mem_cons.1 others with space | others
        · exact .inl space
        · exact later (ih (fun v hv => h v (List.mem_cons_of_mem t hv)) x others)

theorem sealed_words (words : List String) :
    ∀ t ∈ words.map fun w => word w.toList, Sealed [' '] t :=
  List.forall_mem_map.2 fun w _ => sealed_word w.toList

theorem words?_line {words : List String} (nonempty : words ≠ []) :
    words? (line words) = some words := by
  have texts := sealed_words words
  have closed : Mode.plain.behind (line words).toList = .plain := by
    have whole : Sealed [] ([' '].intercalate (words.map fun w => word w.toList)) :=
      .intercalate (.of_isInert (Text.forall_mem_of_all (by decide)))
        fun t ht => (texts t ht).mono (List.nil_subset _)
    rw [line, String.toList_ofList]
    exact whole.plain
  have parted : (marks .plain (line words).toList).splitOn (' ', .plain) =
      words.map fun w => marks .plain (word w.toList) := by
    rw [line, String.toList_ofList,
      Filter.splitOn_marks_intercalate rfl (by simpa using nonempty) texts, List.map_map]
    rfl
  have kept : ∀ t ∈ words.map fun w => marks .plain (word w.toList), decide (t ≠ []) = true := by
    intro t ht
    obtain ⟨w, -, rfl⟩ := List.mem_map.1 ht
    rw [decide_eq_true_eq]
    intro empty
    have := congrArg (List.map Prod.fst) empty
    exact word_ne_nil w.toList (by simpa using this)
  have read : ∀ w ∈ words, String.ofList (Filter.unquoted (word w.toList)) = w :=
    fun w _ => by rw [unquoted_word, String.ofList_toList]
  rw [words?, if_pos closed, parted, List.filter_eq_self.2 kept, List.map_map]
  exact congrArg some ((List.map_congr_left read).trans (List.map_id _))

end Shell

/-- Whatever the inputs, options and output of a command are, a shell reads its line as the program and
exactly these arguments, and finds nothing to expand. -/
theorem command_line_reads_as_command (c : Command) :
    Shell.words? c.line = some ("ffmpeg" :: c.arguments) ∧
      ∀ x ∈ marks .plain c.line.toList, x = (' ', .plain) ∨ Shell.IsHarmless x := by
  refine ⟨Shell.words?_line (List.cons_ne_nil _ _), ?_⟩
  intro x hx
  rw [Command.line, Shell.line, String.toList_ofList] at hx
  refine (Shell.mem_marks_line (Shell.sealed_words _) x hx).imp_right ?_
  rintro ⟨t, ht, found⟩
  obtain ⟨w, -, rfl⟩ := List.mem_map.1 ht
  exact Shell.isHarmless_of_mem_marks_word x found

end Montage
