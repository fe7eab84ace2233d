import Montage.Proofs.FileTree.Children
import Montage.Proofs.Path.Sibling

/-! Paths of the names in a directory. Whatever slashes and points the path of the directory ends in, it
is the parent of the path of a name, and the way along that path is the one to the name in it. -/
namespace Montage

namespace Path

variable {cs name : List Char}

/-- A path without some of the slashes and single points at its end, which mean nothing there. -/
structure Shortens (short cs : List Char) : Prop where
  front : short <+: cs
  components : components short = components cs
  empty : short = [] → cs = []

theorem Shortens.refl (cs : List Char) : Shortens cs cs :=
  ⟨List.prefix_rfl, rfl, id⟩

theorem components_concat_slash (cs : List Char) : components (cs ++ ['/']) = components cs := by
  rw [components_append]
  exact List.append_nil _

theorem Shortens.concat_slash {short : List Char} (h : Shortens short cs) (nonempty : cs ≠ []) :
    Shortens short (cs ++ ['/']) where
  front := h.front.trans (List.prefix_append cs ['/'])
  components := h.components.trans (components_concat_slash cs).symm
  empty := fun same => absurd (h.empty same) nonempty

theorem exists_voids (ps : List (List Char)) :
    ∃ voids, ps = withoutVoidEnd ps ++ voids ∧ ∀ piece ∈ voids, isVoid piece = true := by
  cases ps with
  | nil => exact ⟨[], rfl, fun _ found => absurd found List.not_mem_nil⟩
  | cons first rest =>
    refine ⟨rest.rtakeWhile isVoid, ?_, fun piece among => List.mem_rtakeWhile_imp among⟩
    rw [withoutVoidEnd_cons, List.cons_append, List.rdropWhile_append_rtakeWhile]

theorem components_eq_filter (cs : List Char) :
    components cs = (withoutVoidEnd (pieces cs)).filter fun p => !isVoid p := by
  obtain ⟨voids, parts, void⟩ := exists_voids (pieces cs)
  have empty : voids.filter (fun p => !isVoid p) = [] := by
    rw [List.filter_eq_nil_iff]
    intro piece among
    simp [void piece among]
  rw [components]
  conv_lhs => rw [parts, List.filter_append, empty, List.append_nil]

theorem intercalate_append {separator : List Char} {ps more : List (List Char)} (nonempty : ps ≠ [])
    (others : more ≠ []) : separator.intercalate (ps ++ more) =
      separator.intercalate ps ++ separator ++ separator.intercalate more := by
  induction ps with
  | nil => exact absurd rfl nonempty
  | cons first rest ih =>
    by_cases last : rest = []
    · subst last
      rw [List.singleton_append, List.intercalate_cons_of_ne_nil others, List.intercalate_singleton]
    · have behind : rest ++ more ≠ [] := List.append_ne_nil_of_right_ne_nil rest others
      rw [List.cons_append, List.intercalate_cons_of_ne_nil behind, ih last,
        List.intercalate_cons_of_ne_nil last]
      simp only [List.append_assoc]

/-- What the pieces without the void ones at the end are joined to is how the path begins. -/
theorem intercalate_withoutVoidEnd_isPrefix (cs : List Char) :
    ['/'].intercalate (withoutVoidEnd (pieces cs)) <+: cs := by
  have whole : ['/'].intercalate (pieces cs) = cs := Text.intercalate_splitOn '/' cs
  have kept : withoutVoidEnd (pieces cs) ≠ [] :=
    withoutVoidEnd_ne_nil (Text.splitOn_ne_nil '/' cs)
  obtain ⟨voids, parts, -⟩ := exists_voids (pieces cs)
  by_cases empty : voids = []
  · rw [empty, List.append_nil] at parts
    exact ⟨[], by rw [List.append_nil, ← parts, whole]⟩
  · rw [parts, intercalate_append kept empty, List.append_assoc] at whole
    exact ⟨_, whole⟩

/-- A path of which only an empty first piece is left begins at the root. -/
theorem slash_isPrefix_of_root (nonempty : cs ≠ []) (root : withoutVoidEnd (pieces cs) = [[]]) :
    ['/'] <+: cs := by
  have whole : ['/'].intercalate (pieces cs) = cs := Text.intercalate_splitOn '/' cs
  obtain ⟨voids, parts, -⟩ := exists_voids (pieces cs)
  rw [root, List.singleton_append] at parts
  rw [parts] at whole
  by_cases empty : voids = []
  · rw [empty] at whole
    exact absurd whole.symm nonempty
  · rw [List.intercalate_cons_of_ne_nil empty, List.nil_append] at whole
    exact ⟨_, whole⟩

/-- The directory that the pieces of a path lead to is that path, but for its end. -/
theorem shortens_directoryOf (nonempty : cs ≠ []) : Shortens (directoryOf (pieces cs)) cs := by
  have parted : pieces cs ≠ [] := Text.splitOn_ne_nil '/' cs
  rw [directoryOf, if_neg parted, ofPieces]
  by_cases root : withoutVoidEnd (pieces cs) = [[]]
  · rw [if_pos root]
    refine ⟨slash_isPrefix_of_root nonempty root, ?_, fun empty => absurd empty (List.cons_ne_nil _ _)⟩
    rw [components_eq_filter cs, root]
    rfl
  · have single : ∀ piece ∈ pieces cs, '/' ∉ piece := fun piece => Text.not_mem_of_mem_splitOn
    have same := pieces_intercalate single parted
    rw [if_neg root]
    refine ⟨intercalate_withoutVoidEnd_isPrefix cs, ?_, ?_⟩
    · rw [components_eq_filter cs, components, same]
    · intro empty
      rw [empty] at same
      exact absurd same.symm root

theorem parent?_append (h : IsName name) (above : List Char) :
    parent? (above ++ '/' :: name) = some (directoryOf (pieces above)) := by
  apply parent?_of_pieces h
  rw [pieces_append, pieces_of_isName h, withoutVoidEnd_concat (isVoid_of_isName h)]

theorem utf8ByteSize_append_slash (above below : List Char) :
    (String.ofList (above ++ '/' :: below)).utf8ByteSize =
      (String.ofList above).utf8ByteSize + 1 + (String.ofList below).utf8ByteSize := by
  have slash : (String.ofList ['/']).utf8ByteSize = 1 := by decide
  rw [List.append_cons, String.ofList_append, String.ofList_append, String.utf8ByteSize_append,
    String.utf8ByteSize_append, slash]

/-- How a name is put behind a path. A slash stands between them, unless the path ends in one or nothing
is there. -/
inductive Joins (name : List Char) : List Char → List Char → Prop where
  | alone : Joins name [] name
  | slashed (above : List Char) : Joins name (above ++ ['/']) (above ++ '/' :: name)
  | parted (above : List Char) (there : above ≠ []) (unslashed : above.getLast? ≠ some '/') :
      Joins name above (above ++ '/' :: name)

theorem joins (h : IsName name) (cs : List Char) : Joins name cs (join cs name) := by
  have relative := head?_ne_slash h
  by_cases empty : cs = []
  · have alone : join cs name = name := by simp [join, empty]
    rw [alone, empty]
    exact .alone
  · by_cases slash : cs.getLast? = some '/'
    · obtain ⟨above, rfl⟩ := List.getLast?_eq_some_iff.1 slash
      have joined : join (above ++ ['/']) name = above ++ '/' :: name := by simp [join, relative]
      rw [joined]
      exact .slashed above
    · have joined : join cs name = cs ++ '/' :: name := by simp [join, relative, empty, slash]
      rw [joined]
      exact .parted cs empty slash

theorem components_join (h : IsName name) (cs : List Char) :
    components (join cs name) = components cs ++ [name] := by
  have put := joins h cs
  generalize join cs name = joined at put ⊢
  cases put with
  | alone => exact components_of_isName h
  | slashed above => rw [components_append, components_of_isName h, components_concat_slash]
  | parted => rw [components_append, components_of_isName h]

theorem fileName?_join (h : IsName name) (cs : List Char) : fileName? (join cs name) = some name := by
  rw [fileName?_eq_some_iff, components_join h, List.getLast?_concat]
  exact ⟨rfl, h.above⟩

theorem parent?_join (h : IsName name) (cs : List Char) :
    ∃ directory, parent? (join cs name) = some directory ∧ Shortens directory cs := by
  have put := joins h cs
  generalize join cs name = joined at put ⊢
  cases put with
  | alone =>
    have ends : withoutVoidEnd (pieces name) = [] ++ [name] := by
      rw [pieces_of_isName h]
      rfl
    exact ⟨[], parent?_of_pieces h ends, .refl []⟩
  | slashed above =>
    refine ⟨_, parent?_append h above, ?_⟩
    by_cases empty : above = []
    · rw [empty]
      exact .refl ['/']
    · exact (shortens_directoryOf empty).concat_slash empty
  | parted _ nonempty => exact ⟨_, parent?_append h cs, shortens_directoryOf nonempty⟩

end Path

namespace Route

theorem stepsOf_append (above below : List Char) :
    stepsOf (above ++ '/' :: below) = stepsOf above ++ stepsOf below := by
  simp only [stepsOf, Path.pieces_append, List.map_append]

theorem stepsOf_nil : stepsOf [] = [.slash] := rfl

theorem size_ofPath (here : Location) (path : String) :
    (ofPath here path).size = path.utf8ByteSize := by
  rw [ofPath]
  split
  · rename_i empty
    rw [String.toList_eq_nil_iff.1 empty]
    rfl
  · rfl
  · rfl

theorem ofPath_slash (here : Location) (cs : List Char) : ofPath here (String.ofList ('/' :: cs)) =
    ⟨[], stepsOf cs, (String.ofList ('/' :: cs)).utf8ByteSize⟩ := by
  simp only [ofPath, String.toList_ofList]

theorem ofPath_of_ne_slash {first : Char} (relative : first ≠ '/') (here : Location)
    (rest : List Char) : ofPath here (String.ofList (first :: rest)) =
      ⟨here, stepsOf (first :: rest), (String.ofList (first :: rest)).utf8ByteSize⟩ := by
  rw [ofPath, String.toList_ofList]
  split
  · rename_i empty
    cases empty
  · rename_i slash
    exact absurd (List.cons.inj slash).1 relative
  · rfl

/-- What stands before a slash in a path is gone through first, whatever stands behind it. -/
theorem exists_ofPath_append (here : Location) (above : List Char) : ∃ start steps,
    (∀ below, ofPath here (String.ofList (above ++ '/' :: below)) =
      ⟨start, steps ++ stepsOf below, (String.ofList (above ++ '/' :: below)).utf8ByteSize⟩) ∧
    (above ≠ [] → ofPath here (String.ofList above) =
      ⟨start, steps, (String.ofList above).utf8ByteSize⟩) := by
  cases above with
  | nil => exact ⟨[], [], ofPath_slash here, fun there => absurd rfl there⟩
  | cons first rest =>
    by_cases absolute : first = '/'
    · subst absolute
      refine ⟨[], stepsOf rest, fun below => ?_, fun _ => ofPath_slash here rest⟩
      rw [List.cons_append, ofPath_slash, stepsOf_append]
    · refine ⟨here, stepsOf (first :: rest), fun below => ?_, fun _ => ofPath_of_ne_slash absolute ..⟩
      rw [List.cons_append, ofPath_of_ne_slash absolute, ← List.cons_append, stepsOf_append]

theorem size_child (r : Route) (name : String) : (r.child name).size =
    r.size + (if r.size = 0 ∨ r.endsInSlash then 0 else 1) + name.utf8ByteSize := rfl

/-- A path that goes on behind its last slash ends in a piece that is not empty. -/
theorem getLast?_stepsOf {cs : List Char} (there : cs ≠ []) (unslashed : cs.getLast? ≠ some '/') :
    (stepsOf cs).getLast? ≠ some .slash := by
  intro slash
  have whole : ['/'].intercalate (Path.pieces cs) = cs := Text.intercalate_splitOn '/' cs
  rw [stepsOf, List.getLast?_map, Option.map_eq_some_iff] at slash
  obtain ⟨last, ends, void⟩ := slash
  obtain rfl : last = [] := by
    by_contra other
    simp only [Step.ofPiece, if_neg other] at void
    split at void
    · cases void
    · split at void <;> cases void
  obtain ⟨init, parts⟩ := List.getLast?_eq_some_iff.1 ends
  rw [parts] at whole
  by_cases empty : init = []
  · rw [empty] at whole
    exact there whole.symm
  · rw [Path.intercalate_append empty (List.cons_ne_nil _ _), List.intercalate_singleton,
      List.append_nil] at whole
    exact unslashed (List.getLast?_eq_some_iff.2 ⟨_, whole.symm⟩)

theorem endsInSlash_ofPath {path : List Char} (there : path ≠ [])
    (unslashed : path.getLast? ≠ some '/') (here : Location) :
    (ofPath here (String.ofList path)).endsInSlash = false := by
  obtain ⟨first, rest, rfl⟩ := List.exists_cons_of_ne_nil there
  rw [endsInSlash, decide_eq_false_iff_not]
  by_cases absolute : first = '/'
  · subst absolute
    have more : rest ≠ [] := by
      rintro rfl
      exact unslashed rfl
    rw [List.getLast?_cons_of_ne_nil more] at unslashed
    rw [ofPath_slash]
    exact getLast?_stepsOf more unslashed
  · rw [ofPath_of_ne_slash absolute]
    exact getLast?_stepsOf there unslashed

end Route

namespace FileTree

/-- A slash on the way means nothing, unless the way ends there. -/
theorem walkFrom_append_slash (t : FileTree) (above : Location) (steps : List Step) {more : List Step}
    (further : more ≠ []) :
    t.walkFrom above (steps ++ .slash :: more) = t.walkFrom above (steps ++ more) := by
  rw [walkFrom_append t (List.cons_ne_nil _ _), walkFrom_append t further]
  rfl

theorem walk_congr (t : FileTree) {r way : Route} (size : r.size = way.size)
    (same : t.walkFrom r.start r.steps = t.walkFrom way.start way.steps) : t.walk r = t.walk way := by
  rw [walk, walk, size, same]

/-- The way to a name in a directory is that along the path of the directory with the name behind it. -/
theorem walk_ofPath_pathOf (t : FileTree) (here : Location) (path : String) {name : String}
    (h : Path.IsName name.toList) :
    t.walk (.ofPath here ((Directory.ofPath here path).pathOf name)) =
      t.walk ((Route.ofPath here path).child name) := by
  have down := Route.stepsOf_of_isName h
  obtain ⟨cs, rfl⟩ : ∃ cs, path = String.ofList cs := ⟨path.toList, String.ofList_toList.symm⟩
  simp only [Directory.pathOf, Directory.ofPath, String.toList_ofList]
  have put := Path.joins h cs
  generalize Path.join cs name.toList = joined at put ⊢
  cases put with
  | alone =>
    obtain ⟨first, rest, letters⟩ := List.exists_cons_of_ne_nil h.nonempty
    have relative : first ≠ '/' := fun slash => h.slash (by simp [letters, slash])
    rw [letters, Route.ofPath_of_ne_slash relative, ← letters, down]
    apply t.walk_congr
    · simp [Route.child, Route.extend, Route.ofPath]
    · rfl
  | slashed above =>
    obtain ⟨start, steps, parted, -⟩ := Route.exists_ofPath_append here above
    have ended : (Route.ofPath here (String.ofList (above ++ ['/']))).endsInSlash = true := by
      rw [parted]
      simp [Route.endsInSlash, Route.stepsOf_nil]
    apply t.walk_congr
    · rw [Route.size_child, if_pos (.inr ended), Route.size_ofPath, Route.size_ofPath,
        Path.utf8ByteSize_append_slash, Path.utf8ByteSize_append_slash, String.ofList_toList]
      rfl
    · rw [parted, parted, down, Route.stepsOf_nil]
      change _ = t.walkFrom start (steps ++ [.slash] ++ [.down name])
      rw [List.append_assoc]
      exact (t.walkFrom_append_slash start steps (List.cons_ne_nil _ _)).symm
  | parted _ there unslashed =>
    obtain ⟨start, steps, parted, alone⟩ := Route.exists_ofPath_append here cs
    have goesOn : ¬ ((Route.ofPath here (String.ofList cs)).size = 0 ∨
        (Route.ofPath here (String.ofList cs)).endsInSlash = true) := by
      rw [Route.size_ofPath, Route.endsInSlash_ofPath there unslashed]
      simpa using there
    apply t.walk_congr
    · rw [Route.size_child, if_neg goesOn, Route.size_ofPath, Route.size_ofPath,
        Path.utf8ByteSize_append_slash, String.ofList_toList]
    · rw [parted, alone there, down]
      rfl

end FileTree

theorem Directory.pathOf_inj {d : Directory} {name other : String} (h : Path.IsName name.toList)
    (h' : Path.IsName other.toList) : d.pathOf name = d.pathOf other ↔ name = other := by
  rw [pathOf, pathOf, String.ofList_inj, Path.join_inj (Path.head?_ne_slash h) (Path.head?_ne_slash h'),
    String.toList_inj]

namespace Route

theorem child_inj {r : Route} {name other : String} : r.child name = r.child other ↔ name = other := by
  constructor
  · intro same
    have steps : r.steps ++ [.down name] = r.steps ++ [.down other] := congrArg Route.steps same
    simpa using steps
  · rintro rfl
    rfl

/-- A way to a direct child of the directory that a path names. The path of the child has the directory
as its parent and the name as its last one, and what is found there is the child of that name. -/
structure IsChildOf (r : Route) (here : Location) (path name : String) : Prop where
  parent : ∃ directory, Path.parent? ((Directory.ofPath here path).pathOf name).toList =
    some directory ∧ Path.Shortens directory path.toList
  last : Path.fileName? ((Directory.ofPath here path).pathOf name).toList = some name.toList
  along : ∀ t : FileTree,
    t.walk r = t.walk (.ofPath here ((Directory.ofPath here path).pathOf name))
  found : ∀ (t : FileTree) (spot : Spot), t.walk r = .ok spot ↔
    ∃ p, t.Leads (.ofPath here path) p ∧ (ofPath here path).Admits name ∧
      spot = ⟨p ++ [name], t.lookup (p ++ [name])⟩

theorem isChildOf_child (here : Location) (path : String) {name : String}
    (h : Path.IsName name.toList) : ((ofPath here path).child name).IsChildOf here path name where
  parent := by
    rw [Directory.pathOf, String.toList_ofList]
    exact Path.parent?_join h path.toList
  last := by
    rw [Directory.pathOf, String.toList_ofList]
    exact Path.fileName?_join h path.toList
  along t := (t.walk_ofPath_pathOf here path h).symm
  found t spot := by
    constructor
    · intro walked
      obtain ⟨p, leads⟩ := FileTree.leads_of_walk_child walked
      exact ⟨p, leads, leads.walk_child_eq_ok_iff.1 walked⟩
    · rintro ⟨p, leads, found⟩
      exact leads.walk_child_eq_ok_iff.2 found

end Route
end Montage
