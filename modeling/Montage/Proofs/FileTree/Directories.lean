import Montage.Proofs.FileTree

/-! Ways that end in a directory, and the directories that are made for such a way. Nothing is taken
away while directories are made, so that a way to a directory stays one. -/
namespace Montage

/-- What a path means does not depend on the slashes at its end, as long as it names a directory. -/
theorem Route.steps_eq_append_slashes (r : Route) :
    ∃ n, r.steps = r.withoutSlash.steps ++ List.replicate n .slash := by
  have slashes : ∀ step ∈ r.steps.reverse.takeWhile (· = .slash), step = .slash := by
    intro step among
    simpa using List.mem_takeWhile_imp among
  refine ⟨(r.steps.reverse.takeWhile (· = .slash)).length, ?_⟩
  rw [withoutSlash, ← List.reverse_inj, List.reverse_append, List.reverse_reverse,
    List.reverse_replicate, ← List.eq_replicate_of_mem slashes, List.takeWhile_append_dropWhile]

theorem Route.prefix_of_mem_beginnings {steps beginning : List Step}
    (h : beginning ∈ beginnings steps) : beginning <+: steps.reverse := by
  induction steps with
  | nil => cases h
  | cons step before ih =>
    have shorter : before.reverse <+: (step :: before).reverse := by
      rw [List.reverse_cons]
      exact List.prefix_append _ _
    rw [beginnings] at h
    split at h
    · exact (ih h).trans shorter
    · rcases List.mem_cons.1 h with rfl | h
      · exact List.prefix_refl _
      · exact (ih h).trans shorter

theorem Route.of_mem_ancestors {r way : Route} (h : way ∈ r.ancestors) :
    way.start = r.start ∧ ∃ more, way.steps ++ more = r.steps := by
  rcases List.mem_cons.1 h with rfl | h
  · exact ⟨rfl, [], List.append_nil _⟩
  · obtain ⟨steps, among, rfl⟩ := List.mem_map.1 h
    have beginning := prefix_of_mem_beginnings (List.mem_of_mem_tail among)
    rw [List.reverse_reverse] at beginning
    exact ⟨rfl, beginning⟩

namespace FileTree

/-- A way that ends in a directory, if its path is not too long. -/
def Leads (t : FileTree) (r : Route) (p : Location) : Prop :=
  t.walkFrom r.start r.steps = .ok ⟨p, some .directory⟩

/-- A way goes on from where it has come to, but only from a directory. -/
theorem walkFrom_append (t : FileTree) {more : List Step} (further : more ≠ []) (steps : List Step)
    (above : Location) : t.walkFrom above (steps ++ more) =
      match t.walkFrom above steps with
      | .ok ⟨p, some .directory⟩ => t.walkFrom p more
      | .ok ⟨_, some (.file _)⟩ => .error .notDirectory
      | .ok ⟨_, none⟩ => .error .notFound
      | .error e => .error e := by
  induction steps generalizing above with
  | nil => rfl
  | cons step rest ih =>
    cases step with
    | up => exact ih above.dropLast
    | stay => exact ih above
    | slash => exact ih above
    | down name =>
      have behind : rest ++ more ≠ [] := by simp [further]
      simp only [List.cons_append, walkFrom]
      by_cases long : nameLimit < name.utf8ByteSize
      · simp only [if_pos long]
      · simp only [if_neg long]
        cases t.lookup (above ++ [name]) with
        | none =>
          rw [if_neg behind]
          by_cases last : rest = []
          · rw [if_pos last]
          · rw [if_neg last]
        | some node =>
          cases node with
          | directory => exact ih (above ++ [name])
          | file bytes =>
            simp only [if_neg behind]
            by_cases last : rest = []
            · rw [if_pos last]
            · rw [if_neg last]

theorem walkFrom_slashes (t : FileTree) (p : Location) (n : Nat) :
    t.walkFrom p (List.replicate n .slash) = .ok ⟨p, some .directory⟩ := by
  induction n with
  | zero => rfl
  | succ n ih => exact ih

section
variable {t : FileTree} {r : Route} {p : Location}

theorem leads_iff_withoutSlash : t.Leads r p ↔ t.Leads r.withoutSlash p := by
  obtain ⟨n, whole⟩ := r.steps_eq_append_slashes
  have start : r.withoutSlash.start = r.start := rfl
  cases n with
  | zero =>
    rw [List.replicate_zero, List.append_nil] at whole
    rw [Leads, Leads, start, whole]
  | succ n =>
    have slashes : List.replicate (n + 1) Step.slash ≠ [] := by simp
    rw [Leads, Leads, start, whole, walkFrom_append t slashes]
    cases t.walkFrom r.start r.withoutSlash.steps with
    | error e => simp
    | ok spot =>
      obtain ⟨location, node⟩ := spot
      rcases node with _ | bytes | _ <;> simp [walkFrom_slashes]

theorem walk_eq_ok_iff {spot : Spot} :
    t.walk r = .ok spot ↔ r.size < pathLimit ∧ t.walkFrom r.start r.steps = .ok spot := by
  by_cases long : pathLimit ≤ r.size
  · simp [walk, long, Nat.not_lt.2 long]
  · simp [walk, long, Nat.not_le.1 long]

/-- A step down either goes on from a directory or is the last one. -/
theorem walkFrom_down_eq_ok_iff {above : Location} {name : String} {rest : List Step} {spot : Spot} :
    t.walkFrom above (.down name :: rest) = .ok spot ↔ name.utf8ByteSize ≤ nameLimit ∧
      (t.lookup (above ++ [name]) = some .directory ∧ t.walkFrom (above ++ [name]) rest = .ok spot ∨
        t.lookup (above ++ [name]) ≠ some .directory ∧ rest = [] ∧
          spot = ⟨above ++ [name], t.lookup (above ++ [name])⟩) := by
  by_cases long : nameLimit < name.utf8ByteSize
  · simp [walkFrom, long, Nat.not_le.2 long]
  · have short := Nat.not_lt.1 long
    rcases found : t.lookup (above ++ [name]) with _ | bytes | _ <;>
      by_cases last : rest = [] <;> simp [walkFrom, long, short, found, last, eq_comm]

theorem walkFrom_of_directories {t' : FileTree} {above : Location} {steps : List Step}
    (kept : ∀ q, t.lookup q = some .directory → t'.lookup q = some .directory)
    (h : t.walkFrom above steps = .ok ⟨p, some .directory⟩) :
    t'.walkFrom above steps = .ok ⟨p, some .directory⟩ := by
  induction steps generalizing above with
  | nil => exact h
  | cons step rest ih =>
    cases step with
    | up => exact ih h
    | stay => exact ih h
    | slash => exact ih h
    | down name =>
      rw [walkFrom_down_eq_ok_iff] at h ⊢
      obtain ⟨short, ⟨passed, further⟩ | ⟨other, -, same⟩⟩ := h
      · exact ⟨short, .inl ⟨kept _ passed, ih further⟩⟩
      · exact absurd (congrArg Spot.node same).symm other

/-- A way that does not end in a directory has found what stands at its end. -/
theorem lookup_of_walkFrom {above : Location} {steps : List Step} {spot : Spot}
    (h : t.walkFrom above steps = .ok spot) (other : spot.node ≠ some .directory) :
    t.lookup spot.location = spot.node := by
  induction steps generalizing above with
  | nil =>
    cases h
    exact absurd rfl other
  | cons step rest ih =>
    cases step with
    | up => exact ih h
    | stay => exact ih h
    | slash => exact ih h
    | down name =>
      obtain ⟨-, ⟨-, further⟩ | ⟨-, -, rfl⟩⟩ := walkFrom_down_eq_ok_iff.1 h
      · exact ih further
      · rfl

/-- Where no directory goes, such a way ends where it did, at what stands there by then. -/
theorem walkFrom_of_kept {t' : FileTree} {above : Location} {steps : List Step} {spot : Spot}
    (kept : ∀ q, t.lookup q = some .directory → t'.lookup q = some .directory)
    (h : t.walkFrom above steps = .ok spot) (other : spot.node ≠ some .directory) :
    t'.walkFrom above steps = .ok ⟨spot.location, t'.lookup spot.location⟩ := by
  induction steps generalizing above with
  | nil =>
    cases h
    exact absurd rfl other
  | cons step rest ih =>
    cases step with
    | up => exact ih h
    | stay => exact ih h
    | slash => exact ih h
    | down name =>
      rw [walkFrom_down_eq_ok_iff] at h ⊢
      obtain ⟨short, ⟨passed, further⟩ | ⟨-, rfl, rfl⟩⟩ := h
      · exact ⟨short, .inl ⟨kept _ passed, ih further⟩⟩
      · by_cases made : t'.lookup (above ++ [name]) = some .directory
        · exact ⟨short, .inl ⟨made, by rw [made, walkFrom]⟩⟩
        · exact ⟨short, .inr ⟨made, rfl, rfl⟩⟩

theorem Leads.of_directories {t' : FileTree} (h : t.Leads r p)
    (kept : ∀ q, t.lookup q = some .directory → t'.lookup q = some .directory) : t'.Leads r p :=
  walkFrom_of_directories kept h

theorem Leads.walk (h : t.Leads r p) (short : r.size < pathLimit) :
    t.walk r = .ok ⟨p, some .directory⟩ :=
  walk_eq_ok_iff.2 ⟨short, h⟩

theorem Leads.location_eq {p' : Location} (h : t.Leads r p) (other : t.Leads r p') : p = p' :=
  congrArg Spot.location (Except.ok.inj (h.symm.trans other))

theorem directory_of_put {node : Node} (clear : t.lookup p ≠ some .directory) (q : Location)
    (h : t.lookup q = some .directory) : (t.put p node).lookup q = some .directory := by
  have other : q ≠ p := fun same => clear (same ▸ h)
  rw [lookup_put_of_ne other, h]

/-- What comes where no directory was stands in the way of nothing. -/
theorem Leads.put {q : Location} {node : Node} (h : t.Leads r p)
    (clear : t.lookup q ≠ some .directory) : (t.put q node).Leads r p :=
  h.of_directories (directory_of_put clear)

theorem Leads.erase {q : Location} (h : t.Leads r p) (clear : t.lookup q ≠ some .directory) :
    (t.erase q).Leads r p := by
  refine h.of_directories fun d there => ?_
  have other : d ≠ q := fun same => clear (same ▸ there)
  rw [lookup_erase_of_ne other, there]

theorem makeDirectory_eq_ok {made : FileTree} (h : t.makeDirectory r = .ok made) :
    ∃ p, t.lookup p = none ∧ made = t.put p .directory ∧ made.Leads r p := by
  obtain ⟨⟨p, node⟩, walked, rest⟩ := bind_eq_ok_iff.1 h
  cases node with
  | some node => cases rest
  | none =>
    cases rest
    obtain ⟨-, steps⟩ := walk_eq_ok_iff.1 walked
    have missing : t.lookup p = none := lookup_of_walkFrom steps (by simp)
    have clear : t.lookup p ≠ some .directory := by simp [missing]
    have kept : ∀ q, t.lookup q = some .directory →
        (t.put p .directory).lookup q = some .directory := directory_of_put clear
    have leads : (t.put p .directory).Leads r.withoutSlash p := by
      have walks := walkFrom_of_kept kept steps (by simp)
      rwa [lookup_put_self (ne_nil_of_lookup clear)] at walks
    exact ⟨p, missing, rfl, leads_iff_withoutSlash.2 leads⟩

theorem leads_of_makeDirectory {made : FileTree} (h : t.makeDirectory r = .ok made) :
    ∃ p, made.Leads r p := by
  obtain ⟨p, -, -, leads⟩ := makeDirectory_eq_ok h
  exact ⟨p, leads⟩

end

theorem prefix_of_walkFrom {t : FileTree} {above : Location} {steps : List Step} {spot : Spot}
    (straight : .up ∉ steps) (h : t.walkFrom above steps = .ok spot) : above <+: spot.location := by
  induction steps generalizing above with
  | nil =>
    cases h
    exact List.prefix_refl _
  | cons step rest ih =>
    rw [List.mem_cons, not_or] at straight
    cases step with
    | up => exact absurd rfl straight.1
    | stay => exact ih straight.2 h
    | slash => exact ih straight.2 h
    | down name =>
      obtain ⟨-, ⟨-, further⟩ | ⟨-, -, rfl⟩⟩ := walkFrom_down_eq_ok_iff.1 h
      · exact (List.prefix_append _ _).trans (ih straight.2 further)
      · exact List.prefix_append _ _

def Grows (t grown : FileTree) (ways : List Route) : Prop :=
  ∀ q, grown.lookup q = t.lookup q ∨ t.lookup q = none ∧ grown.lookup q = some .directory ∧
    ∃ way ∈ ways, grown.Leads way q

section
variable {t grown : FileTree} {ways : List Route}

theorem Grows.refl (t : FileTree) (ways : List Route) : t.Grows t ways := fun _ => .inl rfl

theorem Grows.mono {more : List Route} (h : t.Grows grown ways) (all : ways ⊆ more) :
    t.Grows grown more := by
  intro q
  rcases h q with same | ⟨missing, made, way, among, leads⟩
  · exact .inl same
  · exact .inr ⟨missing, made, way, all among, leads⟩

theorem Grows.lookup_of_some {q : Location} {node : Node} (h : t.Grows grown ways)
    (there : t.lookup q = some node) : grown.lookup q = some node := by
  rcases h q with same | ⟨missing, -⟩
  · rw [same, there]
  · cases missing.symm.trans there

theorem Grows.lookup_of_none {q : Location} (h : t.Grows grown ways)
    (missing : grown.lookup q = none) : t.lookup q = none := by
  cases there : t.lookup q with
  | none => rfl
  | some node => cases missing.symm.trans (h.lookup_of_some there)

theorem Grows.lookup_eq_file_iff {q : Location} {bytes : Bytes} (h : t.Grows grown ways) :
    grown.lookup q = some (.file bytes) ↔ t.lookup q = some (.file bytes) := by
  refine ⟨fun there => ?_, h.lookup_of_some⟩
  rcases h q with same | ⟨-, made, -⟩
  · rw [← same, there]
  · cases made.symm.trans there

theorem Grows.trans {further : FileTree} {more : List Route} (h : t.Grows grown ways)
    (next : grown.Grows further more) : t.Grows further (ways ++ more) := by
  intro q
  rcases next q with same | ⟨missing, made, way, among, leads⟩
  · rcases h q with before | ⟨missing, made, way, among, leads⟩
    · exact .inl (same.trans before)
    · have later := leads.of_directories fun q => next.lookup_of_some
      exact .inr ⟨missing, same.trans made, way, List.mem_append_left _ among, later⟩
  · exact .inr ⟨h.lookup_of_none missing, made, way, List.mem_append_right _ among, leads⟩

theorem Grows.makeDirectory {made : FileTree} {way : Route} (h : t.Grows grown ways)
    (among : way ∈ ways) (makes : grown.makeDirectory way = .ok made) : t.Grows made ways := by
  obtain ⟨p, missing, rfl, leads⟩ := makeDirectory_eq_ok makes
  have clear : grown.lookup p ≠ some .directory := by simp [missing]
  intro q
  by_cases new : q = p
  · subst new
    have after : (grown.put q .directory).lookup q = some .directory :=
      lookup_put_self (ne_nil_of_lookup clear)
    exact .inr ⟨h.lookup_of_none missing, after, way, among, leads⟩
  · rw [lookup_put_of_ne new]
    rcases h q with same | ⟨before, after, way', among', leads'⟩
    · exact .inl same
    · exact .inr ⟨before, after, way', among', leads'.put clear⟩

theorem grows_makeAll (t : FileTree) (ways : List Route) : t.Grows (t.makeAll ways).1 ways := by
  induction ways with
  | nil => exact .refl t []
  | cons way above ih =>
    have mine := ih.mono (List.subset_cons_self way above)
    simp only [makeAll]
    split
    · rename_i made makes
      exact (Grows.refl t _).makeDirectory (List.mem_cons_self ..) makes
    · split
      · rename_i stopped
        rwa [stopped] at mine
      · rename_i made reached
        rw [reached] at mine
        split
        · rename_i makes
          exact mine.makeDirectory (List.mem_cons_self ..) makes
        · exact mine
    · exact .refl t _

theorem Grows.of_lookup_eq {other : FileTree} (h : t.Grows grown ways)
    (same : ∀ q, other.lookup q = grown.lookup q) : t.Grows other ways := by
  intro q
  rw [same]
  rcases h q with kept | ⟨missing, made, way, among, leads⟩
  · exact .inl kept
  · have directories : ∀ q, grown.lookup q = some .directory → other.lookup q = some .directory :=
      fun q there => (same q).trans there
    exact .inr ⟨missing, made, way, among, leads.of_directories directories⟩

/-- A way that never goes up makes no directory below the one at its end. -/
theorem Grows.lookup_below {r : Route} {p q : Location} (h : t.Grows grown r.ancestors)
    (leads : grown.Leads r p) (straight : .up ∉ r.steps) (nonempty : q ≠ []) :
    grown.lookup (p ++ q) = t.lookup (p ++ q) := by
  rcases h (p ++ q) with same | ⟨-, -, way, among, inside⟩
  · exact same
  · obtain ⟨start, more, whole⟩ := Route.of_mem_ancestors among
    rw [Leads, ← whole, ← start] at leads
    rw [Leads] at inside
    have beyond : p ++ q <+: p := by
      by_cases last : more = []
      · rw [last, List.append_nil, inside] at leads
        have same : p ++ q = p := congrArg Spot.location (Except.ok.inj leads)
        exact ⟨[], by rw [List.append_nil, same]⟩
      · rw [walkFrom_append grown last, inside] at leads
        refine prefix_of_walkFrom (fun up => straight ?_) leads
        rw [← whole]
        exact List.mem_append_right _ up
    have short := beyond.length_le
    rw [List.length_append] at short
    exact absurd (List.length_eq_zero_iff.1 (by omega)) nonempty

theorem grows_makeDirectories {r : Route} (h : t.makeDirectories r = (grown, .ok ())) :
    t.Grows grown r.ancestors := by
  have grows := t.grows_makeAll r.ancestors
  rwa [← makeDirectories, h] at grows

theorem leads_of_isDirectory {r : Route} (h : t.isDirectory r = true) : ∃ p, t.Leads r p := by
  simp only [isDirectory] at h
  split at h
  · rename_i walked
    exact ⟨_, (walk_eq_ok_iff.1 walked).2⟩
  · cases h

theorem leads_of_makeDirectories {r : Route} (h : t.makeDirectories r = (grown, .ok ())) :
    ∃ p, grown.Leads r p := by
  have there {stopped : FileTree} {cause : IoError}
      (h : (stopped, if stopped.isDirectory r then Except.ok () else .error cause) =
        (grown, .ok ())) : ∃ p, grown.Leads r p := by
    split at h
    · cases h
      exact leads_of_isDirectory ‹_›
    · cases h
  simp only [makeDirectories, Route.ancestors, makeAll] at h
  split at h
  · rename_i makes
    cases h
    exact leads_of_makeDirectory makes
  · split at h
    · cases h
    · split at h
      · rename_i makes
        cases h
        exact leads_of_makeDirectory makes
      · exact there h
  · exact there h

theorem makeDirectories_of_leads {r : Route} {p : Location} (h : t.Leads r p)
    (short : r.size < pathLimit) : t.makeDirectories r = (t, .ok ()) := by
  have refused : t.makeDirectory r = .error .alreadyExists := by
    have walked := (leads_iff_withoutSlash.1 h).walk short
    simp only [FileTree.makeDirectory, walked]
    rfl
  have there : t.isDirectory r = true := by
    simp only [isDirectory, h.walk short]
  simp only [makeDirectories, Route.ancestors, makeAll, refused, there, if_true]

theorem walk_withoutSlash {r : Route} {more : List Step} (further : more ≠ []) :
    t.walkFrom r.start (r.steps ++ more) =
      match t.walkFrom r.start r.withoutSlash.steps with
      | .ok ⟨p, some .directory⟩ => t.walkFrom p more
      | .ok ⟨_, some (.file _)⟩ => .error .notDirectory
      | .ok ⟨_, none⟩ => .error .notFound
      | .error e => .error e := by
  obtain ⟨n, whole⟩ := r.steps_eq_append_slashes
  have behind : List.replicate n Step.slash ++ more ≠ [] := by simp [further]
  have slashes (p : Location) :
      t.walkFrom p (List.replicate n .slash ++ more) = t.walkFrom p more := by
    rw [walkFrom_append t further, walkFrom_slashes]
  rw [whole, List.append_assoc, walkFrom_append t behind]
  simp only [slashes]

/-- Where a directory can be made and is not there yet, nothing is found. -/
theorem leads_or_absent {r : Route} (h : (t.makeDirectories r).2 = .ok ())
    (short : r.size < pathLimit) : (∃ p, t.Leads r p) ∨
      ∀ more, more ≠ [] → t.walkFrom r.start (r.steps ++ more) = .error .notFound := by
  have walked : t.walk r.withoutSlash = t.walkFrom r.start r.withoutSlash.steps :=
    if_neg (Nat.not_le.2 short)
  have refusal {cause : IoError} (other : cause ≠ .notFound)
      (refused : t.makeDirectory r = .error cause) : ∃ p, t.Leads r p := by
    simp only [makeDirectories, Route.ancestors, makeAll, refused] at h
    split at h
    · exact leads_of_isDirectory ‹_›
    · cases h
  cases reached : t.walkFrom r.start r.withoutSlash.steps with
  | error cause =>
    by_cases missing : cause = .notFound
    · right
      intro more further
      rw [walk_withoutSlash further, reached, missing]
    · have refused : t.makeDirectory r = .error cause := by
        rw [FileTree.makeDirectory, walked, reached]
        rfl
      exact .inl (refusal missing refused)
  | ok spot =>
    obtain ⟨p, node⟩ := spot
    cases node with
    | none =>
      right
      intro more further
      rw [walk_withoutSlash further, reached]
    | some node =>
      have refused : t.makeDirectory r = .error .alreadyExists := by
        rw [FileTree.makeDirectory, walked, reached]
        rfl
      exact .inl (refusal (by simp) refused)

end

section
variable {t : FileTree}

/-- A way to a place that is no directory leads to the file that is put there. -/
theorem walkFrom_put {above : Location} {steps : List Step} {spot : Spot}
    (h : t.walkFrom above steps = .ok spot) (clear : spot.node ≠ some .directory) (bytes : Bytes) :
    t.lookup spot.location ≠ some .directory ∧
      (t.put spot.location (.file bytes)).walkFrom above steps =
        .ok ⟨spot.location, some (.file bytes)⟩ := by
  have free : t.lookup spot.location ≠ some .directory := by rwa [lookup_of_walkFrom h clear]
  have kept : ∀ q, t.lookup q = some .directory →
      (t.put spot.location (.file bytes)).lookup q = some .directory := directory_of_put free
  have walks := walkFrom_of_kept kept h clear
  rw [lookup_put_self (ne_nil_of_lookup free)] at walks
  exact ⟨free, walks⟩

/-- Where a file can be opened, it can be written, and is found again along its path. -/
theorem write_cases (t : FileTree) (r : Route) :
    (∃ e, ∀ bytes, t.write r bytes = .error e) ∨
      ∃ p, t.lookup p ≠ some .directory ∧ t.locate r = p ∧ ∀ bytes,
        t.write r bytes = .ok (t.put p (.file bytes)) ∧
          (t.put p (.file bytes)).read r = .ok bytes := by
  by_cases slash : r.endsInSlash = true
  · left
    simp only [write, slash, if_true]
    cases t.walk r.aboveName with
    | error e => exact ⟨e, fun _ => rfl⟩
    | ok spot => exact ⟨.isDirectory, fun _ => rfl⟩
  · simp only [write, locate, slash]
    cases walked : t.walk r with
    | error e => exact .inl ⟨e, fun _ => rfl⟩
    | ok spot =>
      by_cases blocked : spot.node = some .directory
      · exact .inl ⟨.isDirectory, fun _ => by simp [blocked, bind, Except.bind]; rfl⟩
      · obtain ⟨short, steps⟩ := walk_eq_ok_iff.1 walked
        refine .inr ⟨spot.location, (walkFrom_put steps blocked []).1, rfl, fun bytes => ⟨?_, ?_⟩⟩
        · simp [blocked, bind, Except.bind]
          rfl
        · rw [read, walk_eq_ok_iff.2 ⟨short, (walkFrom_put steps blocked bytes).2⟩]
          rfl

theorem write_eq_ok {r : Route} {bytes : Bytes} {written : FileTree}
    (h : t.write r bytes = .ok written) : ∃ p, t.lookup p ≠ some .directory ∧
      written = t.put p (.file bytes) ∧ written.read r = .ok bytes := by
  rcases t.write_cases r with ⟨e, refused⟩ | ⟨p, clear, -, writes⟩
  · cases (refused bytes).symm.trans h
  · obtain ⟨wrote, found⟩ := writes bytes
    cases wrote.symm.trans h
    exact ⟨p, clear, rfl, found⟩

end

end FileTree
end Montage
