import Mathlib.Data.List.Nodup
import Montage.Proofs.Graph.Drawing
import Montage.Proofs.PlainDecimal

/-! The pads of a compiled graph. Every pad is read at one place and written at one earlier place, and
both places can be told from the pad. Since the names of the pads in a graph are different, the same
holds of the names, which are all that the engine sees. -/
namespace Montage.Filter

namespace Statement

def reads (s : Statement) : List String := s.inputPads.map Pad.name

def writes? (s : Statement) : Option String := s.outputPad.map Pad.name

def isScale : Statement → Bool
  | scale .. => true
  | _ => false

end Statement

def readNames (ss : List Statement) : List String := ss.flatMap Statement.reads

def ReadsAt (ss : List Statement) (i : Nat) (name : String) : Prop :=
  ∃ s, ss[i]? = some s ∧ name ∈ s.reads

def WritesAt (ss : List Statement) (i : Nat) (name : String) : Prop :=
  ∃ s, ss[i]? = some s ∧ s.writes? = some name

def FirstComposition (ss : List Statement) (i : Nat) : Prop :=
  (∃ s, ss[i]? = some s ∧ s.isScale = false) ∧ ∀ j < i, ∀ s, ss[j]? = some s → s.isScale = true

def usedPads (ss : List Statement) : List Pad :=
  ss.flatMap fun s => s.inputPads ++ s.outputPad.toList

/-- Statements over a number of images in which every name is assigned once and used once. -/
structure DataflowChain (images : Nat) (ss : List Statement) : Prop where
  written : ∀ i name, WritesAt ss i name →
    (∀ j, WritesAt ss j name → j = i) ∧
      (readNames ss).count name = 1 ∧ ∃ j, i < j ∧ ReadsAt ss j name
  source : (readNames ss).count "0:v" = 1 ∧ ∃ j, ReadsAt ss j "0:v" ∧ FirstComposition ss j
  inputs : ∀ k, 1 ≤ k → k ≤ images →
    (readNames ss).count (Numeral.text k ++ ":v") = 1 ∧
      ∃ s ∈ ss, s.isScale = true ∧ Numeral.text k ++ ":v" ∈ s.reads
  read : ∀ j name, ReadsAt ss j name → name = "0:v" ∨
    (∃ k, 1 ≤ k ∧ k ≤ images ∧ name = Numeral.text k ++ ":v") ∨ ∃ i, i < j ∧ WritesAt ss i name
  unnamed : ss ≠ [] ∧ ∀ i s, ss[i]? = some s → (s.writes? = none ↔ i + 1 = ss.length)
  names : ∀ p ∈ usedPads ss, ∀ q ∈ usedPads ss, p.name = q.name → p = q

namespace Pad

/-- The pad with a name. Inputs are numbered from one, as zero is the source. -/
def ofName (name : String) : Pad :=
  let ds := name.toList.takeWhile Char.isDigit
  if ds ≠ [] then if Numeral.value ds = 0 then source else input (Numeral.value ds)
  else if name.toList.head? = some 'i' then scaled (Numeral.value (name.toList.drop 3))
  else composite (Numeral.value (name.toList.drop 3))

theorem takeWhile_digits (n : Nat) :
    (Numeral.digits n ++ [':', 'v']).takeWhile Char.isDigit = Numeral.digits n := by
  rw [List.takeWhile_append_of_pos (Numeral.isDigits_digits n).2]
  exact List.append_nil _

theorem ofName_name {p : Pad} (h : p ≠ input 0) : ofName p.name = p := by
  cases p with
  | source => decide
  | input n =>
    have positive : n ≠ 0 := fun zero => h (zero ▸ rfl)
    simp [ofName, name, Numeral.text, takeWhile_digits, (Numeral.isDigits_digits n).1,
      Numeral.value_digits, positive]
  | scaled n => simp [ofName, name, Numeral.text, Numeral.value_digits]
  | composite n => simp [ofName, name, Numeral.text, Numeral.value_digits]

theorem name_inj {p q : Pad} (hp : p ≠ input 0) (hq : q ≠ input 0) (h : p.name = q.name) :
    p = q := by
  rw [← ofName_name hp, h, ofName_name hq]

end Pad

def place (images step : Nat) : Nat := if step < images then 2 * step + 1 else images + step

def readerPlace (images : Nat) : Pad → Nat
  | .source => place images 0
  | .input n => 2 * (n - 1)
  | .scaled n => 2 * (n - 1) + 1
  | .composite n => place images n

def writerPlace (images : Nat) : Pad → Nat
  | .scaled n => 2 * (n - 1)
  | .composite n => place images (n - 1)
  | _ => 0

theorem readerPlace_before (images i : Nat) :
    readerPlace images (.before i) = place images i := by
  cases i <;> rfl

theorem place_lt {images i j : Nat} (h : i < j) : place images i < place images j := by
  simp only [place]
  split <;> split <;> omega

theorem place_of_lt {images i : Nat} (h : i < images) : place images i = 2 * i + 1 := if_pos h

theorem place_add (images i : Nat) : place images (images + i) = 2 * images + i := by
  rw [place, if_neg (by omega)]
  omega

section
variable {images : List ImageInput} {letters : List Lettering} {i j : Nat} {s t : Statement}

theorem lt_of_getElem? {α : Type} {l : List α} {k : Nat} {x : α} (h : l[k]? = some x) :
    k < l.length :=
  (List.getElem?_eq_some_iff.1 h).1

theorem drawn_step {k : Nat} (h : k < images.length + letters.length) :
    ∃ s, Drawn images letters (place images.length k) s ∧ Pad.before k ∈ s.inputPads ∧
      s.outputPad = Pad.result? (images.length + letters.length) k ∧ s.isScale = false := by
  by_cases among : k < images.length
  · have found : images[k]? = some images[k] := List.getElem?_eq_getElem among
    exact ⟨_, place_of_lt among ▸ Drawn.overlay found, List.mem_cons_self .., rfl, rfl⟩
  · obtain ⟨n, rfl⟩ := Nat.exists_eq_add_of_le (Nat.le_of_not_lt among)
    have other : n < letters.length := by omega
    have found : letters[n]? = some letters[n] := List.getElem?_eq_getElem other
    exact ⟨_, place_add images.length n ▸ Drawn.text found, List.mem_singleton_self _, rfl, rfl⟩

theorem Drawn.eq_readerPlace (h : Drawn images letters i s) {p : Pad} (hp : p ∈ s.inputPads) :
    i = readerPlace images.length p := by
  cases h with
  | scale => rw [List.mem_singleton.1 hp]; rfl
  | @overlay k image found =>
    rcases List.mem_cons.1 hp with rfl | hp
    · rw [readerPlace_before, place_of_lt (lt_of_getElem? found)]
    · rw [List.mem_singleton.1 hp]; rfl
  | text => rw [List.mem_singleton.1 hp, readerPlace_before, place_add]

theorem Drawn.eq_writerPlace (h : Drawn images letters i s) {p : Pad}
    (hp : s.outputPad = some p) : i = writerPlace images.length p := by
  cases h with
  | scale => cases hp; rfl
  | overlay found =>
    obtain ⟨-, rfl⟩ := Pad.result?_eq_some_iff.1 hp
    exact (place_of_lt (lt_of_getElem? found)).symm
  | text found =>
    obtain ⟨-, rfl⟩ := Pad.result?_eq_some_iff.1 hp
    exact (place_add images.length _).symm

/-- No pad in a drawing has the number that would give it the name of the source. -/
theorem Drawn.ne_input_zero (h : Drawn images letters i s) {p : Pad}
    (hp : p ∈ s.inputPads ++ s.outputPad.toList) : p ≠ .input 0 := by
  have before : ∀ k, Pad.before k ≠ .input 0 := fun k => by cases k <;> simp [Pad.before]
  rcases List.mem_append.1 hp with hp | hp
  · cases h with
    | scale => rw [List.mem_singleton.1 hp]; simp
    | overlay =>
      rcases List.mem_cons.1 hp with rfl | hp
      · exact before _
      · rw [List.mem_singleton.1 hp]; simp
    | text => rw [List.mem_singleton.1 hp]; exact before _
  · rw [Option.mem_toList] at hp
    cases h with
    | scale => cases hp; simp
    | overlay => rw [(Pad.result?_eq_some_iff.1 hp).2]; exact before _
    | text => rw [(Pad.result?_eq_some_iff.1 hp).2]; exact before _

theorem Drawn.nodup_inputPads (h : Drawn images letters i s) : s.inputPads.Nodup := by
  cases h with
  | scale => exact List.nodup_singleton _
  | @overlay k => cases k <;> simp [Statement.inputPads, Pad.before]
  | text => exact List.nodup_singleton _

theorem Drawn.read_later (h : Drawn images letters i s) {p : Pad} (hp : s.outputPad = some p) :
    ∃ j t, i < j ∧ Drawn images letters j t ∧ p ∈ t.inputPads := by
  have next : ∀ k, i = place images.length k →
      Pad.result? (images.length + letters.length) k = some p →
      ∃ j t, i < j ∧ Drawn images letters j t ∧ p ∈ t.inputPads := by
    rintro k rfl named
    obtain ⟨more, rfl⟩ := Pad.result?_eq_some_iff.1 named
    obtain ⟨t, drawn, reads, -⟩ := drawn_step more
    exact ⟨_, t, place_lt (Nat.lt_succ_self k), drawn, reads⟩
  cases h with
  | scale found =>
    cases hp
    exact ⟨_, _, Nat.lt_succ_self _, .overlay found, by simp [Statement.inputPads]⟩
  | overlay found => exact next _ (place_of_lt (lt_of_getElem? found)).symm hp
  | text found => exact next _ (place_add images.length _).symm hp

theorem before_written {k : Nat} (h : k < images.length + letters.length) :
    Pad.before k = .source ∨ ∃ i s, i < place images.length k ∧ Drawn images letters i s ∧
      s.outputPad = some (.before k) := by
  cases k with
  | zero => exact .inl rfl
  | succ k =>
    obtain ⟨s, drawn, -, writes, -⟩ := drawn_step (Nat.lt_of_succ_lt h)
    refine .inr ⟨_, s, place_lt (Nat.lt_succ_self k), drawn, ?_⟩
    rw [writes, Pad.result?_eq_some_iff]
    exact ⟨h, rfl⟩

theorem Drawn.read_from (h : Drawn images letters j t) {p : Pad} (hp : p ∈ t.inputPads) :
    p = .source ∨ (∃ k, 1 ≤ k ∧ k ≤ images.length ∧ p = .input k) ∨
      ∃ i s, i < j ∧ Drawn images letters i s ∧ s.outputPad = some p := by
  cases h with
  | @scale k image found =>
    rw [List.mem_singleton.1 hp]
    exact .inr (.inl ⟨k + 1, by omega, lt_of_getElem? found, rfl⟩)
  | @overlay k image found =>
    have among := lt_of_getElem? found
    rcases List.mem_cons.1 hp with rfl | hp
    · rw [← place_of_lt among]
      exact (before_written (Nat.lt_of_lt_of_le among (Nat.le_add_right _ _))).imp_right .inr
    · rw [List.mem_singleton.1 hp]
      exact .inr (.inr ⟨_, _, Nat.lt_succ_self _, .scale found, rfl⟩)
  | text found =>
    rw [List.mem_singleton.1 hp, ← place_add]
    have bound := lt_of_getElem? found
    exact (before_written (by omega)).imp_right .inr

theorem Drawn.outputPad_eq_none_iff (h : Drawn images letters i s) :
    s.outputPad = none ↔ i + 1 = 2 * images.length + letters.length := by
  cases h with
  | scale found =>
    have bound := lt_of_getElem? found
    simp only [Statement.outputPad, reduceCtorEq, false_iff]
    omega
  | overlay found =>
    have bound := lt_of_getElem? found
    rw [Statement.outputPad, Pad.result?_eq_none_iff]
    omega
  | text found =>
    have bound := lt_of_getElem? found
    rw [Lettering.statement, Statement.outputPad, Pad.result?_eq_none_iff]
    omega

theorem Drawn.isScale_of_lt (h : Drawn images letters i s) (first : i < place images.length 0) :
    s.isScale = true := by
  cases h with
  | scale => rfl
  | overlay => simp only [place] at first; split at first <;> omega
  | text => simp only [place] at first; split at first <;> omega

theorem Drawn.mem_readNames (h : Drawn images letters i s) {p : Pad} (hp : p ∈ s.inputPads) :
    p.name ∈ readNames (drawing images letters) :=
  List.mem_flatMap.2 ⟨s, List.mem_of_getElem? h.getElem?, List.mem_map_of_mem hp⟩

theorem Drawn.name_inj (hs : Drawn images letters i s) (ht : Drawn images letters j t) {p q : Pad}
    (hp : p ∈ s.inputPads ++ s.outputPad.toList) (hq : q ∈ t.inputPads ++ t.outputPad.toList)
    (h : p.name = q.name) : p = q :=
  Pad.name_inj (hs.ne_input_zero hp) (ht.ne_input_zero hq) h

theorem readsAt_drawing_iff {name : String} :
    ReadsAt (drawing images letters) i name ↔
      ∃ s, Drawn images letters i s ∧ ∃ p ∈ s.inputPads, p.name = name := by
  simp only [ReadsAt, getElem?_drawing_iff, Statement.reads, List.mem_map]

theorem Drawn.readsAt_iff (h : Drawn images letters i s) {p : Pad} (hp : p ∈ s.inputPads) :
    ReadsAt (drawing images letters) j p.name ↔ j = i := by
  rw [readsAt_drawing_iff]
  constructor
  · rintro ⟨t, other, q, hq, same⟩
    have pads := other.name_inj h (List.mem_append_left _ hq) (List.mem_append_left _ hp) same
    rw [other.eq_readerPlace hq, h.eq_readerPlace hp, pads]
  · rintro rfl
    exact ⟨s, h, p, hp, rfl⟩

theorem writesAt_drawing_iff {name : String} :
    WritesAt (drawing images letters) i name ↔
      ∃ s, Drawn images letters i s ∧ ∃ p, s.outputPad = some p ∧ p.name = name := by
  simp only [WritesAt, getElem?_drawing_iff, Statement.writes?, Option.map_eq_some_iff]

theorem nodup_readNames (images : List ImageInput) (letters : List Lettering) :
    (readNames (drawing images letters)).Nodup := by
  refine List.nodup_flatMap.2 ⟨?_, ?_⟩
  · intro s hs
    obtain ⟨i, found⟩ := List.mem_iff_getElem?.1 hs
    have drawn := getElem?_drawing_iff.1 found
    refine List.Nodup.map_on ?_ drawn.nodup_inputPads
    intro p hp q hq same
    exact drawn.name_inj drawn (List.mem_append_left _ hp) (List.mem_append_left _ hq) same
  · refine List.pairwise_iff_getElem.2 ?_
    intro i j hi hj less name first second
    obtain ⟨p, hp, rfl⟩ := List.mem_map.1 first
    obtain ⟨q, hq, same⟩ := List.mem_map.1 second
    have drawn := getElem?_drawing_iff.1 (List.getElem?_eq_getElem hi)
    have later := getElem?_drawing_iff.1 (List.getElem?_eq_getElem hj)
    have pads := later.name_inj drawn (List.mem_append_left _ hq) (List.mem_append_left _ hp) same
    have := later.eq_readerPlace hq
    have := drawn.eq_readerPlace hp
    subst pads
    omega

theorem Drawn.count_readNames (h : Drawn images letters i s) {p : Pad} (hp : p ∈ s.inputPads) :
    (readNames (drawing images letters)).count p.name = 1 :=
  List.count_eq_one_of_mem (nodup_readNames images letters) (h.mem_readNames hp)

theorem written_once {name : String} (h : WritesAt (drawing images letters) i name) :
    (∀ j, WritesAt (drawing images letters) j name → j = i) ∧
      (readNames (drawing images letters)).count name = 1 ∧
      ∃ j, i < j ∧ ReadsAt (drawing images letters) j name := by
  obtain ⟨s, drawn, p, hp, rfl⟩ := writesAt_drawing_iff.1 h
  refine ⟨?_, ?_, ?_⟩
  · intro j again
    obtain ⟨t, other, q, hq, same⟩ := writesAt_drawing_iff.1 again
    have pads : q = p := other.name_inj drawn (by simp [hq]) (by simp [hp]) same
    rw [other.eq_writerPlace hq, drawn.eq_writerPlace hp, pads]
  · obtain ⟨j, t, -, later, reads⟩ := drawn.read_later hp
    exact later.count_readNames reads
  · obtain ⟨j, t, less, later, reads⟩ := drawn.read_later hp
    exact ⟨j, less, readsAt_drawing_iff.2 ⟨t, later, p, reads, rfl⟩⟩

theorem source_read (h : 1 ≤ images.length + letters.length) :
    (readNames (drawing images letters)).count "0:v" = 1 ∧
      ∃ j, ReadsAt (drawing images letters) j "0:v" ∧
        FirstComposition (drawing images letters) j := by
  obtain ⟨s, drawn, reads, -, composes⟩ := drawn_step h
  refine ⟨drawn.count_readNames reads, _, readsAt_drawing_iff.2 ⟨s, drawn, _, reads, rfl⟩, ?_, ?_⟩
  · exact ⟨s, drawn.getElem?, composes⟩
  · intro j first t found
    exact (getElem?_drawing_iff.1 found).isScale_of_lt first

theorem input_read {k : Nat} (positive : 1 ≤ k) (among : k ≤ images.length) :
    (readNames (drawing images letters)).count (Numeral.text k ++ ":v") = 1 ∧
      ∃ s ∈ drawing images letters, s.isScale = true ∧ Numeral.text k ++ ":v" ∈ s.reads := by
  obtain ⟨n, rfl⟩ := Nat.exists_eq_add_of_le' positive
  have found : images[n]? = some images[n] := List.getElem?_eq_getElem among
  have drawn : Drawn images letters (2 * n) _ := .scale found
  refine ⟨drawn.count_readNames (List.mem_singleton_self _), _,
    List.mem_of_getElem? drawn.getElem?, rfl, ?_⟩
  exact List.mem_singleton_self _

theorem drawing_isChain (h : 1 ≤ images.length + letters.length) :
    DataflowChain images.length (drawing images letters) where
  written _ _ := written_once
  source := source_read h
  inputs _ := input_read
  read := by
    intro j name reads
    obtain ⟨t, drawn, p, hp, rfl⟩ := readsAt_drawing_iff.1 reads
    rcases drawn.read_from hp with rfl | ⟨k, positive, among, rfl⟩ | ⟨i, s, less, earlier, writes⟩
    · exact .inl rfl
    · exact .inr (.inl ⟨k, positive, among, rfl⟩)
    · exact .inr (.inr ⟨i, less, writesAt_drawing_iff.2 ⟨s, earlier, p, writes, rfl⟩⟩)
  unnamed := by
    refine ⟨?_, ?_⟩
    · rw [← List.length_pos_iff, length_drawing]
      omega
    · intro i s found
      rw [length_drawing, ← (getElem?_drawing_iff.1 found).outputPad_eq_none_iff,
        Statement.writes?, Option.map_eq_none_iff]
  names := by
    intro p hp q hq same
    obtain ⟨s, hs, hp⟩ := List.mem_flatMap.1 hp
    obtain ⟨t, ht, hq⟩ := List.mem_flatMap.1 hq
    obtain ⟨i, hi⟩ := List.mem_iff_getElem?.1 hs
    obtain ⟨j, hj⟩ := List.mem_iff_getElem?.1 ht
    exact (getElem?_drawing_iff.1 hi).name_inj (getElem?_drawing_iff.1 hj) hp hq same

end

theorem compiled_pads_form_chain (fontDir : String) (images : List ImageOverlay)
    (texts : List TextOverlay) (g : Graph)
    (compiled : (compile fontDir (ImageInput.ofOverlays images) texts).value = .ok g)
    (drawn : 1 ≤ images.length + texts.length) : DataflowChain images.length g.statements := by
  obtain ⟨-, letters, lettered, statements⟩ :=
    graphOf_eq_ok_iff.1 (value_compile_eq_ok_iff.1 compiled)
  rw [statements, ← ImageInput.length_ofOverlays images]
  apply drawing_isChain
  rw [ImageInput.length_ofOverlays, ← lettered.length_eq]
  exact drawn

theorem photos_and_caption_form_chain :
    ∃ g, (compile "/f" (ImageInput.ofOverlays [.photo, .photo]) [.caption]).value = .ok g ∧
      DataflowChain 2 g.statements := by
  obtain ⟨g, compiled⟩ : ∃ g,
      (compile "/f" (ImageInput.ofOverlays [.photo, .photo]) [.caption]).value = .ok g :=
    exists_eq_ok_of_isSome (by decide +kernel)
  exact ⟨g, compiled,
    compiled_pads_form_chain "/f" [.photo, .photo] [.caption] g compiled (by decide)⟩

end Montage.Filter
