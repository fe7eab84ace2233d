import Mathlib.Data.List.Basic
import Montage.Proofs.Command.Shape
import Montage.Proofs.Graph.Options

/-! What can be told of an edit from its command. The arguments are read back in the order in which they
are written: inputs up to the first other option, statements between semicolons, options between
colons. So two edits with one command draw the same at the same places and times. -/
namespace Montage

open Timestamp (formatSeconds)

/-- Images that are drawn alike; their ids and what is stored for them may differ. -/
structure ImageOverlay.DrawsLike (a b : ImageOverlay) : Prop where
  width : formatSeconds a.size.width = formatSeconds b.size.width
  height : formatSeconds a.size.height = formatSeconds b.size.height
  x : formatSeconds a.position.x = formatSeconds b.position.x
  y : formatSeconds a.position.y = formatSeconds b.position.y
  visibleFrom : formatSeconds a.visibleFrom = formatSeconds b.visibleFrom
  visibleUntil : formatSeconds a.visibleUntil = formatSeconds b.visibleUntil

/-- Texts that are drawn alike. The size of a text box is not drawn. -/
structure TextOverlay.DrawsLike (a b : TextOverlay) : Prop where
  text : a.text = b.text
  fontFamily : a.fontFamily = b.fontFamily
  color : a.color = b.color
  fontSize : a.fontSize = b.fontSize
  x : formatSeconds a.position.x = formatSeconds b.position.x
  y : formatSeconds a.position.y = formatSeconds b.position.y
  visibleFrom : formatSeconds a.visibleFrom = formatSeconds b.visibleFrom
  visibleUntil : formatSeconds a.visibleUntil = formatSeconds b.visibleUntil

structure Edit.RendersLike (a b : Edit) : Prop where
  images : List.Forall₂ ImageOverlay.DrawsLike a.images b.images
  texts : List.Forall₂ TextOverlay.DrawsLike a.texts b.texts
  start : formatSeconds a.trim.start = formatSeconds b.trim.start
  stop : formatSeconds a.trim.stop = formatSeconds b.trim.stop
  format : a.format = b.format

theorem asInputs_append_inj {xs ys rest others : List String} (hr : rest.head? ≠ some "-i")
    (ho : others.head? ≠ some "-i") (h : asInputs xs ++ rest = asInputs ys ++ others) :
    xs = ys ∧ rest = others := by
  induction xs generalizing ys with
  | nil =>
    cases ys with
    | nil => exact ⟨rfl, h⟩
    | cons y ys =>
      have first : rest = "-i" :: y :: (asInputs ys ++ others) := h
      exact absurd (first ▸ rfl) hr
  | cons x xs ih =>
    cases ys with
    | nil =>
      have first : "-i" :: x :: (asInputs xs ++ rest) = others := h
      exact absurd (first ▸ rfl) ho
    | cons y ys =>
      have parts : "-i" :: x :: (asInputs xs ++ rest) = "-i" :: y :: (asInputs ys ++ others) := h
      obtain ⟨head, tail⟩ := List.cons.inj (List.cons.inj parts).2
      obtain ⟨inputs, behind⟩ := ih tail
      exact ⟨by rw [head, inputs], behind⟩

namespace Filter

theorem Graph.map_text_eq {g k : Graph} (clean_g : ∀ s ∈ g.statements, s.IsClean)
    (clean_k : ∀ s ∈ k.statements, s.IsClean) (empty : g.isEmpty = k.isEmpty)
    (h : g.isEmpty = false → g.text = k.text) :
    g.statements.map (·.text.toList) = k.statements.map (·.text.toList) := by
  have read : ∀ {g : Graph}, (∀ s ∈ g.statements, s.IsClean) → g.isEmpty = false →
      pieces g.text.toList = g.statements.map (·.text.toList) := by
    intro g clean nonempty
    have texts : g.statements.map (·.text.toList) ≠ [] := by simpa [Graph.isEmpty] using nonempty
    rw [g.toList_text]
    exact pieces_intercalate texts
      (List.forall_mem_map.2 fun s hs => (clean s hs).sealed_text.mono (by decide))
  cases known : g.isEmpty with
  | true =>
    have void_g : g.statements = [] := List.isEmpty_iff.1 known
    have void_k : k.statements = [] := List.isEmpty_iff.1 (empty.symm.trans known)
    rw [void_g, void_k]
  | false => rw [← read clean_g known, h known, read clean_k (empty.symm.trans known)]

namespace Statement

variable {s t : Statement}

theorem filter_eq_of_text (inputs : s.inputPads = t.inputPads) (outputs : s.outputPad = t.outputPad)
    (h : s.text.toList = t.text.toList) : s.filter.toList = t.filter.toList := by
  rw [toList_text, toList_text, inputs, outputs] at h
  exact List.append_cancel_left (List.append_cancel_right h)

/-- Options are told apart where no colon stands in one of them. -/
theorem options_eq_of_filter (names : s.filterName = t.filterName) (some_s : s.options ≠ [])
    (some_t : t.options ≠ []) (hs : ∀ o ∈ s.options, ':' ∉ o.toList)
    (ht : ∀ o ∈ t.options, ':' ∉ o.toList) (h : s.filter.toList = t.filter.toList) :
    s.options = t.options := by
  have read : ∀ {options : List String}, options ≠ [] → (∀ o ∈ options, ':' ∉ o.toList) →
      ([':'].intercalate (options.map String.toList)).splitOn ':' = options.map String.toList := by
    intro options nonempty plain
    exact List.splitOn_intercalate ':' (List.forall_mem_map.2 plain) (by simpa using nonempty)
  rw [toList_filter, toList_filter, names] at h
  have texts := congrArg (List.splitOn ':') (List.append_cancel_left h)
  rw [read some_s hs, read some_t ht] at texts
  exact List.map_injective_iff.2 (fun _ _ => String.toList_injective) texts

end Statement

theorem colon_not_mem_formatSeconds {x : Binary64} (finite : x.isFinite = true) :
    ':' ∉ (formatSeconds x).toList :=
  fun found => isBare_formatSeconds finite ':' found (by decide)

theorem colon_not_mem_gate {g : TimeGate} (start : g.start.isFinite = true)
    (stop : g.stop.isFinite = true) : ':' ∉ g.text.toList :=
  fun found => not_mem_optionSpecial_gate start stop ':' found (by decide)

theorem TimeGate.text_inj {g k : TimeGate} (start_g : g.start.isFinite = true)
    (start_k : k.start.isFinite = true) (h : g.text = k.text) :
    formatSeconds g.start = formatSeconds k.start ∧ formatSeconds g.stop = formatSeconds k.stop := by
  have comma : ∀ {x : Binary64}, x.isFinite = true → ',' ∉ (formatSeconds x).toList :=
    fun finite found => isBare_formatSeconds finite ',' found (by decide)
  have whole := congrArg String.toList h
  simp only [text, String.toList_append, List.append_assoc] at whole
  obtain ⟨starts, rest⟩ := Text.append_separator_inj (comma start_g) (comma start_k)
    (List.append_cancel_left whole)
  exact ⟨String.toList_injective starts, String.toList_injective (List.append_cancel_right rest)⟩

theorem fontFile_inj {fontDir a b : String} (h : fontFile fontDir a = fontFile fontDir b) : a = b := by
  simp only [fontFile] at h
  split at h
  · exact (String.append_right_inj _).1 ((String.append_left_inj _).1 h)
  · exact (String.append_right_inj _).1 ((String.append_left_inj _).1 h)

namespace Statement

variable {input scaled base image : Pad} {output : Option Pad}

theorem scale_text_inj {s t : Size} (hs : (scale input scaled s).IsClean)
    (ht : (scale input scaled t).IsClean)
    (h : (scale input scaled s).text = (scale input scaled t).text) :
    formatSeconds s.width = formatSeconds t.width ∧
      formatSeconds s.height = formatSeconds t.height := by
  have plain : ∀ {s : Size}, (scale input scaled s).IsClean →
      ∀ o ∈ (scale input scaled s).options, ':' ∉ o.toList := by
    rintro s ⟨width, height⟩
    simp [options_scale, colon_not_mem_formatSeconds width, colon_not_mem_formatSeconds height]
  have names : (scale input scaled s).filterName = (scale input scaled t).filterName := rfl
  have filters : (scale input scaled s).filter.toList = (scale input scaled t).filter.toList :=
    filter_eq_of_text rfl rfl (congrArg String.toList h)
  have options := options_eq_of_filter names (by simp [options_scale]) (by simp [options_scale])
    (plain hs) (plain ht) filters
  rw [options_scale, options_scale] at options
  simpa using options

theorem overlay_text_inj {p q : Position} {g k : TimeGate}
    (hp : (overlay base image p g output).IsClean) (hq : (overlay base image q k output).IsClean)
    (h : (overlay base image p g output).text = (overlay base image q k output).text) :
    formatSeconds p.x = formatSeconds q.x ∧ formatSeconds p.y = formatSeconds q.y ∧
      formatSeconds g.start = formatSeconds k.start ∧
      formatSeconds g.stop = formatSeconds k.stop := by
  have plain : ∀ {p : Position} {g : TimeGate}, (overlay base image p g output).IsClean →
      ∀ o ∈ (overlay base image p g output).options, ':' ∉ o.toList := by
    rintro p g ⟨x, y, start, stop⟩
    simp [options_overlay, String.toList_append, colon_not_mem_formatSeconds x,
      colon_not_mem_formatSeconds y, colon_not_mem_gate start stop]
  have names : (overlay base image p g output).filterName =
      (overlay base image q k output).filterName := rfl
  have filters : (overlay base image p g output).filter.toList =
      (overlay base image q k output).filter.toList :=
    filter_eq_of_text rfl rfl (congrArg String.toList h)
  have options := options_eq_of_filter names (by simp [options_overlay])
    (by simp [options_overlay]) (plain hp) (plain hq) filters
  rw [options_overlay, options_overlay] at options
  simp only [List.cons.injEq, and_true, String.append_right_inj, String.append_left_inj] at options
  obtain ⟨x, y, gate⟩ := options
  exact ⟨x, y, TimeGate.text_inj hp.2.2.1 hq.2.2.1 gate⟩

end Statement

/-- The options of a drawn text are read back as its overlay asks for, so one text of a statement is
asked for by overlays that are drawn alike. -/
theorem drawsLike_of_letter {fontDir : String} {a b : TextOverlay} {l m : Lettering}
    (ha : letter fontDir a = .ok l) (hb : letter fontDir b = .ok m) {base : Pad} {output : Option Pad}
    (h : (l.statement base output).text = (m.statement base output).text) : a.DrawsLike b := by
  obtain ⟨body, value, written, read, expanded⟩ := draws_of_letter ha base output
  obtain ⟨other, content, writtenOther, readOther, expandedOther⟩ := draws_of_letter hb base output
  have bodies : body = other := by
    rw [h, writtenOther] at written
    exact (List.append_cancel_left (List.append_cancel_right written)).symm
  rw [bodies, readOther] at read
  simp only [askedOptions, List.map_cons, List.map_nil, List.cons.injEq, Option.some.injEq,
    Prod.mk.injEq, true_and, and_true, String.toList_inj] at read
  obtain ⟨file, values, color, size, x, y, gate⟩ := read
  have text : a.text = b.text := by
    rw [values, expanded] at expandedOther
    exact String.toList_injective (Option.some.inj expandedOther)
  obtain ⟨-, -, window_a⟩ := TextOverlay.validate_eq_ok_iff.1 (letter_eq_ok_iff.1 ha).1
  obtain ⟨-, -, window_b⟩ := TextOverlay.validate_eq_ok_iff.1 (letter_eq_ok_iff.1 hb).1
  obtain ⟨start, stop⟩ := TimeGate.text_inj (g := ⟨b.visibleFrom, b.visibleUntil⟩)
    (k := ⟨a.visibleFrom, a.visibleUntil⟩) window_b.finite_start window_a.finite_start gate
  exact ⟨text, (fontFile_inj file).symm, color.symm, (Numeral.text_inj size).symm, x.symm, y.symm,
    start.symm, stop.symm⟩

theorem Drawn.text_eq {images others : List ImageInput} {letters signs : List Lettering} {i : Nat}
    {s t : Statement} (hs : Drawn images letters i s) (ht : Drawn others signs i t)
    (same : (drawing images letters).map (·.text.toList) =
      (drawing others signs).map (·.text.toList)) : s.text = t.text := by
  have texts := congrArg (·[i]?) same
  simp only [List.getElem?_map, hs.getElem?, ht.getElem?, Option.map_some, Option.some.injEq]
    at texts
  exact String.toList_injective texts

theorem length_eq_of_text {images others : List ImageInput} {letters signs : List Lettering}
    (inputs : others.length = images.length)
    (same : (drawing images letters).map (·.text.toList) =
      (drawing others signs).map (·.text.toList)) : signs.length = letters.length := by
  have lengths := congrArg List.length same
  simp only [List.length_map, length_drawing, inputs] at lengths
  omega

/-- With the same number of images, the statements tell what is drawn. -/
theorem drawsLike_of_statements {fontDir : String} {images others : List ImageOverlay}
    {texts captions : List TextOverlay} {g k : Graph}
    (hg : graphOf fontDir (ImageInput.ofOverlays images) texts = .ok g)
    (hk : graphOf fontDir (ImageInput.ofOverlays others) captions = .ok k)
    (count : images.length = others.length)
    (same : g.statements.map (·.text.toList) = k.statements.map (·.text.toList)) :
    List.Forall₂ ImageOverlay.DrawsLike images others ∧
      List.Forall₂ TextOverlay.DrawsLike texts captions := by
  have clean_g := isClean_of_graphOf hg
  have clean_k := isClean_of_graphOf hk
  obtain ⟨-, letters, lettered, drawn_g⟩ := graphOf_eq_ok_iff.1 hg
  obtain ⟨-, signs, signed, drawn_k⟩ := graphOf_eq_ok_iff.1 hk
  rw [drawn_g, drawn_k] at same
  rw [drawn_g] at clean_g
  rw [drawn_k] at clean_k
  have inputs : (ImageInput.ofOverlays others).length = (ImageInput.ofOverlays images).length := by
    rw [ImageInput.length_ofOverlays, ImageInput.length_ofOverlays, count]
  have total := length_eq_of_text inputs same
  have alike : ∀ {i s t}, Drawn (ImageInput.ofOverlays images) letters i s →
      Drawn (ImageInput.ofOverlays others) signs i t → s.text = t.text ∧ s.IsClean ∧ t.IsClean :=
    fun hs ht => ⟨hs.text_eq ht same, clean_g _ (List.mem_of_getElem? hs.getElem?),
      clean_k _ (List.mem_of_getElem? ht.getElem?)⟩
  refine ⟨forall₂_of_getElem? count ?_, forall₂_of_getElem? ?_ ?_⟩
  · intro i a b ha hb
    have input := ImageInput.getElem?_ofOverlays ha
    have other := ImageInput.getElem?_ofOverlays hb
    have scaled : Drawn (ImageInput.ofOverlays images) letters _ _ := .scale input
    have scaledOther : Drawn (ImageInput.ofOverlays others) signs _ _ := .scale other
    have laid : Drawn (ImageInput.ofOverlays images) letters _ _ := .overlay input
    have laidOther : Drawn (ImageInput.ofOverlays others) signs _ _ := .overlay other
    rw [inputs, total] at laidOther
    obtain ⟨sizes, clean, cleanOther⟩ := alike scaled scaledOther
    obtain ⟨width, height⟩ := Statement.scale_text_inj clean cleanOther sizes
    obtain ⟨places, clean, cleanOther⟩ := alike laid laidOther
    obtain ⟨x, y, start, stop⟩ := Statement.overlay_text_inj clean cleanOther places
    exact ⟨width, height, x, y, start, stop⟩
  · rw [lettered.length_eq, signed.length_eq, total]
  · intro i a b ha hb
    obtain ⟨l, found, lettering⟩ := exists_getElem?_of_forall₂ lettered ha
    obtain ⟨m, opposite, sign⟩ := exists_getElem?_of_forall₂ signed hb
    have first : Drawn (ImageInput.ofOverlays images) letters _ _ := .text found
    have second : Drawn (ImageInput.ofOverlays others) signs _ _ := .text opposite
    rw [inputs, total] at second
    exact drawsLike_of_letter lettering sign (alike first second).1

end Filter

namespace EditCommand

def tail (c : EditCommand) : List String :=
  (if c.graph.isEmpty then [] else ["-filter_complex", c.graph.text]) ++
    ["-ss", formatSeconds c.trim.start, "-to", formatSeconds c.trim.stop, c.output]

theorem head?_tail (c : EditCommand) : c.tail.head? ≠ some "-i" := by
  rw [tail]
  split <;> simp

theorem inputs_of_arguments_eq {c d : EditCommand} (h : c.arguments = d.arguments) :
    c.source = d.source ∧ c.images.map (·.fileName) = d.images.map (·.fileName) ∧
      c.tail = d.tail := by
  rw [arguments_eq, arguments_eq, List.append_assoc, List.append_assoc] at h
  obtain ⟨inputs, behind⟩ := asInputs_append_inj c.head?_tail d.head?_tail h
  obtain ⟨source, images⟩ := List.cons.inj inputs
  exact ⟨source, images, behind⟩

theorem outputs_of_tail_eq {c d : EditCommand} (h : c.tail = d.tail) :
    c.graph.isEmpty = d.graph.isEmpty ∧ (c.graph.isEmpty = false → c.graph.text = d.graph.text) ∧
      formatSeconds c.trim.start = formatSeconds d.trim.start ∧
      formatSeconds c.trim.stop = formatSeconds d.trim.stop ∧ c.output = d.output := by
  cases empty : c.graph.isEmpty <;> cases other : d.graph.isEmpty <;>
    simp [tail, empty, other] at h ⊢ <;> simp [h]

end EditCommand

theorem Edit.format_eq_of_output {a b : Edit} {o : AssemblyOptions} {c d : EditCommand}
    (ha : a.IsCommand o c) (hb : b.IsCommand o d) (source : c.source = d.source)
    (output : c.output = d.output) : a.format = b.format := by
  have names := congrArg String.toList output
  rw [ha.toList_output, hb.toList_output, ← source,
    Naming.outputChars_of_isName ha.isSourceName.isName,
    Naming.outputChars_of_isName ha.isSourceName.isName] at names
  have endings := (List.cons.inj (List.append_cancel_left (List.append_cancel_left names))).2
  exact Format.extension_inj (String.toList_injective endings)

theorem equal_commands_render_alike (o : AssemblyOptions) (a b : Edit) (c d : EditCommand)
    (assembled : (a.assemble o).value = .ok c) (other : (b.assemble o).value = .ok d)
    (same : c.arguments = d.arguments) :
    a.RendersLike b ∧ c.source = d.source ∧ c.output = d.output ∧ c.format = d.format := by
  have command_a := a.isCommand_of_assemble assembled
  have command_b := b.isCommand_of_assemble other
  obtain ⟨source, images, tails⟩ := EditCommand.inputs_of_arguments_eq same
  obtain ⟨empty, texts, start, stop, output⟩ := EditCommand.outputs_of_tail_eq tails
  have count : a.images.length = b.images.length := by
    have lengths := congrArg List.length images
    rwa [List.length_map, List.length_map, command_a.images, command_b.images,
      ImageInput.length_ofOverlays, ImageInput.length_ofOverlays] at lengths
  have statements := Filter.Graph.map_text_eq (Filter.isClean_of_graphOf command_a.graph)
    (Filter.isClean_of_graphOf command_b.graph) empty texts
  obtain ⟨drawn, lettered⟩ :=
    Filter.drawsLike_of_statements command_a.graph command_b.graph count statements
  have format := Edit.format_eq_of_output command_a command_b source output
  rw [command_a.trim, command_b.trim] at start stop
  refine ⟨⟨drawn, lettered, start, stop, format⟩, source, output, ?_⟩
  rw [command_a.format, command_b.format, format]

def Edit.uploadedAgain : Edit :=
  { Edit.dashed with
    images := [{ ImageOverlay.photo with id := "picture", image := "copy" }]
    source := { asset := "copy", fileName := "_y my clip.mp4" } }

theorem uploaded_again_renders_alike :
    ∃ c d, (Edit.dashed.assemble {}).value = .ok c ∧ (Edit.uploadedAgain.assemble {}).value = .ok d ∧
      c.arguments = d.arguments ∧ Edit.dashed ≠ Edit.uploadedAgain ∧
      Edit.dashed.RendersLike Edit.uploadedAgain := by
  obtain ⟨c, assembled⟩ : ∃ c, (Edit.dashed.assemble {}).value = .ok c :=
    exists_eq_ok_of_isSome (by decide +kernel)
  obtain ⟨d, other⟩ : ∃ d, (Edit.uploadedAgain.assemble {}).value = .ok d :=
    exists_eq_ok_of_isSome (by decide +kernel)
  have texts : (Edit.dashed.assemble {}).value.toOption.map EditCommand.arguments =
      (Edit.uploadedAgain.assemble {}).value.toOption.map EditCommand.arguments := by
    decide +kernel
  rw [assembled, other] at texts
  have same : c.arguments = d.arguments := Option.some.inj texts
  have alike := equal_commands_render_alike {} Edit.dashed Edit.uploadedAgain c d assembled other same
  exact ⟨c, d, assembled, other, same, by decide +kernel, alike.1⟩

end Montage
