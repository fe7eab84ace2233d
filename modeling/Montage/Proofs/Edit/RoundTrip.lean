import Montage.Proofs.Edit.Layout
import Montage.Proofs.Json.Form

/-! Edits survive their text. Every record of an edit is written by the columns it is read by, its
numbers are finite whenever they were read, and the text that is written is read back as the value it
was written for. -/
namespace Montage

open Json (Column Form Faithful)

def Position.IsFinite (p : Position) : Prop := p.x.isFinite = true ∧ p.y.isFinite = true

def Size.IsFinite (s : Size) : Prop := s.width.isFinite = true ∧ s.height.isFinite = true

def TrimRange.IsFinite (t : TrimRange) : Prop := t.start.isFinite = true ∧ t.stop.isFinite = true

theorem Position.isFinite_origin : Position.origin.IsFinite :=
  ⟨Binary64.zero_isFinite, Binary64.zero_isFinite⟩

theorem Size.isFinite_textBox : Size.textBox.IsFinite := ⟨by decide +kernel, by decide +kernel⟩

def TextOverlay.IsWritable (o : TextOverlay) : Prop :=
  o.fontSize < Nat.pow 2 32 ∧ o.position.IsFinite ∧ o.size.IsFinite ∧
    o.visibleFrom.isFinite = true ∧ o.visibleUntil.isFinite = true

def ImageOverlay.IsWritable (o : ImageOverlay) : Prop :=
  o.position.IsFinite ∧ o.size.IsFinite ∧ o.visibleFrom.isFinite = true ∧
    o.visibleUntil.isFinite = true

def Edit.IsWritable (e : Edit) : Prop :=
  e.trim.IsFinite ∧ (∀ o ∈ e.images, o.IsWritable) ∧ ∀ o ∈ e.texts, o.IsWritable

def Format.form : Form Format := ⟨toJson, fun _ => True⟩

theorem Format.faithful : Faithful decode form where
  writable f _ := .string f.extension
  reads f _ := by cases f <;> rfl
  proper _ _ _ _ := trivial

namespace RecordKind

def form : (k : RecordKind) → Form k.Value
  | edit => ⟨Edit.toJson, Edit.IsWritable⟩
  | trim => ⟨TrimRange.toJson, TrimRange.IsFinite⟩
  | source => ⟨SourceAsset.toJson, fun _ => True⟩
  | image => ⟨ImageOverlay.toJson, ImageOverlay.IsWritable⟩
  | text => ⟨TextOverlay.toJson, TextOverlay.IsWritable⟩
  | position => ⟨Position.toJson, Position.IsFinite⟩
  | size => ⟨Size.toJson, Size.IsFinite⟩

def columns : (k : RecordKind) → List (Column k.Value)
  | edit => [⟨_, Edit.trimField, Edit.trim, form trim⟩,
      ⟨_, Edit.imagesField, Edit.images, (form image).listOf⟩,
      ⟨_, Edit.textsField, Edit.texts, (form text).listOf⟩,
      ⟨_, Edit.sourceField, Edit.source, form source⟩, ⟨_, Edit.formatField, Edit.format, Format.form⟩]
  | trim => [⟨_, TrimRange.startField, TrimRange.start, .double⟩,
      ⟨_, TrimRange.stopField, TrimRange.stop, .double⟩]
  | source => [⟨_, SourceAsset.assetField, SourceAsset.asset, .text⟩,
      ⟨_, SourceAsset.fileNameField, SourceAsset.fileName, .text⟩,
      ⟨_, SourceAsset.contentTypeField, SourceAsset.contentType, .optional .text⟩]
  | image => [⟨_, ImageOverlay.idField, ImageOverlay.id, .text⟩,
      ⟨_, ImageOverlay.imageField, ImageOverlay.image, .text⟩,
      ⟨_, ImageOverlay.positionField, ImageOverlay.position, form position⟩,
      ⟨_, ImageOverlay.sizeField, ImageOverlay.size, form size⟩,
      ⟨_, ImageOverlay.visibleFromField, ImageOverlay.visibleFrom, .double⟩,
      ⟨_, ImageOverlay.visibleUntilField, ImageOverlay.visibleUntil, .double⟩]
  | text => [⟨_, TextOverlay.idField, TextOverlay.id, .text⟩,
      ⟨_, TextOverlay.textField, TextOverlay.text, .text⟩,
      ⟨_, TextOverlay.fontFamilyField, TextOverlay.fontFamily, .text⟩,
      ⟨_, TextOverlay.fontSizeField, TextOverlay.fontSize, .word⟩,
      ⟨_, TextOverlay.colorField, TextOverlay.color, .text⟩,
      ⟨_, TextOverlay.positionField, TextOverlay.position, form position⟩,
      ⟨_, TextOverlay.sizeField, TextOverlay.size, form size⟩,
      ⟨_, TextOverlay.visibleFromField, TextOverlay.visibleFrom, .double⟩,
      ⟨_, TextOverlay.visibleUntilField, TextOverlay.visibleUntil, .double⟩]
  | position => [⟨_, Position.xField, Position.x, .double⟩, ⟨_, Position.yField, Position.y, .double⟩]
  | size => [⟨_, Size.widthField, Size.width, .double⟩, ⟨_, Size.heightField, Size.height, .double⟩]

theorem hasColumns (k : RecordKind) : k.record.HasColumns k.columns where
  fields := by
    have same : k.columns.map Column.anyField = k.fields := by cases k <;> rfl
    rw [same]
    exact k.hasFields
  build members a := by
    cases k <;>
      simp only [record, Edit.record, TrimRange.record, SourceAsset.record, ImageOverlay.record,
        TextOverlay.record, Position.record, Size.record, columns, bind_eq_ok_iff,
        List.forall_mem_cons, pure, Except.pure, Except.ok.injEq] <;>
      cases a <;>
      grind

/-- A record is faithful to its form when its columns are and make up the form. -/
theorem faithful_of_columns {k : RecordKind} (columns : ∀ c ∈ k.columns, c.IsFaithful)
    (write : ∀ a, k.form.write a = (Form.record k.columns).write a)
    (proper : ∀ a, k.form.proper a ↔ (Form.record k.columns).proper a) :
    Faithful k.record.decode k.form :=
  (k.hasColumns.faithful columns).congr write proper

/-- The records that are no more than two numbers. -/
theorem faithful_pair {k : RecordKind} (pair : k = trim ∨ k = position ∨ k = size) :
    Faithful k.record.decode k.form := by
  rcases pair with rfl | rfl | rfl
  all_goals
    refine faithful_of_columns ?_ (fun _ => rfl) fun a => ?_
    · simp only [columns, List.forall_mem_cons]
      exact ⟨.of_required Json.faithful_double rfl, .of_required Json.faithful_double rfl, nofun⟩
    · simp [form, columns, Form.record, Form.double, TrimRange.IsFinite, Position.IsFinite,
        Size.IsFinite]

theorem faithful_trim : Faithful TrimRange.record.decode (form trim) := faithful_pair (.inl rfl)

theorem faithful_position : Faithful Position.record.decode (form position) :=
  faithful_pair (.inr (.inl rfl))

theorem faithful_size : Faithful Size.record.decode (form size) := faithful_pair (.inr (.inr rfl))

/-- A source without a content type is written without the member, not with null. -/
theorem faithful_source : Faithful SourceAsset.record.decode (form source) where
  writable s _ := by
    refine .object (List.forall_mem_append.2 ⟨?_, List.forall_mem_map.2 fun t _ => .string t⟩)
    exact List.forall_mem_cons.2 ⟨.string s.asset, List.forall_mem_singleton.2 (.string s.fileName)⟩
  reads s _ := by
    have faithful : ∀ c ∈ source.columns, c.IsFaithful := by
      simp only [columns, List.forall_mem_cons]
      exact ⟨.of_required Json.faithful_text rfl, .of_required Json.faithful_text rfl,
        .of_default (d := none) (Json.faithful_optional Json.faithful_text fun _ => nofun) rfl nofun,
        nofun⟩
    have full := (source.hasColumns.faithful faithful).reads s (by
      simp [Form.record, columns, Form.text, Form.optional])
    obtain ⟨asset, fileName, contentType⟩ := s
    cases contentType with
    | some type => exact full
    | none =>
      have lasting : SourceAsset.record.decode (.object
          ([(.string "asset_id", .string asset), (.string "file_name", .string fileName)] ++ [])) =
            .ok ⟨asset, fileName, none⟩ :=
        source.hasFields.decode_leaveOut (f := ⟨_, SourceAsset.contentTypeField⟩)
          (by simp [fields]) rfl rfl full
      exact lasting
  proper _ _ _ _ := trivial

theorem faithful_image : Faithful ImageOverlay.record.decode (form image) := by
  refine faithful_of_columns (k := image) ?_ (fun _ => rfl) fun o => ?_
  · simp only [columns, List.forall_mem_cons]
    exact ⟨.of_required Json.faithful_text rfl, .of_required Json.faithful_text rfl,
      .of_default (d := Position.origin) faithful_position rfl Position.isFinite_origin,
      .of_required faithful_size rfl, .of_required Json.faithful_double rfl,
      .of_required Json.faithful_double rfl, nofun⟩
  · simp [form, columns, Form.record, Form.double, Form.text, ImageOverlay.IsWritable]

theorem faithful_text : Faithful TextOverlay.record.decode (form text) := by
  refine faithful_of_columns (k := text) ?_ (fun _ => rfl) fun o => ?_
  · simp only [columns, List.forall_mem_cons]
    exact ⟨.of_required Json.faithful_text rfl, .of_required Json.faithful_text rfl,
      .of_default (d := "arial") Json.faithful_text rfl trivial,
      .of_default (d := (24 : Nat)) Json.faithful_word rfl (show 24 < Nat.pow 2 32 by decide),
      .of_default (d := "black") Json.faithful_text rfl trivial,
      .of_default (d := Position.origin) faithful_position rfl Position.isFinite_origin,
      .of_default (d := Size.textBox) faithful_size rfl Size.isFinite_textBox,
      .of_required Json.faithful_double rfl, .of_required Json.faithful_double rfl, nofun⟩
  · simp [form, columns, Form.record, Form.double, Form.text, Form.word, TextOverlay.IsWritable]

theorem faithful_edit : Faithful Edit.record.decode (form edit) := by
  refine faithful_of_columns (k := edit) ?_ (fun _ => rfl) fun e => ?_
  · simp only [columns, List.forall_mem_cons]
    exact ⟨.of_required faithful_trim rfl,
      .of_default (d := []) (Json.faithful_listOf faithful_image) rfl (List.forall_mem_nil _),
      .of_default (d := []) (Json.faithful_listOf faithful_text) rfl (List.forall_mem_nil _),
      .of_required faithful_source rfl, .of_default (d := .mp4) Format.faithful rfl trivial, nofun⟩
  · simp [form, columns, Form.record, Form.listOf, Format.form, Edit.IsWritable]

end RecordKind

namespace Edit

theorem IsWritable.readBy_write {e : Edit} (h : e.IsWritable) {layer : Json.TextLayer}
    (back : layer.ReadsBack) : readBy layer (layer.write e.toJson) = .ok e := by
  have text := back e.toJson (RecordKind.faithful_edit.writable e h)
  have decoded : ofJson e.toJson = .ok e := RecordKind.faithful_edit.reads e h
  rw [readBy, text, Json.Document.decode, decoded]
  rfl

theorem isWritable_of_ofJson {v : Json} (fits : v.NumbersFit) {e : Edit} (read : ofJson v = .ok e) :
    e.IsWritable :=
  RecordKind.faithful_edit.proper v e fits read

end Edit

/-- An edit with finite numbers is read back from its value, and from its text by every layer that reads
back what it writes. What is written of an edit that was read, in whatever form its value was, is
written again as it stands. -/
theorem edits_read_back (layer : Json.TextLayer) (back : layer.ReadsBack) :
    (∀ e : Edit, e.IsWritable → Edit.ofJson e.toJson = .ok e ∧
      Edit.readBy layer (layer.write e.toJson) = .ok e) ∧
    ∀ (v : Json) (e : Edit), v.NumbersFit → Edit.ofJson v = .ok e →
      (Edit.ofJson e.toJson).map Edit.toJson = .ok e.toJson ∧
        (Edit.readBy layer (layer.write e.toJson)).map (fun f => layer.write f.toJson) =
          .ok (layer.write e.toJson) := by
  constructor
  · intro e h
    exact ⟨RecordKind.faithful_edit.reads e h, h.readBy_write back⟩
  · intro v e fits read
    have writable := Edit.isWritable_of_ofJson fits read
    have decoded : Edit.ofJson e.toJson = .ok e := RecordKind.faithful_edit.reads e writable
    rw [decoded, writable.readBy_write back]
    exact ⟨rfl, rfl⟩

/-- An image and a text under one id. -/
def Edit.twins : Edit where
  trim := ⟨0, 2⟩
  images := [{ id := "a", image := "i", size := ⟨8, 6⟩, visibleUntil := 1 }]
  texts := [{ id := "a", text := "\"Hi\"\n", visibleUntil := 2 }]
  source := { asset := "s", fileName := "f", contentType := some "video/mp4" }
  format := .webm

/-- They may be spelled in other ways than they are written in. -/
def Edit.twinsText : String :=
  "[[0, 2.00], [[\"a\", \"i\", [0, 0], [8, 6], 0, 1e0]], " ++
    "[[\"a\", \"\\u0022Hi\\\"\\n\", \"arial\", 24, \"black\", [0, 0], [200, 50], 0, 2]], " ++
    "[\"s\", \"f\", \"video/mp4\"], \"webm\"]"

/-- The program's own layer reads the twins in the same way. -/
theorem twins_read_back :
    let line := Json.TextLayer.nearest Json.compact
    let page := Json.TextLayer.nearest Json.pretty
    let v := (line.read Edit.twinsText).root
    line.ReadsBack ∧ page.ReadsBack ∧ Edit.twins.IsWritable ∧ v.NumbersFit ∧
      Edit.ofJson v = .ok .twins ∧
      Edit.readBy line (line.write Edit.twins.toJson) = .ok .twins ∧
      (Edit.readBy page (page.write Edit.twins.toJson)).map (fun e => page.write e.toJson) =
        .ok (page.write Edit.twins.toJson) ∧
      Edit.read Edit.twinsText = .ok .twins := by
  intro line page v
  have lineBack : line.ReadsBack := Json.TextLayer.readsBack_compact
  have pageBack : page.ReadsBack := Json.TextLayer.readsBack_pretty
  have fits : v.NumbersFit := Json.numbersFit_readChars .nearest Edit.twinsText.toList
  have read : Edit.ofJson v = .ok .twins := by decide +kernel
  have writable : Edit.twins.IsWritable := Edit.isWritable_of_ofJson fits read
  have reads := (edits_read_back line lineBack).1 .twins writable
  have again := (edits_read_back page pageBack).2 v .twins fits read
  refine ⟨lineBack, pageBack, writable, fits, read, reads.2, again.2, ?_⟩
  decide +kernel

end Montage
