import Mathlib.Logic.Relation
import Montage.Edit.Document
import Montage.Proofs.Json.Record

/-! The layout of an edit. A record may be an object or a list, its keys may stand in any order and beside
unknown ones, and what equals its default may be left out. A place is a way from the whole edit down to a
record or a list of records; what is read alike there is read alike in the whole. -/
namespace Montage

open Json (AnyField Record Decoder)

inductive RecordKind where
  | edit
  | trim
  | source
  | image
  | text
  | position
  | size
deriving DecidableEq

namespace RecordKind

abbrev Value : RecordKind → Type
  | edit => Edit
  | trim => TrimRange
  | source => SourceAsset
  | image => ImageOverlay
  | text => TextOverlay
  | position => Position
  | size => Size

def record : (k : RecordKind) → Record k.Value
  | edit => Edit.record
  | trim => TrimRange.record
  | source => SourceAsset.record
  | image => ImageOverlay.record
  | text => TextOverlay.record
  | position => Position.record
  | size => Size.record

/-- The fields of a record in declaration order. -/
def fields : RecordKind → List AnyField
  | edit => [⟨_, Edit.trimField⟩, ⟨_, Edit.imagesField⟩, ⟨_, Edit.textsField⟩,
      ⟨_, Edit.sourceField⟩, ⟨_, Edit.formatField⟩]
  | trim => [⟨_, TrimRange.startField⟩, ⟨_, TrimRange.stopField⟩]
  | source => [⟨_, SourceAsset.assetField⟩, ⟨_, SourceAsset.fileNameField⟩,
      ⟨_, SourceAsset.contentTypeField⟩]
  | image => [⟨_, ImageOverlay.idField⟩, ⟨_, ImageOverlay.imageField⟩,
      ⟨_, ImageOverlay.positionField⟩, ⟨_, ImageOverlay.sizeField⟩,
      ⟨_, ImageOverlay.visibleFromField⟩, ⟨_, ImageOverlay.visibleUntilField⟩]
  | text => [⟨_, TextOverlay.idField⟩, ⟨_, TextOverlay.textField⟩, ⟨_, TextOverlay.fontFamilyField⟩,
      ⟨_, TextOverlay.fontSizeField⟩, ⟨_, TextOverlay.colorField⟩, ⟨_, TextOverlay.positionField⟩,
      ⟨_, TextOverlay.sizeField⟩, ⟨_, TextOverlay.visibleFromField⟩,
      ⟨_, TextOverlay.visibleUntilField⟩]
  | position => [⟨_, Position.xField⟩, ⟨_, Position.yField⟩]
  | size => [⟨_, Size.widthField⟩, ⟨_, Size.heightField⟩]

theorem hasFields (k : RecordKind) : k.record.HasFields k.fields := by
  constructor
  case entries => cases k <;> rfl
  case distinct => cases k <;> decide
  case build_congr =>
    intro m n same
    cases k <;>
      simp only [fields, List.forall_mem_cons] at same <;>
      simp only [record, Edit.record, TrimRange.record, SourceAsset.record, ImageOverlay.record,
        TextOverlay.record, Position.record, Size.record, same]
  case get_of_build =>
    intro m a built
    cases k <;>
      simp only [record, Edit.record, TrimRange.record, SourceAsset.record, ImageOverlay.record,
        TextOverlay.record, Position.record, Size.record, bind_eq_ok_iff] at built <;>
      simp only [fields, List.forall_mem_cons] <;>
      grind

end RecordKind

/-- What may hold further records: a record, or a list of records of one kind. -/
inductive Content where
  | record (k : RecordKind)
  | listOf (k : RecordKind)

namespace Content

abbrev Value : Content → Type
  | record k => k.Value
  | listOf k => List k.Value

def decode : (c : Content) → Decoder c.Value
  | record k => k.record.decode
  | listOf k => Json.asList k.record.decode

end Content

def RecordKind.contents : RecordKind → List (String × Content)
  | edit => [("trim", .record trim), ("image_overlays", .listOf image),
      ("text_overlays", .listOf text), ("source", .record source)]
  | image | text => [("position", .record position), ("size", .record size)]
  | trim | source | position | size => []

structure Content.IsField (c : Content) (name : String) (f : AnyField) : Prop where
  named : f.2.name = name
  congr : ∀ {j j' : Json}, c.decode j = c.decode j' → f.2.decode j = f.2.decode j'
  refuses : ∀ {j : Json}, (∀ v, c.decode j ≠ .ok v) → ∀ v, f.2.decode j ≠ .ok v

theorem Content.IsField.of_decode (c : Content) (f : Json.RecordField c.Value)
    (same : f.decode = c.decode) : c.IsField f.name ⟨c.Value, f⟩ where
  named := rfl
  congr := by rw [same]; exact fun h => h
  refuses := by rw [same]; exact fun h => h

theorem RecordKind.exists_field {k : RecordKind} {name : String} {c : Content}
    (h : (name, c) ∈ k.contents) : ∃ f ∈ k.fields, c.IsField name f := by
  cases k <;> simp only [contents, List.mem_cons, List.not_mem_nil, or_false, Prod.mk.injEq] at h
  case edit =>
    rcases h with ⟨rfl, rfl⟩ | ⟨rfl, rfl⟩ | ⟨rfl, rfl⟩ | ⟨rfl, rfl⟩
    · exact ⟨_, by simp [fields], .of_decode (.record trim) Edit.trimField rfl⟩
    · exact ⟨_, by simp [fields], .of_decode (.listOf image) Edit.imagesField rfl⟩
    · exact ⟨_, by simp [fields], .of_decode (.listOf text) Edit.textsField rfl⟩
    · exact ⟨_, by simp [fields], .of_decode (.record source) Edit.sourceField rfl⟩
  case image =>
    rcases h with ⟨rfl, rfl⟩ | ⟨rfl, rfl⟩
    · exact ⟨_, by simp [fields], .of_decode (.record position) ImageOverlay.positionField rfl⟩
    · exact ⟨_, by simp [fields], .of_decode (.record size) ImageOverlay.sizeField rfl⟩
  case text =>
    rcases h with ⟨rfl, rfl⟩ | ⟨rfl, rfl⟩
    · exact ⟨_, by simp [fields], .of_decode (.record position) TextOverlay.positionField rfl⟩
    · exact ⟨_, by simp [fields], .of_decode (.record size) TextOverlay.sizeField rfl⟩

/-- The places in an edit where a content stands: each as what the whole is for what is put there. -/
inductive Place : Content → (Json → Json) → Prop
  | whole : Place (.record .edit) id
  | member {k : RecordKind} {fill : Json → Json} {name : String} {c : Content}
      (outer : Place (.record k) fill) (held : (name, c) ∈ k.contents) (before after : Json.Members) :
      Place c fun j => fill (.object (before ++ (.string name, j) :: after))
  | element {k : RecordKind} {fill : Json → Json} {name : String} {c : Content}
      (outer : Place (.record k) fill) (held : (name, c) ∈ k.contents) (before after : List Json)
      (there : (k.fields.map fun f => f.2.name)[before.length]? = some name) :
      Place c fun j => fill (.array (before ++ j :: after))
  | item {k : RecordKind} {fill : Json → Json} (outer : Place (.listOf k) fill)
      (before after : List Json) : Place (.record k) fun j => fill (.array (before ++ j :: after))

namespace Place

variable {c : Content} {fill : Json → Json} {j j' : Json}

theorem exists_field_at {k : RecordKind} {name : String} (held : (name, c) ∈ k.contents) {n : Nat}
    (there : (k.fields.map fun f => f.2.name)[n]? = some name) :
    ∃ f, k.fields[n]? = some f ∧ c.IsField name f := by
  rw [List.getElem?_map, Option.map_eq_some_iff] at there
  obtain ⟨g, found, same⟩ := there
  obtain ⟨f, hf, field⟩ := RecordKind.exists_field held
  have this := List.inj_on_of_nodup_map k.hasFields.distinct (List.mem_of_getElem? found) hf
    (same.trans field.named.symm)
  exact ⟨f, this ▸ found, field⟩

theorem congr (place : Place c fill) (same : c.decode j = c.decode j') :
    Edit.ofJson (fill j) = Edit.ofJson (fill j') := by
  induction place generalizing j j' with
  | whole => exact same
  | @member k fill name c outer held before after ih =>
    obtain ⟨f, hf, field⟩ := RecordKind.exists_field held
    have alike := k.hasFields.decode_member_congr hf (field.congr same) before after
    rw [field.named] at alike
    exact ih alike
  | @element k fill name c outer held before after there ih =>
    obtain ⟨f, found, field⟩ := exists_field_at held there
    exact ih (k.hasFields.decode_item_congr found (field.congr same) after)
  | @item k fill outer before after ih =>
    refine @ih (.array _) (.array _) ?_
    change (before ++ j :: after).mapM k.record.decode = (before ++ j' :: after).mapM k.record.decode
    have alike : k.record.decode j = k.record.decode j' := same
    rw [List.mapM_append, List.mapM_append, List.mapM_cons, List.mapM_cons, alike]

/-- Nothing is read of an edit in which something cannot be read. -/
theorem refuses (place : Place c fill) (refused : ∀ v, c.decode j ≠ .ok v) (e : Edit) :
    Edit.ofJson (fill j) ≠ .ok e := by
  induction place generalizing j with
  | whole => exact refused e
  | @member k fill name c outer held before after ih =>
    obtain ⟨f, hf, field⟩ := RecordKind.exists_field held
    refine ih fun v => ?_
    rw [← field.named]
    exact k.hasFields.decode_member_ne_ok hf (field.refuses refused) before after v
  | @element k fill name c outer held before after there ih =>
    obtain ⟨f, found, field⟩ := exists_field_at held there
    exact ih fun v => k.hasFields.decode_item_ne_ok found (field.refuses refused) after v
  | @item k fill outer before after ih =>
    refine ih fun v decoded => ?_
    have among : j ∈ before ++ j :: after := List.mem_append_cons_self
    obtain ⟨a, -, good⟩ := exists_of_forall₂_of_mem (Json.asList_eq_ok_iff.1 decoded) among
    exact refused a good

end Place

inductive RecordKind.Rewrites (k : RecordKind) : Json → Json → Prop
  | permute {members others : Json.Members} (order : members.Perm others) :
      k.Rewrites (.object members) (.object others)
  | insert {before after : Json.Members} {key : String} {value : Json}
      (unknown : ∀ f ∈ k.fields, f.2.name ≠ key) (sound : value.skipFault? = none) :
      k.Rewrites (.object (before ++ after)) (.object (before ++ (.string key, value) :: after))
  | leaveOut {before after : Json.Members} {f : AnyField} (field : f ∈ k.fields) {value : Json}
      {d : f.1} (default : f.2.default? = some d) (same : f.2.decode value = .ok d) :
      k.Rewrites (.object (before ++ (.string f.2.name, value) :: after)) (.object (before ++ after))
  | toList {members : Json.Members} {items : List Json}
      (values : List.Forall₂ (Json.Supplies members) k.fields items) :
      k.Rewrites (.object members) (.array items)

theorem RecordKind.Rewrites.decode {k : RecordKind} {j j' : Json} (h : k.Rewrites j j') {v : k.Value}
    (decoded : k.record.decode j = .ok v) : k.record.decode j' = .ok v := by
  have record := k.hasFields
  cases h with
  | permute order => exact record.decode_perm order decoded
  | insert unknown sound => exact record.decode_insert unknown sound decoded
  | leaveOut field default same => exact record.decode_leaveOut field default same decoded
  | toList values => exact record.decode_toList values decoded

inductive Edit.Rewrites : Json → Json → Prop
  | record {k : RecordKind} {fill : Json → Json} {j j' : Json} (place : Place (.record k) fill)
      (step : k.Rewrites j j') : Edit.Rewrites (fill j) (fill j')

theorem Edit.Rewrites.ofJson {j j' : Json} (h : Edit.Rewrites j j') {e : Edit}
    (decoded : Edit.ofJson j = .ok e) : Edit.ofJson j' = .ok e := by
  obtain @⟨k, fill, j, j', place, step⟩ := h
  cases inner : k.record.decode j with
  | error problem =>
    refine absurd decoded (place.refuses (fun v good => ?_) e)
    cases inner.symm.trans good
  | ok v =>
    rw [← decoded]
    exact place.congr ((step.decode inner).trans inner.symm)

def RecordKind.Repeats (k : RecordKind) (members : Json.Members) : Prop :=
  ∃ f ∈ k.fields, ∃ before between after value other, members =
    before ++ (.string f.2.name, value) :: (between ++ (.string f.2.name, other) :: after)

def RecordKind.Lacks (k : RecordKind) (members : Json.Members) : Prop :=
  ∃ f ∈ k.fields, f.2.default? = none ∧ ∀ value, (.string f.2.name, value) ∉ members

theorem RecordKind.decode_faulty_ne_ok {k : RecordKind} {members : Json.Members}
    (faulty : k.Repeats members ∨ k.Lacks members) (v : k.Value) :
    k.record.decode (.object members) ≠ .ok v := by
  rcases faulty with ⟨f, hf, before, between, after, value, other, rfl⟩ | ⟨f, hf, required, absent⟩
  · exact k.hasFields.decode_repeated_ne_ok hf before between after v
  · exact k.hasFields.decode_lacking_ne_ok hf required absent v

def RecordKind.optional : RecordKind → List String
  | edit => ["image_overlays", "text_overlays", "output_format"]
  | source => ["content_type"]
  | image => ["position"]
  | text => ["font_family", "font_size_px", "color", "position", "size"]
  | trim | position | size => []

/-- An edit that is read stays the same however its records are laid out, any number of times and
wherever they stand. A record with a key twice or without a field that is not optional is refused. -/
theorem layouts_read_alike :
    (∀ (j j' : Json) (e : Edit), Relation.ReflTransGen Edit.Rewrites j j' →
      Edit.ofJson j = .ok e → Edit.ofJson j' = .ok e) ∧
    (∀ (k : RecordKind) (f : AnyField), f ∈ k.fields →
      (f.2.default?.isSome = true ↔ f.2.name ∈ k.optional)) ∧
    ∀ (k : RecordKind) (fill : Json → Json) (members : Json.Members), Place (.record k) fill →
      k.Repeats members ∨ k.Lacks members →
      ∃ problem, Edit.ofJson (fill (.object members)) = .error problem := by
  refine ⟨?_, ?_, ?_⟩
  · intro j j' e steps decoded
    induction steps with
    | refl => exact decoded
    | tail _ step ih => exact step.ofJson ih
  · intro k f hf
    have all : ∀ g ∈ k.fields, decide (g.2.default?.isSome = true ↔ g.2.name ∈ k.optional) = true := by
      cases k <;> simp only [RecordKind.fields, List.forall_mem_cons] <;> decide
    exact of_decide_eq_true (all f hf)
  · intro k fill members place faulty
    have refused : ∀ v, (Content.record k).decode (.object members) ≠ .ok v :=
      RecordKind.decode_faulty_ne_ok faulty
    cases read : Edit.ofJson (fill (.object members)) with
    | error problem => exact ⟨problem, rfl⟩
    | ok e => exact absurd read (place.refuses refused e)

namespace Json

def period (more : Members) : Json :=
  .object ([(.string "start", .ofNat 0)] ++ (more ++ [(.string "end", .ofNat 5)]))

def greeting (more : Members) : Json :=
  .object ([(.string "id", .string "t"), (.string "text", .string "Hi")] ++
    (more ++ [(.string "visible_from", .ofNat 0), (.string "visible_until", .ofNat 4)]))

def upload : Json := ofMembers [("asset_id", .string "s"), ("file_name", .string "f")]

def greetingEdit (text : Json) : Json :=
  .object ([(.string "trim", period [])] ++
    (.string "text_overlays", .array [text]) :: [(.string "source", upload)])

def greetingList (trim : Json) : Json :=
  .array [trim, .array [], .array [greeting []], upload, .string "mp4"]

end Json

def Edit.greeting : Edit where
  trim := ⟨0, 5⟩
  texts := [{ id := "t", text := "Hi", visibleUntil := 4 }]
  source := { asset := "s", fileName := "f" }

/-- The position of the text is left out, the edit becomes a list, and its trim gets a note: it is read
as before. Without the id of its text it is refused. -/
theorem greeting_reads_alike :
    let position := [(Json.string "position", Json.array [.ofNat 0, .ofNat 0])]
    let noted := Json.greetingList (.period [(.string "note", .null)])
    Relation.ReflTransGen Edit.Rewrites (.greetingEdit (.greeting position)) noted ∧
    Edit.ofJson (.greetingEdit (.greeting position)) = .ok .greeting ∧
    Edit.ofJson noted = .ok .greeting ∧
    ∃ problem, Edit.ofJson (.greetingEdit (.object [(.string "text", .string "Hi")])) =
      .error problem := by
  intro position noted
  have textPlace : Place (.record .text) Json.greetingEdit :=
    .item (.member .whole (.tail _ (.tail _ (.head _))) _ _) [] []
  have trimPlace : Place (.record .trim) Json.greetingList :=
    .element .whole (.head _) [] _ rfl
  have bare : Edit.Rewrites (.greetingEdit (.greeting position)) (.greetingEdit (.greeting [])) :=
    .record textPlace (.leaveOut (f := ⟨_, TextOverlay.positionField⟩)
      (by simp [RecordKind.fields]) rfl (by decide +kernel))
  have list : Edit.Rewrites (.greetingEdit (.greeting [])) (.greetingList (.period [])) := by
    refine .record .whole (.toList ?_)
    have images : Json.asList ImageOverlay.record.decode (.array []) = .ok [] := rfl
    have format : Format.decode (.string "mp4") = .ok .mp4 := rfl
    exact .cons (.inl rfl) (.cons (.inr ⟨rfl, [], rfl, images⟩) (.cons (.inl rfl)
      (.cons (.inl rfl) (.cons (.inr ⟨rfl, .mp4, rfl, format⟩) .nil))))
  have note : Edit.Rewrites (.greetingList (.period [])) noted :=
    .record trimPlace (.insert
      (by simp [RecordKind.fields, TrimRange.startField, TrimRange.stopField]) rfl)
  have steps : Relation.ReflTransGen Edit.Rewrites (.greetingEdit (.greeting position)) noted :=
    .tail (.tail (.single bare) list) note
  have decoded : Edit.ofJson (.greetingEdit (.greeting position)) = .ok .greeting := by
    decide +kernel
  have lacking : RecordKind.text.Lacks [(.string "text", .string "Hi")] :=
    ⟨⟨_, TextOverlay.idField⟩, by simp [RecordKind.fields], rfl, by simp [TextOverlay.idField]⟩
  exact ⟨steps, decoded, layouts_read_alike.1 _ _ _ steps decoded,
    layouts_read_alike.2.2 .text Json.greetingEdit _ textPlace (.inr lacking)⟩

end Montage
