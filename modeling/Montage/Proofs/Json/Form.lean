import Montage.Proofs.Json.Found
import Montage.Proofs.Json.Record
import Montage.Proofs.Json.Writing

/-! Decoders that undo writers. A form says how values are written and which of them can be; a decoder
is faithful to it when it reads back what is written, and finds nothing that could not be written. Lists
and records are faithful when their items and fields are. -/
namespace Montage.Json

/-- How values are written, and which ones can be. -/
structure Form (α : Type) where
  write : α → Json
  proper : α → Prop

structure Faithful {α : Type} (decode : Decoder α) (form : Form α) : Prop where
  writable : ∀ a, form.proper a → (form.write a).IsWritable
  reads : ∀ a, form.proper a → decode (form.write a) = .ok a
  proper : ∀ j a, NumbersFit j → decode j = .ok a → form.proper a

/-- A form that writes the same and lets the same values pass. -/
theorem Faithful.congr {α : Type} {decode : Decoder α} {form other : Form α}
    (h : Faithful decode form) (write : ∀ a, other.write a = form.write a)
    (proper : ∀ a, other.proper a ↔ form.proper a) : Faithful decode other where
  writable a good := by rw [write]; exact h.writable a ((proper a).1 good)
  reads a good := by rw [write]; exact h.reads a ((proper a).1 good)
  proper j a fits read := (proper a).2 (h.proper j a fits read)

namespace Form

def text : Form String := ⟨.string, fun _ => True⟩

def double : Form Binary64 := ⟨.ofFloat, fun x => x.isFinite = true⟩

def word : Form Nat := ⟨.ofNat, fun n => n < Nat.pow 2 32⟩

def optional {α : Type} (value : Form α) : Form (Option α) where
  write
    | none => .null
    | some a => value.write a
  proper a? := ∀ a ∈ a?, value.proper a

def listOf {α : Type} (item : Form α) : Form (List α) :=
  ⟨fun l => .array (l.map item.write), fun l => ∀ a ∈ l, item.proper a⟩

end Form

theorem faithful_text : Faithful asString .text where
  writable s _ := .string s
  reads _ _ := rfl
  proper _ _ _ _ := trivial

/-- A whole number in a text has at most 64 bits. -/
theorem natAbs_le_of_isWritable {i : Int} (h : (Number.integer i).IsWritable) :
    i.natAbs ≤ Nat.pow 2 64 := by
  simp only [Number.IsWritable, Int.pow_eq, Nat.pow_eq, Int.reducePow, Nat.reducePow] at h ⊢
  omega

theorem faithful_double : Faithful asFloat .double where
  writable x finite := .number finite
  reads _ _ := rfl
  proper j x fits read := by
    cases j with
    | number n =>
      have writable := fits n .number
      cases n with
      | integer i =>
        obtain rfl := Except.ok.inj read
        exact Binary64.ofInt_isFinite (natAbs_le_of_isWritable writable)
      | float x =>
        cases read
        exact writable
    | _ => cases read

theorem faithful_word : Faithful asWord .word where
  writable n small := by
    refine .number (n := .integer n) ?_
    simp only [Form.word, Number.IsWritable, Int.pow_eq, Nat.pow_eq, Int.reducePow, Nat.reducePow] at small ⊢
    omega
  reads n small := by
    have inside : (0 : Int) ≤ n ∧ (n : Int) < Int.pow 2 32 := by
      simp only [Form.word, Int.pow_eq, Nat.pow_eq, Int.reducePow, Nat.reducePow] at small ⊢
      omega
    change asWord (.number (.integer n)) = .ok n
    rw [asWord, if_pos inside, Int.toNat_natCast]
  proper j n fits read := by
    cases j with
    | number m =>
      cases m with
      | integer i =>
        simp only [asWord] at read
        split at read
        · rename_i inside
          cases read
          simp only [Form.word, Int.pow_eq, Nat.pow_eq, Int.reducePow, Nat.reducePow] at inside ⊢
          omega
        · cases read
      | float x => cases read
    | _ => cases read

theorem faithful_optional {α : Type} {decode : Decoder α} {form : Form α} (h : Faithful decode form)
    (visible : ∀ a, form.write a ≠ .null) : Faithful (asOption decode) form.optional where
  writable a? proper := by
    cases a? with
    | none => exact .null
    | some a => exact h.writable a (proper a rfl)
  reads a? proper := by
    cases a? with
    | none => rfl
    | some a =>
      simp only [Form.optional, asOption]
      split
      · rename_i null
        exact absurd null (visible a)
      · rw [h.reads a (proper a rfl)]
        rfl
  proper j a? fits read := by
    rintro a ⟨⟩
    simp only [asOption] at read
    split at read
    · cases read
    · cases decoded : decode j with
      | ok b =>
        rw [decoded] at read
        cases read
        exact h.proper j _ fits decoded
      | error problem =>
        rw [decoded] at read
        cases read

theorem faithful_listOf {α : Type} {item : Decoder α} {form : Form α} (h : Faithful item form) :
    Faithful (asList item) form.listOf where
  writable l proper := .array (List.forall_mem_map.2 fun a among => h.writable a (proper a among))
  reads l proper := by
    refine asList_eq_ok_iff.2 (List.forall₂_map_left_iff.2 ?_)
    exact List.forall₂_same.2 fun a among => h.reads a (proper a among)
  proper j l fits read := by
    cases j with
    | array items =>
      intro a among
      obtain ⟨item, there, decoded⟩ :=
        exists_of_forall₂_of_mem (asList_eq_ok_iff.1 read).flip among
      exact h.proper item a (numbersFit_array.1 fits item there) decoded
    | _ => cases read

structure Column (α : Type) where
  Part : Type
  field : RecordField Part
  part : α → Part
  form : Form Part

namespace Column

variable {α : Type}

def anyField (c : Column α) : AnyField := ⟨c.Part, c.field⟩

def member (a : α) (c : Column α) : String × Json := (c.field.name, c.form.write (c.part a))

def entry (a : α) (c : Column α) : Json × Json := (.string c.field.name, c.form.write (c.part a))

structure IsFaithful (c : Column α) : Prop where
  decode : Faithful c.field.decode c.form
  default : ∀ d ∈ c.field.default?, c.form.proper d

theorem IsFaithful.of_required {c : Column α} (decode : Faithful c.field.decode c.form)
    (required : c.field.default? = none) : c.IsFaithful where
  decode := decode
  default d hd := by rw [required] at hd; cases hd

theorem IsFaithful.of_default {c : Column α} {d : c.Part} (decode : Faithful c.field.decode c.form)
    (default : c.field.default? = some d) (proper : c.form.proper d) : c.IsFaithful where
  decode := decode
  default e he := by
    rw [default] at he
    cases he
    exact proper

theorem IsFaithful.proper_of_get {c : Column α} (h : c.IsFaithful) {members : Members}
    (fits : ∀ m ∈ members, NumbersFit m.2) {a : c.Part} (got : c.field.get members = .ok a) :
    c.form.proper a := by
  cases found : members.get? c.field.name with
  | some value =>
    rw [RecordField.get_of_get? found] at got
    exact h.decode.proper value a (fits _ (Members.mem_of_get? found)) got
  | none =>
    cases default : c.field.default? with
    | some d =>
      rw [RecordField.get_of_missing found default] at got
      cases got
      exact h.default a default
    | none =>
      rw [RecordField.get_of_lacking found default] at got
      cases got

end Column

def Form.record {α : Type} (columns : List (Column α)) : Form α where
  write a := .ofMembers (columns.map (Column.member a))
  proper a := ∀ c ∈ columns, c.form.proper (c.part a)

theorem Form.record_write {α : Type} (columns : List (Column α)) (a : α) :
    (Form.record columns).write a = .object (columns.map (Column.entry a)) :=
  congrArg Json.object List.map_map

structure Record.HasColumns {α : Type} (r : Record α) (columns : List (Column α)) : Prop where
  fields : r.HasFields (columns.map Column.anyField)
  build : ∀ members a, r.build members = .ok a ↔ ∀ c ∈ columns, c.field.get members = .ok (c.part a)

namespace Record.HasColumns

variable {α : Type} {r : Record α} {columns : List (Column α)}

/-- Whatever a record is read from, there are members of which it is built. -/
theorem exists_members_of_decode {j : Json} (fits : NumbersFit j) {a : α}
    (read : r.decode j = .ok a) :
    ∃ members : Members, (∀ m ∈ members, NumbersFit m.2) ∧ r.build members = .ok a := by
  cases j with
  | object members =>
    obtain ⟨-, built⟩ := decode_object_eq_ok_iff.1 read
    exact ⟨members, numbersFit_object.1 fits, built⟩
  | array items =>
    simp only [Record.decode, check_bind_eq_ok_iff] at read
    refine ⟨_, List.forall_mem_map.2 ?_, read.2.2.2⟩
    exact fun pair paired => numbersFit_array.1 fits _ (List.of_mem_zip paired).2
  | _ => cases read

theorem faithful (h : r.HasColumns columns) (columns_faithful : ∀ c ∈ columns, c.IsFaithful) :
    Faithful r.decode (.record columns) where
  writable a proper := by
    refine .object (List.forall_mem_map.2 fun c hc => ?_)
    exact (columns_faithful c hc).decode.writable _ (proper c hc)
  reads a proper := by
    have decoded : ∀ c ∈ columns, c.field.decode (c.form.write (c.part a)) = .ok (c.part a) :=
      fun c hc => (columns_faithful c hc).decode.reads _ (proper c hc)
    have accepted : IsAccepted r.entries (columns.map (Column.entry a)) := by
      apply isAccepted_of_nodup
      · refine List.forall_mem_map.2 fun c hc => ?_
        exact (h.fields.isSound_iff (List.mem_map_of_mem hc)).2 ⟨_, decoded c hc⟩
      · have keys := h.fields.distinct.map (f := Json.string) fun _ _ => Json.string.inj
        rw [List.map_map, List.map_map] at keys
        rw [List.map_map]
        exact keys
    rw [Form.record_write]
    refine decode_object_eq_ok_iff.2 ⟨accepted, (h.build _ a).2 fun c hc => ?_⟩
    have declared : c.anyField ∈ columns.map Column.anyField := List.mem_map_of_mem hc
    have found := (h.fields.get?_eq_some_iff accepted declared).2 (List.mem_map_of_mem hc)
    exact (RecordField.get_of_get? (f := c.field) found).trans (decoded c hc)
  proper j a fits read c hc := by
    obtain ⟨members, inside, built⟩ := exists_members_of_decode fits read
    exact (columns_faithful c hc).proper_of_get inside ((h.build members a).1 built c hc)

end Record.HasColumns

end Montage.Json
