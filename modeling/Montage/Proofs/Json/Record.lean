import Mathlib.Data.List.Forall2
import Mathlib.Data.List.Nodup
import Mathlib.Data.List.Pairwise
import Montage.Json.Decode
import Montage.Proofs.Except

/-! What a record accepts, and what it rests on: a declared key at most once, every value in order, and
the values that its fields get. Nothing else of how the members are laid out has a part in the result. -/
namespace Montage.Json

theorem asList_eq_ok_iff {α : Type} {item : Decoder α} {items : List Json} {l : List α} :
    asList item (.array items) = .ok l ↔ List.Forall₂ (fun j a => item j = .ok a) items l := by
  have cons (j : Json) (js : List Json) :
      (j :: js).mapM item = (do let a ← item j; return a :: (← js.mapM item)) := List.mapM_cons
  exact eachOk_iff List.mapM_nil cons

/-- What a walk asks of one member: a declared key has a value that decodes, any other a sound one. -/
def IsSound (entries : List Entry) : Json × Json → Prop
  | (.string key, value) =>
    match entries.find? (·.name = key) with
    | some entry => entry.check value = .ok ()
    | none => value.skipFault? = none
  | _ => False

def Apart (entries : List Entry) (m n : Json × Json) : Prop :=
  ∀ entry ∈ entries, m.1 = .string entry.name → n.1 ≠ .string entry.name

instance (entries : List Entry) : Std.Symm (Apart entries) :=
  ⟨fun _ _ apart entry among there same => apart entry among same there⟩

structure IsAccepted (entries : List Entry) (members : Members) : Prop where
  sound : ∀ m ∈ members, IsSound entries m
  apart : members.Pairwise (Apart entries)

theorem isAccepted_of_nodup {entries : List Entry} {members : Members}
    (sound : ∀ m ∈ members, IsSound entries m) (distinct : (members.map Prod.fst).Nodup) :
    IsAccepted entries members where
  sound := sound
  apart := (List.pairwise_map.1 distinct).imp fun differ _ _ same there =>
    differ (same.trans there.symm)

section
variable {entries : List Entry} {seen : List String} {key : String} {value : Json} {rest : Members}

theorem isAccepted_nil : IsAccepted entries [] := ⟨fun _ hm => (nomatch hm), .nil⟩

theorem isAccepted_cons {m : Json × Json} : IsAccepted entries (m :: rest) ↔
    IsSound entries m ∧ (∀ n ∈ rest, Apart entries m n) ∧ IsAccepted entries rest := by
  constructor
  · rintro ⟨sound, apart⟩
    obtain ⟨head, tail⟩ := List.forall_mem_cons.1 sound
    obtain ⟨first, others⟩ := List.pairwise_cons.1 apart
    exact ⟨head, first, tail, others⟩
  · rintro ⟨head, first, tail, others⟩
    exact ⟨List.forall_mem_cons.2 ⟨head, tail⟩, List.pairwise_cons.2 ⟨first, others⟩⟩

theorem name_of_find? {entry : Entry} (h : entries.find? (fun e => e.name = key) = some entry) :
    entry ∈ entries ∧ entry.name = key := by
  have named := List.find?_some h
  exact ⟨List.mem_of_find?_eq_some h, of_decide_eq_true named⟩

theorem apart_declared {entry : Entry} (h : entries.find? (fun e => e.name = key) = some entry)
    (n : Json × Json) : Apart entries (.string key, value) n ↔ n.1 ≠ .string key := by
  obtain ⟨among, rfl⟩ := name_of_find? h
  constructor
  · exact fun apart => apart entry among rfl
  · intro differ e he same
    rw [← same]
    exact differ

theorem apart_unknown (h : entries.find? (fun e => e.name = key) = none) (n : Json × Json) :
    Apart entries (.string key, value) n := by
  intro e he same
  have other := List.find?_eq_none.1 h e he
  rw [Json.string.inj same] at other
  exact absurd (decide_eq_true rfl) other

def IsNew (entries : List Entry) (seen : List String) (members : Members) : Prop :=
  ∀ m ∈ members, ∀ k ∈ seen, (entries.find? (fun e => e.name = k)).isSome → m.1 ≠ .string k

theorem isNew_declared {entry : Entry} (h : entries.find? (fun e => e.name = key) = some entry) :
    IsNew entries seen ((.string key, value) :: rest) ↔ key ∉ seen ∧ IsNew entries seen rest := by
  rw [IsNew, List.forall_mem_cons]
  refine and_congr_left fun _ => ⟨?_, ?_⟩
  · exact fun fresh found => fresh key found (by rw [h]; rfl) rfl
  · intro absent k found _ same
    rw [← Json.string.inj same] at found
    exact absent found

theorem isNew_seen {entry : Entry} (h : entries.find? (fun e => e.name = key) = some entry) :
    IsNew entries (key :: seen) rest ↔
      (∀ n ∈ rest, n.1 ≠ .string key) ∧ IsNew entries seen rest := by
  simp only [IsNew, List.forall_mem_cons, h, Option.isSome_some, forall_const, ← forall_and]

theorem isNew_unknown (h : entries.find? (fun e => e.name = key) = none) :
    IsNew entries seen ((.string key, value) :: rest) ↔ IsNew entries seen rest := by
  rw [IsNew, List.forall_mem_cons]
  refine and_iff_right fun k _ declared same => ?_
  rw [← Json.string.inj same, h] at declared
  cases declared

theorem checkMembers_eq_ok_iff : Record.checkMembers entries seen rest = .ok () ↔
    IsAccepted entries rest ∧ IsNew entries seen rest := by
  induction rest generalizing seen with
  | nil => exact ⟨fun _ => ⟨isAccepted_nil, fun _ hm => (nomatch hm)⟩, fun _ => rfl⟩
  | cons m rest ih =>
    obtain ⟨k, value⟩ := m
    rw [isAccepted_cons]
    cases k with
    | string key =>
      rw [Record.checkMembers, IsSound]
      cases found : entries.find? (fun e => e.name = key) with
      | some entry =>
        simp only [apart_declared found, isNew_declared found]
        by_cases repeated : key ∈ seen
        · simp [repeated]
        · simp only [if_neg repeated, check_bind_eq_ok_iff, ih, isNew_seen found]
          tauto
      | none =>
        simp only [isNew_unknown found]
        cases sound : value.skipFault? with
        | some f => simp
        | none => simp [apart_unknown found, ih]
    | _ => simp [Record.checkMembers, IsSound]

end

theorem decode_object_eq_ok_iff {α : Type} {r : Record α} {members : Members} {a : α} :
    r.decode (.object members) = .ok a ↔
      IsAccepted r.entries members ∧ r.build members = .ok a := by
  have new : IsNew r.entries [] members := fun _ _ k hk => nomatch hk
  rw [Record.decode, check_bind_eq_ok_iff, checkMembers_eq_ok_iff]
  exact and_congr_left' (and_iff_left new)

/-! The value of a key. -/
namespace Members

variable {members : Members} {name : String} {value : Json}

theorem get?_eq_none_iff : members.get? name = none ↔ ∀ value, (.string name, value) ∉ members := by
  rw [get?, List.findSome?_eq_none_iff]
  constructor
  · intro absent value among
    simpa using absent _ among
  · intro absent m hm
    obtain ⟨k, value⟩ := m
    cases k with
    | string key =>
      refine if_neg fun same => ?_
      subst same
      exact absent value hm
    | _ => rfl

theorem mem_of_get? (h : members.get? name = some value) : (.string name, value) ∈ members := by
  obtain ⟨m, among, found⟩ := List.exists_of_findSome?_eq_some h
  obtain ⟨k, w⟩ := m
  cases k with
  | string key =>
    obtain ⟨rfl, same⟩ := Option.ite_none_right_eq_some.1 found
    cases same
    exact among
  | _ => cases found

theorem get?_append_cons (before after : Members) (key name : String) (value : Json) :
    Members.get? (before ++ (.string key, value) :: after) name =
      (before.get? name).or (if key = name then some value else after.get? name) := by
  by_cases same : key = name <;> simp [get?, List.findSome?_append, same]

/-- A declared key stands for one value only, wherever it stands. -/
theorem get?_eq_some_iff {entries : List Entry} (h : IsAccepted entries members) {entry : Entry}
    (declared : entry ∈ entries) :
    members.get? entry.name = some value ↔ (.string entry.name, value) ∈ members := by
  refine ⟨mem_of_get?, fun among => ?_⟩
  cases found : members.get? entry.name with
  | none => exact absurd among (get?_eq_none_iff.1 found value)
  | some w =>
    have other := mem_of_get? found
    by_contra differ
    have distinct : ((.string entry.name, value) : Json × Json) ≠ (.string entry.name, w) := by
      rintro same
      cases same
      exact differ rfl
    exact h.apart.forall among other distinct entry declared rfl rfl

end Members

namespace RecordField

variable {α : Type} {f : RecordField α} {members : Members}

theorem get_of_get? {value : Json} (h : members.get? f.name = some value) :
    f.get members = f.decode value := by
  rw [get, h]

theorem get_of_missing {d : α} (h : members.get? f.name = none) (default : f.default? = some d) :
    f.get members = .ok d := by
  rw [get, h, default]

theorem get_of_lacking (h : members.get? f.name = none) (required : f.default? = none) :
    f.get members = .error (.data (.missingField f.name)) := by
  rw [get, h, required]

end RecordField

abbrev AnyField := (α : Type) × RecordField α

/-- A record that is made of the values of some fields, and of nothing else. -/
structure Record.HasFields {α : Type} (r : Record α) (fields : List AnyField) : Prop where
  entries : r.entries = fields.map fun f => f.2.entry
  distinct : (fields.map fun f => f.2.name).Nodup
  build_congr : ∀ m n : Members, (∀ f ∈ fields, f.2.get m = f.2.get n) → r.build m = r.build n
  get_of_build : ∀ (m : Members) (a : α), r.build m = .ok a → ∀ f ∈ fields, ∃ v, f.2.get m = .ok v

namespace Record.HasFields

variable {α : Type} {r : Record α} {fields : List AnyField} {members : Members} {a : α}

theorem entry_mem (h : r.HasFields fields) {f : AnyField} (hf : f ∈ fields) :
    f.2.entry ∈ r.entries := by
  rw [h.entries]
  exact List.mem_map_of_mem hf

theorem find? (h : r.HasFields fields) {f : AnyField} (hf : f ∈ fields) :
    r.entries.find? (fun e => e.name = f.2.name) = some f.2.entry := by
  cases found : r.entries.find? (fun e => e.name = f.2.name) with
  | none =>
    have other := List.find?_eq_none.1 found _ (h.entry_mem hf)
    exact absurd (decide_eq_true rfl) other
  | some entry =>
    obtain ⟨among, same⟩ := name_of_find? found
    rw [h.entries] at among
    obtain ⟨g, hg, rfl⟩ := List.mem_map.1 among
    rw [List.inj_on_of_nodup_map h.distinct hg hf same]

theorem find?_eq_none (h : r.HasFields fields) {key : String} (other : ∀ f ∈ fields, f.2.name ≠ key) :
    r.entries.find? (fun e => e.name = key) = none := by
  rw [h.entries, List.find?_eq_none]
  intro entry among
  obtain ⟨f, hf, rfl⟩ := List.mem_map.1 among
  exact fun same => other f hf (of_decide_eq_true same)

theorem isSound_iff (h : r.HasFields fields) {f : AnyField} (hf : f ∈ fields) {value : Json} :
    IsSound r.entries (.string f.2.name, value) ↔ ∃ v, f.2.decode value = .ok v := by
  simp only [IsSound, h.find? hf, RecordField.entry]
  cases f.2.decode value <;> simp [Except.map]

theorem get?_eq_some_iff (h : r.HasFields fields) (accepted : IsAccepted r.entries members)
    {f : AnyField} (hf : f ∈ fields) {value : Json} :
    members.get? f.2.name = some value ↔ (.string f.2.name, value) ∈ members :=
  Members.get?_eq_some_iff accepted (h.entry_mem hf)

/-- Members with other values for the keys, or in another order, give the same if all fields do. -/
theorem decode_congr (h : r.HasFields fields) {changed : Members}
    (decoded : r.decode (.object members) = .ok a) (accepted : IsAccepted r.entries changed)
    (same : ∀ f ∈ fields, ∀ v, f.2.get members = .ok v → f.2.get changed = .ok v) :
    r.decode (.object changed) = .ok a := by
  obtain ⟨-, built⟩ := decode_object_eq_ok_iff.1 decoded
  refine decode_object_eq_ok_iff.2 ⟨accepted, ?_⟩
  rw [← built]
  refine h.build_congr _ _ fun f hf => ?_
  obtain ⟨v, got⟩ := h.get_of_build members a built f hf
  rw [got, same f hf v got]

theorem decode_perm (h : r.HasFields fields) {changed : Members} (order : members.Perm changed)
    (decoded : r.decode (.object members) = .ok a) : r.decode (.object changed) = .ok a := by
  obtain ⟨accepted, -⟩ := decode_object_eq_ok_iff.1 decoded
  have still : IsAccepted r.entries changed :=
    ⟨fun m hm => accepted.sound m (order.mem_iff.2 hm),
      order.pairwise accepted.apart fun apart => symm apart⟩
  refine h.decode_congr decoded still fun f hf v got => ?_
  have found : changed.get? f.2.name = members.get? f.2.name := by
    ext value
    rw [h.get?_eq_some_iff accepted hf, h.get?_eq_some_iff still hf, order.mem_iff]
  rwa [RecordField.get, found]

/-- A member of an unknown key may stand anywhere. -/
theorem decode_insert (h : r.HasFields fields) {before after : Members} {key : String} {value : Json}
    (unknown : ∀ f ∈ fields, f.2.name ≠ key) (sound : value.skipFault? = none)
    (decoded : r.decode (.object (before ++ after)) = .ok a) :
    r.decode (.object (before ++ (.string key, value) :: after)) = .ok a := by
  refine h.decode_perm List.perm_middle.symm ?_
  obtain ⟨accepted, -⟩ := decode_object_eq_ok_iff.1 decoded
  have absent := h.find?_eq_none unknown
  refine h.decode_congr decoded ?_ fun f hf v got => ?_
  · refine isAccepted_cons.2 ⟨?_, fun n _ => apart_unknown absent n, accepted⟩
    simpa only [IsSound, absent] using sound
  · have found : Members.get? ((.string key, value) :: (before ++ after)) f.2.name =
        Members.get? (before ++ after) f.2.name := by
      simp [Members.get?, (unknown f hf).symm]
    rwa [RecordField.get, found]

/-- A value that is the default of its field may be missing. -/
theorem decode_leaveOut (h : r.HasFields fields) {before after : Members} {f : AnyField}
    (hf : f ∈ fields) {value : Json} {d : f.1} (default : f.2.default? = some d)
    (same : f.2.decode value = .ok d)
    (decoded : r.decode (.object (before ++ (.string f.2.name, value) :: after)) = .ok a) :
    r.decode (.object (before ++ after)) = .ok a := by
  have first := h.decode_perm List.perm_middle decoded
  obtain ⟨accepted, -⟩ := decode_object_eq_ok_iff.1 first
  obtain ⟨-, apart, others⟩ := isAccepted_cons.1 accepted
  refine h.decode_congr first others fun g hg v got => ?_
  by_cases this : g = f
  · subst this
    have present : Members.get? ((.string g.2.name, value) :: (before ++ after)) g.2.name =
        some value := by
      simp [Members.get?]
    have missing : Members.get? (before ++ after) g.2.name = none :=
      Members.get?_eq_none_iff.2 fun w among =>
        apart _ among g.2.entry (h.entry_mem hg) rfl rfl
    rw [RecordField.get_of_get? present, same] at got
    rw [RecordField.get_of_missing missing default, got]
  · have other : f.2.name ≠ g.2.name :=
      fun named => this (List.inj_on_of_nodup_map h.distinct hg hf named.symm)
    have found : Members.get? ((.string f.2.name, value) :: (before ++ after)) g.2.name =
        Members.get? (before ++ after) g.2.name := by
      simp [Members.get?, other]
    rwa [RecordField.get, found] at got

end Record.HasFields

def listed (entries : List Entry) (items : List Json) : Members :=
  (entries.zip items).map fun (entry, item) => (.string entry.name, item)

def named (p : AnyField × Json) : Json × Json := (.string p.1.2.name, p.2)

/-- An item that gives a field the value that the members give it. -/
def Supplies (members : Members) (f : AnyField) (item : Json) : Prop :=
  members.get? f.2.name = some item ∨
    members.get? f.2.name = none ∧ ∃ d, f.2.default? = some d ∧ f.2.decode item = .ok d

theorem Supplies.decode {members : Members} {f : AnyField} {item : Json}
    (h : Supplies members f item) {v : f.1} (got : f.2.get members = .ok v) :
    f.2.decode item = .ok v := by
  rcases h with present | ⟨missing, d, default, same⟩
  · rwa [RecordField.get_of_get? present] at got
  · rwa [RecordField.get_of_missing missing default, ← same] at got

namespace Record.HasFields

variable {α : Type} {r : Record α} {fields : List AnyField} {members : Members} {a : α}

theorem listed_eq (h : r.HasFields fields) (items : List Json) :
    listed r.entries items = (fields.zip items).map named := by
  rw [listed, h.entries, List.zip_map_left, List.map_map]
  rfl

theorem decode_array (h : r.HasFields fields) {items : List Json}
    (length : fields.length = items.length) :
    r.decode (.array items) = r.decode (.object (listed r.entries items)) := by
  have same : r.entries.length = items.length := by rw [h.entries, List.length_map, length]
  have absent : r.entries.drop items.length = [] := List.drop_eq_nil_of_le (Nat.le_of_eq same)
  have excess : items.drop r.entries.length = [] := List.drop_eq_nil_of_le (Nat.le_of_eq same.symm)
  rw [Record.decode, Record.decode, absent, excess]
  rfl

/-- A list of all values, the defaults among them written out, stands for the members. -/
theorem decode_toList (h : r.HasFields fields) {items : List Json}
    (values : List.Forall₂ (Supplies members) fields items)
    (decoded : r.decode (.object members) = .ok a) : r.decode (.array items) = .ok a := by
  obtain ⟨-, built⟩ := decode_object_eq_ok_iff.1 decoded
  obtain ⟨length, supplies⟩ := List.forall₂_iff_zip.1 values
  have keys : (listed r.entries items).map Prod.fst =
      (fields.map fun f => f.2.name).map Json.string := by
    conv_rhs => rw [← List.map_fst_zip (Nat.le_of_eq length)]
    rw [h.listed_eq, List.map_map, List.map_map, List.map_map]
    rfl
  have accepted : IsAccepted r.entries (listed r.entries items) := by
    apply isAccepted_of_nodup
    · intro m hm
      rw [h.listed_eq] at hm
      obtain ⟨⟨f, item⟩, paired, rfl⟩ := List.mem_map.1 hm
      have hf := (List.of_mem_zip paired).1
      obtain ⟨v, got⟩ := h.get_of_build members a built f hf
      exact (h.isSound_iff hf).2 ⟨v, (supplies paired).decode got⟩
    · rw [keys]
      exact h.distinct.map fun _ _ => Json.string.inj
  rw [h.decode_array length]
  refine h.decode_congr decoded accepted fun f hf v got => ?_
  obtain ⟨item, paired⟩ : ∃ item, (f, item) ∈ fields.zip items := by
    rw [← List.map_fst_zip (Nat.le_of_eq length)] at hf
    obtain ⟨⟨g, item⟩, paired, rfl⟩ := List.mem_map.1 hf
    exact ⟨item, paired⟩
  have found : (listed r.entries items).get? f.2.name = some item := by
    rw [h.get?_eq_some_iff accepted hf, h.listed_eq]
    exact List.mem_map.2 ⟨_, paired, rfl⟩
  rw [RecordField.get_of_get? found]
  exact (supplies paired).decode got

/-! The value at one place, with whatever stands around it. -/

variable {f : AnyField} {value other : Json}

theorem checkMembers_congr (h : r.HasFields fields) (hf : f ∈ fields)
    (same : f.2.decode value = f.2.decode other) (before after : Members) (seen : List String) :
    Record.checkMembers r.entries seen (before ++ (.string f.2.name, value) :: after) =
      Record.checkMembers r.entries seen (before ++ (.string f.2.name, other) :: after) := by
  induction before generalizing seen with
  | nil => simp only [List.nil_append, Record.checkMembers, h.find? hf, RecordField.entry, same]
  | cons m before ih =>
    obtain ⟨k, w⟩ := m
    cases k with
    | string key => simp only [List.cons_append, Record.checkMembers, ih]
    | _ => rfl

theorem build_congr_at (h : r.HasFields fields) (hf : f ∈ fields)
    (same : f.2.decode value = f.2.decode other) (before after : Members) :
    r.build (before ++ (.string f.2.name, value) :: after) =
      r.build (before ++ (.string f.2.name, other) :: after) := by
  refine h.build_congr _ _ fun g hg => ?_
  rw [RecordField.get, RecordField.get, Members.get?_append_cons, Members.get?_append_cons]
  by_cases this : g = f
  · subst this
    rw [if_pos rfl, if_pos rfl]
    cases before.get? g.2.name with
    | some w => rfl
    | none => exact same
  · have differ : f.2.name ≠ g.2.name :=
      fun named => this (List.inj_on_of_nodup_map h.distinct hg hf named.symm)
    rw [if_neg differ, if_neg differ]

theorem decode_member_congr (h : r.HasFields fields) (hf : f ∈ fields)
    (same : f.2.decode value = f.2.decode other) (before after : Members) :
    r.decode (.object (before ++ (.string f.2.name, value) :: after)) =
      r.decode (.object (before ++ (.string f.2.name, other) :: after)) := by
  rw [Record.decode, Record.decode, h.checkMembers_congr hf same, h.build_congr_at hf same]

theorem listed_item (h : r.HasFields fields) {before : List Json}
    (there : fields[before.length]? = some f) (after : List Json) :
    ∃ front back : Members, ∀ item, listed r.entries (before ++ item :: after) =
      front ++ (.string f.2.name, item) :: back := by
  obtain ⟨less, here⟩ := List.getElem?_eq_some_iff.1 there
  have parted : fields = fields.take before.length ++ f :: fields.drop (before.length + 1) := by
    rw [← here, List.getElem_cons_drop, List.take_append_drop]
  have length : (fields.take before.length).length = before.length := by
    rw [List.length_take, Nat.min_eq_left (Nat.le_of_lt less)]
  refine ⟨((fields.take before.length).zip before).map named,
    ((fields.drop (before.length + 1)).zip after).map named, fun item => ?_⟩
  conv_lhs => rw [h.listed_eq, parted, List.zip_append length, List.map_append, List.zip_cons_cons,
    List.map_cons]
  rfl

theorem decode_item_congr (h : r.HasFields fields) {before : List Json}
    (there : fields[before.length]? = some f) (same : f.2.decode value = f.2.decode other)
    (after : List Json) : r.decode (.array (before ++ value :: after)) =
      r.decode (.array (before ++ other :: after)) := by
  have hf : f ∈ fields := List.mem_of_getElem? there
  obtain ⟨front, back, parted⟩ := h.listed_item there after
  have decoded : ∀ item, r.decode (.array (before ++ item :: after)) = (do
      Record.checkMembers r.entries [] (listed r.entries (before ++ item :: after))
      Record.checkAbsent r.name r.entries.length (before ++ item :: after).length
        (r.entries.drop (before ++ item :: after).length)
      Record.checkExcess ((before ++ item :: after).drop r.entries.length)
      r.build (listed r.entries (before ++ item :: after))) := fun _ => rfl
  have length : ∀ item : Json, (before ++ item :: after).length = before.length + 1 + after.length := by
    intro item
    simp only [List.length_append, List.length_cons]
    omega
  have excess : ∀ item, (before ++ item :: after).drop r.entries.length =
      after.drop (r.entries.length - before.length - 1) := by
    intro item
    obtain ⟨less, -⟩ := List.getElem?_eq_some_iff.1 there
    rw [h.entries, List.length_map]
    obtain ⟨n, more⟩ := Nat.exists_eq_add_of_lt less
    have behind : before.length + n + 1 - before.length = n + 1 := by omega
    rw [more, List.drop_append, behind, List.drop_eq_nil_of_le (by omega), List.nil_append,
      List.drop_succ_cons, Nat.add_sub_cancel]
  simp only [decoded, parted, length, excess]
  rw [h.checkMembers_congr hf same, h.build_congr_at hf same]

theorem decode_member_ne_ok (h : r.HasFields fields) (hf : f ∈ fields)
    (refused : ∀ v, f.2.decode value ≠ .ok v) (before after : Members) (a : α) :
    r.decode (.object (before ++ (.string f.2.name, value) :: after)) ≠ .ok a := by
  intro decoded
  obtain ⟨accepted, -⟩ := decode_object_eq_ok_iff.1 decoded
  obtain ⟨v, good⟩ := (h.isSound_iff hf).1 (accepted.sound _ List.mem_append_cons_self)
  exact refused v good

theorem decode_item_ne_ok (h : r.HasFields fields) {before : List Json}
    (there : fields[before.length]? = some f) (refused : ∀ v, f.2.decode value ≠ .ok v)
    (after : List Json) (a : α) : r.decode (.array (before ++ value :: after)) ≠ .ok a := by
  intro decoded
  have hf : f ∈ fields := List.mem_of_getElem? there
  obtain ⟨front, back, parted⟩ := h.listed_item there after
  have walked := (check_bind_eq_ok_iff.1 decoded).1
  change Record.checkMembers r.entries [] (listed r.entries (before ++ value :: after)) = .ok () at walked
  rw [parted, checkMembers_eq_ok_iff] at walked
  obtain ⟨v, good⟩ := (h.isSound_iff hf).1 (walked.1.sound _ List.mem_append_cons_self)
  exact refused v good

theorem decode_repeated_ne_ok (h : r.HasFields fields) (hf : f ∈ fields)
    (before between after : Members) (a : α) :
    r.decode (.object (before ++ (.string f.2.name, value) ::
      (between ++ (.string f.2.name, other) :: after))) ≠ .ok a := by
  intro decoded
  obtain ⟨accepted, -⟩ := decode_object_eq_ok_iff.1 decoded
  obtain ⟨-, apart, -⟩ := List.pairwise_append.1 accepted.apart
  exact (List.pairwise_cons.1 apart).1 (.string f.2.name, other) (by simp) f.2.entry
    (h.entry_mem hf) rfl rfl

theorem decode_lacking_ne_ok (h : r.HasFields fields) (hf : f ∈ fields)
    (required : f.2.default? = none) (absent : ∀ value, (.string f.2.name, value) ∉ members) (a : α) :
    r.decode (.object members) ≠ .ok a := by
  intro decoded
  obtain ⟨-, built⟩ := decode_object_eq_ok_iff.1 decoded
  obtain ⟨v, got⟩ := h.get_of_build members a built f hf
  rw [RecordField.get_of_lacking (Members.get?_eq_none_iff.2 absent) required] at got
  cases got

end Record.HasFields

end Montage.Json
