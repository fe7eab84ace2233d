import Montage.Json.Layer
import Montage.Proofs.Json.ReadBack

/-! What is written of a value is a text of it, in one line as well as on lines of its own, so a layer
that rounds each number at once reads it back. -/
namespace Montage.Json

/-- A value that a text can hold: no leaf stands for a faulty text, the numbers are finite and fit,
and every key is a string. -/
inductive IsWritable : Json → Prop where
  | null : IsWritable .null
  | bool (b : Bool) : IsWritable (.bool b)
  | number {n : Number} (writable : n.IsWritable) : IsWritable (.number n)
  | string (s : String) : IsWritable (.string s)
  | array {items : List Json} (writable : ∀ item ∈ items, IsWritable item) :
      IsWritable (.array items)
  | object {members : List (String × Json)} (writable : ∀ m ∈ members, IsWritable m.2) :
      IsWritable (.ofMembers members)

variable {gap before after : List Char} (write : Json → List Char)

theorem isItemsText_intercalate (blank : IsGap gap) (blankBehind : IsGap after) {items : List Json}
    (nonempty : items ≠ []) (h : ∀ item ∈ items, IsText item (write item)) :
    IsItemsText items ((',' :: gap).intercalate (items.map write) ++ (after ++ [']'])) := by
  induction items with
  | nil => exact absurd rfl nonempty
  | cons item items ih =>
    obtain ⟨first, others⟩ := List.forall_mem_cons.1 h
    cases items with
    | nil => simpa using .last first blankBehind
    | cons second items =>
      have rest := IsItemsText.next first blank (ih (List.cons_ne_nil _ _) others)
      simpa [List.intercalate_cons_cons] using rest

theorem isMembersText_intercalate (blankInside : IsGap before) (blank : IsGap gap)
    (blankBehind : IsGap after) {members : List (String × Json)} (nonempty : members ≠ [])
    (h : ∀ m ∈ members, IsText m.2 (write m.2)) :
    IsMembersText (members.map fun (key, value) => (.string key, value))
      ((',' :: gap).intercalate
        (members.map fun (key, value) => quoted key ++ ':' :: (before ++ write value)) ++
          (after ++ ['\x7d'])) := by
  induction members with
  | nil => exact absurd rfl nonempty
  | cons member members ih =>
    obtain ⟨first, others⟩ := List.forall_mem_cons.1 h
    cases members with
    | nil => simpa using .last blankInside first blankBehind
    | cons second members =>
      have rest := @IsMembersText.next member.1 _ _ _ _ _ _ blankInside first blank
        (ih (List.cons_ne_nil _ _) others)
      simpa [List.intercalate_cons_cons] using rest

/-! In one line -/

theorem compactItems_eq_map (items : List Json) : compactItems items = items.map compact := by
  induction items with
  | nil => rfl
  | cons item items ih => rw [compactItems, ih, List.map_cons]

theorem compactMembers_eq_map (members : List (Json × Json)) :
    compactMembers members = members.map compactMember := by
  induction members with
  | nil => rfl
  | cons member members ih => rw [compactMembers, ih, List.map_cons]

theorem toList_stringText (s : String) : (stringText s).toList = quoted s := by
  rw [stringText, String.toList_ofList, quoted]

theorem toList_compact_array (items : List Json) :
    (compact (.array items)).toList =
      '[' :: ([','].intercalate (items.map fun item => item.compact.toList) ++ [']']) := by
  simp [compact, compactItems_eq_map, String.toList_append, String.toList_intercalate,
    Function.comp_def]

theorem toList_compact_ofMembers (members : List (String × Json)) :
    (compact (.ofMembers members)).toList =
      '\x7b' :: ([','].intercalate
        (members.map fun (key, value) => quoted key ++ ':' :: value.compact.toList) ++ ['\x7d']) := by
  simp [ofMembers, compact, compactMembers_eq_map, compactMember, toList_stringText,
    String.toList_append, String.toList_intercalate, Function.comp_def]

theorem isGap_nil : IsGap [] := fun _ hc => nomatch hc

theorem IsWritable.isText_compact {j : Json} (h : j.IsWritable) : IsText j j.compact.toList := by
  induction h with
  | null => exact .null
  | bool b => rw [compact]; exact .bool b
  | number writable => exact .number writable
  | string s => rw [compact, toList_stringText]; exact .string s
  | @array items writable ih =>
    rw [toList_compact_array]
    cases items with
    | nil => exact .emptyArray
    | cons item items =>
      exact @IsText.array _ [] _ isGap_nil (isItemsText_intercalate (fun item => item.compact.toList)
        isGap_nil isGap_nil (List.cons_ne_nil item items) ih)
  | @object members writable ih =>
    rw [toList_compact_ofMembers]
    cases members with
    | nil => exact .emptyObject
    | cons member members =>
      exact @IsText.object _ [] _ isGap_nil (isMembersText_intercalate
        (fun value => value.compact.toList) isGap_nil isGap_nil isGap_nil
        (List.cons_ne_nil member members) ih)

/-! On lines of its own -/

theorem indentedItems_eq_map (margin : String) (items : List Json) :
    indentedItems margin items = items.map (indented margin) := by
  induction items with
  | nil => rfl
  | cons item items ih => rw [indentedItems, ih, List.map_cons]

theorem indentedMembers_eq_map (margin : String) (members : List (Json × Json)) :
    indentedMembers margin members = members.map (indentedMember margin) := by
  induction members with
  | nil => rfl
  | cons member members ih => rw [indentedMembers, ih, List.map_cons]

def lineStart (margin : String) : List Char := '\n' :: margin.toList

theorem toList_block {opening closing margin : String} {parts : List String} (nonempty : parts ≠ []) :
    (block opening closing margin parts).toList = opening.toList ++
      (lineStart (margin ++ "  ") ++ ((',' :: lineStart (margin ++ "  ")).intercalate
        (parts.map String.toList) ++ (lineStart margin ++ closing.toList))) := by
  simp [block, nonempty, lineStart, String.toList_append, String.toList_intercalate]

theorem toList_indented_array (margin : String) {items : List Json} (nonempty : items ≠ []) :
    (indented margin (.array items)).toList =
      '[' :: (lineStart (margin ++ "  ") ++ ((',' :: lineStart (margin ++ "  ")).intercalate
        (items.map fun item => (item.indented (margin ++ "  ")).toList) ++
          (lineStart margin ++ [']']))) := by
  rw [indented, indentedItems_eq_map, toList_block (by simpa using nonempty), List.map_map]
  rfl

theorem toList_indentedMember (margin key : String) (value : Json) :
    (indentedMember margin (.string key, value)).toList =
      quoted key ++ ':' :: ([' '] ++ (value.indented margin).toList) := by
  simp [indentedMember, indented, toList_stringText, String.toList_append]

theorem toList_indented_ofMembers (margin : String) {members : List (String × Json)}
    (nonempty : members ≠ []) :
    (indented margin (.ofMembers members)).toList =
      '\x7b' :: (lineStart (margin ++ "  ") ++ ((',' :: lineStart (margin ++ "  ")).intercalate
        (members.map fun (key, value) =>
          quoted key ++ ':' :: ([' '] ++ (value.indented (margin ++ "  ")).toList)) ++
            (lineStart margin ++ ['\x7d']))) := by
  rw [ofMembers, indented, indentedMembers_eq_map, toList_block (by simpa using nonempty), List.map_map,
    List.map_map]
  simp only [Function.comp_def, toList_indentedMember]
  rfl

theorem isGap_space : IsGap [' '] := List.forall_mem_singleton.2 rfl

theorem isGap_lineStart {margin : String} (blank : IsGap margin.toList) : IsGap (lineStart margin) :=
  List.forall_mem_cons.2 ⟨rfl, blank⟩

theorem IsWritable.isText_indented {j : Json} (h : j.IsWritable) (margin : String)
    (blank : IsGap margin.toList) : IsText j (j.indented margin).toList := by
  have deeper : ∀ {margin : String}, IsGap margin.toList → IsGap (margin ++ "  ").toList := by
    intro margin blank
    rw [String.toList_append]
    exact List.forall_mem_append.2 ⟨blank, Text.forall_mem_of_all (by decide)⟩
  induction h generalizing margin with
  | null => exact .null
  | bool b => rw [indented]; exact .bool b
  | number writable => exact .number writable
  | string s => rw [indented, toList_stringText]; exact .string s
  | @array items writable ih =>
    cases items with
    | nil =>
      rw [indented, indentedItems, block, if_pos rfl]
      exact .emptyArray
    | cons item items =>
      rw [toList_indented_array margin (List.cons_ne_nil item items)]
      exact .array (isGap_lineStart (deeper blank)) (isItemsText_intercalate
        (fun item => (item.indented (margin ++ "  ")).toList) (isGap_lineStart (deeper blank))
        (isGap_lineStart blank) (List.cons_ne_nil item items)
        fun item among => ih item among _ (deeper blank))
  | @object members writable ih =>
    cases members with
    | nil =>
      rw [ofMembers, List.map_nil, indented, indentedMembers, block, if_pos rfl]
      exact .emptyObject
    | cons member members =>
      rw [toList_indented_ofMembers margin (List.cons_ne_nil member members)]
      exact .object (isGap_lineStart (deeper blank)) (isMembersText_intercalate
        (fun value => (value.indented (margin ++ "  ")).toList) isGap_space
        (isGap_lineStart (deeper blank)) (isGap_lineStart blank) (List.cons_ne_nil member members)
        fun member among => ih member among _ (deeper blank))

namespace TextLayer

/-- What a layer owes to the records above it: what a text can hold is read back as it was written. -/
def ReadsBack (layer : TextLayer) : Prop :=
  ∀ j : Json, j.IsWritable → layer.read (layer.write j) = ⟨j, false⟩

theorem readsBack_compact : (nearest compact).ReadsBack := fun _ h => h.isText_compact.readChars

theorem readsBack_pretty : (nearest pretty).ReadsBack :=
  fun _ h => (h.isText_indented "" isGap_nil).readChars

end TextLayer
end Montage.Json
