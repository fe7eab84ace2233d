import Montage.Proofs.Json.Number
import Montage.Proofs.Json.Quotation

/-! Which texts spell a value, with or without blanks between its parts, and that the reader finds
the value in each of them. The writers are measured against the same texts. -/
namespace Montage.Json

def IsGap (gap : List Char) : Prop := ∀ c ∈ gap, isSpace c = true

def quoted (s : String) : List Char := '"' :: s.toList.flatMap escapedChar ++ ['"']

mutual

inductive IsText : Json → List Char → Prop where
  | null : IsText .null "null".toList
  | bool (b : Bool) : IsText (.bool b) (if b then "true" else "false").toList
  | number {n : Number} (writable : n.IsWritable) : IsText (.number n) (numberText n).toList
  | string (s : String) : IsText (.string s) (quoted s)
  | emptyArray : IsText (.array []) ['[', ']']
  | array {items : List Json} {gap cs : List Char} (blank : IsGap gap)
      (inner : IsItemsText items cs) : IsText (.array items) ('[' :: (gap ++ cs))
  | emptyObject : IsText (.object []) ['\x7b', '\x7d']
  | object {members : List (Json × Json)} {gap cs : List Char} (blank : IsGap gap)
      (inner : IsMembersText members cs) : IsText (.object members) ('\x7b' :: (gap ++ cs))

/-- A text of items from the first to the closing bracket. -/
inductive IsItemsText : List Json → List Char → Prop where
  | last {item : Json} {cs gap : List Char} (value : IsText item cs) (blank : IsGap gap) :
      IsItemsText [item] (cs ++ (gap ++ [']']))
  | next {item : Json} {items : List Json} {cs gap ds : List Char} (value : IsText item cs)
      (blank : IsGap gap) (others : IsItemsText items ds) :
      IsItemsText (item :: items) (cs ++ ',' :: (gap ++ ds))

/-- A text of members from the first to the closing brace. -/
inductive IsMembersText : List (Json × Json) → List Char → Prop where
  | last {key : String} {value : Json} {cs before after : List Char} (blank : IsGap before)
      (text : IsText value cs) (blankBehind : IsGap after) :
      IsMembersText [(.string key, value)]
        (quoted key ++ ':' :: (before ++ (cs ++ (after ++ ['\x7d']))))
  | next {key : String} {value : Json} {members : List (Json × Json)}
      {cs before after ds : List Char} (blank : IsGap before) (text : IsText value cs)
      (blankBehind : IsGap after) (others : IsMembersText members ds) :
      IsMembersText ((.string key, value) :: members)
        (quoted key ++ ':' :: (before ++ (cs ++ ',' :: (after ++ ds))))

end

/-- The characters by which the reader tells the other values, and blanks, from numbers. -/
theorem not_mem_of_numberStart {c : Char} (h : c = '-' ∨ c.isDigit = true) :
    c ∉ [' ', '\n', '\t', '\r', ']', 'n', 't', 'f', '"', '[', '\x7b'] := by
  have others : ∀ d ∈ [' ', '\n', '\t', '\r', ']', 'n', 't', 'f', '"', '[', '\x7b'],
      ¬ (d = '-' ∨ d.isDigit = true) := Text.forall_mem_of_all (by decide)
  exact fun mem => others c mem h

def StartsValue (cs : List Char) : Prop :=
  ∃ c rest, cs = c :: rest ∧ isSpace c = false ∧ c ≠ ']'

theorem StartsValue.append {cs : List Char} (h : StartsValue cs) (ds : List Char) :
    StartsValue (cs ++ ds) := by
  obtain ⟨c, rest, rfl, visible, other⟩ := h
  exact ⟨c, rest ++ ds, rfl, visible, other⟩

theorem StartsValue.length_pos {cs : List Char} (h : StartsValue cs) : 0 < cs.length := by
  obtain ⟨c, rest, rfl, -, -⟩ := h
  exact Nat.succ_pos _

theorem IsText.startsValue {j : Json} {cs : List Char} (h : IsText j cs) : StartsValue cs := by
  cases h with
  | null => exact ⟨'n', _, rfl, rfl, by decide⟩
  | bool b => cases b <;> exact ⟨_, _, rfl, rfl, by decide⟩
  | number writable =>
    obtain ⟨c, rest, text, first⟩ := exists_cons_numberText writable
    have others := not_mem_of_numberStart first
    simp only [List.mem_cons, not_or] at others
    exact ⟨c, rest, text, by simp [isSpace, others], others.2.2.2.2.1⟩
  | string s => exact ⟨'"', _, rfl, rfl, by decide⟩
  | emptyArray => exact ⟨'[', _, rfl, rfl, by decide⟩
  | array blank inner => exact ⟨'[', _, rfl, rfl, by decide⟩
  | emptyObject => exact ⟨'\x7b', _, rfl, rfl, by decide⟩
  | object blank inner => exact ⟨'\x7b', _, rfl, rfl, by decide⟩

theorem IsItemsText.startsValue {items : List Json} {cs : List Char} (h : IsItemsText items cs) :
    StartsValue cs := by
  cases h with
  | last value blank => exact value.startsValue.append _
  | next value blank others => exact value.startsValue.append _

theorem IsMembersText.exists_quote {members : List (Json × Json)} {cs : List Char}
    (h : IsMembersText members cs) : ∃ rest, cs = '"' :: rest := by
  cases h <;> exact ⟨_, rfl⟩

theorem IsMembersText.length_pos {members : List (Json × Json)} {cs : List Char}
    (h : IsMembersText members cs) : 0 < cs.length := by
  obtain ⟨rest, rfl⟩ := h.exists_quote
  exact Nat.succ_pos _

theorem skipSpace_append {gap cs : List Char} (blank : IsGap gap) :
    skipSpace (gap ++ cs) = skipSpace cs :=
  List.dropWhile_append_of_pos blank

theorem skipSpace_cons {c : Char} (visible : isSpace c = false) (cs : List Char) :
    skipSpace (c :: cs) = c :: cs := by
  simp [skipSpace, visible]

theorem StartsValue.skipSpace {cs : List Char} (h : StartsValue cs) : skipSpace cs = cs := by
  obtain ⟨c, rest, rfl, visible, -⟩ := h
  exact skipSpace_cons visible rest

theorem stopsNumber_cons {c : Char} (h : c.isDigit = false ∧ c ∉ ['.', 'e', 'E', '+', '-'])
    (cs : List Char) : StopsNumber (c :: cs) := by
  rintro _ ⟨⟩ (digit | mark)
  · rw [h.1] at digit; cases digit
  · exact h.2 mark

theorem stopsNumber_gap {gap : List Char} (blank : IsGap gap) {c : Char}
    (h : c.isDigit = false ∧ c ∉ ['.', 'e', 'E', '+', '-']) (cs : List Char) :
    StopsNumber (gap ++ c :: cs) := by
  cases gap with
  | nil => exact stopsNumber_cons h cs
  | cons d gap =>
    have space := blank d List.mem_cons_self
    simp only [isSpace, Bool.or_eq_true, decide_eq_true_eq] at space
    rcases space with ((rfl | rfl) | rfl) | rfl <;> exact stopsNumber_cons (by decide) _

/-! Reading values -/

theorem readLiteral_append (value : Json) (expected rest : List Char) :
    readLiteral value expected (expected ++ rest) = (value, some rest) := by
  induction expected with
  | nil => rfl
  | cons c expected ih => rw [List.cons_append, readLiteral, if_pos rfl, ih]

theorem readString_quoted (s : String) (rest : List Char) :
    ∃ cs, quoted s ++ rest = '"' :: cs ∧ readString cs = (.string s, some rest) := by
  refine ⟨s.toList.flatMap escapedChar ++ '"' :: rest, by simp [quoted], readString_flatMap s rest⟩

theorem readValue_number {n : Number} (writable : n.IsWritable) (fuel : Nat) {rest : List Char}
    (stop : StopsNumber rest) :
    readValue .nearest (fuel + 1) ((numberText n).toList ++ rest) = (.number n, some rest) := by
  obtain ⟨c, cs, text, first⟩ := exists_cons_numberText writable
  have others := not_mem_of_numberStart first
  simp only [List.mem_cons, not_or] at others
  have number := readNumber_numberText writable stop
  rw [text, List.cons_append] at number ⊢
  simp [readValue, others, first, number]

variable {gap cs ds rest : List Char} {fuel : Nat}

theorem skipSpace_gap_append (blank : IsGap gap) (start : StartsValue cs) :
    skipSpace (gap ++ cs) = cs :=
  (skipSpace_append blank).trans start.skipSpace

theorem skipSpace_gap_cons (blank : IsGap gap) {c : Char} (visible : isSpace c = false) :
    skipSpace (gap ++ c :: cs) = c :: cs :=
  (skipSpace_append blank).trans (skipSpace_cons visible cs)

theorem readValue_array (blank : IsGap gap) (start : StartsValue cs) {items : List Json}
    (inner : readItems .nearest fuel cs = (items, some rest)) :
    readValue .nearest (fuel + 2) ('[' :: (gap ++ cs)) = (.array items, some rest) := by
  have skipped := skipSpace_gap_append blank start
  obtain ⟨c, tail, rfl, -, other⟩ := start
  have list : readList .nearest (fuel + 1) (c :: tail) = (.array items, some rest) := by
    rw [readList, inner] <;> simp [other]
  rw [readValue, skipped]
  simpa using list

theorem readValue_object (blank : IsGap gap) {members : List (Json × Json)}
    (inner : readMembers .nearest fuel ('"' :: cs) = (members, some rest)) :
    readValue .nearest (fuel + 2) ('\x7b' :: (gap ++ '"' :: cs)) = (.object members, some rest) := by
  have skipped : skipSpace (gap ++ '"' :: cs) = '"' :: cs := skipSpace_gap_cons blank (by rfl)
  have object : readObject .nearest (fuel + 1) ('"' :: cs) = (.object members, some rest) := by
    rw [readObject, inner] <;> simp
  rw [readValue, skipped]
  simpa using object

theorem readItems_last {item : Json}
    (value : readValue .nearest fuel cs = (item, some (gap ++ ']' :: rest))) (blank : IsGap gap) :
    readItems .nearest (fuel + 1) cs = ([item], some rest) := by
  rw [readItems, value]
  simp only [skipSpace_gap_cons blank (show isSpace ']' = false by rfl)]

theorem readItems_next {item : Json} {items : List Json}
    (value : readValue .nearest fuel cs = (item, some (',' :: (gap ++ ds)))) (blank : IsGap gap)
    (start : StartsValue ds) (others : readItems .nearest fuel ds = (items, some rest)) :
    readItems .nearest (fuel + 1) cs = (item :: items, some rest) := by
  rw [readItems, value]
  have skipped := skipSpace_gap_append blank start
  obtain ⟨c, tail, rfl, -, other⟩ := start
  simp [skipSpace_cons (show isSpace ',' = false by rfl), skipped, other, others]

theorem readMembers_last {key : String} {value : Json} {before after : List Char}
    (blank : IsGap before) (start : StartsValue cs)
    (text : readValue .nearest fuel cs = (value, some (after ++ '\x7d' :: rest)))
    (blankBehind : IsGap after) :
    readMembers .nearest (fuel + 1) (quoted key ++ ':' :: (before ++ cs)) =
      ([(.string key, value)], some rest) := by
  obtain ⟨quotation, split, reads⟩ := readString_quoted key (':' :: (before ++ cs))
  rw [split, readMembers, reads]
  simp only [skipSpace_cons (show isSpace ':' = false by rfl), skipSpace_gap_append blank start, text,
    skipSpace_gap_cons blankBehind (show isSpace '\x7d' = false by rfl)]

theorem readMembers_next {key : String} {value : Json} {members : List (Json × Json)}
    {before after : List Char} (blank : IsGap before) (start : StartsValue cs)
    (text : readValue .nearest fuel cs = (value, some (',' :: (after ++ '"' :: ds))))
    (blankBehind : IsGap after)
    (others : readMembers .nearest fuel ('"' :: ds) = (members, some rest)) :
    readMembers .nearest (fuel + 1) (quoted key ++ ':' :: (before ++ cs)) =
      ((.string key, value) :: members, some rest) := by
  obtain ⟨quotation, split, reads⟩ := readString_quoted key (':' :: (before ++ cs))
  rw [split, readMembers, reads]
  simp only [skipSpace_cons (show isSpace ':' = false by rfl), skipSpace_gap_append blank start, text,
    skipSpace_cons (show isSpace ',' = false by rfl),
    skipSpace_gap_cons blankBehind (show isSpace '"' = false by rfl)]
  simp [others]

mutual

/-- The reader finds the value of a text. At most three calls lie between two brackets, items or
members, and each of these has a character of its own, so three times the length is enough fuel. -/
theorem IsText.readValue {j : Json} {cs : List Char} (h : IsText j cs) {fuel : Nat}
    (enough : 3 * cs.length ≤ fuel) {rest : List Char} (stop : StopsNumber rest) :
    readValue .nearest fuel (cs ++ rest) = (j, some rest) := by
  have nonempty : 0 < cs.length := h.startsValue.length_pos
  obtain ⟨fuel, rfl⟩ := Nat.exists_eq_add_of_le' (show 2 ≤ fuel by omega)
  cases h with
  | null => exact readLiteral_append .null "ull".toList rest
  | bool b =>
    cases b with
    | true => exact readLiteral_append (.bool true) "rue".toList rest
    | false => exact readLiteral_append (.bool false) "alse".toList rest
  | number writable => exact readValue_number writable (fuel + 1) stop
  | string s =>
    obtain ⟨cs, text, reads⟩ := readString_quoted s rest
    rw [text]
    simp [Json.readValue, reads]
  | emptyArray => simp [Json.readValue, readList, skipSpace_cons (show isSpace ']' = false by rfl)]
  | array blank inner =>
    simp only [List.length_cons, List.length_append] at enough
    rw [List.cons_append, List.append_assoc]
    exact readValue_array blank (inner.startsValue.append rest)
      (inner.readItems (by omega) rest)
  | emptyObject =>
    simp [Json.readValue, readObject, skipSpace_cons (show isSpace '\x7d' = false by rfl)]
  | object blank inner =>
    simp only [List.length_cons, List.length_append] at enough
    have reads := inner.readMembers (show _ ≤ fuel by omega) rest
    obtain ⟨tail, rfl⟩ := inner.exists_quote
    rw [List.cons_append, List.append_assoc]
    exact readValue_object blank reads

theorem IsItemsText.readItems {items : List Json} {cs : List Char} (h : IsItemsText items cs)
    {fuel : Nat} (enough : 3 * cs.length ≤ fuel) (rest : List Char) :
    readItems .nearest fuel (cs ++ rest) = (items, some rest) := by
  have nonempty : 0 < cs.length := h.startsValue.length_pos
  obtain ⟨fuel, rfl⟩ := Nat.exists_eq_add_of_le' (show 1 ≤ fuel by omega)
  cases h with
  | last value blank =>
    simp only [List.length_cons, List.length_append, List.length_nil] at enough
    refine readItems_last ?_ blank
    simp only [List.append_assoc, List.singleton_append]
    exact value.readValue (by omega) (stopsNumber_gap blank (by decide) _)
  | next value blank others =>
    simp only [List.length_cons, List.length_append] at enough
    refine readItems_next ?_ blank (others.startsValue.append rest) (others.readItems (by omega) rest)
    simp only [List.append_assoc, List.cons_append]
    exact value.readValue (by omega) (stopsNumber_cons (by decide) _)

theorem IsMembersText.readMembers {members : List (Json × Json)} {cs : List Char}
    (h : IsMembersText members cs) {fuel : Nat} (enough : 3 * cs.length ≤ fuel) (rest : List Char) :
    readMembers .nearest fuel (cs ++ rest) = (members, some rest) := by
  have nonempty : 0 < cs.length := h.length_pos
  obtain ⟨fuel, rfl⟩ := Nat.exists_eq_add_of_le' (show 1 ≤ fuel by omega)
  cases h with
  | last blank text blankBehind =>
    simp only [List.length_cons, List.length_append, List.length_nil] at enough
    simp only [List.append_assoc, List.cons_append, List.nil_append]
    refine readMembers_last blank (text.startsValue.append _) ?_ blankBehind
    exact text.readValue (by omega) (stopsNumber_gap blankBehind (by decide) _)
  | next blank text blankBehind others =>
    simp only [List.length_cons, List.length_append] at enough
    have reads := others.readMembers (show _ ≤ fuel by omega) rest
    obtain ⟨tail, rfl⟩ := others.exists_quote
    simp only [List.append_assoc, List.cons_append]
    refine readMembers_next blank (text.startsValue.append _) ?_ blankBehind reads
    exact text.readValue (by omega) (stopsNumber_cons (by decide) _)

end

/-- A text of a value is a document of it, with nothing behind. -/
theorem IsText.readChars {j : Json} {cs : List Char} (h : IsText j cs) :
    readChars .nearest cs = ⟨j, false⟩ := by
  have value : Json.readValue .nearest (3 * (cs.length + 1)) (cs ++ []) = (j, some []) :=
    h.readValue (by omega) fun c hc => nomatch hc
  rw [List.append_nil] at value
  rw [Json.readChars, h.startsValue.skipSpace, value]
  rfl

end Montage.Json
