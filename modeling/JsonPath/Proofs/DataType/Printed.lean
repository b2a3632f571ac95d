import JsonPath.DataType.Printer
import JsonPath.Proofs.DataType.Describes

/-!
The two texts of a type. An entry is written alike in both; what stands between entries, and
between the members of a union, differs in blanks only. So the texts are the same when blanks are
left out, however deep the type is nested.
-/

namespace JsonPath

/-- The characters of a text that are not blank. -/
def Text.without (blank : Char → Bool) (s : String) : List Char := s.toList.filter fun c => !blank c

namespace Text

variable {blank : Char → Bool}

@[simp] theorem without_append (a b : String) :
    without blank (a ++ b) = without blank a ++ without blank b := by
  rw [without, String.toList_append, List.filter_append]
  rfl

theorem without_spaces (hspace : blank ' ' = true) (n : Nat) : without blank (spaces n) = [] := by
  rw [without, spaces, String.toList_ofList, List.filter_replicate]
  simp [hspace]

theorem without_line (hline : blank '\n' = true) : without blank "\n" = [] := by
  simp [without, hline]

theorem filter_intercalate (p : Char → Bool) (separator : List Char) (parts : List (List Char)) :
    (separator.intercalate parts).filter p =
      (separator.filter p).intercalate (parts.map (·.filter p)) := by
  induction parts with
  | nil => rfl
  | cons part rest ih =>
    cases rest with
    | nil => simp
    | cons next rest =>
      rw [List.intercalate_cons_cons, List.filter_append, List.filter_append, ih, List.map_cons,
        List.map_cons, List.map_cons, List.intercalate_cons_cons]

theorem without_intercalate (separator : String) (parts : List String) :
    without blank (separator.intercalate parts) =
      (without blank separator).intercalate (parts.map (without blank)) := by
  rw [without, String.toList_intercalate, filter_intercalate, List.map_map]
  rfl

end Text

namespace DataType

open Text (without)

variable {blank : Char → Bool}

/-! ### Entries -/

theorem without_propertyText (required : List String) (name : String) {s s' : String}
    (h : without blank s = without blank s') :
    without blank (propertyText required name s) =
      without blank (propertyText required name s') := by
  simp only [propertyText, Text.without_append, h]

theorem without_elementText (minimum i : Nat) {s s' : String}
    (h : without blank s = without blank s') :
    without blank (elementText minimum i s) = without blank (elementText minimum i s') := by
  unfold elementText
  split
  · exact h
  · simp only [Text.without_append, h]

theorem without_listText (item : DataType) {s s' : String}
    (h : without blank s = without blank s') :
    without blank (listText item s) = without blank (listText item s') := by
  unfold listText
  split <;> simp only [Text.without_append, h]

theorem without_restText? (rest : DataType) {s s' : String}
    (h : without blank s = without blank s') :
    (restText? rest s).toList.map (without blank) =
      (restText? rest s').toList.map (without blank) := by
  unfold restText?
  split <;> simp [h]

theorem without_furtherText? (rest : DataType) {s s' : String}
    (h : without blank s = without blank s') :
    (furtherText? rest s).toList.map (without blank) =
      (furtherText? rest s').toList.map (without blank) := by
  unfold furtherText?
  split
  · rfl
  · simp [without_listText rest h]

theorem without_prettyProperties (indent : Nat) (required : List String)
    {properties : List (String × DataType)}
    (h : ∀ p ∈ properties, without blank (p.2.pretty indent) = without blank p.2.text) :
    (prettyProperties indent required properties).map (without blank) =
      (propertyTexts required properties).map (without blank) := by
  induction properties with
  | nil => rfl
  | cons p rest ih =>
    obtain ⟨hp, hrest⟩ := List.forall_mem_cons.mp h
    rw [prettyProperties, propertyTexts, List.map_cons, List.map_cons, ih hrest,
      without_propertyText required p.1 hp]

theorem without_prettyElements (indent minimum i : Nat) {front : List DataType}
    (h : ∀ t ∈ front, without blank (t.pretty indent) = without blank t.text) :
    (prettyElements indent minimum i front).map (without blank) =
      (elementTexts minimum i front).map (without blank) := by
  induction front generalizing i with
  | nil => rfl
  | cons t rest ih =>
    obtain ⟨ht, hrest⟩ := List.forall_mem_cons.mp h
    rw [prettyElements, elementTexts, List.map_cons, List.map_cons, ih _ hrest,
      without_elementText minimum i ht]

theorem without_prettyEach (indent : Nat) {members : List DataType}
    (h : ∀ t ∈ members, without blank (t.pretty indent) = without blank t.text) :
    (prettyEach indent members).map (without blank) = (texts members).map (without blank) := by
  induction members with
  | nil => rfl
  | cons t rest ih =>
    obtain ⟨ht, hrest⟩ := List.forall_mem_cons.mp h
    rw [prettyEach, texts, List.map_cons, List.map_cons, ih hrest, ht]

/-! ### Types -/

/-- Entries on lines of their own are the entries on one line. -/
theorem without_block (hspace : blank ' ' = true) (hline : blank '\n' = true)
    (opening closing : String) (indent : Nat) {entries entries' : List String}
    (h : entries.map (without blank) = entries'.map (without blank)) :
    without blank (block opening closing indent entries) =
      without blank (opening ++ ", ".intercalate entries' ++ closing) := by
  have hlines : (entries.map fun entry => Text.spaces (indent + 2) ++ entry).map (without blank) =
      entries'.map (without blank) := by
    rw [← h, List.map_map]
    refine List.map_congr_left fun entry _ => ?_
    rw [Function.comp_apply, Text.without_append, Text.without_spaces hspace, List.nil_append]
  have hcomma : without blank ",\n" = without blank ", " := by
    simp [without, List.filter_cons, hspace, hline]
  simp only [block, Text.without_append, Text.without_intercalate, hlines, hcomma,
    Text.without_line hline, Text.without_spaces hspace, List.append_nil]

/-- The text with an entry to a line, for a place with any indentation, is the text on a single
line once spaces and line breaks, and any other characters, are left out of both. -/
theorem without_pretty_eq_text (hspace : blank ' ' = true) (hline : blank '\n' = true)
    (t : DataType) (indent : Nat) : without blank (t.pretty indent) = without blank t.text := by
  induction t using parts_induction generalizing indent with
  | any | never | literal | primitive => rfl
  | object properties rest required notes hproperties hrest =>
    rw [pretty]
    split
    · rfl
    · rw [text]
      refine without_block hspace hline _ _ _ ?_
      rw [List.map_append, List.map_append,
        without_prettyProperties _ _ fun p hp => hproperties p hp _,
        without_restText? rest (hrest _)]
  | array front rest minimum notes hfront hrest =>
    rw [pretty, text]
    split
    · split
      · rfl
      · exact without_listText rest (hrest _)
    · refine without_block hspace hline _ _ _ ?_
      rw [List.map_append, List.map_append,
        without_prettyElements _ _ _ fun t ht => hfront t ht _, without_furtherText? rest (hrest _)]
  | union members notes hmembers =>
    rw [pretty]
    split
    · rfl
    · have hbar : without blank ("\n" ++ Text.spaces indent ++ "| ") = without blank " | " := by
        simp only [Text.without_append, Text.without_line hline, Text.without_spaces hspace]
        simp [without, hspace]
      rw [text, Text.without_intercalate, Text.without_intercalate, hbar,
        without_prettyEach _ fun t ht => hmembers t ht _]

/-- Lists of null and of records that may hold a pair whose second element may be missing. -/
def pairLists : DataType :=
  .array [] (.union [.object [("a pair", .array [.primitive .string {}, .primitive .null {}]
    (.never {}) 1 {})] (.any {}) [] {}, .primitive .null {}] {}) 0 {}

theorem without_pretty_eq_text_pairLists :
    Char.isWhitespace ' ' = true ∧ Char.isWhitespace '\n' = true ∧
      pairLists.pretty 0 ≠ pairLists.text ∧
      without Char.isWhitespace (pairLists.pretty 0) = without Char.isWhitespace pairLists.text :=
  ⟨rfl, rfl, by decide, without_pretty_eq_text rfl rfl pairLists 0⟩

end DataType

end JsonPath
