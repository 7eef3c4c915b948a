import Parlance.Proofs.Json.Strings
import Parlance.Proofs.Scanning.Numeral
import Parlance.Proofs.Text.Split

namespace Parlance.Json

/-!
What is written as JSON is read again: numbers keep their spelling, and
malformed bytes of texts are replaced.
-/

mutual

/-- The value that written data is read as. -/
def decoded : Data → Value
  | .null => .null
  | .bool value => .bool value
  | .int value => .number (Text.ofInt value)
  | .text value => .text (repaired value)
  | .list items => .list (decodedItems items)
  | .record fields => .record (decodedFields fields)

def decodedItems : List Data → List Value
  | [] => []
  | item :: items => decoded item :: decodedItems items

def decodedFields : List (Text × Data) → List (Text × Value)
  | [] => []
  | (name, value) :: fields => (repaired name, decoded value) :: decodedFields fields

end

mutual

/-- How deep brackets are nested. -/
def depth : Data → Nat
  | .list items => depthItems items + 1
  | .record fields => depthFields fields + 1
  | _ => 0

def depthItems : List Data → Nat
  | [] => 0
  | item :: items => max (depth item) (depthItems items)

def depthFields : List (Text × Data) → Nat
  | [] => 0
  | (_, value) :: fields => max (depth value) (depthFields fields)

end

/-- The text ends here, or an item or a bracket does. -/
def Delimits (rest : Text) : Prop :=
  ∀ b ∈ rest.head?, b = 44 ∨ b = 93 ∨ b = 125

section Numbers

variable {rest : Text}

theorem Delimits.startsWith (delimits : Delimits rest) {accepts : UInt8 → Bool}
    (comma : accepts 44 = false) (bracket : accepts 93 = false) (brace : accepts 125 = false) :
    Text.startsWith accepts rest = false := by
  cases rest with
  | nil => rfl
  | cons b rest =>
      rcases delimits b rfl with rfl | rfl | rfl
      · exact comma
      · exact bracket
      · exact brace

/-- Only zero has a zero in front. -/
theorem head_ofNat (value : Nat) :
    ∃ first others, Text.ofNat value = first :: others ∧ (first = 48 → value = 0) := by
  fun_induction Text.ofNat value with
  | case1 value small =>
      have checked : ∀ value : Fin 10, Text.digit value = 48 → value.val = 0 := by decide
      exact ⟨_, [], rfl, checked ⟨value, small⟩⟩
  | case2 value large inductionHypothesis =>
      obtain ⟨first, others, whole, zero⟩ := inductionHypothesis
      refine ⟨first, others ++ [Text.digit (value % 10)], by rw [whole]; rfl, fun same => ?_⟩
      have := zero same
      omega

theorem whole?_ofNat (value : Nat) (delimits : Delimits rest) :
    whole? (Text.ofNat value ++ rest) = some (Text.ofNat value, rest) := by
  obtain ⟨nonempty, all⟩ := Text.isNumeral_ofNat value
  have ends := delimits.startsWith (by decide : Text.isDigit 44 = false) (by decide) (by decide)
  obtain ⟨first, others, whole, zero⟩ := head_ofNat value
  by_cases isZero : first = 48
  · have spelled : Text.ofNat 0 = [48] := by
      rw [Text.ofNat]
      rfl
    rw [zero isZero, spelled]
    rfl
  · have digits : whole? (Text.ofNat value ++ rest) = digits? (Text.ofNat value ++ rest) := by
      rw [whole, List.cons_append, whole?]
      rintro _ ⟨⟩
      exact isZero rfl
    rw [digits, digits?, Scanner.takeWhile_run all ends, Scanner.dropWhile_run all ends]
    simp [nonempty]

theorem fraction?_of_delimits (delimits : Delimits rest) : fraction? rest = some ([], rest) := by
  unfold fraction?
  split
  · rcases delimits 46 rfl with same | same | same <;> contradiction
  · rfl

theorem exponent?_of_delimits (delimits : Delimits rest) : exponent? rest = some ([], rest) := by
  cases rest with
  | nil => rfl
  | cons b rest => rcases delimits b rfl with rfl | rfl | rfl <;> rfl

theorem number?_ofInt (value : Int) (delimits : Delimits rest) :
    number? (Text.ofInt value ++ rest) = some (Text.ofInt value, rest) := by
  have fraction := fraction?_of_delimits delimits
  have exponent := exponent?_of_delimits delimits
  cases value with
  | ofNat value =>
      have read := whole?_ofNat value delimits
      obtain ⟨first, others, whole, _⟩ := head_ofNat value
      have noSign : first ≠ 45 := by
        rintro rfl
        have digit := (Text.isNumeral_ofNat value).2 45 (by simp [whole])
        exact absurd digit (by decide)
      change number? (Text.ofNat value ++ rest) = some (Text.ofNat value, rest)
      rw [whole, List.cons_append] at read ⊢
      unfold number?
      split
      next sign text same =>
      split at same
      · next found =>
          cases found
          contradiction
      · cases same
        simp [read, fraction, exponent]
  | negSucc value =>
      have read := whole?_ofNat (value + 1) delimits
      change number? (45 :: (Text.ofNat (value + 1) ++ rest)) =
        some (45 :: Text.ofNat (value + 1), rest)
      simp [number?, read, fraction, exponent]

end Numbers

section Values

variable {rest : Text}

theorem skipSpaces_cons {b : UInt8} (solid : isSpace b = false) (rest : Text) :
    skipSpaces (b :: rest) = b :: rest :=
  List.dropWhile_cons_of_neg (by simp [solid])

theorem utf8_null : utf8 "null" = [110, 117, 108, 108] := by decide

theorem utf8_true : utf8 "true" = [116, 114, 117, 101] := by decide

theorem utf8_false : utf8 "false" = [102, 97, 108, 115, 101] := by decide

/-- A number starts with a digit or a minus. -/
theorem head_ofInt (value : Int) :
    ∃ first others, Text.ofInt value = first :: others ∧ 45 ≤ first.toNat ∧ first.toNat ≤ 57 := by
  cases value with
  | ofNat value =>
      obtain ⟨first, others, whole, _⟩ := head_ofNat value
      have digit := (Text.isNumeral_ofNat value).2 first (by simp [whole])
      simp only [Text.isDigit, Bool.and_eq_true, decide_eq_true_eq, UInt8.le_iff_toNat_le] at digit
      exact ⟨first, others, whole, Nat.le_trans (by decide) digit.1, digit.2⟩
  | negSucc value => exact ⟨45, Text.ofNat (value + 1), rfl, by decide, by decide⟩

/-- What written data starts with is neither a space nor the end of a list or record. -/
theorem head_compact (data : Data) :
    ∃ first others, compact data = first :: others ∧ isSpace first = false ∧ first ≠ 93 ∧
      first ≠ 125 := by
  cases data with
  | null => exact ⟨_, _, utf8_null, by decide⟩
  | bool value =>
      cases value with
      | false => exact ⟨_, _, utf8_false, by decide⟩
      | true => exact ⟨_, _, utf8_true, by decide⟩
  | int value =>
      obtain ⟨first, others, whole, least, greatest⟩ := head_ofInt value
      refine ⟨first, others, whole, ?_⟩
      simp only [isSpace, Bool.or_eq_false_iff, beq_eq_false_iff_ne, ne_eq, ← UInt8.toNat_inj]
      simp
      omega
  | text value => exact ⟨34, _, rfl, by decide⟩
  | list items => exact ⟨91, _, rfl, by decide⟩
  | record fields => exact ⟨123, _, rfl, by decide⟩

theorem value?_ofInt (room fuel : Nat) (value : Int) (delimits : Delimits rest) :
    value? room (fuel + 1) (Text.ofInt value ++ rest) =
      some (.number (Text.ofInt value), rest) := by
  have read := number?_ofInt value delimits
  obtain ⟨first, others, whole, least, greatest⟩ := head_ofInt value
  have differs {b : UInt8} (beyond : b.toNat < 45 ∨ 57 < b.toNat) : first ≠ b := by
    rintro rfl
    omega
  rw [whole] at read ⊢
  rw [value?]
  · have noWord (b : UInt8) (word : Text) (beyond : 57 < b.toNat) :
        Text.hasPrefix (b :: word) (first :: others ++ rest) = false := by
      simp [Text.hasPrefix, List.isPrefixOf, (differs (.inr beyond)).symm]
    rw [utf8_null, utf8_true, utf8_false, noWord _ _ (by decide), noWord _ _ (by decide),
      noWord _ _ (by decide), read]
    rfl
  all_goals
    rintro _ ⟨⟩
    exact absurd rfl (differs (by decide))

theorem value?_null (room fuel : Nat) (rest : Text) :
    value? room (fuel + 1) (utf8 "null" ++ rest) = some (.null, rest) := by
  rw [utf8_null, value?]
  · rw [utf8_null]
    rfl
  all_goals nofun

theorem value?_bool (room fuel : Nat) (value : Bool) (rest : Text) :
    value? room (fuel + 1) (bool value ++ rest) = some (.bool value, rest) := by
  cases value with
  | false =>
      change value? room (fuel + 1) (utf8 "false" ++ rest) = _
      rw [utf8_false, value?]
      · rw [utf8_null, utf8_true, utf8_false]
        rfl
      all_goals nofun
  | true =>
      change value? room (fuel + 1) (utf8 "true" ++ rest) = _
      rw [utf8_true, value?]
      · rw [utf8_null, utf8_true]
        rfl
      all_goals nofun

/-- A string with its quotes. -/
theorem string_append (text rest : Text) :
    string text ++ rest = 34 :: (text.chars.flatMap escapeChar ++ 34 :: rest) := by
  have quote : utf8 "\"" = [34] := by decide
  simp [string, quote]

theorem value?_string (room fuel : Nat) (text rest : Text) :
    value? room (fuel + 1) (string text ++ rest) = some (.text (repaired text), rest) := by
  rw [string_append, value?, string?_string]
  rfl

theorem utf8_comma : utf8 "," = [44] := by decide

theorem join_cons (part : Text) {parts : List Text} (nonempty : parts ≠ []) :
    Text.join (utf8 ",") (part :: parts) = part ++ 44 :: Text.join (utf8 ",") parts := by
  simp [Text.join_cons _ part nonempty, utf8_comma]

theorem compactItems_ne_nil {items : List Data} (nonempty : items ≠ []) :
    compactItems items ≠ [] := by
  cases items with
  | nil => contradiction
  | cons item items => exact List.cons_ne_nil _ _

theorem compactFields_ne_nil {fields : List (Text × Data)} (nonempty : fields ≠ []) :
    compactFields fields ≠ [] := by
  cases fields with
  | nil => contradiction
  | cons field fields => exact List.cons_ne_nil _ _

theorem head_join {part : Text} (parts : List Text) {first : UInt8} {others : Text}
    (whole : part = first :: others) :
    ∃ others, Text.join (utf8 ",") (part :: parts) = first :: others := by
  cases parts with
  | nil => exact ⟨others, by rw [Text.join_singleton, whole]⟩
  | cons next parts =>
      rw [join_cons part (List.cons_ne_nil next parts), whole]
      exact ⟨_, rfl⟩

theorem head_items {items : List Data} (nonempty : items ≠ []) :
    ∃ first others, Text.join (utf8 ",") (compactItems items) = first :: others ∧
      isSpace first = false ∧ first ≠ 93 ∧ first ≠ 125 := by
  cases items with
  | nil => contradiction
  | cons item items =>
      obtain ⟨first, others, whole, starts⟩ := head_compact item
      obtain ⟨behind, joined⟩ := head_join (compactItems items) whole
      exact ⟨first, behind, joined, starts⟩

theorem compact_list (items : List Data) :
    compact (.list items) = 91 :: (Text.join (utf8 ",") (compactItems items) ++ [93]) := by
  have opening : utf8 "[" = [91] := by decide
  have closing : utf8 "]" = [93] := by decide
  rw [compact, opening, closing]
  rfl

theorem compact_record (fields : List (Text × Data)) :
    compact (.record fields) = 123 :: (Text.join (utf8 ",") (compactFields fields) ++ [125]) := by
  have opening : utf8 "\x7b" = [123] := by decide
  have closing : utf8 "\x7d" = [125] := by decide
  rw [compact, opening, closing]
  rfl

/-- A field as it is written. -/
def compactField (name : Text) (value : Data) : Text :=
  string name ++ utf8 ":" ++ compact value

theorem compactField_append (name : Text) (value : Data) (behind : Text) :
    compactField name value ++ behind =
      34 :: (name.chars.flatMap escapeChar ++ 34 :: 58 :: (compact value ++ behind)) := by
  have colon : utf8 ":" = [58] := by decide
  rw [compactField, colon, List.append_assoc, List.append_assoc, string_append]
  rfl

theorem compactFields_cons (name : Text) (value : Data) (fields : List (Text × Data)) :
    compactFields ((name, value) :: fields) = compactField name value :: compactFields fields := by
  rw [compactFields, compactField]

theorem skipSpaces_compact (value : Data) (behind : Text) :
    skipSpaces (compact value ++ behind) = compact value ++ behind := by
  obtain ⟨first, others, whole, solid, _⟩ := head_compact value
  rw [whole]
  exact skipSpaces_cons solid _

section Fields

variable {room fuel : Nat} (name : Text) {value : Data} {rest : Text}

theorem fields?_last
    (read : value? room fuel (compact value ++ 125 :: rest) = some (decoded value, 125 :: rest)) :
    fields? room (fuel + 1) (compactField name value ++ 125 :: rest) =
      some ([(repaired name, decoded value)], rest) := by
  simp only [compactField_append, fields?, skipSpaces_cons (by decide : isSpace 34 = false),
    string?_string, Option.bind_eq_bind, Option.bind_some,
    skipSpaces_cons (by decide : isSpace 58 = false), skipSpaces_compact, read,
    skipSpaces_cons (by decide : isSpace 125 = false)]

theorem fields?_more {more : Text} {fields : List (Text × Value)}
    (read : value? room fuel (compact value ++ 44 :: more) = some (decoded value, 44 :: more))
    (readMore : fields? room fuel more = some (fields, rest)) :
    fields? room (fuel + 1) (compactField name value ++ 44 :: more) =
      some ((repaired name, decoded value) :: fields, rest) := by
  simp only [compactField_append, fields?, skipSpaces_cons (by decide : isSpace 34 = false),
    string?_string, Option.bind_eq_bind, Option.bind_some,
    skipSpaces_cons (by decide : isSpace 58 = false), skipSpaces_compact, read,
    skipSpaces_cons (by decide : isSpace 44 = false), readMore]

end Fields

section Items

variable {room fuel : Nat} {item : Data} {rest : Text}

theorem items?_last
    (read : value? room fuel (compact item ++ 93 :: rest) = some (decoded item, 93 :: rest)) :
    items? room (fuel + 1) (compact item ++ 93 :: rest) = some ([decoded item], rest) := by
  simp only [items?, skipSpaces_compact, read, Option.bind_eq_bind, Option.bind_some,
    skipSpaces_cons (by decide : isSpace 93 = false)]

theorem items?_more {more : Text} {items : List Value}
    (read : value? room fuel (compact item ++ 44 :: more) = some (decoded item, 44 :: more))
    (readMore : items? room fuel more = some (items, rest)) :
    items? room (fuel + 1) (compact item ++ 44 :: more) = some (decoded item :: items, rest) := by
  simp only [items?, skipSpaces_compact, read, Option.bind_eq_bind, Option.bind_some,
    skipSpaces_cons (by decide : isSpace 44 = false), readMore]

end Items

theorem head_fields {fields : List (Text × Data)} (nonempty : fields ≠ []) :
    ∃ others, Text.join (utf8 ",") (compactFields fields) = 34 :: others := by
  match fields with
  | [] => contradiction
  | (name, value) :: fields =>
      rw [compactFields_cons]
      have whole := compactField_append name value []
      rw [List.append_nil] at whole
      exact head_join _ whole

theorem value?_list {room fuel : Nat} {first : UInt8} {others rest : Text} {items : List Value}
    (solid : isSpace first = false) (noEnd : first ≠ 93)
    (read : items? room fuel (first :: others) = some (items, rest)) :
    value? (room + 1) (fuel + 1) (91 :: first :: others) = some (.list items, rest) := by
  rw [value?, skipSpaces_cons solid]
  split
  · next same =>
      cases same
      contradiction
  · rw [read]
    rfl

theorem value?_record {room fuel : Nat} {others rest : Text} {fields : List (Text × Value)}
    (read : fields? room fuel (34 :: others) = some (fields, rest)) :
    value? (room + 1) (fuel + 1) (123 :: 34 :: others) = some (.record fields, rest) := by
  rw [value?, skipSpaces_cons (by decide)]
  simp [read]

theorem Delimits.comma (rest : Text) : Delimits (44 :: rest) := by
  rintro _ ⟨⟩
  exact .inl rfl

theorem Delimits.bracket (rest : Text) : Delimits (93 :: rest) := by
  rintro _ ⟨⟩
  exact .inr (.inl rfl)

theorem Delimits.brace (rest : Text) : Delimits (125 :: rest) := by
  rintro _ ⟨⟩
  exact .inr (.inr rfl)

mutual

-- A value is read with as much fuel as it has bytes. Items and fields take one more, which they use
-- up before they come to their first value.
/-- Written data is read in front of whatever may follow it. -/
theorem value?_compact : ∀ (data : Data) {room fuel : Nat} {rest : Text}, depth data ≤ room →
    (compact data).length ≤ fuel → Delimits rest →
    value? room fuel (compact data ++ rest) = some (decoded data, rest)
  | data, room, 0, rest, _, enough, _ => by
      obtain ⟨first, others, whole, _⟩ := head_compact data
      simp [whole] at enough
  | .null, room, fuel + 1, rest, _, _, _ => value?_null room fuel rest
  | .bool value, room, fuel + 1, rest, _, _, _ => value?_bool room fuel value rest
  | .int value, room, fuel + 1, rest, _, _, delimits => value?_ofInt room fuel value delimits
  | .text value, room, fuel + 1, rest, _, _, _ => value?_string room fuel value rest
  | .list items, 0, fuel + 1, rest, deep, _, _ => by simp [depth] at deep
  | .record fields, 0, fuel + 1, rest, deep, _, _ => by simp [depth] at deep
  | .list items, room + 1, fuel + 1, rest, deep, enough, _ => by
      rw [compact_list, List.length_cons, List.length_append, List.length_singleton] at enough
      rw [compact_list, List.cons_append, List.append_assoc, List.singleton_append]
      by_cases empty : items = []
      · subst empty
        rw [compactItems, value?]
        rfl
      · have read : items? room fuel (Text.join (utf8 ",") (compactItems items) ++ 93 :: rest) =
            some (decodedItems items, rest) :=
          items?_compact items empty (Nat.le_of_succ_le_succ deep) (by omega)
        obtain ⟨first, others, whole, solid, noEnd, _⟩ := head_items empty
        rw [whole] at read ⊢
        exact value?_list solid noEnd read
  | .record fields, room + 1, fuel + 1, rest, deep, enough, _ => by
      rw [compact_record, List.length_cons, List.length_append, List.length_singleton] at enough
      rw [compact_record, List.cons_append, List.append_assoc, List.singleton_append]
      by_cases empty : fields = []
      · subst empty
        rw [compactFields, value?]
        rfl
      · have read : fields? room fuel (Text.join (utf8 ",") (compactFields fields) ++ 125 :: rest) =
            some (decodedFields fields, rest) :=
          fields?_compact fields empty (Nat.le_of_succ_le_succ deep) (by omega)
        obtain ⟨others, whole⟩ := head_fields empty
        rw [whole] at read ⊢
        exact value?_record read

theorem items?_compact : ∀ (items : List Data) {room fuel : Nat} {rest : Text}, items ≠ [] →
    depthItems items ≤ room → (Text.join (utf8 ",") (compactItems items)).length < fuel →
    items? room fuel (Text.join (utf8 ",") (compactItems items) ++ 93 :: rest) =
      some (decodedItems items, rest)
  | [], _, _, _, nonempty, _, _ => absurd rfl nonempty
  | item :: items, room, 0, rest, _, _, enough => absurd enough (Nat.not_lt_zero _)
  | item :: items, room, fuel + 1, rest, _, deep, enough => by
      have itemDeep : depth item ≤ room := Nat.le_trans (Nat.le_max_left ..) deep
      have itemsDeep : depthItems items ≤ room := Nat.le_trans (Nat.le_max_right ..) deep
      rw [compactItems] at enough ⊢
      by_cases last : items = []
      · subst last
        rw [compactItems, Text.join_singleton] at enough ⊢
        exact items?_last (value?_compact item itemDeep (by omega) (.bracket rest))
      · rw [join_cons _ (compactItems_ne_nil last)] at enough ⊢
        rw [List.length_append, List.length_cons] at enough
        rw [List.append_assoc]
        exact items?_more (value?_compact item itemDeep (by omega) (.comma _))
          (items?_compact items last itemsDeep (by omega))

theorem fields?_compact : ∀ (fields : List (Text × Data)) {room fuel : Nat} {rest : Text},
    fields ≠ [] → depthFields fields ≤ room →
    (Text.join (utf8 ",") (compactFields fields)).length < fuel →
    fields? room fuel (Text.join (utf8 ",") (compactFields fields) ++ 125 :: rest) =
      some (decodedFields fields, rest)
  | [], _, _, _, nonempty, _, _ => absurd rfl nonempty
  | field :: fields, room, 0, rest, _, _, enough => absurd enough (Nat.not_lt_zero _)
  | (name, value) :: fields, room, fuel + 1, rest, _, deep, enough => by
      have valueDeep : depth value ≤ room := Nat.le_trans (Nat.le_max_left ..) deep
      have fieldsDeep : depthFields fields ≤ room := Nat.le_trans (Nat.le_max_right ..) deep
      have shorter : (compact value).length ≤ (compactField name value).length := by
        rw [compactField, List.length_append]
        omega
      rw [compactFields_cons] at enough ⊢
      by_cases last : fields = []
      · subst last
        rw [compactFields, Text.join_singleton] at enough ⊢
        exact fields?_last name (value?_compact value valueDeep (by omega) (.brace rest))
      · rw [join_cons _ (compactFields_ne_nil last)] at enough ⊢
        rw [List.length_append, List.length_cons] at enough
        rw [List.append_assoc]
        exact fields?_more name (value?_compact value valueDeep (by omega) (.comma _))
          (fields?_compact fields last fieldsDeep (by omega))

end

/-- What is written is read again. -/
theorem read?_compact {data : Data} (deep : depth data ≤ maxDepth) :
    read? (compact data) = some (decoded data) := by
  have delimits : Delimits [] := nofun
  have read := value?_compact data deep (Nat.le_succ _) delimits
  have skipped := skipSpaces_compact data []
  rw [List.append_nil] at read skipped
  rw [read?, skipped, read]
  rfl

end Values

theorem string_visible (text : Text) : ∀ b ∈ string text, 32 ≤ b.toNat := by
  have whole := string_append text []
  rw [List.append_nil] at whole
  rw [whole, List.forall_mem_cons, List.forall_mem_append]
  exact ⟨by decide, (Escapes.characters text.chars).visible, visible_of_all (by decide)⟩

theorem ofInt_visible (value : Int) : ∀ b ∈ Text.ofInt value, 32 ≤ b.toNat := by
  have digits (value : Nat) : ∀ b ∈ Text.ofNat value, 32 ≤ b.toNat := by
    intro b member
    have digit := (Text.isNumeral_ofNat value).2 b member
    simp only [Text.isDigit, Bool.and_eq_true, decide_eq_true_eq, UInt8.le_iff_toNat_le] at digit
    exact Nat.le_trans (by decide) digit.1
  cases value with
  | ofNat value => exact digits value
  | negSucc value => exact List.forall_mem_cons.mpr ⟨by decide, digits (value + 1)⟩

theorem join_visible {parts : List Text} (visible : ∀ part ∈ parts, ∀ b ∈ part, 32 ≤ b.toNat) :
    ∀ b ∈ Text.join (utf8 ",") parts, 32 ≤ b.toNat := by
  induction parts with
  | nil => exact nofun
  | cons part parts inductionHypothesis =>
      rw [List.forall_mem_cons] at visible
      by_cases last : parts = []
      · rw [last, Text.join_singleton]
        exact visible.1
      · rw [join_cons part last, List.forall_mem_append, List.forall_mem_cons]
        exact ⟨visible.1, by decide, inductionHypothesis visible.2⟩

mutual

/-- Written data has no control characters, so it is a single line. -/
theorem compact_visible : ∀ data : Data, ∀ b ∈ compact data, 32 ≤ b.toNat
  | .null => by
      rw [compact, utf8_null]
      exact visible_of_all (by decide)
  | .bool true => by
      change ∀ b ∈ utf8 "true", 32 ≤ b.toNat
      rw [utf8_true]
      exact visible_of_all (by decide)
  | .bool false => by
      change ∀ b ∈ utf8 "false", 32 ≤ b.toNat
      rw [utf8_false]
      exact visible_of_all (by decide)
  | .int value => ofInt_visible value
  | .text value => string_visible value
  | .list items => by
      rw [compact_list, List.forall_mem_cons, List.forall_mem_append]
      exact ⟨by decide, join_visible (compactItems_visible items), visible_of_all (by decide)⟩
  | .record fields => by
      rw [compact_record, List.forall_mem_cons, List.forall_mem_append]
      exact ⟨by decide, join_visible (compactFields_visible fields), visible_of_all (by decide)⟩

theorem compactItems_visible : ∀ items : List Data,
    ∀ part ∈ compactItems items, ∀ b ∈ part, 32 ≤ b.toNat
  | [] => nofun
  | item :: items =>
      List.forall_mem_cons.mpr ⟨compact_visible item, compactItems_visible items⟩

theorem compactFields_visible : ∀ fields : List (Text × Data),
    ∀ part ∈ compactFields fields, ∀ b ∈ part, 32 ≤ b.toNat
  | [] => nofun
  | (name, value) :: fields => by
      have colon : utf8 ":" = [58] := by decide
      have valueVisible := compact_visible value
      rw [compactFields_cons, List.forall_mem_cons, compactField, colon]
      refine ⟨?_, compactFields_visible fields⟩
      rw [List.forall_mem_append, List.forall_mem_append]
      exact ⟨⟨string_visible name, visible_of_all (by decide)⟩, valueVisible⟩

end

end Parlance.Json
