import Parlance.Text.Unicode

namespace Parlance.Text

/-!
Characters and their bytes. The bytes of characters are read as these characters
again, so a text that has once been read as characters is well-formed from then on.
-/

section Sequences

variable {a b c d : UInt8} (rest : Text)

theorem isContinuation_iff : isContinuation b = true ↔ 128 ≤ b.toNat ∧ b.toNat ≤ 191 := by
  simp [isContinuation, UInt8.le_iff_toNat_le]

theorem sequence?_one (small : a.toNat < 128) : sequence? (a :: rest) = some (a.toNat, 1) := by
  have isOne : a < 0x80 := UInt8.lt_iff_toNat_lt.mpr small
  simp [sequence?, isOne]

theorem sequence?_two (least : 194 ≤ a.toNat) (greatest : a.toNat ≤ 223)
    (second : isContinuation b = true) :
    sequence? (a :: b :: rest) = some (a.toNat % 32 * 64 + b.toNat % 64, 2) := by
  have notOne : ¬ a < 0x80 := by
    simp [UInt8.le_iff_toNat_le]
    omega
  have isTwo : (0xC2 ≤ a && a ≤ 0xDF) = true := by
    simp [UInt8.le_iff_toNat_le]
    omega
  simp [sequence?, notOne, isTwo, second]

theorem sequence?_three (least : 224 ≤ a.toNat) (greatest : a.toNat ≤ 239)
    (second : isContinuation b = true) (third : isContinuation c = true)
    (shortest : a.toNat = 224 → 160 ≤ b.toNat) (noSurrogate : a.toNat = 237 → b.toNat ≤ 159) :
    sequence? (a :: b :: c :: rest) =
      some (a.toNat % 16 * 4096 + b.toNat % 64 * 64 + c.toNat % 64, 3) := by
  have notOne : ¬ a < 0x80 := by
    simp [UInt8.le_iff_toNat_le]
    omega
  have notTwo : (0xC2 ≤ a && a ≤ 0xDF) = false := by
    simp [UInt8.le_iff_toNat_le]
    omega
  have isThree : (0xE0 ≤ a && a ≤ 0xEF) = true := by
    simp [UInt8.le_iff_toNat_le]
    omega
  have first : (a != 0xE0 || 0xA0 ≤ b) = true := by
    simp [UInt8.le_iff_toNat_le, ← UInt8.toNat_inj]
    omega
  have first' : (a != 0xED || b ≤ 0x9F) = true := by
    simp [UInt8.le_iff_toNat_le, ← UInt8.toNat_inj]
    omega
  simp only [sequence?, notOne, notTwo, isThree, second, third, first, first']
  rfl

theorem sequence?_four (least : 240 ≤ a.toNat) (greatest : a.toNat ≤ 244)
    (second : isContinuation b = true) (third : isContinuation c = true)
    (fourth : isContinuation d = true)
    (shortest : a.toNat = 240 → 144 ≤ b.toNat) (inRange : a.toNat = 244 → b.toNat ≤ 143) :
    sequence? (a :: b :: c :: d :: rest) =
      some (a.toNat % 8 * 262144 + b.toNat % 64 * 4096 + c.toNat % 64 * 64 + d.toNat % 64, 4) := by
  have notOne : ¬ a < 0x80 := by
    simp [UInt8.le_iff_toNat_le]
    omega
  have notTwo : (0xC2 ≤ a && a ≤ 0xDF) = false := by
    simp [UInt8.le_iff_toNat_le]
    omega
  have notThree : (0xE0 ≤ a && a ≤ 0xEF) = false := by
    simp [UInt8.le_iff_toNat_le]
    omega
  have isFour : (0xF0 ≤ a && a ≤ 0xF4) = true := by
    simp [UInt8.le_iff_toNat_le]
    omega
  have first : (a != 0xF0 || 0x90 ≤ b) = true := by
    simp [UInt8.le_iff_toNat_le, ← UInt8.toNat_inj]
    omega
  have first' : (a != 0xF4 || b ≤ 0x8F) = true := by
    simp [UInt8.le_iff_toNat_le, ← UInt8.toNat_inj]
    omega
  simp only [sequence?, notOne, notTwo, notThree, isFour, second, third, fourth, first, first']
  rfl

end Sequences

/-- A byte that goes on with no character completes none. -/
theorem sequence?_stop {stop : UInt8} (stops : isContinuation stop = false) {text : Text}
    (nonempty : text ≠ []) (more : Text) :
    sequence? (text ++ stop :: more) = sequence? text := by
  match text, nonempty with
  | [a], _ => cases more with
    | nil => simp [sequence?, stops]
    | cons b more => cases more <;> simp [sequence?, stops]
  | [a, b], _ => cases more with
    | nil => simp [sequence?, stops]
    | cons c more => simp [sequence?, stops]
  | [a, b, c], _ => simp [sequence?, stops]
  | a :: b :: c :: d :: rest, _ => rfl

/-- A character lies within the text. -/
theorem charWidth_le {text : Text} (nonempty : text ≠ []) : charWidth text ≤ text.length := by
  unfold charWidth
  match text, nonempty with
  | a :: rest, _ =>
    unfold sequence?
    split
    · next code width found =>
        repeat' split at found
        all_goals simp_all
        all_goals omega
    · simp

section Bytes

variable {character : Char}

theorem toNat_byte {value : Nat} (small : value < 256) : (UInt8.ofNat value).toNat = value :=
  UInt8.toNat_ofNat_of_lt small

theorem encode_of_ascii (ascii : character.toNat < 128) :
    encode character = [UInt8.ofNat character.toNat] := by
  have one : character.val.toNat ≤ 127 := Nat.le_of_lt_succ ascii
  simp only [encode, String.utf8EncodeChar, if_pos one]
  rfl

theorem isContinuation_trailing (value : Nat) :
    isContinuation (UInt8.ofNat (value % 64 + 128)) = true := by
  rw [isContinuation_iff, toNat_byte (by omega)]
  omega

/-- The sequence at the front of a character's bytes is the character. -/
theorem sequence?_encode (character : Char) (rest : Text) :
    sequence? (encode character ++ rest) = some (character.toNat, (encode character).length) := by
  have valid : character.toNat < 0xD800 ∨ 0xDFFF < character.toNat ∧ character.toNat < 0x110000 :=
    character.valid
  have same : character.val.toNat = character.toNat := rfl
  simp only [encode, String.utf8EncodeChar, same]
  generalize character.toNat = code at *
  have trailing (value : Nat) : (UInt8.ofNat (value % 64 + 128)).toNat = value % 64 + 128 :=
    toNat_byte (by omega)
  split
  · rw [List.singleton_append, sequence?_one rest (by rw [toNat_byte] <;> omega),
      toNat_byte (by omega)]
    rfl
  · split
    · have lead := toNat_byte (by omega : code / 64 % 32 + 192 < 256)
      refine (sequence?_two rest (by omega) (by omega) (isContinuation_trailing _)).trans ?_
      simp only [lead, trailing, List.length_cons, List.length_nil]
      congr 2
      omega
    · split
      · have lead := toNat_byte (by omega : code / 4096 % 16 + 224 < 256)
        refine (sequence?_three rest (by omega) (by omega) (isContinuation_trailing _)
          (isContinuation_trailing _) ?_ ?_).trans ?_
        · rw [lead, trailing]
          omega
        · rw [lead, trailing]
          omega
        · simp only [lead, trailing, List.length_cons, List.length_nil]
          congr 2
          omega
      · have lead := toNat_byte (by omega : code / 262144 % 8 + 240 < 256)
        refine (sequence?_four rest (by omega) (by omega) (isContinuation_trailing _)
          (isContinuation_trailing _) (isContinuation_trailing _) ?_ ?_).trans ?_
        · rw [lead, trailing]
          omega
        · rw [lead, trailing]
          omega
        · simp only [lead, trailing, List.length_cons, List.length_nil]
          congr 2
          omega

/-- No byte of a character outside ASCII is an ASCII byte. -/
theorem le_of_mem_encode (beyond : 128 ≤ character.toNat) :
    ∀ b ∈ encode character, 128 ≤ b.toNat := by
  have same : character.val.toNat = character.toNat := rfl
  have byte (value : Nat) (high : 128 ≤ value % 256) : 128 ≤ (UInt8.ofNat value).toNat := by
    rwa [UInt8.toNat_ofNat']
  simp only [encode, String.utf8EncodeChar, same]
  intro b member
  repeat' split at member
  · omega
  all_goals
    simp only [List.mem_cons, List.not_mem_nil, or_false] at member
    rcases member with rfl | rfl | rfl | rfl
  all_goals exact byte _ (by omega)

theorem encode_ne_nil (character : Char) : encode character ≠ [] := by
  unfold encode String.utf8EncodeChar
  dsimp only
  repeat' split
  all_goals exact List.cons_ne_nil _ _

end Bytes

theorem charsFrom_skip (front rest : Text) :
    charsFrom front.length (front ++ rest) = charsFrom 0 rest := by
  induction front with
  | nil => rfl
  | cons b front inductionHypothesis => exact inductionHypothesis

theorem chars_encode_append (character : Char) (rest : Text) :
    chars (encode character ++ rest) = character :: chars rest := by
  have found := sequence?_encode character rest
  cases bytes : encode character with
  | nil => exact absurd bytes (encode_ne_nil character)
  | cons b others =>
      rw [bytes] at found
      simp only [chars, List.cons_append, charsFrom, List.cons_append ▸ found, List.length_cons]
      rw [Nat.add_sub_cancel, charsFrom_skip, Char.ofNat_toNat]

theorem chars_ofChars (characters : List Char) : chars (ofChars characters) = characters := by
  induction characters with
  | nil => rfl
  | cons character characters inductionHypothesis =>
      rw [ofChars, List.flatMap_cons, chars_encode_append]
      exact congrArg (character :: ·) inductionHypothesis

theorem ofChars_toList (string : String) : ofChars string.toList = utf8 string := by
  rw [utf8, String.toUTF8, ← String.utf8Encode_toList, List.utf8Encode,
    List.toList_data_toByteArray]
  rfl

theorem val_ofNat {code : Nat} (valid : code < 0xD800 ∨ 0xDFFF < code ∧ code < 0x110000) :
    (Char.ofNat code).val.toNat = code := by
  have isValid : code.isValidChar := valid
  rw [Char.ofNat, dif_pos isValid]
  rfl

theorem byte_eq {value : Nat} {b : UInt8} (same : value = b.toNat) : UInt8.ofNat value = b := by
  rw [same, UInt8.ofNat_toNat]

section Decoded

variable {a b c d : UInt8}

theorem encode_one (small : a.toNat < 128) : encode (Char.ofNat a.toNat) = [a] := by
  unfold encode String.utf8EncodeChar
  rw [val_ofNat (by omega)]
  dsimp only
  rw [if_pos (by omega), byte_eq rfl]

theorem encode_two (lead : 194 ≤ a.toNat ∧ a.toNat ≤ 223)
    (second : 128 ≤ b.toNat ∧ b.toNat ≤ 191) :
    encode (Char.ofNat (a.toNat % 32 * 64 + b.toNat % 64)) = [a, b] := by
  unfold encode String.utf8EncodeChar
  rw [val_ofNat (by omega)]
  dsimp only
  rw [if_neg (by omega), if_pos (by omega)]
  simp only [List.cons.injEq, and_true]
  exact ⟨byte_eq (by omega), byte_eq (by omega)⟩

theorem encode_three (lead : 224 ≤ a.toNat ∧ a.toNat ≤ 239)
    (second : 128 ≤ b.toNat ∧ b.toNat ≤ 191) (third : 128 ≤ c.toNat ∧ c.toNat ≤ 191)
    (shortest : ¬ a.toNat = 224 ∨ 160 ≤ b.toNat)
    (noSurrogate : ¬ a.toNat = 237 ∨ b.toNat ≤ 159) :
    encode (Char.ofNat (a.toNat % 16 * 4096 + b.toNat % 64 * 64 + c.toNat % 64)) = [a, b, c] := by
  unfold encode String.utf8EncodeChar
  rw [val_ofNat (by omega)]
  dsimp only
  rw [if_neg (by omega), if_neg (by omega), if_pos (by omega)]
  simp only [List.cons.injEq, and_true]
  exact ⟨byte_eq (by omega), byte_eq (by omega), byte_eq (by omega)⟩

theorem encode_four (lead : 240 ≤ a.toNat ∧ a.toNat ≤ 244)
    (second : 128 ≤ b.toNat ∧ b.toNat ≤ 191) (third : 128 ≤ c.toNat ∧ c.toNat ≤ 191)
    (fourth : 128 ≤ d.toNat ∧ d.toNat ≤ 191) (shortest : ¬ a.toNat = 240 ∨ 144 ≤ b.toNat)
    (inRange : ¬ a.toNat = 244 ∨ b.toNat ≤ 143) :
    encode (Char.ofNat
      (a.toNat % 8 * 262144 + b.toNat % 64 * 4096 + c.toNat % 64 * 64 + d.toNat % 64)) =
      [a, b, c, d] := by
  unfold encode String.utf8EncodeChar
  rw [val_ofNat (by omega)]
  dsimp only
  rw [if_neg (by omega), if_neg (by omega), if_neg (by omega)]
  simp only [List.cons.injEq, and_true]
  exact ⟨byte_eq (by omega), byte_eq (by omega), byte_eq (by omega), byte_eq (by omega)⟩

end Decoded

/-- A sequence is the bytes of its character. -/
theorem encode_of_sequence? {text : Text} {code width : Nat}
    (found : sequence? text = some (code, width)) :
    ∃ last, width = last + 1 ∧ encode (Char.ofNat code) = text.take width := by
  unfold sequence? at found
  simp only [Bool.and_eq_true, Bool.or_eq_true, bne_iff_ne, ne_eq, decide_eq_true_eq,
    isContinuation_iff, UInt8.lt_iff_toNat_lt, UInt8.le_iff_toNat_le, ← UInt8.toNat_inj] at found
  repeat' split at found
  all_goals first | contradiction | cases found
  -- one goal for each width
  · next small => exact ⟨_, rfl, encode_one small⟩
  · next lead _ _ _ second => exact ⟨_, rfl, encode_two lead second⟩
  · next lead _ _ _ _ conditions =>
      obtain ⟨⟨⟨second, third⟩, shortest⟩, noSurrogate⟩ := conditions
      exact ⟨_, rfl, encode_three lead second third shortest noSurrogate⟩
  · next lead _ _ _ _ _ conditions =>
      obtain ⟨⟨⟨⟨second, third⟩, fourth⟩, shortest⟩, inRange⟩ := conditions
      exact ⟨_, rfl, encode_four lead second third fourth shortest inRange⟩

theorem charWidth_pos (text : Text) : 0 < charWidth text := by
  unfold charWidth
  cases found : sequence? text with
  | none => exact Nat.one_pos
  | some sequence =>
      obtain ⟨last, same, -⟩ := encode_of_sequence? found
      simp [same]

/-- A character is still one where the text behind it is gone. -/
theorem firstChar_firstChar {text : Text} (nonempty : text ≠ []) :
    firstChar (firstChar text) = firstChar text := by
  have length : (firstChar text).length = charWidth text := by
    rw [firstChar, List.length_take, Nat.min_eq_left (charWidth_le nonempty)]
  suffices width : charWidth (firstChar text) = charWidth text by
    rw [firstChar, width, ← length, List.take_length]
  cases found : sequence? text with
  | none =>
      -- A malformed byte stands alone.
      have alone : charWidth text = 1 := by simp [charWidth, found]
      have most := charWidth_le (List.ne_nil_of_length_pos (by omega : 0 < (firstChar text).length))
      have least := charWidth_pos (firstChar text)
      omega
  | some sequence =>
      obtain ⟨_, _, bytes⟩ := encode_of_sequence? found
      have read := sequence?_encode (Char.ofNat sequence.1) []
      have width : charWidth text = sequence.2 := by simp [charWidth, found]
      rw [List.append_nil, bytes, ← width, ← firstChar] at read
      rw [charWidth, read, length]

theorem charsFrom_drop (pending : Nat) (text : Text) :
    charsFrom pending text = charsFrom 0 (text.drop pending) := by
  induction text generalizing pending with
  | nil => simp [charsFrom]
  | cons b rest inductionHypothesis =>
      cases pending with
      | zero => rfl
      | succ pending => exact inductionHypothesis pending

theorem isWellFormedFrom_drop (pending : Nat) (text : Text) :
    isWellFormedFrom pending text = isWellFormedFrom 0 (text.drop pending) := by
  induction text generalizing pending with
  | nil => simp [isWellFormedFrom]
  | cons b rest inductionHypothesis =>
      cases pending with
      | zero => rfl
      | succ pending => exact inductionHypothesis pending

/-- A text of characters is the bytes of its characters. -/
theorem ofChars_chars : ∀ text : Text, isWellFormed text = true → ofChars (chars text) = text
  | [], _ => rfl
  | b :: rest, wellFormed => by
      cases found : sequence? (b :: rest) with
      | none => simp [isWellFormed, isWellFormedFrom, found] at wellFormed
      | some sequence =>
          obtain ⟨code, width⟩ := sequence
          obtain ⟨last, rfl, bytes⟩ := encode_of_sequence? found
          simp only [isWellFormed, isWellFormedFrom, found, Nat.add_sub_cancel] at wellFormed
          rw [isWellFormedFrom_drop] at wellFormed
          simp only [chars, charsFrom, found, Nat.add_sub_cancel]
          rw [charsFrom_drop, ofChars, List.flatMap_cons, bytes]
          have behind := ofChars_chars (rest.drop last) wellFormed
          unfold ofChars chars at behind
          rw [behind, List.take_succ_cons, List.cons_append, List.take_append_drop]
termination_by text => text.length
decreasing_by
  rw [List.length_drop, List.length_cons]
  omega

theorem isWellFormed_of_ascii {text : Text} (ascii : ∀ b ∈ text, b.toNat < 128) :
    isWellFormed text = true := by
  induction text with
  | nil => rfl
  | cons b rest inductionHypothesis =>
      rw [List.forall_mem_cons] at ascii
      simp only [isWellFormed, isWellFormedFrom, sequence?_one rest ascii.1]
      exact inductionHypothesis ascii.2

end Parlance.Text
