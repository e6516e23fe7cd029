import ByteMachine.Text.Utf8
import Mathlib.Data.List.Forall2

/-!
# UTF-8 is read exactly

The bytes of a text are those of its characters one after the other, and the bytes of a character
are what `String.utf8EncodeChar` says. The reader takes these bytes back to the text, and takes
nothing else: overlong forms, surrogates and code points above `U+10FFFF` are the bytes of no
character.

Both directions rest on `sequence_iff`: a first byte, the bytes that it announces and the bits
in all of them are the encoding of a character, and every encoding is of this form. Which
ranges the announced bytes lie in is where the encoding is unique, so this is where the
arithmetic is.

## Main results

* `sequence_iff`: the sequences that the reader takes are the encodings of the characters.
* `decode_eq_ok_iff`: bytes are read as a text exactly if they are the bytes of the text.
-/

namespace ByteMachine.Utf8

/-- The **bytes** of a text: those of its characters, one after the other. Decoding is judged by
this. -/
def encode (text : Text) : List UInt8 :=
  text.flatMap String.utf8EncodeChar

theorem encode_cons (c : Char) (text : Text) :
    encode (c :: text) = String.utf8EncodeChar c ++ encode text :=
  rfl

/-- A byte lies in a **range**. The ranges of the reader have two bounds, and both belong to
them. -/
def InRange (range : Range) (byte : UInt8) : Prop :=
  range.1.toNat ≤ byte.toNat ∧ byte.toNat ≤ range.2.toNat

/-- The bits read when the bytes `tail` follow those that were read: each of them adds six. -/
def follow (code : Nat) (tail : List UInt8) : Nat :=
  tail.foldl (fun code byte => code * 0x40 + byte.toNat % 0x40) code

/-- The bytes are a **sequence** for a character: the first one announces the others, and the bits
in them are its code point. -/
def Sequence (byte : UInt8) (tail : List UInt8) (c : Char) : Prop :=
  ∃ code ranges, announce? byte = some (code, ranges) ∧ List.Forall₂ InRange ranges tail ∧
    c = Char.ofNat (follow code tail)

/-! ### What first bytes announce -/

/-- The range of the **second of three** bytes: behind `0xE0` the form would be overlong below
it, and behind `0xED` the surrogates are above it. -/
def secondOfThree (byte : UInt8) : Range :=
  (if byte.toNat = 0xE0 then 0xA0 else 0x80, if byte.toNat = 0xED then 0x9F else 0xBF)

/-- The range of the **second of four** bytes: behind `0xF0` the form would be overlong below it,
and behind `0xF4` the code points end above it. -/
def secondOfFour (byte : UInt8) : Range :=
  (if byte.toNat = 0xF0 then 0x90 else 0x80, if byte.toNat = 0xF4 then 0x8F else 0xBF)

variable {a b c d : UInt8} {e : Char} {tail : List UInt8} {text : Text}

/-- The bounds of the bytes behind the second one: their two highest bits are one and zero. -/
theorem inRange_tailRange_iff : InRange tailRange b ↔ 0x80 ≤ b.toNat ∧ b.toNat ≤ 0xBF :=
  Iff.rfl

/-- The bounds of the second of three bytes. They are narrower behind two of the first bytes, to
exclude overlong forms and surrogates. -/
theorem inRange_secondOfThree_iff :
    InRange (secondOfThree a) b ↔ 0x80 ≤ b.toNat ∧ b.toNat ≤ 0xBF ∧
      (a.toNat = 0xE0 → 0xA0 ≤ b.toNat) ∧ (a.toNat = 0xED → b.toNat ≤ 0x9F) := by
  rw [InRange, secondOfThree]
  simp only [apply_ite UInt8.toNat, UInt8.reduceToNat]
  split <;> split <;> omega

/-- The bounds of the second of four bytes. They are narrower behind two of the first bytes, to
exclude overlong forms and what lies above the last code point. -/
theorem inRange_secondOfFour_iff :
    InRange (secondOfFour a) b ↔ 0x80 ≤ b.toNat ∧ b.toNat ≤ 0xBF ∧
      (a.toNat = 0xF0 → 0x90 ≤ b.toNat) ∧ (a.toNat = 0xF4 → b.toNat ≤ 0x8F) := by
  rw [InRange, secondOfFour]
  simp only [apply_ite UInt8.toNat, UInt8.reduceToNat]
  split <;> split <;> omega

theorem announce?_one (ha : a.toNat ≤ 0x7F) : announce? a = some (a.toNat, []) :=
  if_pos ha

/-- The first of two bytes brings five bits. Smaller ones would announce overlong forms. -/
theorem announce?_two (low : 0xC2 ≤ a.toNat) (high : a.toNat ≤ 0xDF) :
    announce? a = some (a.toNat % 0x20, [tailRange]) := by
  rw [announce?, if_neg (by omega), if_neg (by omega), if_pos high]

/-- The first of three bytes brings four bits, and narrows the range of the second. -/
theorem announce?_three (low : 0xE0 ≤ a.toNat) (high : a.toNat ≤ 0xEF) :
    announce? a = some (a.toNat % 0x10, [secondOfThree a, tailRange]) := by
  rw [announce?, if_neg (by omega), if_neg (by omega), if_neg (by omega), secondOfThree]
  by_cases least : a.toNat = 0xE0
  · rw [if_pos least, if_pos least, if_neg (by omega)]
  · rw [if_neg least, if_neg least]
    by_cases most : a.toNat = 0xED
    · rw [if_pos most, if_pos most]
    · rw [if_neg most, if_neg most, if_pos high]
      rfl

/-- The first of four bytes brings three bits, and narrows the range of the second. -/
theorem announce?_four (low : 0xF0 ≤ a.toNat) (high : a.toNat ≤ 0xF4) :
    announce? a = some (a.toNat % 0x08, [secondOfFour a, tailRange, tailRange]) := by
  rw [announce?, if_neg (by omega), if_neg (by omega), if_neg (by omega), if_neg (by omega),
    if_neg (by omega), if_neg (by omega), secondOfFour]
  by_cases least : a.toNat = 0xF0
  · rw [if_pos least, if_pos least, if_neg (by omega)]
  · rw [if_neg least, if_neg least]
    by_cases most : a.toNat = 0xF4
    · rw [if_neg (by omega), if_pos most, if_pos most]
    · rw [if_pos (by omega), if_neg most]
      rfl

/-- No other byte starts a sequence: it continues one, or it starts only overlong forms or code
points that do not exist. -/
theorem announce?_eq_none (low : 0x7F < a.toNat) (between : a.toNat < 0xC2 ∨ 0xF4 < a.toNat) :
    announce? a = none := by
  rw [announce?, if_neg (by omega)]
  by_cases small : a.toNat < 0xC2
  · rw [if_pos small]
  · rw [if_neg small, if_neg (by omega), if_neg (by omega), if_neg (by omega), if_neg (by omega),
      if_neg (by omega), if_neg (by omega), if_neg (by omega)]

/-! ### Encodings of characters -/

/-- The code point of a character that is made from a valid one is that one. -/
theorem toNat_ofNat {n : Nat} (valid : n.isValidChar) : (Char.ofNat n).val.toNat = n := by
  rw [Char.ofNat, dif_pos valid]
  rfl

theorem ofNat_eq {n : Nat} (byte : UInt8) (same : n = byte.toNat) : UInt8.ofNat n = byte := by
  rw [same, UInt8.ofNat_toNat]

theorem utf8EncodeChar_one (ha : a.toNat ≤ 0x7F) :
    String.utf8EncodeChar (Char.ofNat a.toNat) = [a] := by
  have valid : a.toNat.isValidChar := .inl (by omega)
  rw [String.utf8EncodeChar, toNat_ofNat valid, if_pos ha, UInt8.ofNat_toNat]

/-- What two bytes in their ranges announce and follow up is a character, and these bytes are its
encoding. -/
theorem utf8EncodeChar_two (low : 0xC2 ≤ a.toNat) (high : a.toNat ≤ 0xDF)
    (hb : InRange tailRange b) :
    String.utf8EncodeChar (Char.ofNat (follow (a.toNat % 0x20) [b])) = [a, b] := by
  rw [inRange_tailRange_iff] at hb
  simp only [follow, List.foldl_cons, List.foldl_nil]
  have valid : (a.toNat % 0x20 * 0x40 + b.toNat % 0x40).isValidChar := .inl (by omega)
  rw [String.utf8EncodeChar, toNat_ofNat valid, if_neg (by omega), if_pos (by omega),
    ofNat_eq a (by omega), ofNat_eq b (by omega)]

/-- What three bytes in their ranges bring is a character, and these bytes are its encoding. Here it
matters that surrogates are excluded. -/
theorem utf8EncodeChar_three (low : 0xE0 ≤ a.toNat) (high : a.toNat ≤ 0xEF)
    (hb : InRange (secondOfThree a) b) (hc : InRange tailRange c) :
    String.utf8EncodeChar (Char.ofNat (follow (a.toNat % 0x10) [b, c])) = [a, b, c] := by
  rw [inRange_secondOfThree_iff] at hb
  rw [inRange_tailRange_iff] at hc
  simp only [follow, List.foldl_cons, List.foldl_nil]
  have valid : ((a.toNat % 0x10 * 0x40 + b.toNat % 0x40) * 0x40 + c.toNat % 0x40).isValidChar := by
    rw [Nat.isValidChar]
    omega
  rw [String.utf8EncodeChar, toNat_ofNat valid, if_neg (by omega), if_neg (by omega),
    if_pos (by omega), ofNat_eq a (by omega), ofNat_eq b (by omega), ofNat_eq c (by omega)]

/-- What four bytes in their ranges bring is a character, and these bytes are its encoding. Here it
matters that there is a last code point. -/
theorem utf8EncodeChar_four (low : 0xF0 ≤ a.toNat) (high : a.toNat ≤ 0xF4)
    (hb : InRange (secondOfFour a) b) (hc : InRange tailRange c) (hd : InRange tailRange d) :
    String.utf8EncodeChar (Char.ofNat (follow (a.toNat % 0x08) [b, c, d])) = [a, b, c, d] := by
  rw [inRange_secondOfFour_iff] at hb
  rw [inRange_tailRange_iff] at hc hd
  simp only [follow, List.foldl_cons, List.foldl_nil]
  have valid : (((a.toNat % 0x08 * 0x40 + b.toNat % 0x40) * 0x40 + c.toNat % 0x40) * 0x40 +
      d.toNat % 0x40).isValidChar := by
    rw [Nat.isValidChar]
    omega
  rw [String.utf8EncodeChar, toNat_ofNat valid, if_neg (by omega), if_neg (by omega),
    if_neg (by omega), ofNat_eq a (by omega), ofNat_eq b (by omega), ofNat_eq c (by omega),
    ofNat_eq d (by omega)]

/-! ### Sequences -/

/-- A sequence that the reader takes is the encoding of the character that it gives. -/
theorem Sequence.utf8EncodeChar_eq (sequence : Sequence a tail e) :
    String.utf8EncodeChar e = a :: tail := by
  obtain ⟨code, ranges, announced, within, rfl⟩ := sequence
  have cases : a.toNat ≤ 0x7F ∨ (0x7F < a.toNat ∧ (a.toNat < 0xC2 ∨ 0xF4 < a.toNat)) ∨
      (0xC2 ≤ a.toNat ∧ a.toNat ≤ 0xDF) ∨ (0xE0 ≤ a.toNat ∧ a.toNat ≤ 0xEF) ∨
      (0xF0 ≤ a.toNat ∧ a.toNat ≤ 0xF4) := by omega
  rcases cases with alone | ⟨low, between⟩ | ⟨low, high⟩ | ⟨low, high⟩ | ⟨low, high⟩
  · rw [announce?_one alone] at announced
    cases announced
    cases within
    exact utf8EncodeChar_one alone
  · rw [announce?_eq_none low between] at announced
    cases announced
  · rw [announce?_two low high] at announced
    cases announced
    obtain _ | ⟨hb, ⟨⟩⟩ := within
    exact utf8EncodeChar_two low high hb
  · rw [announce?_three low high] at announced
    cases announced
    obtain _ | ⟨hb, _ | ⟨hc, ⟨⟩⟩⟩ := within
    exact utf8EncodeChar_three low high hb hc
  · rw [announce?_four low high] at announced
    cases announced
    obtain _ | ⟨hb, _ | ⟨hc, _ | ⟨hd, ⟨⟩⟩⟩⟩ := within
    exact utf8EncodeChar_four low high hb hc hd

theorem exists_byte {n : Nat} (small : n < 0x100) : ∃ byte : UInt8, byte.toNat = n :=
  ⟨UInt8.ofNat n, UInt8.toNat_ofNat_of_lt small⟩

theorem eq_ofNat {n : Nat} (same : n = e.toNat) : e = Char.ofNat n := by
  rw [same, Char.ofNat_toNat]

/-- Every character has a sequence that the reader takes for it: the one of the length that its code
point needs. -/
theorem exists_sequence (e : Char) : ∃ byte tail, Sequence byte tail e := by
  have valid : e.toNat < 0xD800 ∨ 0xDFFF < e.toNat ∧ e.toNat < 0x110000 := e.valid
  have cases : e.toNat ≤ 0x7F ∨ (0x7F < e.toNat ∧ e.toNat ≤ 0x7FF) ∨
      (0x7FF < e.toNat ∧ e.toNat ≤ 0xFFFF) ∨ 0xFFFF < e.toNat := by omega
  -- Each byte but the first takes six bits of the code point, the last one the lowest.
  rcases cases with alone | ⟨low, high⟩ | ⟨low, high⟩ | low
  · obtain ⟨a, ha⟩ := @exists_byte e.toNat (by omega)
    exact ⟨a, [], _, _, announce?_one (by omega), .nil, eq_ofNat ha⟩
  · obtain ⟨a, ha⟩ := @exists_byte (e.toNat / 0x40 + 0xC0) (by omega)
    obtain ⟨b, hb⟩ := @exists_byte (e.toNat % 0x40 + 0x80) (by omega)
    refine ⟨a, [b], _, _, announce?_two (by omega) (by omega),
      .cons (inRange_tailRange_iff.mpr (by omega)) .nil, eq_ofNat ?_⟩
    simp only [follow, List.foldl_cons, List.foldl_nil]
    omega
  · obtain ⟨a, ha⟩ := @exists_byte (e.toNat / 0x1000 + 0xE0) (by omega)
    obtain ⟨b, hb⟩ := @exists_byte (e.toNat / 0x40 % 0x40 + 0x80) (by omega)
    obtain ⟨c, hc⟩ := @exists_byte (e.toNat % 0x40 + 0x80) (by omega)
    refine ⟨a, [b, c], _, _, announce?_three (by omega) (by omega),
      .cons (inRange_secondOfThree_iff.mpr (by omega))
        (.cons (inRange_tailRange_iff.mpr (by omega)) .nil), eq_ofNat ?_⟩
    simp only [follow, List.foldl_cons, List.foldl_nil]
    omega
  · obtain ⟨a, ha⟩ := @exists_byte (e.toNat / 0x40000 + 0xF0) (by omega)
    obtain ⟨b, hb⟩ := @exists_byte (e.toNat / 0x1000 % 0x40 + 0x80) (by omega)
    obtain ⟨c, hc⟩ := @exists_byte (e.toNat / 0x40 % 0x40 + 0x80) (by omega)
    obtain ⟨d, hd⟩ := @exists_byte (e.toNat % 0x40 + 0x80) (by omega)
    refine ⟨a, [b, c, d], _, _, announce?_four (by omega) (by omega),
      .cons (inRange_secondOfFour_iff.mpr (by omega))
        (.cons (inRange_tailRange_iff.mpr (by omega))
          (.cons (inRange_tailRange_iff.mpr (by omega)) .nil)), eq_ofNat ?_⟩
    simp only [follow, List.foldl_cons, List.foldl_nil]
    omega

/-- The sequences that the reader takes are the **encodings** of the characters. So no character has
two sequences, and no bytes are a sequence of two characters. -/
theorem sequence_iff : Sequence a tail e ↔ String.utf8EncodeChar e = a :: tail := by
  constructor
  · exact Sequence.utf8EncodeChar_eq
  · intro encoded
    obtain ⟨byte, rest, sequence⟩ := exists_sequence e
    rw [sequence.utf8EncodeChar_eq] at encoded
    cases encoded
    exact sequence

/-! ### Reading -/

/-- The first byte of a tail adds its bits before the others add theirs. -/
theorem follow_cons (code : Nat) (byte : UInt8) (tail : List UInt8) :
    follow code (byte :: tail) = follow (code * 0x40 + byte.toNat % 0x40) tail :=
  rfl

/-- The test that the reader makes of a byte is that the byte lies in the range that is due. -/
theorem due_iff {range : Range} :
    (range.1 ≤ a && a ≤ range.2) = true ↔ InRange range a := by
  rw [Bool.and_eq_true, decide_eq_true_iff, decide_eq_true_iff, UInt8.le_iff_toNat_le,
    UInt8.le_iff_toNat_le, InRange]

/-- The reader goes through the rest of a sequence that it has started and takes its character. -/
theorem decodeFrom_some_append {started : Started} (position : Nat) (rest : List UInt8)
    (within : List.Forall₂ InRange (started.due :: started.later) tail) :
    ∃ behind, decodeFrom position (some started) (tail ++ rest) =
      (decodeFrom behind none rest).map (Char.ofNat (follow started.code tail) :: ·) := by
  induction tail generalizing started position with
  | nil => cases within
  | cons byte tail ih =>
      obtain _ | ⟨due, later⟩ := within
      rw [List.cons_append, decodeFrom, if_pos (due_iff.mpr due), follow_cons]
      cases further : started.later with
      | nil =>
          rw [further] at later
          cases later
          exact ⟨position + 1, rfl⟩
      | cons next ranges =>
          rw [further] at later
          exact @ih { started with
            count := started.count + 1
            code := started.code * 0x40 + byte.toNat % 0x40
            due := next
            later := ranges } (position + 1) later

/-- The reader takes a character and goes on behind its bytes, at whatever position it stands. -/
theorem decodeFrom_encode_cons (position : Nat) (e : Char) (rest : List UInt8) :
    ∃ behind, decodeFrom position none (String.utf8EncodeChar e ++ rest) =
      (decodeFrom behind none rest).map (e :: ·) := by
  obtain ⟨byte, tail, sequence⟩ := exists_sequence e
  rw [sequence_iff.mp sequence]
  obtain ⟨code, ranges, announced, within, rfl⟩ := sequence
  rw [List.cons_append, decodeFrom, announced]
  cases ranges with
  | nil =>
      cases within
      exact ⟨position + 1, rfl⟩
  | cons due later =>
      exact @decodeFrom_some_append tail ⟨position, byte, 1, code, due, later⟩ _ rest within

/-- The bytes of a text are read as the text. The induction is on the characters, each of which is
read as a whole. -/
theorem decodeFrom_encode (position : Nat) (text : Text) :
    decodeFrom position none (encode text) = .ok text := by
  induction text generalizing position with
  | nil => rfl
  | cons e text ih =>
      obtain ⟨behind, read⟩ := decodeFrom_encode_cons position e (encode text)
      rw [encode_cons, read, ih]
      rfl

/-- What bytes that are read as a text **look like**: between characters they are the bytes of the
text, and inside a sequence they complete it first. -/
def Completes (text : Text) : Option Started → List UInt8 → Prop
  | none, bytes => bytes = encode text
  | some started, bytes => ∃ tail behind, bytes = tail ++ encode behind ∧
      List.Forall₂ InRange (started.due :: started.later) tail ∧
      text = Char.ofNat (follow started.code tail) :: behind

/-- What is read with a character in front was read behind that character. -/
theorem exists_of_map_eq_ok {read : Except Fault Text}
    (mapped : read.map (e :: ·) = .ok text) : ∃ behind, read = .ok behind ∧ text = e :: behind := by
  cases read with
  | error fault => cases mapped
  | ok behind =>
      cases mapped
      exact ⟨behind, rfl, rfl⟩

/-- Bytes that are read as a text look like it. The induction follows the reader byte by byte, and
so it also has to say what completes a sequence. -/
theorem completes_of_decodeFrom {position : Nat} {started : Option Started} {bytes : List UInt8}
    (read : decodeFrom position started bytes = .ok text) : Completes text started bytes := by
  induction position, started, bytes using decodeFrom.induct generalizing text with
  | case1 =>
      rw [decodeFrom] at read
      cases read
      rfl
  | case2 =>
      rw [decodeFrom] at read
      cases read
  | case3 position byte rest unannounced =>
      rw [decodeFrom, unannounced] at read
      cases read
  | case4 position byte rest code announced ih =>
      rw [decodeFrom, announced] at read
      obtain ⟨behind, taken, rfl⟩ := exists_of_map_eq_ok read
      have sequence : Sequence byte [] (Char.ofNat code) := ⟨code, [], announced, .nil, rfl⟩
      have bytes : rest = encode behind := ih taken
      rw [Completes, encode_cons, sequence_iff.mp sequence, bytes]
      rfl
  | case5 position byte rest code due later announced ih =>
      rw [decodeFrom, announced] at read
      obtain ⟨tail, behind, rfl, within, rfl⟩ := ih read
      have sequence : Sequence byte tail (Char.ofNat (follow code tail)) :=
        ⟨code, due :: later, announced, within, rfl⟩
      rw [Completes, encode_cons, sequence_iff.mp sequence]
      rfl
  | case6 position started byte rest due last ih =>
      rw [decodeFrom, if_pos due] at read
      simp only [last] at read
      obtain ⟨behind, taken, rfl⟩ := exists_of_map_eq_ok read
      have bytes : rest = encode behind := ih taken
      refine ⟨[byte], behind, congrArg (byte :: ·) bytes, ?_, rfl⟩
      rw [last]
      exact .cons (due_iff.mp due) .nil
  | case7 position started byte rest due code next later further =>
      rename_i ih
      rw [decodeFrom, if_pos due] at read
      simp only [further] at read
      obtain ⟨tail, behind, rfl, within, rfl⟩ := ih read
      refine ⟨byte :: tail, behind, rfl, ?_, rfl⟩
      rw [further]
      exact .cons (due_iff.mp due) within
  | case8 position started byte rest undue =>
      rw [decodeFrom, if_neg undue] at read
      cases read

/-- Bytes are **read** as a text exactly if they are the bytes of the text. So no other bytes are
read at all. -/
theorem decode_eq_ok_iff {bytes : List UInt8} : decode bytes = .ok text ↔ bytes = encode text := by
  constructor
  · exact completes_of_decodeFrom
  · rintro rfl
    exact decodeFrom_encode 0 text

/-- Different texts have different bytes, since the bytes are read as one text only. -/
theorem encode_injective : Function.Injective encode := by
  intro text other same
  have read : decode (encode text) = .ok other := decode_eq_ok_iff.mpr same
  rw [decode_eq_ok_iff.mpr rfl] at read
  cases read
  rfl

end ByteMachine.Utf8
