import ByteMachine.Disassembly

/-!
# The columns of a printed row

A row of a disassembly is printed as a line: the address and a colon, a space, the bytes in a
column of twelve characters, two spaces, and what the bytes mean. Here such a line is taken apart
again by nothing but its text. The address ends before the first colon, since no digit is one. The
bytes stand in cells of three characters, two digits and a space, because four bytes and the
spaces behind them fill the column exactly. What is left is the meaning, and its first word is the
name of an instruction, or `DB`.

So what is said about the text of a disassembly is said about its rows, and the other way round.

## Main results

* `Text.readCells_append`: the bytes that are printed are read back.
* `DisassemblyRow.addressColumn_text`, `DisassemblyRow.shownBytes_text`,
  `DisassemblyRow.meaningColumn_text`, `DisassemblyRow.shownWord_text`: the columns of a row.
-/

namespace ByteMachine

/-! ### Columns of a line -/

/-- The text in front of the first colon: the address, as it is printed. -/
def addressColumn (line : Text) : Text :=
  line.takeWhile (· ≠ ':')

/-- The text behind the address, the colon and the space. -/
def behindAddress (line : Text) : Text :=
  (line.dropWhile (· ≠ ':')).drop 2

/-- The twelve characters of the bytes, with the spaces that fill the column. -/
def hexColumn (line : Text) : Text :=
  (behindAddress line).take 12

/-- What the bytes mean: the text behind their column and two spaces. -/
def meaningColumn (line : Text) : Text :=
  (behindAddress line).drop 14

/-- The value of a **hexadecimal digit**, in upper case, and nothing for any other character. -/
def hexValue? (c : Char) : Option Nat :=
  "0123456789ABCDEF".toList.idxOf? c

/-- The bytes in **cells** of two digits and a space, up to the first cell that is none. -/
def readCells : Text → List UInt8
  | high :: low :: ' ' :: cells =>
    match hexValue? high, hexValue? low with
    | some high, some low => UInt8.ofNat (16 * high + low) :: readCells cells
    | _, _ => []
  | _ => []

/-- The bytes that a line shows, read back from its column of bytes. -/
def shownBytes (line : Text) : List UInt8 :=
  readCells (hexColumn line)

/-- The first word of what a line shows behind the bytes: a name, or `DB`. -/
def shownWord (line : Text) : Text :=
  (meaningColumn line).takeWhile (· ≠ ' ')

/-! ### Hexadecimal digits -/

/-- The digit for a number below sixteen, in upper case. -/
def hexDigit (n : Nat) : Char :=
  (Nat.digitChar n).toUpper

/-- A digit has the value that it is printed for, so digits can be read back. -/
theorem hexValue?_hexDigit : ∀ n < 16, hexValue? (hexDigit n) = some n := by
  decide

/-- No digit is a colon, so the first colon of a line ends the address. -/
theorem hexDigit_ne_colon : ∀ n < 16, hexDigit n ≠ ':' := by
  decide

namespace Text

theorem exists_hexDigit_of_mem {n : Nat} {c : Char} (inside : c ∈ hexDigits n) :
    ∃ digit < 16, c = hexDigit digit := by
  induction n using Nat.strongRecOn with
  | ind n ih =>
      by_cases small : n < 16
      · rw [hexDigits, Nat.toDigits_of_lt_base small, List.map_singleton] at inside
        exact ⟨n, small, List.mem_singleton.mp inside⟩
      · rw [hexDigits, Nat.toDigits_of_base_le (by decide) (by omega), List.map_append,
          List.mem_append] at inside
        rcases inside with front | last
        · exact ih (n / 16) (by omega) front
        · exact ⟨n % 16, Nat.mod_lt _ (by decide), List.mem_singleton.mp last⟩

/-- The hexadecimal numeral of a natural number has no sign, and two digits at least. -/
theorem hex_natCast (n : Nat) : hex n = padLeft 2 '0' (hexDigits n) :=
  rfl

theorem ne_colon_of_mem_address {n : Nat} :
    ∀ c ∈ address n, decide (c ≠ ':') = true := by
  intro c inside
  rw [address, hex_natCast, padLeft, List.mem_cons, List.mem_append] at inside
  rcases inside with rfl | zeros | digits
  · rfl
  · obtain ⟨-, rfl⟩ := List.mem_replicate.mp zeros
    rfl
  · obtain ⟨digit, small, rfl⟩ := exists_hexDigit_of_mem digits
    exact decide_eq_true (hexDigit_ne_colon digit small)

theorem hexByte_eq (byte : UInt8) :
    hexByte byte = [hexDigit (byte.toNat / 16), hexDigit (byte.toNat % 16)] := by
  have bound := byte.toNat_lt
  rw [hexByte, hex_natCast, padLeft, hexDigits]
  by_cases small : byte.toNat < 16
  · rw [Nat.toDigits_of_lt_base small, Nat.div_eq_of_lt small, Nat.mod_eq_of_lt small]
    rfl
  · rw [Nat.toDigits_of_base_le (by decide) (by omega), Nat.toDigits_of_lt_base (by omega)]
    rfl

/-- A byte as a cell of a row: its digits and a space. A row of bytes is made of such cells but for
the last space. -/
def cell (byte : UInt8) : Text :=
  hexByte byte ++ [' ']

/-- A cell in front is read back as its byte, whatever cells are behind it. -/
theorem readCells_cell_append (byte : UInt8) (cells : Text) :
    readCells (cell byte ++ cells) = byte :: readCells cells := by
  have bound := byte.toNat_lt
  have value : 16 * (byte.toNat / 16) + byte.toNat % 16 = byte.toNat := Nat.div_add_mod _ 16
  rw [cell, hexByte_eq]
  simp only [List.cons_append, List.nil_append, readCells]
  rw [hexValue?_hexDigit _ (by omega), hexValue?_hexDigit _ (by omega)]
  simp only [value, UInt8.ofNat_toNat]

theorem readCells_spaces (count : Nat) : readCells (List.replicate count ' ') = [] := by
  rcases count with _ | _ | _ | count <;> rfl

/-- The bytes in cells are read back, if nothing but spaces is behind them. By induction on the
bytes: a cell gives back its byte, and spaces are no cell. -/
theorem readCells_append (bytes : List UInt8) (count : Nat) :
    readCells (bytes.flatMap cell ++ List.replicate count ' ') = bytes := by
  induction bytes with
  | nil => exact readCells_spaces count
  | cons byte bytes ih =>
      rw [List.flatMap_cons, List.append_assoc, readCells_cell_append, ih]

/-- A row of bytes with a space behind it is made of cells, for bytes are set apart by spaces. -/
theorem hexRow_append_space (byte : UInt8) (bytes : List UInt8) :
    hexRow (byte :: bytes) ++ [' '] = (byte :: bytes).flatMap cell := by
  induction bytes generalizing byte with
  | nil => simp [hexRow, joinWith, cell]
  | cons next bytes ih =>
      rw [List.flatMap_cons, ← ih next]
      simp [hexRow, joinWith, cell, List.intercalate]

/-- Cells are three characters wide, so that four of them fill the column. -/
theorem length_flatMap_cell (bytes : List UInt8) :
    (bytes.flatMap cell).length = 3 * bytes.length := by
  induction bytes with
  | nil => rfl
  | cons byte bytes ih =>
      rw [List.flatMap_cons, List.length_append, ih, cell, hexByte_eq]
      simp only [List.cons_append, List.nil_append, List.length_cons, List.length_nil]
      omega

/-- Bytes **fit a column** of four cells, and there is one of them at least. Those of every row of a
disassembly do. -/
structure FitsColumn (bytes : List UInt8) : Prop where
  one_le : 1 ≤ bytes.length
  le_four : bytes.length ≤ 4

variable {bytes : List UInt8}

theorem FitsColumn.padRight_hexRow (fits : FitsColumn bytes) :
    padRight 12 (hexRow bytes) =
      bytes.flatMap cell ++ List.replicate (12 - 3 * bytes.length) ' ' := by
  obtain ⟨some_bytes, few⟩ := fits
  obtain ⟨byte, rest, rfl⟩ := List.exists_cons_of_length_pos some_bytes
  have wide : (hexRow (byte :: rest)).length + 1 = 3 * (byte :: rest).length := by
    rw [← length_flatMap_cell, ← hexRow_append_space, List.length_append, List.length_singleton]
  have room : 12 - (hexRow (byte :: rest)).length = 12 - 3 * (byte :: rest).length + 1 := by
    omega
  rw [padRight, room, List.replicate_succ, ← hexRow_append_space, List.append_assoc,
    List.singleton_append]

theorem FitsColumn.length_padRight_hexRow (fits : FitsColumn bytes) :
    (padRight 12 (hexRow bytes)).length = 12 := by
  have few := fits.le_four
  rw [fits.padRight_hexRow, List.length_append, length_flatMap_cell, List.length_replicate]
  omega

end Text

/-! ### The columns of a row -/

namespace DisassemblyRow

variable (row : DisassemblyRow)

/-- A row begins with its **address**, up to the first colon. There is none in the address itself,
so it can be cut off there. -/
theorem addressColumn_text : addressColumn row.text = Text.address row.offset := by
  simp only [addressColumn, text, List.append_assoc]
  rw [List.takeWhile_append_of_pos Text.ne_colon_of_mem_address]
  exact List.append_nil _

theorem behindAddress_text :
    behindAddress row.text =
      Text.padRight 12 (Text.hexRow row.bytes) ++ (' ' :: ' ' :: row.meaning) := by
  simp only [behindAddress, text, List.append_assoc]
  rw [List.dropWhile_append_of_pos Text.ne_colon_of_mem_address]
  rfl

variable {row} (fits : Text.FitsColumn row.bytes)

include fits

/-- The column of the bytes is the row of bytes, filled up with spaces. -/
theorem hexColumn_text : hexColumn row.text = Text.padRight 12 (Text.hexRow row.bytes) := by
  rw [hexColumn, behindAddress_text, List.take_left' fits.length_padRight_hexRow]

/-- A row **shows** its bytes: they are read back from its text. The column is filled with spaces,
and they are taken for no byte. -/
theorem shownBytes_text : shownBytes row.text = row.bytes := by
  rw [shownBytes, hexColumn_text fits, fits.padRight_hexRow]
  exact Text.readCells_append row.bytes _

/-- A row ends with its **meaning**, which follows the two columns. They have the same width in
every row, whatever they hold. -/
theorem meaningColumn_text : meaningColumn row.text = row.meaning := by
  have wide := fits.length_padRight_hexRow
  rw [meaningColumn, behindAddress_text, List.drop_append, wide, List.drop_eq_nil_of_le (by omega)]
  rfl

/-- The **first word** of the meaning is the name of the instruction, or `DB`. So a line of data can
be told from an instruction. -/
theorem shownWord_text :
    shownWord row.text =
      match row.instruction? with
      | some instruction => instruction.mnemonic.name
      | none => "DB".toList := by
  rw [shownWord, meaningColumn_text fits, meaning]
  cases row.instruction? with
  | none => rfl
  | some instruction =>
      have name : ∀ rest, (instruction.mnemonic.name ++ ' ' :: rest).takeWhile (· ≠ ' ') =
          instruction.mnemonic.name := by
        intro rest
        cases instruction.mnemonic <;> rfl
      simp only [Instruction.format]
      split
      · cases instruction.mnemonic <;> rfl
      · exact name _

end DisassemblyRow

end ByteMachine
