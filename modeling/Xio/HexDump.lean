import Xio.IPAddress
import Xio.Parsing

/-!
`BufferBase::dump` of `lib/Buffer.cpp`. A line is drawn into one array of 71 characters
through two cursors, one for the hexadecimal fields and one for the plain text behind them,
and is printed up to its terminator. The array is not cleared between lines.
-/

namespace Xio.HexDump

open Storage

/-- The documented behaviour of `isprint`: the NUL is no printing character in any locale. -/
structure IsPrint where
  test : UInt8 → Bool
  nul : test 0 = false

/-- The array with its cursors; `written` are the indices stored to since the line was begun. -/
structure Line where
  cells : Memory UInt8
  u : Nat
  v : Nat
  written : List Nat

namespace Line

-- `*u++ = character`
def putHex (line : Line) (character : UInt8) : Line :=
  ⟨store line.cells line.u [character], line.u + 1, line.v, line.u :: line.written⟩

-- `*v++ = character`
def putPlain (line : Line) (character : UInt8) : Line :=
  ⟨store line.cells line.v [character], line.u, line.v + 1, line.v :: line.written⟩

-- `*v = '\0'`
def terminate (line : Line) : Line :=
  ⟨store line.cells line.v [0], line.u, line.v, line.v :: line.written⟩

-- Padding for a byte, and the separator of blocks.
def gap (line : Line) : Line := ((line.putHex 32).putHex 32).putHex 32

def gaps : Nat → Line → Line
  | 0, line => line
  | count + 1, line => gaps count line.gap

/-- What `printf("%s")` takes from the array. -/
def printed (line : Line) : List UInt8 := IPAddress.cString (load line.cells 0 71)

end Line

def digits : List UInt8 := [48, 49, 50, 51, 52, 53, 54, 55, 56, 57, 65, 66, 67, 68, 69, 70]

-- The mask takes away what the shift of a negative `char` brings in.
def high (byte : UInt8) : UInt8 := digits.getD ((byte >>> 4) &&& 15).toNat 0

def low (byte : UInt8) : UInt8 := digits.getD (byte &&& 15).toNat 0

section
variable (isprint : IsPrint)

def shown (byte : UInt8) : UInt8 := if isprint.test byte then byte else 46

/-- The innermost loop, with the count of iterations that `BLOCK_SIZE` leaves. It returns that
count, the bytes that are left and the line. -/
def byteLoop : Nat → List UInt8 → Line → Nat × List UInt8 × Line
  | 0, bytes, line => (0, bytes, line)
  | left + 1, [], line => (left + 1, [], line)
  | left + 1, byte :: bytes, line =>
      byteLoop left bytes
        ((((line.putHex (high byte)).putHex (low byte)).putHex 32).putPlain (shown isprint byte))

def block (bytes : List UInt8) (line : Line) : List UInt8 × Line :=
  let after := byteLoop isprint 8 bytes line
  (after.2.1, (after.2.2.gaps after.1).gap)

-- The loop over the blocks that have bytes.
def blockLoop : Nat → List UInt8 → Line → Nat × List UInt8 × Line
  | 0, bytes, line => (0, bytes, line)
  | left + 1, [], line => (left + 1, [], line)
  | left + 1, byte :: bytes, line =>
      let after := block isprint (byte :: bytes) line
      blockLoop left after.1 after.2

-- The loop over the blocks that have none.
def emptyBlocks : Nat → Line → Line
  | 0, line => line
  | left + 1, line => emptyBlocks left (line.gaps 8).gap

def dumpLine (bytes : List UInt8) (cells : Memory UInt8) : List UInt8 × Line :=
  let after := blockLoop isprint 2 bytes ⟨cells, 0, 54, []⟩
  (after.2.1, (emptyBlocks after.1 after.2.2).terminate)

def dumpLoop : Nat → List UInt8 → Memory UInt8 → List Line × List UInt8
  | _, [], _ => ([], [])
  | 0, byte :: bytes, _ => ([], byte :: bytes)
  | rounds + 1, byte :: bytes, cells =>
      let first := dumpLine isprint (byte :: bytes) cells
      let later := dumpLoop rounds first.1 first.2.cells
      (first.2 :: later.1, later.2)

end

/-- `Memory dump` -/
def untitled : List UInt8 := [77, 101, 109, 111, 114, 121, 32, 100, 117, 109, 112]

/-- ` (%zu bytes):` behind the title -/
def header (description : List UInt8) (length : Nat) : List UInt8 :=
  (if description ≠ [] then description else untitled) ++ [32, 40] ++
    MutableBuffer.decimal length ++ [32, 98, 121, 116, 101, 115, 41, 58]

structure Dump where
  title : List UInt8
  lines : List Line
  rest : List UInt8

end Xio.HexDump

namespace Xio.BufferRef

open HexDump

/-- `dump(description)`. No byte takes more than a round. -/
def dump (view : BufferRef) (isprint : IsPrint) (description : List UInt8)
    (uninitialised : Storage.Memory UInt8) : Dump :=
  let drawn := dumpLoop isprint view.content.length view.content uninitialised
  ⟨header description view.content.length, drawn.1, drawn.2⟩

end Xio.BufferRef

namespace Xio.HexDump

open Storage Parsing

/-! Reading a line back. -/

def fields : List UInt8 → List UInt8
  | first :: second :: _ :: rest =>
      if first = 32 then fields rest
      else UInt8.ofNat (16 * hexDigitValue first + hexDigitValue second) :: fields rest
  | _ => []

def decode (text : List UInt8) : List UInt8 := fields (text.take 54)

def plainText (text : List UInt8) : List UInt8 := text.drop 54

/-! The text of a line. -/

def field (byte : UInt8) : List UInt8 := [high byte, low byte, 32]

def blanks (count : Nat) : List UInt8 := List.replicate (3 * count) 32

-- A block always has room for eight bytes and the separator.
def blockText (chunk : List UInt8) : List UInt8 :=
  chunk.flatMap field ++ blanks (8 - chunk.length) ++ blanks 1

def blocksText : Nat → List UInt8 → List UInt8
  | 0, _ => []
  | count + 1, bytes => blockText (bytes.take 8) ++ blocksText count (bytes.drop 8)

theorem high_value (byte : UInt8) : hexDigitValue (high byte) = byte.toNat / 16 := by
  have every : ∀ bits : BitVec 8, hexDigitValue (high (UInt8.ofBitVec bits)) =
      (UInt8.ofBitVec bits).toNat / 16 := by
    decide +kernel
  exact every byte.toBitVec

theorem low_value (byte : UInt8) : hexDigitValue (low byte) = byte.toNat % 16 := by
  have every : ∀ bits : BitVec 8, hexDigitValue (low (UInt8.ofBitVec bits)) =
      (UInt8.ofBitVec bits).toNat % 16 := by
    decide +kernel
  exact every byte.toBitVec

-- A digit is neither the blank nor the terminator.
theorem digit_visible (byte : UInt8) :
    (high byte ≠ 32 ∧ high byte ≠ 0) ∧ low byte ≠ 0 := by
  have every : ∀ bits : BitVec 8, (high (UInt8.ofBitVec bits) ≠ 32 ∧
      high (UInt8.ofBitVec bits) ≠ 0) ∧ low (UInt8.ofBitVec bits) ≠ 0 := by
    decide +kernel
  exact every byte.toBitVec

theorem fields_field (byte : UInt8) (rest : List UInt8) :
    fields (field byte ++ rest) = byte :: fields rest := by
  have whole : 16 * (byte.toNat / 16) + byte.toNat % 16 = byte.toNat := Nat.div_add_mod _ _
  rw [field, List.cons_append, List.cons_append, List.cons_append, List.nil_append, fields,
    if_neg (digit_visible byte).1.1, high_value, low_value, whole, UInt8.ofNat_toNat]

theorem fields_bytes (chunk rest : List UInt8) :
    fields (chunk.flatMap field ++ rest) = chunk ++ fields rest := by
  induction chunk with
  | nil => rfl
  | cons byte chunk ih =>
      rw [List.flatMap_cons, List.append_assoc, fields_field, ih, List.cons_append]

theorem fields_blanks (count : Nat) (rest : List UInt8) :
    fields (blanks count ++ rest) = fields rest := by
  induction count with
  | zero => rfl
  | succ count ih =>
      have first : blanks (count + 1) = 32 :: 32 :: 32 :: blanks count := by
        rw [blanks, Nat.mul_succ]
        rfl
      rw [first, List.cons_append, List.cons_append, List.cons_append, fields, if_pos rfl, ih]

theorem fields_block (chunk rest : List UInt8) :
    fields (blockText chunk ++ rest) = chunk ++ fields rest := by
  rw [blockText, List.append_assoc, List.append_assoc, fields_bytes, fields_blanks, fields_blanks]

theorem fields_blocks (count : Nat) (bytes : List UInt8) :
    fields (blocksText count bytes) = bytes.take (8 * count) := by
  induction count generalizing bytes with
  | zero => rfl
  | succ count ih =>
      rw [blocksText, fields_block, ih, Nat.mul_succ, Nat.add_comm, List.take_add]

theorem bytes_length (chunk : List UInt8) : (chunk.flatMap field).length = 3 * chunk.length := by
  induction chunk with
  | nil => rfl
  | cons byte chunk ih =>
      rw [List.flatMap_cons, List.length_append, ih, List.length_cons]
      simp only [field, List.length_cons, List.length_nil]
      omega

theorem blanks_length (count : Nat) : (blanks count).length = 3 * count := List.length_replicate

theorem block_length (chunk : List UInt8) (small : chunk.length ≤ 8) :
    (blockText chunk).length = 27 := by
  rw [blockText, List.length_append, List.length_append, bytes_length, blanks_length,
    blanks_length]
  omega

theorem blocks_length (count : Nat) (bytes : List UInt8) :
    (blocksText count bytes).length = 27 * count := by
  induction count generalizing bytes with
  | zero => rfl
  | succ count ih =>
      rw [blocksText, List.length_append, ih, block_length _ (List.length_take_le 8 bytes)]
      omega

theorem blocks_visible (count : Nat) (bytes : List UInt8) :
    ∀ character ∈ blocksText count bytes, character ≠ 0 := by
  have blank (count : Nat) : ∀ character ∈ blanks count, character ≠ 0 := by
    intro character member
    rw [(List.mem_replicate.mp member).2]
    decide
  induction count generalizing bytes with
  | zero =>
      intro character member
      cases member
  | succ count ih =>
      rw [blocksText, blockText]
      simp only [List.forall_mem_append]
      refine ⟨⟨⟨?_, blank _⟩, blank _⟩, ih _⟩
      intro character member
      obtain ⟨byte, _, inside⟩ := List.mem_flatMap.mp member
      have visible := digit_visible byte
      rcases List.mem_cons.mp inside with rfl | later
      · exact visible.1.2
      rcases List.mem_cons.mp later with rfl | last
      · exact visible.2
      · rw [List.mem_singleton.mp last]
        decide

/-! Drawing. -/

structure Shows (line : Line) (hex plain : List UInt8) : Prop where
  u_eq : line.u = hex.length
  v_eq : line.v = 54 + plain.length
  hex_eq : load line.cells 0 hex.length = hex
  plain_eq : load line.cells 54 plain.length = plain
  written_iff : ∀ index, index ∈ line.written ↔
    index < hex.length ∨ (54 ≤ index ∧ index < 54 + plain.length)

variable {line : Line} {hex plain : List UInt8}

theorem putHex_shows (character : UInt8) (shows : Shows line hex plain) (room : hex.length < 54) :
    Shows (line.putHex character) (hex ++ [character]) plain := by
  obtain ⟨u_eq, v_eq, hex_eq, plain_eq, written_iff⟩ := shows
  refine ⟨?_, v_eq, ?_, ?_, ?_⟩
  · rw [Line.putHex, u_eq, List.length_append, List.length_singleton]
  · rw [Line.putHex, u_eq, List.length_append, load_store_behind, hex_eq]
  · -- the plain text begins behind the room for the fields
    rw [Line.putHex, u_eq, ← plain_eq, load_length]
    apply load_congr
    intro address behind _
    exact store_outside _ _ _ _ (Or.inr (by rw [List.length_singleton]; omega))
  · intro index
    rw [Line.putHex, List.mem_cons, written_iff, u_eq, List.length_append, List.length_singleton]
    omega

theorem putPlain_shows (character : UInt8) (shows : Shows line hex plain) (room : hex.length ≤ 54) :
    Shows (line.putPlain character) hex (plain ++ [character]) := by
  obtain ⟨u_eq, v_eq, hex_eq, plain_eq, written_iff⟩ := shows
  refine ⟨u_eq, ?_, ?_, ?_, ?_⟩
  · rw [Line.putPlain, v_eq, List.length_append, List.length_singleton, Nat.add_assoc]
  · rw [Line.putPlain, v_eq, load_store_before _ _ _ _ _ (by omega), hex_eq]
  · have stored : store line.cells (54 + plain.length) [character] (54 + plain.length) =
        character := by
      simp [store]
    rw [Line.putPlain, v_eq, List.length_append, load_add,
      load_store_before _ _ _ _ _ (Nat.le_refl _), plain_eq]
    simp [load, stored]
  · intro index
    rw [Line.putPlain, List.mem_cons, written_iff, v_eq, List.length_append,
      List.length_singleton]
    omega

-- Every field takes three characters.
theorem putField_shows (first second third : UInt8) (shows : Shows line hex plain)
    (room : hex.length + 3 ≤ 54) :
    Shows (((line.putHex first).putHex second).putHex third) (hex ++ [first, second, third])
      plain := by
  have one : (hex ++ [first]).length = hex.length + 1 := List.length_append
  have two : (hex ++ [first] ++ [second]).length = hex.length + 2 := by
    rw [List.length_append, one, List.length_singleton]
  have begun := putHex_shows first shows (by omega)
  have continued := putHex_shows second begun (by omega)
  have ended := putHex_shows third continued (by omega)
  rw [List.append_assoc, List.append_assoc] at ended
  exact ended

theorem gap_shows (shows : Shows line hex plain) (room : hex.length + 3 ≤ 54) :
    Shows line.gap (hex ++ blanks 1) plain :=
  putField_shows 32 32 32 shows room

theorem gaps_shows (count : Nat) (shows : Shows line hex plain)
    (room : hex.length + 3 * count ≤ 54) : Shows (line.gaps count) (hex ++ blanks count) plain := by
  induction count generalizing line hex with
  | zero =>
      have nothing : blanks 0 = [] := rfl
      rw [nothing, List.append_nil]
      exact shows
  | succ count ih =>
      have more : hex ++ blanks (count + 1) = hex ++ blanks 1 ++ blanks count := by
        rw [List.append_assoc, blanks, blanks, blanks, List.replicate_append_replicate,
          Nat.mul_succ, Nat.add_comm]
      rw [more]
      exact ih (gap_shows shows (by omega))
        (by rw [List.length_append, blanks_length]; omega)

section
variable (isprint : IsPrint)

theorem byteLoop_shows (left : Nat) (bytes : List UInt8) (shows : Shows line hex plain)
    (room : hex.length + 3 * left ≤ 54) :
    (byteLoop isprint left bytes line).1 = left - bytes.length ∧
      (byteLoop isprint left bytes line).2.1 = bytes.drop left ∧
      Shows (byteLoop isprint left bytes line).2.2 (hex ++ (bytes.take left).flatMap field)
        (plain ++ (bytes.take left).map (shown isprint)) := by
  induction left generalizing bytes line hex plain with
  | zero =>
      refine ⟨(Nat.zero_sub _).symm, rfl, ?_⟩
      simp only [List.take_zero, List.flatMap_nil, List.map_nil, List.append_nil]
      exact shows
  | succ left ih =>
      cases bytes with
      | nil =>
          refine ⟨rfl, rfl, ?_⟩
          simp only [List.take_nil, List.flatMap_nil, List.map_nil, List.append_nil]
          exact shows
      | cons byte bytes =>
          have third : Shows _ (hex ++ field byte) plain :=
            putField_shows (high byte) (low byte) 32 shows (by omega)
          have length : (hex ++ field byte).length = hex.length + 3 := List.length_append
          have fourth := putPlain_shows (shown isprint byte) third (by omega)
          obtain ⟨count, rest, later⟩ := ih bytes fourth (by omega)
          refine ⟨?_, rest, ?_⟩
          · rw [byteLoop, count, List.length_cons, Nat.succ_sub_succ]
          · rw [List.take_succ_cons, List.flatMap_cons, List.map_cons, ← List.append_assoc,
              List.append_cons]
            exact later

theorem block_shows (bytes : List UInt8) (shows : Shows line hex plain)
    (room : hex.length + 27 ≤ 54) :
    (block isprint bytes line).1 = bytes.drop 8 ∧
      Shows (block isprint bytes line).2 (hex ++ blockText (bytes.take 8))
        (plain ++ (bytes.take 8).map (shown isprint)) := by
  obtain ⟨count, rest, drawn⟩ := byteLoop_shows isprint 8 bytes shows (by omega)
  refine ⟨rest, ?_⟩
  have taken : (bytes.take 8).length = min 8 bytes.length := List.length_take
  have left : 8 - bytes.length = 8 - (bytes.take 8).length := by omega
  have padded := gaps_shows (8 - (bytes.take 8).length) drawn
    (by rw [List.length_append, bytes_length]; omega)
  have separated := gap_shows padded
    (by rw [List.length_append, List.length_append, bytes_length, blanks_length]; omega)
  rw [block, count, left, blockText, ← List.append_assoc, ← List.append_assoc]
  exact separated

theorem emptyBlocks_shows (count : Nat) (shows : Shows line hex plain)
    (room : hex.length + 27 * count ≤ 54) :
    Shows (emptyBlocks count line) (hex ++ blocksText count []) plain := by
  induction count generalizing line hex with
  | zero =>
      rw [blocksText, List.append_nil]
      exact shows
  | succ count ih =>
      have padded := gaps_shows 8 shows (by omega)
      have separated := gap_shows padded (by rw [List.length_append, blanks_length]; omega)
      have length : (hex ++ blanks 8 ++ blanks 1).length = hex.length + 27 := by
        rw [List.length_append, List.length_append, blanks_length, blanks_length]
      have later := ih separated (by omega)
      rw [List.append_assoc, List.append_assoc] at later
      rw [blocksText, blockText, List.append_assoc]
      exact later

theorem blocks_shows (count : Nat) (bytes : List UInt8) (shows : Shows line hex plain)
    (room : hex.length + 27 * count ≤ 54) :
    (blockLoop isprint count bytes line).2.1 = bytes.drop (8 * count) ∧
      Shows (emptyBlocks (blockLoop isprint count bytes line).1
          (blockLoop isprint count bytes line).2.2)
        (hex ++ blocksText count bytes)
        (plain ++ (bytes.take (8 * count)).map (shown isprint)) := by
  induction count generalizing bytes line hex plain with
  | zero =>
      refine ⟨rfl, ?_⟩
      rw [Nat.mul_zero, List.take_zero, List.map_nil, List.append_nil, blocksText, List.append_nil]
      exact shows
  | succ count ih =>
      cases bytes with
      | nil =>
          refine ⟨List.drop_nil.symm, ?_⟩
          rw [List.take_nil, List.map_nil, List.append_nil]
          exact emptyBlocks_shows (count + 1) shows room
      | cons byte bytes =>
          obtain ⟨rest, drawn⟩ := block_shows isprint (byte :: bytes) shows (by omega)
          have length := block_length _ (List.length_take_le 8 (byte :: bytes))
          obtain ⟨remaining, later⟩ := ih ((byte :: bytes).drop 8) drawn
            (by rw [List.length_append, length]; omega)
          have eight : 8 * (count + 1) = 8 + 8 * count := by omega
          rw [blockLoop, rest]
          refine ⟨?_, ?_⟩
          · rw [remaining, List.drop_drop, eight]
          · rw [blocksText, eight, List.take_add, List.map_append, ← List.append_assoc,
              ← List.append_assoc]
            exact later

/-! A whole line, and all lines. -/

structure Drawn (chunk : List UInt8) (line : Line) : Prop where
  inside : ∀ index ∈ line.written, index ≤ 70
  filled : ∀ index < 54, index ∈ line.written
  decoded : decode line.printed = chunk
  plain_eq : plainText line.printed = chunk.map (shown isprint)

theorem shown_visible (byte : UInt8) : shown isprint byte ≠ 0 := by
  rw [shown]
  split
  · rename_i prints
    rintro rfl
    rw [isprint.nul] at prints
    cases prints
  · decide

theorem terminate_printed (shows : Shows line hex plain) (full : hex.length = 54)
    (fits : plain.length ≤ 16) (visible : ∀ character ∈ hex ++ plain, character ≠ 0) :
    line.terminate.printed = hex ++ plain := by
  have stored : store line.cells (54 + plain.length) [0] (54 + plain.length) = 0 := by
    simp [store]
  have room : 71 = 54 + plain.length + ((16 - plain.length) + 1) := by omega
  have cells : line.terminate.cells = store line.cells (54 + plain.length) [0] := by
    rw [Line.terminate, shows.v_eq]
  have hex_eq := shows.hex_eq
  rw [full] at hex_eq
  have text : load line.terminate.cells 0 71 =
      hex ++ plain ++ 0 :: load line.terminate.cells (54 + plain.length + 1)
        (16 - plain.length) := by
    rw [cells, room, load_add, load_add, Nat.zero_add, Nat.zero_add,
      load_store_before _ _ _ _ _ (by omega), load_store_before _ _ _ _ _ (Nat.le_refl _),
      hex_eq, shows.plain_eq, load_succ, stored]
  rw [Line.printed, text, IPAddress.cString, List.takeWhile_append_of_pos,
    List.takeWhile_cons_of_neg, List.append_nil]
  · simp
  · intro character member
    exact decide_eq_true (visible character member)

theorem dumpLine_drawn (bytes : List UInt8) (cells : Memory UInt8) :
    (dumpLine isprint bytes cells).1 = bytes.drop 16 ∧
      Drawn isprint (bytes.take 16) (dumpLine isprint bytes cells).2 := by
  have blank : Shows ⟨cells, 0, 54, []⟩ [] [] := by
    refine ⟨rfl, rfl, rfl, rfl, ?_⟩
    intro index
    simp
  obtain ⟨rest, shows⟩ := blocks_shows isprint 2 bytes blank (by decide)
  have sixteen : 8 * 2 = 16 := rfl
  rw [sixteen] at rest
  rw [sixteen, List.nil_append, List.nil_append] at shows
  have full : (blocksText 2 bytes).length = 54 := blocks_length 2 bytes
  have taken : ((bytes.take 16).map (shown isprint)).length ≤ 16 := by
    rw [List.length_map]
    exact List.length_take_le 16 bytes
  have printed := terminate_printed shows full taken (by
    rw [List.forall_mem_append]
    refine ⟨blocks_visible 2 bytes, ?_⟩
    intro character member
    obtain ⟨byte, _, rfl⟩ := List.mem_map.mp member
    exact shown_visible isprint byte)
  have written := shows.written_iff
  refine ⟨rest, ?_, ?_, ?_, ?_⟩
  · intro index member
    rcases List.mem_cons.mp member with rfl | earlier
    · rw [shows.v_eq]
      omega
    · have bound := (written index).mp earlier
      omega
  · intro index small
    exact List.mem_cons_of_mem _ ((written index).mpr (Or.inl (by omega)))
  · rw [dumpLine, printed, decode, ← full, List.take_left, fields_blocks]
  · rw [dumpLine, printed, plainText, ← full, List.drop_left]

theorem dumpLoop_drawn (rounds : Nat) (bytes : List UInt8) (cells : Memory UInt8)
    (enough : bytes.length ≤ rounds) :
    (dumpLoop isprint rounds bytes cells).2 = [] ∧
      (dumpLoop isprint rounds bytes cells).1.length = (bytes.length + 15) / 16 ∧
      (∀ line ∈ (dumpLoop isprint rounds bytes cells).1, ∃ chunk, Drawn isprint chunk line) ∧
      (dumpLoop isprint rounds bytes cells).1.flatMap (fun line => decode line.printed) =
        bytes := by
  induction rounds generalizing bytes cells with
  | zero =>
      rw [List.eq_nil_of_length_eq_zero (Nat.eq_zero_of_le_zero enough)]
      exact ⟨rfl, rfl, List.forall_mem_nil _, rfl⟩
  | succ rounds ih =>
      cases bytes with
      | nil => exact ⟨rfl, rfl, List.forall_mem_nil _, rfl⟩
      | cons byte bytes =>
          obtain ⟨rest, drawn⟩ := dumpLine_drawn isprint (byte :: bytes) cells
          have left : ((byte :: bytes).drop 16).length = bytes.length + 1 - 16 := by
            rw [List.length_drop, List.length_cons]
          rw [List.length_cons] at enough
          obtain ⟨ended, count, each, decoded⟩ :=
            ih ((byte :: bytes).drop 16) (dumpLine isprint (byte :: bytes) cells).2.cells (by omega)
          rw [dumpLoop, rest]
          refine ⟨ended, ?_, List.forall_mem_cons.mpr ⟨⟨_, drawn⟩, each⟩, ?_⟩
          · rw [List.length_cons, count, left, List.length_cons]
            omega
          · rw [List.flatMap_cons, decoded, drawn.decoded, List.take_append_drop]

end

/-- The dump of any view ends, stays inside its array, fills the fields of every line it
prints, has one line for each sixteen bytes begun and decodes to the bytes of the view, with
one character of plain text for each. -/
theorem dump_faithful (view : BufferRef) (isprint : IsPrint) (description : List UInt8)
    (uninitialised : Memory UInt8) :
    let dump := view.dump isprint description uninitialised
    dump.rest = [] ∧ dump.lines.length = (view.content.length + 15) / 16 ∧
      (∀ line ∈ dump.lines, (∀ index ∈ line.written, index ≤ 70) ∧
        (∀ index < 54, index ∈ line.written) ∧
        plainText line.printed = (decode line.printed).map (shown isprint)) ∧
      dump.lines.flatMap (fun line => decode line.printed) = view.content := by
  obtain ⟨ended, count, each, decoded⟩ :=
    dumpLoop_drawn isprint view.content.length view.content uninitialised (Nat.le_refl _)
  refine ⟨ended, count, ?_, decoded⟩
  intro line member
  obtain ⟨chunk, inside, filled, chunk_eq, plain_eq⟩ := each line member
  refine ⟨inside, filled, ?_⟩
  rw [chunk_eq]
  exact plain_eq

end Xio.HexDump
