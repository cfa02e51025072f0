import Chip8.Instruction.Assembly
import Chip8.Proofs.Encoding

/-!
# `Chip8.Proofs.Disassembly`: assembly text, read back

A line of assembly can be read back. `Numeral.ofChars` reads a number, `Operand.ofChars` an
operand, and `Instruction.ofParts?` finds the instruction that a mnemonic and its operands stand
for. `Instruction.ofLine?` takes a line apart at its blanks and commas and puts these together. Each
of them comes with the theorem that it reads what was written, and `ofLine?_text` is the last:
reading the text of an instruction gives the instruction, with operands of any width.

So no text stands for two instructions. Nor does it stand for two opcodes, since an opcode is
written again from its instruction, and a listing has a line for each opcode, so it determines them
all (`disassembly_is_unambiguous`).

What makes a line readable is that mnemonics and operands are words (`IsWord`): no blank, comma or
newline occurs in them. What tells a byte from an address is its length: a byte never has three
digits.
-/

set_option autoImplicit false

namespace Chip8

/-! ### Words -/

/-- The characters that end a mnemonic, an operand or a line. -/
def isSeparator (c : Char) : Bool := c == ' ' || c == ',' || c == '\n'

/-- No separator occurs in a word. -/
def IsWord (cs : List Char) : Prop := ∀ c ∈ cs, isSeparator c = false

/-- No separator occurs in a word. -/
theorem IsWord.notMem {cs : List Char} {c : Char} (hword : IsWord cs)
    (h : isSeparator c = true) : c ∉ cs :=
  fun hc => Bool.false_ne_true ((hword c hc).symm.trans h)

/-- A character that does not occur differs from each one that does, as filters and searches ask. -/
theorem bne_of_notMem {cs : List Char} {c : Char} (h : c ∉ cs) : ∀ d ∈ cs, (d != c) = true := by
  intro d hd
  rw [bne_iff_ne]
  rintro rfl
  exact h hd

/-- Where a part ends is told by the character behind it, if that is not in the part. -/
theorem append_cons_inj {c : Char} {part part' rest rest' : List Char} (hpart : c ∉ part)
    (hpart' : c ∉ part') (h : part ++ c :: rest = part' ++ c :: rest') :
    part = part' ∧ rest = rest' := by
  have htake := congrArg (List.takeWhile (· != c)) h
  have hdrop := congrArg (List.dropWhile (· != c)) h
  rw [List.takeWhile_append_of_pos (bne_of_notMem hpart),
    List.takeWhile_append_of_pos (bne_of_notMem hpart')] at htake
  rw [List.dropWhile_append_of_pos (bne_of_notMem hpart),
    List.dropWhile_append_of_pos (bne_of_notMem hpart')] at hdrop
  exact ⟨by simpa using htake, by simpa using hdrop⟩

/-! ### Numbers -/

namespace Numeral

/-- The digit that a character stands for. -/
def digitOfChar (c : Char) : Nat := if c.toNat < 0x40 then c.toNat - 0x30 else c.toNat - 0x37

/-- The number that characters stand for. -/
def ofChars (base : Nat) (cs : List Char) : Nat := value base (cs.map digitOfChar)

/-- A digit is read back from its character. -/
theorem digitOfChar_digitChar : ∀ d < 16, digitOfChar (digitChar d) = d := by decide

/-- No digit's character is a separator. -/
theorem isSeparator_digitChar : ∀ d < 16, isSeparator (digitChar d) = false := by decide

/-- The digits below ten are written as decimal digits. -/
theorem isDigit_digitChar : ∀ d < 10, (digitChar d).isDigit = true := by decide

/-- The digits of a number are smaller than the base. -/
theorem lt_of_mem_digits {base n d : Nat} (hbase : 2 ≤ base) (h : d ∈ digits base n) :
    d < base := by
  fun_induction digits base n with
  | case1 n hn ih =>
    rcases List.mem_append.mp h with hmem | hlast
    · exact ih hmem
    · rw [List.mem_singleton.mp hlast]
      exact Nat.mod_lt n (by omega)
  | case2 n hn =>
    rw [List.mem_singleton.mp h]
    omega

/-- The digits of a number with zeros in front are smaller than the base. -/
theorem lt_of_mem_padded {base width n d : Nat} (hbase : 2 ≤ base)
    (h : d ∈ padded width (digits base n)) : d < base := by
  rcases List.mem_append.mp h with hzero | hmem
  · rw [List.eq_of_mem_replicate hzero]
    omega
  · exact lt_of_mem_digits hbase hmem

/-- Each character of a number is a digit. -/
theorem mem_chars {base width n : Nat} {c : Char} (hbase : 2 ≤ base)
    (h : c ∈ chars base width n) : ∃ d < base, c = digitChar d := by
  obtain ⟨d, hd, rfl⟩ := List.mem_map.mp h
  exact ⟨d, lt_of_mem_padded hbase hd, rfl⟩

/-- A number is written as a word. -/
theorem isWord_chars (base width n : Nat) (hbase : 2 ≤ base) (hbase' : base ≤ 16) :
    IsWord (chars base width n) := by
  intro c hc
  obtain ⟨d, hd, rfl⟩ := mem_chars hbase hc
  exact isSeparator_digitChar d (Nat.lt_of_lt_of_le hd hbase')

/-- Reading the characters of a number gives the number. -/
theorem ofChars_chars (base width n : Nat) (hbase : 2 ≤ base) (hbase' : base ≤ 16) :
    ofChars base (chars base width n) = n := by
  have hdigits : (padded width (digits base n)).map (digitOfChar ∘ digitChar)
      = padded width (digits base n) := by
    refine (List.map_congr_left fun d hd => ?_).trans (List.map_id _)
    exact digitOfChar_digitChar d (Nat.lt_of_lt_of_le (lt_of_mem_padded hbase hd) hbase')
  rw [ofChars, chars, List.map_map, hdigits, value_padded, value_digits]

/-- A number below the square of the base has at most two digits. -/
theorem length_digits_le_two {base n : Nat} (h : n < base * base) :
    (digits base n).length ≤ 2 := by
  by_cases hn : 2 ≤ base ∧ base ≤ n
  · have hdiv : n / base < base := Nat.div_lt_of_lt_mul h
    rw [digits, if_pos hn, digits, if_neg (by omega)]
    exact Nat.le_refl 2
  · rw [digits, if_neg hn]
    exact Nat.le_succ 1

/-- A number takes as many characters as it has digits, and at least the given width. -/
theorem length_chars (base width n : Nat) :
    (chars base width n).length = max width (digits base n).length := by
  simp only [chars, padded, List.length_map, List.length_append, List.length_replicate]
  omega

end Numeral

open Numeral (chars)

/-! ### Operands -/

namespace Operand

/-- The operand that was written as these characters. Digits alone are a sprite height, and a number
behind its mark is a byte or, with more than two digits, an address. -/
def ofChars (cs : List Char) : Operand :=
  if cs.all Char.isDigit then .count (UInt8.ofNat (Numeral.ofChars 10 cs)) else
  match cs with
  | 'V' :: digits => .register (UInt8.ofNat (Numeral.ofChars 16 digits))
  | '0' :: 'x' :: digits =>
    if digits.length ≤ 2 then .byte (UInt8.ofNat (Numeral.ofChars 16 digits))
    else .address (UInt16.ofNat (Numeral.ofChars 16 digits))
  | ['I'] => .index
  | ['D', 'T'] => .delayTimer
  | ['S', 'T'] => .soundTimer
  | ['K'] => .key
  | ['F'] => .glyph
  | ['B'] => .decimalDigits
  | _ => .atIndex

/-- The characters of an operand. -/
def textChars : Operand → List Char
  | .register x => 'V' :: chars 16 1 x.toNat
  | .byte value => '0' :: 'x' :: chars 16 2 value.toNat
  | .address value => '0' :: 'x' :: chars 16 3 value.toNat
  | .count n => chars 10 0 n.toNat
  | .index => ['I']
  | .atIndex => ['[', 'I', ']']
  | .delayTimer => ['D', 'T']
  | .soundTimer => ['S', 'T']
  | .key => ['K']
  | .glyph => ['F']
  | .decimalDigits => ['B']

/-- The characters of an operand's text. -/
theorem toList_text (operand : Operand) : operand.text.toList = operand.textChars := by
  have hmark (mark : String) (cs : List Char) :
      (mark ++ String.ofList cs).toList = mark.toList ++ cs := by
    rw [String.toList_append, String.toList_ofList]
  cases operand with
  | register x => exact hmark "V" _
  | byte value | address value => exact hmark "0x" _
  | count n => exact String.toList_ofList
  | _ => rfl

/-- Reading an operand that was written gives the operand. -/
theorem ofChars_textChars (operand : Operand) : ofChars operand.textChars = operand := by
  cases operand with
  | register x =>
    have hread := Numeral.ofChars_chars 16 1 x.toNat (by decide) (by decide)
    simp [ofChars, textChars, hread]
  | byte value =>
    have hlength : (chars 16 2 value.toNat).length ≤ 2 := by
      rw [Numeral.length_chars]
      exact Nat.max_le.mpr ⟨Nat.le_refl 2, Numeral.length_digits_le_two value.toNat_lt⟩
    have hread := Numeral.ofChars_chars 16 2 value.toNat (by decide) (by decide)
    simp [ofChars, textChars, hread, hlength]
  | address value =>
    have hlength : ¬ (chars 16 3 value.toNat).length ≤ 2 := by
      rw [Numeral.length_chars]
      omega
    have hread := Numeral.ofChars_chars 16 3 value.toNat (by decide) (by decide)
    simp [ofChars, textChars, hread, hlength]
  | count n =>
    have hdigits : (chars 10 0 n.toNat).all Char.isDigit = true := by
      rw [List.all_eq_true]
      intro c hc
      obtain ⟨d, hd, rfl⟩ := Numeral.mem_chars (by decide) hc
      exact Numeral.isDigit_digitChar d hd
    have hread := Numeral.ofChars_chars 10 0 n.toNat (by decide) (by decide)
    simp only [ofChars, textChars, hdigits, if_true, hread, UInt8.ofNat_toNat]
  | _ => rfl

/-- An operand is written as a word. -/
theorem isWord_textChars (operand : Operand) : IsWord operand.textChars := by
  cases operand with
  | register x =>
    have hdigits := Numeral.isWord_chars 16 1 x.toNat (by decide) (by decide)
    exact List.forall_mem_cons.mpr ⟨rfl, hdigits⟩
  | byte value | address value =>
    refine List.forall_mem_cons.mpr ⟨rfl, List.forall_mem_cons.mpr ⟨rfl, ?_⟩⟩
    exact Numeral.isWord_chars 16 _ value.toNat (by decide) (by decide)
  | count n => exact Numeral.isWord_chars 10 0 n.toNat (by decide) (by decide)
  | _ => simp [textChars, IsWord, isSeparator]

/-- What follows the mnemonic in a line: a blank and the operands, if there are any. -/
def lineChars : List Operand → List Char
  | [] => []
  | operand :: operands => ' ' :: [',', ' '].intercalate ((operand :: operands).map textChars)

/-- The operands that were written after a mnemonic. -/
def ofLineChars (cs : List Char) : List Operand :=
  if cs = [] then [] else ((cs.filter (· != ' ')).splitOn ',').map ofChars

/-- Without blanks, words are separated by commas alone. -/
theorem filter_intercalate {words : List (List Char)} (h : ∀ word ∈ words, ' ' ∉ word) :
    ([',', ' '].intercalate words).filter (· != ' ') = [','].intercalate words := by
  induction words with
  | nil => rfl
  | cons word words ih =>
    have hword : word.filter (· != ' ') = word :=
      List.filter_eq_self.mpr (bne_of_notMem (h word List.mem_cons_self))
    have hwords := ih fun w hw => h w (List.mem_cons_of_mem _ hw)
    cases words with
    | nil => simpa using hword
    | cons next words =>
      rw [List.intercalate_cons_cons, List.intercalate_cons_cons, List.filter_append, hwords,
        List.filter_append, hword]
      rfl

/-- A character that is in no word and not in the separator is not in the words put together. -/
theorem notMem_intercalate {sep : List Char} {words : List (List Char)} {c : Char}
    (hsep : c ∉ sep) (h : ∀ word ∈ words, c ∉ word) : c ∉ sep.intercalate words := by
  induction words with
  | nil => exact List.not_mem_nil
  | cons word words ih =>
    have hword := h word List.mem_cons_self
    have hwords := ih fun w hw => h w (List.mem_cons_of_mem _ hw)
    cases words with
    | nil => simpa using hword
    | cons next words => simp [List.intercalate_cons_cons, hword, hsep, hwords]

/-- Reading the operands of a line gives the operands. -/
theorem ofLineChars_lineChars (operands : List Operand) :
    ofLineChars (lineChars operands) = operands := by
  cases operands with
  | nil => rfl
  | cons operand operands =>
    have hblank : ∀ word ∈ (operand :: operands).map textChars, ' ' ∉ word :=
      List.forall_mem_map.mpr fun o _ => o.isWord_textChars.notMem rfl
    have hcomma : ∀ word ∈ (operand :: operands).map textChars, ',' ∉ word :=
      List.forall_mem_map.mpr fun o _ => o.isWord_textChars.notMem rfl
    calc ofLineChars (lineChars (operand :: operands))
      _ = (([',', ' '].intercalate ((operand :: operands).map textChars)).filter (· != ' ')
            |>.splitOn ',').map ofChars := rfl
      _ = ((operand :: operands).map textChars).map ofChars := by
        rw [filter_intercalate hblank,
          List.splitOn_intercalate ',' hcomma (List.cons_ne_nil _ _)]
      _ = (operand :: operands).map id := by
        rw [List.map_map]
        exact List.map_congr_left fun o _ => o.ofChars_textChars
      _ = operand :: operands := List.map_id _

/-- Operands are written on one line. -/
theorem newline_notMem_lineChars (operands : List Operand) : '\n' ∉ lineChars operands := by
  cases operands with
  | nil => exact List.not_mem_nil
  | cons operand operands =>
    have hwords : '\n' ∉ [',', ' '].intercalate ((operand :: operands).map textChars) :=
      notMem_intercalate (by decide)
        (List.forall_mem_map.mpr fun o _ => o.isWord_textChars.notMem rfl)
    exact List.not_mem_cons_of_ne_of_not_mem (by decide) hwords

end Operand

/-! ### Lines -/

namespace Instruction

/-- The instruction of a mnemonic and its operands. -/
def ofParts? (mnemonic : String) (operands : List Operand) : Option Instruction :=
  match mnemonic, operands with
  | "SYS", [.address address] => some (.system address)
  | "CLS", [] => some .clearScreen
  | "RET", [] => some .ret
  | "JP", [.address address] => some (.jump address)
  | "JP", [.register _, .address address] => some (.jumpOffset address)
  | "CALL", [.address address] => some (.call address)
  | "SE", [.register x, .byte value] => some (.skip (.byteEq x value))
  | "SE", [.register x, .register y] => some (.skip (.registerEq x y))
  | "SNE", [.register x, .byte value] => some (.skip (.byteNe x value))
  | "SNE", [.register x, .register y] => some (.skip (.registerNe x y))
  | "SKP", [.register x] => some (.skip (.keyDown x))
  | "SKNP", [.register x] => some (.skip (.keyUp x))
  | "LD", [.register x, .byte value] => some (.load x value)
  | "LD", [.register x, .register y] => some (.alu .copy x y)
  | "LD", [.register x, .delayTimer] => some (.readDelay x)
  | "LD", [.register x, .key] => some (.awaitKey x)
  | "LD", [.register x, .atIndex] => some (.loadRegisters x)
  | "LD", [.index, .address address] => some (.setIndex address)
  | "LD", [.delayTimer, .register x] => some (.setDelay x)
  | "LD", [.soundTimer, .register x] => some (.setSound x)
  | "LD", [.glyph, .register x] => some (.glyph x)
  | "LD", [.decimalDigits, .register x] => some (.storeDecimal x)
  | "LD", [.atIndex, .register x] => some (.storeRegisters x)
  | "ADD", [.register x, .byte value] => some (.addByte x value)
  | "ADD", [.register x, .register y] => some (.alu .add x y)
  | "ADD", [.index, .register x] => some (.addIndex x)
  | "OR", [.register x, .register y] => some (.alu .or x y)
  | "AND", [.register x, .register y] => some (.alu .and x y)
  | "XOR", [.register x, .register y] => some (.alu .xor x y)
  | "SUB", [.register x, .register y] => some (.alu .sub x y)
  | "SUBN", [.register x, .register y] => some (.alu .subFrom x y)
  | "SHR", [.register x, .register y] => some (.alu .shiftRight x y)
  | "SHL", [.register x, .register y] => some (.alu .shiftLeft x y)
  | "RND", [.register x, .byte mask] => some (.random x mask)
  | "DRW", [.register x, .register y, .count height] => some (.draw x y height)
  | _, _ => none

/-- The mnemonic and the operands of an instruction are those of no other one. -/
theorem ofParts?_parts (instr : Instruction) :
    ofParts? instr.mnemonic instr.operands = some instr := by
  cases instr with
  | skip condition => cases condition <;> rfl
  | alu op x y => cases op <;> rfl
  | _ => rfl

/-- A mnemonic is a word. -/
theorem isWord_mnemonic (instr : Instruction) : IsWord instr.mnemonic.toList := by
  cases instr with
  | skip condition => cases condition <;> simp [mnemonic, Condition.mnemonic, IsWord, isSeparator]
  | alu op x y => cases op <;> simp [mnemonic, AluOp.mnemonic, IsWord, isSeparator]
  | _ => simp [mnemonic, IsWord, isSeparator]

/-- The characters of an instruction's text are its mnemonic and its operands. -/
theorem toList_text (instr : Instruction) :
    instr.text.toList = instr.mnemonic.toList ++ Operand.lineChars instr.operands := by
  unfold text
  cases instr.operands with
  | nil => exact (List.append_nil _).symm
  | cons operand operands =>
    have hmap : (operand :: operands).map (fun o => o.text.toList)
        = (operand :: operands).map Operand.textChars :=
      List.map_congr_left fun o _ => o.toList_text
    simp only [String.toList_append, String.toList_intercalate, List.map_map,
      Function.comp_def, hmap, List.append_assoc]
    rfl

/-- Reads a line: the mnemonic up to the first blank, and then the operands. -/
def ofLine? (line : List Char) : Option Instruction :=
  ofParts? (String.ofList (line.takeWhile (· != ' ')))
    (Operand.ofLineChars (line.dropWhile (· != ' ')))

/-- Reading the text of an instruction gives the instruction. -/
theorem ofLine?_text (instr : Instruction) : ofLine? instr.text.toList = some instr := by
  have hmnemonic : ∀ c ∈ instr.mnemonic.toList, (c != ' ') = true :=
    bne_of_notMem (instr.isWord_mnemonic.notMem rfl)
  -- The mnemonic ends where the operands begin, or with the line.
  have htake : (Operand.lineChars instr.operands).takeWhile (· != ' ') = [] := by
    cases instr.operands <;> rfl
  have hdrop : (Operand.lineChars instr.operands).dropWhile (· != ' ')
      = Operand.lineChars instr.operands := by
    cases instr.operands <;> rfl
  rw [ofLine?, toList_text, List.takeWhile_append_of_pos hmnemonic,
    List.dropWhile_append_of_pos hmnemonic, htake, hdrop, List.append_nil, String.ofList_toList,
    Operand.ofLineChars_lineChars, ofParts?_parts]

/-- Different instructions have different texts. -/
theorem eq_of_text_eq {instr instr' : Instruction} (h : instr.text = instr'.text) :
    instr = instr' := by
  have hread := ofLine?_text instr
  rw [h, ofLine?_text instr'] at hread
  exact (Option.some.inj hread).symm

/-! ### Listings -/

/-- An instruction's text is one line. -/
theorem newline_notMem_text (instr : Instruction) : '\n' ∉ instr.text.toList := by
  rw [toList_text, List.mem_append, not_or]
  exact ⟨instr.isWord_mnemonic.notMem rfl, Operand.newline_notMem_lineChars _⟩

/-- The listing of a program: a line for each instruction. -/
def listing : List Instruction → String
  | [] => ""
  | instr :: instrs => instr.text ++ "\n" ++ listing instrs

/-- A listing starts with the line of its first instruction. -/
theorem toList_listing_cons (instr : Instruction) (instrs : List Instruction) :
    (listing (instr :: instrs)).toList = instr.text.toList ++ '\n' :: (listing instrs).toList := by
  rw [listing, String.toList_append, String.toList_append, List.append_assoc]
  rfl

/-- Different programs have different listings. -/
theorem eq_of_listing_eq {instrs instrs' : List Instruction}
    (h : listing instrs = listing instrs') : instrs = instrs' := by
  have hlist := congrArg String.toList h
  clear h
  induction instrs generalizing instrs' with
  | nil =>
    cases instrs' with
    | nil => rfl
    | cons instr' instrs' => simp [listing] at hlist
  | cons instr instrs ih =>
    cases instrs' with
    | nil => simp [listing] at hlist
    | cons instr' instrs' =>
      rw [toList_listing_cons, toList_listing_cons] at hlist
      obtain ⟨htext, hrest⟩ := append_cons_inj instr.newline_notMem_text
        instr'.newline_notMem_text hlist
      rw [eq_of_text_eq (String.toList_inj.mp htext), ih hrest]

/-- Opcodes are written again from the instructions they stand for. -/
theorem map_opcode_of_mapM_decode? {ws : List Opcode} {instrs : List Instruction}
    (h : ws.mapM decode? = some instrs) : instrs.map opcode = ws := by
  induction ws generalizing instrs with
  | nil =>
    cases h
    rfl
  | cons w ws ih =>
    rw [List.mapM_cons] at h
    obtain ⟨instr, hinstr, h⟩ := Option.bind_eq_some_iff.mp h
    obtain ⟨rest, hrest, h⟩ := Option.bind_eq_some_iff.mp h
    cases h
    rw [List.map_cons, opcode_of_decode? hinstr, ih hrest]

/-- Disassembly is unambiguous: no two instructions have the same text, whatever the width of their
operands. Nor have two different opcodes that stand for instructions, and a listing determines the
opcodes that it was made from. -/
theorem disassembly_is_unambiguous :
    (∀ instr instr' : Instruction, instr.text = instr'.text → instr = instr')
      ∧ (∀ (w w' : Opcode) (instr instr' : Instruction),
          decode? w = some instr → decode? w' = some instr' → w ≠ w' → instr.text ≠ instr'.text)
      ∧ ∀ (ws ws' : List Opcode) (instrs instrs' : List Instruction),
          ws.mapM decode? = some instrs → ws'.mapM decode? = some instrs' →
          listing instrs = listing instrs' → ws = ws' := by
  refine ⟨fun instr instr' => eq_of_text_eq, ?_, ?_⟩
  · intro w w' instr instr' hw hw' hne htext
    rw [← opcode_of_decode? hw, ← opcode_of_decode? hw', eq_of_text_eq htext] at hne
    exact hne rfl
  · intro ws ws' instrs instrs' hws hws' hlisting
    rw [← map_opcode_of_mapM_decode? hws, ← map_opcode_of_mapM_decode? hws',
      eq_of_listing_eq hlisting]

/-- A byte, an address and a register with the same last digit are told apart: `LD VA, 0x0F`,
`LD I, 0x00F` and `LD VA, VF`. -/
theorem disassembly_is_unambiguous_loads :
    (decode? 0x6A0F).getD clearScreen = load 0xA 0x0F
      ∧ (load 0xA 0x0F).text ≠ (setIndex 0x00F).text
      ∧ (load 0xA 0x0F).text ≠ (alu .copy 0xA 0xF).text
      ∧ [0x6A0F, 0xA00F] = [(load 0xA 0x0F).opcode, (setIndex 0x00F).opcode] := by
  have hbyte : decode? 0x6A0F = some (load 0xA 0x0F) := by rfl
  have hindex : decode? 0xA00F = some (setIndex 0x00F) := by rfl
  have hcopy : decode? 0x8AF0 = some (alu .copy 0xA 0xF) := by rfl
  obtain ⟨hinstrs, hopcodes, hlistings⟩ := disassembly_is_unambiguous
  exact ⟨hinstrs _ _ rfl,
    hopcodes 0x6A0F 0xA00F _ _ hbyte hindex (by decide),
    hopcodes 0x6A0F 0x8AF0 _ _ hbyte hcopy (by decide),
    hlistings _ _ [load 0xA 0x0F, setIndex 0x00F] [load 0xA 0x0F, setIndex 0x00F] rfl rfl rfl⟩

end Instruction

end Chip8
