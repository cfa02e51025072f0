import Chip8.Fault
import Chip8.Proofs.Disassembly

/-!
# `Chip8.Proofs.Wording`: what a fault says tells which fault it is

The message of a fault opens with words that no other cause opens with. Behind them stand the
numbers of the fault. A number is written in characters that read back as the number
(`Numeral.ofChars_chars`), and none of these is a blank. So a number can be told from the message
where a blank follows (`append_gap_inj`) or where the message ends. `Fault.eq_of_message_eq`
concludes that faults with the same message are the same.
-/

set_option autoImplicit false

namespace Chip8

/-! ### Numbers -/

namespace Numeral

/-- Different numbers are written in different characters. -/
theorem eq_of_chars_eq {base width n n' : Nat} (hbase : 2 ≤ base) (hbase' : base ≤ 16)
    (h : chars base width n = chars base width n') : n = n' := by
  rw [← ofChars_chars base width n hbase hbase', h, ofChars_chars base width n' hbase hbase']

/-- The characters of a number behind its mark. -/
theorem toList_hexLiteral (width n : Nat) :
    (hexLiteral width n).toList = '0' :: 'x' :: chars 16 width n := by
  simp [hexLiteral, hex]

/-- Different numbers behind the mark are different texts. -/
theorem eq_of_hexLiteral_eq {width n n' : Nat} (h : hexLiteral width n = hexLiteral width n') :
    n = n' := by
  have hlist := congrArg String.toList h
  rw [toList_hexLiteral, toList_hexLiteral] at hlist
  injection hlist with _ hlist
  injection hlist with _ hlist
  exact eq_of_chars_eq (by decide) (by decide) hlist

/-- No blank is in a number behind its mark. -/
theorem blank_notMem_hexLiteral (width n : Nat) : ' ' ∉ (hexLiteral width n).toList := by
  have hword := (isWord_chars 16 width n (by decide) (by decide)).notMem (c := ' ') rfl
  rw [toList_hexLiteral]
  simp [hword]

/-- Different numbers are different texts in decimal. -/
theorem eq_of_decimal_eq {n n' : Nat} (h : decimal n = decimal n') : n = n' := by
  have hchars : chars 10 0 n = chars 10 0 n' := by
    simpa [decimal] using congrArg String.toList h
  exact eq_of_chars_eq (by decide) (by decide) hchars

/-- No blank is in a number in decimal. -/
theorem blank_notMem_decimal (n : Nat) : ' ' ∉ (decimal n).toList := by
  have hword := (isWord_chars 10 0 n (by decide) (by decide)).notMem (c := ' ') rfl
  simpa [decimal] using hword

end Numeral

open Numeral (decimal hexLiteral blank_notMem_decimal blank_notMem_hexLiteral eq_of_decimal_eq
  eq_of_hexLiteral_eq)

/-! ### Messages -/

/-- A text that begins with a word tells which word it is, if a blank follows and the word has
none. -/
theorem append_gap_inj {word word' gap rest rest' : String} (hgap : gap.toList.head? = some ' ')
    (hword : ' ' ∉ word.toList) (hword' : ' ' ∉ word'.toList)
    (h : word ++ (gap ++ rest) = word' ++ (gap ++ rest')) : word = word' ∧ rest = rest' := by
  obtain ⟨after, hafter⟩ : ∃ after, gap.toList = ' ' :: after := List.head?_eq_some_iff.mp hgap
  have hlist := congrArg String.toList h
  simp only [String.toList_append, hafter, List.cons_append] at hlist
  obtain ⟨hsame, hrest⟩ := append_cons_inj hword hword' hlist
  exact ⟨String.toList_inj.mp hsame, String.toList_inj.mp (List.append_cancel_left hrest)⟩

namespace Fault

/-- The words that the message opens with, which depend on the cause alone. -/
def opening : Fault → String
  | .unknownOpcode .. => "unknown opcode "
  | .stackUnderflow _ => "return with an empty call stack at "
  | .outOfBounds _ => "memory access out of bounds at "
  | .reservedWrite _ => "write into reserved interpreter memory at "
  | .programTooLarge .. => "program is "
  | .invalidKey _ => "key "
  | .unreadable _ => "unable to read program: "

/-- What stands behind the opening: the numbers of the fault, and the words between them. -/
def details : Fault → String
  | .unknownOpcode opcode address =>
    hexLiteral 4 opcode.toNat ++ (" at " ++ hexLiteral 3 address.toNat)
  | .stackUnderflow address => hexLiteral 3 address.toNat
  | .outOfBounds address => hexLiteral 4 address
  | .reservedWrite address => hexLiteral 3 address
  | .programTooLarge size limit =>
    decimal size ++ (" bytes but at most " ++ (decimal limit ++ " bytes fit in memory"))
  | .invalidKey key => hexLiteral 1 key.toNat ++ " is not on the keypad"
  | .unreadable reason => reason

/-- A message is its opening and its details. -/
theorem message_eq (fault : Fault) : fault.message = fault.opening ++ fault.details := by
  cases fault with
  | unknownOpcode w a =>
    show "unknown opcode " ++ hexLiteral 4 w.toNat ++ " at " ++ hexLiteral 3 a.toNat = _
    rw [String.append_assoc, String.append_assoc]
    rfl
  | programTooLarge size limit =>
    show "program is " ++ decimal size ++ " bytes but at most " ++ decimal limit
      ++ " bytes fit in memory" = _
    rw [String.append_assoc, String.append_assoc, String.append_assoc]
    rfl
  | invalidKey k =>
    show "key " ++ hexLiteral 1 k.toNat ++ " is not on the keypad" = _
    rw [String.append_assoc]
    rfl
  | stackUnderflow | outOfBounds | reservedWrite | unreadable => rfl

/-- Faults with the same message are the same. -/
theorem eq_of_message_eq {fault fault' : Fault} (h : fault.message = fault'.message) :
    fault = fault' := by
  rw [message_eq, message_eq] at h
  have hlist := congrArg String.toList h
  -- Faults of two causes differ in their openings, and those of one cause in the details.
  cases fault with
  | unknownOpcode w a =>
    cases fault' with
    | unknownOpcode w' a' =>
      obtain ⟨hw, ha⟩ := append_gap_inj (by simp) (blank_notMem_hexLiteral 4 _)
        (blank_notMem_hexLiteral 4 _) ((String.append_right_inj _).mp h)
      rw [UInt16.toNat_inj.mp (eq_of_hexLiteral_eq hw),
        UInt16.toNat_inj.mp (eq_of_hexLiteral_eq ha)]
    | _ => simp [opening] at hlist
  | stackUnderflow a =>
    cases fault' with
    | stackUnderflow a' =>
      rw [UInt16.toNat_inj.mp (eq_of_hexLiteral_eq ((String.append_right_inj _).mp h))]
    | _ => simp [opening] at hlist
  | outOfBounds a =>
    cases fault' with
    | outOfBounds a' => rw [eq_of_hexLiteral_eq ((String.append_right_inj _).mp h)]
    | _ => simp [opening] at hlist
  | reservedWrite a =>
    cases fault' with
    | reservedWrite a' => rw [eq_of_hexLiteral_eq ((String.append_right_inj _).mp h)]
    | _ => simp [opening] at hlist
  | programTooLarge size limit =>
    cases fault' with
    | programTooLarge size' limit' =>
      obtain ⟨hsize, hrest⟩ := append_gap_inj (by simp) (blank_notMem_decimal _)
        (blank_notMem_decimal _) ((String.append_right_inj _).mp h)
      have hlimit := (String.append_left_inj _).mp hrest
      rw [eq_of_decimal_eq hsize, eq_of_decimal_eq hlimit]
    | _ => simp [opening] at hlist
  | invalidKey k =>
    cases fault' with
    | invalidKey k' =>
      have hkey := (String.append_left_inj _).mp ((String.append_right_inj _).mp h)
      rw [UInt8.toNat_inj.mp (eq_of_hexLiteral_eq hkey)]
    | _ => simp [opening] at hlist
  | unreadable reason =>
    cases fault' with
    | unreadable reason' => exact congrArg unreadable ((String.append_right_inj _).mp h)
    | _ => simp [opening] at hlist

end Fault

end Chip8
