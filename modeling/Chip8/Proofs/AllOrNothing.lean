import Chip8.Console.Call
import Chip8.Proofs.Load

/-!
# `Chip8.Proofs.AllOrNothing`: a load takes place in full or not at all

Whether a load succeeds depends on the length of the program and on nothing else
(`Console.result_load_eq_error_iff`), and a load that fails leaves the console
(`Console.console_load_of_error`).

A source is read piece by piece. `Rom.readToEnd` is this reading: it appends each piece to what
it has, until a piece without a byte tells that the source has ended, or until the source breaks
off. `Rom.readToEnd_eq_contents` says that nothing is lost on the way and that the borders of the
pieces do not matter. So loading a source is loading the bytes that its pieces make up, or, if the
source breaks off, nothing (`load_all_or_nothing`).
-/

set_option autoImplicit false

namespace Chip8

/-! ### Sources -/

namespace Rom

/-- Reads the pieces that are left, behind what was read before. -/
def readOn (failure : Option String) (before : List UInt8) :
    List (List UInt8) → Except Fault (List UInt8)
  | [] =>
    match failure with
    | some reason => .error (.unreadable reason)
    | none => .ok before
  | chunk :: chunks => if chunk = [] then .ok before else readOn failure (before ++ chunk) chunks

/-- Reads a source to its end. -/
def readToEnd (rom : Rom) : Except Fault (List UInt8) := readOn rom.failure [] rom.chunks

/-- Reading on appends the rest of the contents to what was read before, or ends in the reader's
failure. -/
theorem readOn_eq (failure : Option String) (before : List UInt8) {chunks : List (List UInt8)}
    (h : ∀ chunk ∈ chunks, chunk ≠ []) :
    readOn failure before chunks
      = (Rom.contents ⟨chunks, failure⟩).map (before ++ ·) := by
  -- What was read before grows with each piece, so the statement is about any such bytes.
  induction chunks generalizing before with
  | nil =>
    cases failure with
    | some reason => rfl
    | none =>
      show Except.ok before = .ok (before ++ [])
      rw [List.append_nil]
  | cons chunk chunks ih =>
    have hchunk : chunk ≠ [] := h chunk List.mem_cons_self
    rw [readOn, if_neg hchunk, ih _ fun chunk' hmem => h chunk' (List.mem_cons_of_mem _ hmem)]
    cases failure with
    | some reason => rfl
    | none =>
      show Except.ok (before ++ chunk ++ chunks.flatten)
        = .ok (before ++ (chunk :: chunks).flatten)
      rw [List.flatten_cons, List.append_assoc]

/-- A source whose pieces have bytes in them is read in full. -/
theorem readToEnd_eq_contents {rom : Rom} (h : ∀ chunk ∈ rom.chunks, chunk ≠ []) :
    rom.readToEnd = rom.contents := by
  rw [readToEnd, readOn_eq _ _ h]
  cases rom.contents with
  | error fault => rfl
  | ok program => rfl

end Rom

namespace Console

variable {c : Console} {program : List UInt8} {entropy : Random.Key} {fault : Fault}

/-! ### Loads -/

/-- A load fails if and only if the program is too long. -/
theorem result_load_eq_error_iff :
    (c.load program entropy).result = .error fault ↔
      Memory.programLimit < program.length ∧
        fault = .programTooLarge program.length Memory.programLimit := by
  by_cases hfits : program.length ≤ Memory.programLimit
  · rw [c.load_of_fits hfits]
    exact iff_of_false (nomatch ·) fun h => absurd hfits (Nat.not_le.mpr h.1)
  · have hlarge := Nat.lt_of_not_le hfits
    rw [c.load_of_large hlarge]
    constructor
    · intro h
      cases h
      exact ⟨hlarge, rfl⟩
    · rintro ⟨-, rfl⟩
      rfl

/-- It succeeds if and only if the program fits. -/
theorem result_load_eq_ok_iff :
    (c.load program entropy).result = .ok () ↔ program.length ≤ Memory.programLimit := by
  by_cases hfits : program.length ≤ Memory.programLimit
  · rw [c.load_of_fits hfits]
    exact iff_of_true rfl hfits
  · rw [c.load_of_large (Nat.lt_of_not_le hfits)]
    exact iff_of_false (nomatch ·) hfits

/-- A load that fails leaves the console as it was. -/
theorem console_load_of_error (h : (c.load program entropy).result = .error fault) :
    (c.load program entropy).console = c := by
  rw [c.load_of_large (result_load_eq_error_iff.mp h).1]

/-- So does loading a source that fails. -/
theorem console_loadRom_of_error {rom : Rom} (h : (c.loadRom rom entropy).result = .error fault) :
    (c.loadRom rom entropy).console = c := by
  unfold loadRom at h ⊢
  -- Either there is nothing to load, or the load fails.
  cases hrom : rom.contents with
  | error _ => rfl
  | ok program =>
    rw [hrom] at h
    exact console_load_of_error h

/-- A load is all or nothing. It fails if and only if the program is longer than the 0xE00 bytes
that there are for it, and if it succeeds, the console is the one that loading the program into a
new console gives, with the same entropy. Loading a source of pieces with bytes in them is to read
it to its end and to load what was read: if the source ends, this is what its pieces make up,
wherever their borders are, and if it breaks off, its failure is answered, however much it has
yielded. Whenever a load fails, the whole console is as it was: machine, redraw, configuration, and
the program that a reset loads again. -/
theorem load_all_or_nothing (c : Console) (entropy : Random.Key) :
    (∀ program fault, (c.load program entropy).result = .error fault ↔
      0xE00 < program.length ∧ fault = .programTooLarge program.length 0xE00) ∧
    (∀ program created, (c.load program entropy).result = .ok () →
      (c.load program entropy).console
        = ((ofConfig c.config created).load program entropy).console) ∧
    (∀ chunks : List (List UInt8), (∀ chunk ∈ chunks, chunk ≠ []) →
      (Rom.readToEnd ⟨chunks, none⟩ = .ok chunks.flatten ∧
        c.loadRom ⟨chunks, none⟩ entropy = c.load chunks.flatten entropy) ∧
      ∀ reason, Rom.readToEnd ⟨chunks, some reason⟩ = .error (.unreadable reason) ∧
        (c.loadRom ⟨chunks, some reason⟩ entropy).result = .error (.unreadable reason)) ∧
    (∀ program fault, (c.load program entropy).result = .error fault →
      (c.load program entropy).console = c) ∧
    ∀ rom fault, (c.loadRom rom entropy).result = .error fault →
      (c.loadRom rom entropy).console = c := by
  refine ⟨?_, ?_, ?_, ?_, ?_⟩
  · intro program fault
    exact result_load_eq_error_iff
  · intro program created hok
    have hfits := result_load_eq_ok_iff.mp hok
    rw [c.load_of_fits hfits, load_of_fits _ hfits]
    rfl
  · intro chunks hchunks
    refine ⟨⟨Rom.readToEnd_eq_contents hchunks, rfl⟩, ?_⟩
    intro reason
    exact ⟨Rom.readToEnd_eq_contents hchunks, rfl⟩
  · intro program fault h
    exact console_load_of_error h
  · intro rom fault h
    exact console_loadRom_of_error h

/-- A console that has run, drawn and taken keys, and still has to show what it drew. -/
def busy : Console :=
  (ofConfig (({} : Config).withSeed 7) .zero).after
    [.load [0xC0, 0xFF, 0xD0, 0x01], .step, .step, .press 0x5]

/-- The busy console is not changed by a program of one byte too many, nor by a source that breaks
off, even after more bytes than there are for a program. A source that ends is loaded, with a
border in the middle of its first opcode. -/
theorem load_all_or_nothing_busy :
    let large := List.replicate 0xE01 (0 : UInt8)
    let pieces : List (List UInt8) := [[0x12], [0x34, 0x56]]
    (0xE00 < large.length ∧
      (busy.load large .zero).result = .error (.programTooLarge 0xE01 0xE00) ∧
      (busy.load large .zero).console = busy) ∧
    ((∀ chunk ∈ [large], chunk ≠ []) ∧
      (busy.loadRom ⟨[large], some "gone"⟩ .zero).result = .error (.unreadable "gone") ∧
      (busy.loadRom ⟨[large], some "gone"⟩ .zero).console = busy) ∧
    ((∀ chunk ∈ pieces, chunk ≠ []) ∧
      busy.loadRom ⟨pieces, none⟩ .zero = busy.load [0x12, 0x34, 0x56] .zero ∧
      (busy.load [0x12, 0x34, 0x56] .zero).console
        = ((ofConfig busy.config .zero).load [0x12, 0x34, 0x56] .zero).console) := by
  intro large pieces
  have hlength : large.length = 0xE01 := List.length_replicate
  have hlarge : 0xE00 < large.length := by
    rw [hlength]
    decide
  have hpieces : ∀ chunk ∈ pieces, chunk ≠ [] := by decide
  have hone : ∀ chunk ∈ [large], chunk ≠ [] := by
    intro chunk hmem
    rw [List.mem_singleton.mp hmem]
    exact List.ne_nil_of_length_pos (Nat.zero_lt_of_lt hlarge)
  obtain ⟨hfails, hloads, hsource, hkeeps, hkeepsSource⟩ := load_all_or_nothing busy .zero
  have hlargeFails : (busy.load large .zero).result = .error (.programTooLarge 0xE01 0xE00) := by
    rw [← hlength]
    exact (hfails large _).mpr ⟨hlarge, rfl⟩
  have hbreaks := ((hsource [large] hone).2 "gone").2
  have hends := (hsource pieces hpieces).1.2
  have hok : (busy.load [0x12, 0x34, 0x56] .zero).result = .ok () :=
    result_load_eq_ok_iff.mpr (by decide)
  exact ⟨⟨hlarge, hlargeFails, hkeeps large _ hlargeFails⟩,
    ⟨hone, hbreaks, hkeepsSource _ _ hbreaks⟩, hpieces, hends, hloads _ _ hok⟩

end Console

end Chip8
