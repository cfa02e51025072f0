import Chip8.Proofs.Events
import Chip8.Proofs.Frames
import Chip8.Proofs.Wording

/-!
# `Chip8.Proofs.LogAccount`: the log accounts for every step and load

A step adds one record to the log, whichever way it ends. If it executed an instruction, the record
is told at the level for tracing and shows the opcode, the instruction and the machine that it left
(`Log.TellsExecution`). If it failed, the record is told at the level for debugging and shows where
and why (`Log.TellsFailure`). That a text shows something means that it can be told from the text:
the bytes of the registers (`Log.ShowsRegisters`), and which fault it was (`Fault.eq_of_message_eq`).

The records of a run are those of the steps that it takes, one after the other (`log_run`). With
the number of these steps, for a run that succeeds and for one that fails, come the levels that a
frame adds. Loads and resets add the length of their program, and the other calls nothing.

`Console.told` is the log of a whole history. Told at the level for tracing are the steps that
executed an instruction, each once and in their order, and nothing else (`traces_told`).
-/

set_option autoImplicit false

namespace Chip8

open Numeral (decimal hex hexLiteral)

/-! ### What a record shows -/

namespace Log

/-- A record as the log shows it. -/
def Record.line (record : Record) : Level × String := (record.level, record.message)

/-- The text has the other one in it. -/
def Carries (text part : String) : Prop :=
  ∃ before after, text = before ++ part ++ after

/-- The text has two digits for each register, between brackets, and they read as its byte. -/
def ShowsRegisters (text : String) (r : Registers) : Prop :=
  ∃ shown : List (List Char),
    text = "[" ++ ", ".intercalate (shown.map String.ofList) ++ "]" ∧
    (∀ digits ∈ shown, digits.length = 2) ∧
    shown.map (Numeral.ofChars 16) = r.toList.map UInt8.toNat

/-- The record tells that `instr`, which stood in memory as `w`, was executed and left `m`. -/
structure TellsExecution (record : Record) (w : Opcode) (instr : Instruction) (m : Machine) :
    Prop where
  level : record.level = .trace
  opcode : Carries record.message (hex 4 w.toNat)
  instruction : Carries record.message instr.text
  registers : Carries record.message (" v" ++ registersText m.registers)
  shown : ShowsRegisters (registersText m.registers) m.registers
  index : Carries record.message (" i" ++ hex 4 m.index.toNat)
  pc : Carries record.message (" pc" ++ hex 4 m.pc.toNat)

/-- The record tells that the step at `address` failed. Of an opcode that stands for no instruction
it shows the opcode, and otherwise the fault in its own words, which no other fault has. -/
structure TellsFailure (record : Record) (address : UInt16) (fault : Fault) : Prop where
  level : record.level = .debug
  address : Carries record.message (hexLiteral 3 address.toNat)
  cause : Carries record.message
    (match fault with
      | .unknownOpcode w _ => hex 4 w.toNat
      | fault => fault.message)
  wording : ∀ other : Fault, other.message = fault.message → other = fault

/-- The registers as the log writes them can be read back. -/
theorem showsRegisters_registersText (r : Registers) : ShowsRegisters (registersText r) r := by
  refine ⟨r.toList.map fun byte => Numeral.chars 16 2 byte.toNat, ?_, ?_, ?_⟩
  · rw [List.map_map]
    rfl
  · intro digits hmem
    obtain ⟨byte, -, rfl⟩ := List.mem_map.mp hmem
    have htwo : (Numeral.digits 16 byte.toNat).length ≤ 2 :=
      Numeral.length_digits_le_two byte.toNat_lt
    rw [Numeral.length_chars]
    exact Nat.max_eq_left htwo
  · rw [List.map_map]
    exact List.map_congr_left fun byte _ => Numeral.ofChars_chars 16 2 _ (by decide) (by decide)

/-- A text that is put together of fields shows each of them, with its label if it has one. -/
theorem carries_fields (opcode instr registers index pc : String) :
    let text := opcode ++ " " ++ instr ++ " v" ++ registers ++ " i" ++ index ++ " pc" ++ pc
    Carries text opcode ∧ Carries text instr ∧ Carries text (" v" ++ registers) ∧
      Carries text (" i" ++ index) ∧ Carries text (" pc" ++ pc) := by
  refine ⟨⟨"", " " ++ instr ++ " v" ++ registers ++ " i" ++ index ++ " pc" ++ pc, ?_⟩,
    ⟨opcode ++ " ", " v" ++ registers ++ " i" ++ index ++ " pc" ++ pc, ?_⟩,
    ⟨opcode ++ " " ++ instr, " i" ++ index ++ " pc" ++ pc, ?_⟩,
    ⟨opcode ++ " " ++ instr ++ " v" ++ registers, " pc" ++ pc, ?_⟩,
    ⟨opcode ++ " " ++ instr ++ " v" ++ registers ++ " i" ++ index, "", ?_⟩⟩
  all_goals simp [String.append_assoc]

/-- The record of an executed instruction tells of it. -/
theorem tellsExecution_executed (w : Opcode) (instr : Instruction) (m : Machine) :
    TellsExecution (.executed w instr m.registers m.index m.pc) w instr m := by
  obtain ⟨hopcode, hinstr, hregisters, hindex, hpc⟩ := carries_fields (hex 4 w.toNat) instr.text
    (registersText m.registers) (hex 4 m.index.toNat) (hex 4 m.pc.toNat)
  exact ⟨rfl, hopcode, hinstr, hregisters, showsRegisters_registersText _, hindex, hpc⟩

/-- A record whose message ends in the words of a fault shows them, unless the fault is about an
opcode that stands for no instruction. -/
theorem tellsFailure_of_message {record : Record} {address : UInt16} {fault : Fault}
    (start : String) (hlevel : record.level = .debug)
    (hknown : ∀ w a, fault ≠ .unknownOpcode w a)
    (hmessage : ∃ middle, record.message
      = start ++ hexLiteral 3 address.toNat ++ middle ++ fault.message) :
    TellsFailure record address fault where
  level := hlevel
  address := by
    obtain ⟨middle, hmessage⟩ := hmessage
    exact ⟨start, middle ++ fault.message, by simp [hmessage, String.append_assoc]⟩
  cause := by
    obtain ⟨middle, hmessage⟩ := hmessage
    refine ⟨start ++ hexLiteral 3 address.toNat ++ middle, "", ?_⟩
    cases fault with
    | unknownOpcode w a => exact absurd rfl (hknown w a)
    | _ => simp [hmessage]
  wording := fun _ h => Fault.eq_of_message_eq h

/-- The record of an opcode that stands for no instruction shows the opcode. -/
theorem tellsFailure_unknownOpcode (w : Opcode) (address : UInt16) :
    TellsFailure (.unknownOpcode w address) address (.unknownOpcode w address) where
  level := rfl
  address := ⟨"unknown opcode " ++ hex 4 w.toNat ++ " at ", "", String.append_empty.symm⟩
  cause := ⟨"unknown opcode ", " at " ++ hexLiteral 3 address.toNat, String.append_assoc ..⟩
  wording := fun _ h => Fault.eq_of_message_eq h

end Log

open Log (Record TellsExecution TellsFailure)

namespace Console

variable {c : Console} {n : Nat}

/-! ### Steps -/

/-- A step that succeeds tells of its instruction, and nothing else. -/
theorem log_step_of_ok {instr : Instruction} (h : c.step.result = .ok instr) :
    ∃ w, c.fetch = .ok w ∧ c.step.log = [.executed w instr c.step.console.machine.registers
      c.step.console.machine.index c.step.console.machine.pc] := by
  obtain ⟨w, hfetch, -, -, hs⟩ := step_of_ok h
  refine ⟨w, hfetch, ?_⟩
  rw [hs]
  rfl

/-- A step that fails tells of its failure, and nothing else. -/
theorem log_step_of_error {fault : Fault} (h : c.step.result = .error fault) :
    ∃ record, c.step.log = [record] ∧ TellsFailure record c.machine.pc fault := by
  rcases c.step_cases with ⟨fault', hfetch, hs⟩ | ⟨w, hfetch, hdecode, hs⟩ |
    ⟨w, instr, fault', hfetch, hdecode, hfault, hs⟩ | ⟨w, instr, hfetch, hdecode, hdone, hs⟩
  · rw [hs] at h ⊢
    cases h
    refine ⟨_, rfl, Log.tellsFailure_of_message "unable to fetch at " rfl ?_ ⟨": ", rfl⟩⟩
    -- A fetch fails at the end of memory only.
    intro w a hunknown
    obtain ⟨-, hend⟩ := (fetch_eq_error_iff _).mp hfetch
    exact nomatch hunknown.symm.trans hend
  · rw [hs] at h ⊢
    cases h
    exact ⟨_, rfl, Log.tellsFailure_unknownOpcode w c.machine.pc⟩
  · rw [hs] at h ⊢
    cases h
    refine ⟨_, rfl, Log.tellsFailure_of_message
      (hex 4 w.toNat ++ " (" ++ instr.text ++ ") at ") rfl ?_ ⟨" failed: ", ?_⟩⟩
    · intro w' a hunknown
      rw [hunknown] at hfault
      rcases (Instruction.fault_execute_iff.mp hfault).kind with ⟨_, h⟩ | ⟨_, h⟩ | ⟨_, h⟩ <;>
        exact nomatch h
    · rfl
  · rw [hs] at h
    exact nomatch h

/-! ### Runs and frames -/

/-- A run tells what the steps that it takes tell. -/
theorem log_run (c : Console) (n : Nat) :
    (c.run n).log.toList
      = (List.range (c.stepsTaken n)).flatMap fun k => (c.afterSteps k).step.log := by
  induction n generalizing c with
  | zero => rfl
  | succ n ih =>
    cases hresult : c.step.result with
    | ok instr =>
      rw [run_succ_of_ok n hresult]
      simp only [stepsTaken, hresult, List.range_succ_eq_map, List.flatMap_cons, List.flatMap_map,
        Array.toList_append, afterSteps_succ', ih]
      rfl
    | error fault =>
      rw [run_succ_of_error n hresult]
      simp [stepsTaken, hresult, afterSteps, after]

/-- A frame tells what its run tells, whether it fails or not. -/
theorem log_runFrame (c : Console) (n : Nat) :
    (c.runFrame n).log
      = (List.range (c.stepsTaken n)).flatMap fun k => (c.afterSteps k).step.log := by
  rw [← log_run]
  unfold runFrame
  dsimp only
  split <;> rfl

/-- A run whose steps succeed takes them all. -/
theorem stepsTaken_of_stepsSucceed (h : c.StepsSucceed n) : c.stepsTaken n = n := by
  induction n generalizing c with
  | zero => rfl
  | succ n ih =>
    obtain ⟨⟨instr, hresult⟩, hrest⟩ := (stepsSucceed_succ_iff c n).mp h
    simp only [stepsTaken, hresult, ih hrest]

/-- A run that fails takes the steps before the one that fails, and this one. -/
theorem stepsTaken_of_step_error {k : Nat} {fault : Fault} (hk : k < n) (hran : c.StepsSucceed k)
    (hfault : (c.afterSteps k).step.result = .error fault) : c.stepsTaken n = k + 1 := by
  induction k generalizing c n with
  | zero =>
    replace hfault : c.step.result = .error fault := hfault
    cases n with
    | zero => exact absurd hk (Nat.not_lt_zero 0)
    | succ n => simp only [stepsTaken, hfault]
  | succ k ih =>
    obtain ⟨⟨instr, hresult⟩, hrest⟩ := (stepsSucceed_succ_iff c k).mp hran
    rw [afterSteps_succ'] at hfault
    cases n with
    | zero => exact absurd hk (Nat.not_lt_zero _)
    | succ n => simp only [stepsTaken, hresult, ih (Nat.lt_of_succ_lt_succ hk) hrest hfault]

/-- Steps that succeed are told at the level for tracing. -/
theorem levels_of_stepsSucceed (h : c.StepsSucceed n) :
    ((List.range n).flatMap fun k => (c.afterSteps k).step.log).map Record.level
      = List.replicate n .trace := by
  induction n with
  | zero => rfl
  | succ n ih =>
    obtain ⟨instr, hresult⟩ := h n (Nat.lt_succ_self n)
    obtain ⟨w, -, hlog⟩ := log_step_of_ok hresult
    rw [List.range_succ, List.flatMap_append, List.map_append,
      ih fun k hk => h k (Nat.lt_succ_of_lt hk), List.replicate_succ']
    simp [hlog, Record.level]

/-- A frame that succeeds tells of its steps, all of which succeeded. -/
theorem log_runFrame_of_ok {touched : Bool} (h : (c.runFrame n).result = .ok touched) :
    c.StepsSucceed n ∧
    (c.runFrame n).log = ((List.range n).flatMap fun k => (c.afterSteps k).step.log) ∧
    (c.runFrame n).log.map Record.level = List.replicate n .trace := by
  rcases c.stepsSucceed_or_fails n with hran | ⟨k, hk, hran, fault, hfault⟩
  · have hlog : (c.runFrame n).log
        = (List.range n).flatMap fun k => (c.afterSteps k).step.log := by
      rw [log_runFrame, stepsTaken_of_stepsSucceed hran]
    exact ⟨hran, hlog, by rw [hlog, levels_of_stepsSucceed hran]⟩
  · rw [runFrame_of_fault (run_of_step_error hk hran hfault).1] at h
    exact nomatch h

/-- A frame that fails tells of the steps that succeeded, and of the one that did not. -/
theorem log_runFrame_of_error {fault : Fault} (h : (c.runFrame n).result = .error fault) :
    ∃ k < n, c.StepsSucceed k ∧ (c.afterSteps k).step.result = .error fault ∧
    (c.runFrame n).log = ((List.range (k + 1)).flatMap fun j => (c.afterSteps j).step.log) ∧
    (c.runFrame n).log.map Record.level = List.replicate k .trace ++ [.debug] := by
  rcases c.stepsSucceed_or_fails n with hran | ⟨k, hk, hran, fault', hfault⟩
  · rw [runFrame_of_fault_none (run_of_stepsSucceed hran).1] at h
    exact nomatch h
  · have hlog : (c.runFrame n).log
        = (List.range (k + 1)).flatMap fun j => (c.afterSteps j).step.log := by
      rw [log_runFrame, stepsTaken_of_step_error hk hran hfault]
    obtain ⟨record, hrecord, htells⟩ := log_step_of_error hfault
    rw [runFrame_of_fault (run_of_step_error hk hran hfault).1] at h
    cases h
    refine ⟨k, hk, hran, hfault, hlog, ?_⟩
    rw [hlog, List.range_succ, List.flatMap_append, List.map_append, levels_of_stepsSucceed hran]
    simp [hrecord, htells.level]

/-! ### Loads and resets -/

/-- A load tells the length of the program if it succeeds, and nothing if it fails. -/
theorem log_load (c : Console) (program : List UInt8) (entropy : Random.Key) :
    (c.load program entropy).log
      = if (c.load program entropy).result.isOk then [.loaded program.length] else [] := by
  by_cases hfits : program.length ≤ Memory.programLimit
  · rw [c.load_of_fits hfits]
    rfl
  · rw [c.load_of_large (Nat.lt_of_not_le hfits)]
    rfl

/-- So does loading a source, with the length of the program that it yields. -/
theorem log_loadRom (c : Console) (rom : Rom) (entropy : Random.Key) :
    (c.loadRom rom entropy).log = if (c.loadRom rom entropy).result.isOk
      then [.loaded rom.chunks.flatten.length] else [] := by
  unfold loadRom Rom.contents
  cases rom.failure with
  | some reason => rfl
  | none => exact c.log_load rom.chunks.flatten entropy

/-- A console that a host can have resets, and tells so before it tells the length of its
program. -/
theorem log_reset (config : Config) (created : Random.Key) (calls : List Call)
    (entropy : Random.Key) :
    let c := (ofConfig config created).after calls
    (c.reset entropy).result = .ok () ∧
      (c.reset entropy).log = [.resetting, .loaded c.program.length] := by
  intro c
  have hretains : Retains config _ c := retains_after (retains_ofConfig config created) calls
  rw [hretains.reset_eq, hretains.program_eq]
  exact ⟨rfl, rfl⟩

/-! ### Histories -/

/-- The log of a history. -/
def told (c : Console) : List Call → List Record
  | [] => []
  | call :: calls => (c.perform call).log ++ (c.perform call).console.told calls

end Console

/-- The record of a step that executed an instruction. -/
def Event.record? : Event → Option Record
  | .executed instr before after => before.fetch.toOption.map fun w =>
    .executed w instr after.registers after.index after.pc
  | _ => none

/-- The records that are told at the level for tracing. -/
def Log.traces (records : List Record) : List Record :=
  records.filter fun record => record.level == .trace

namespace Console

/-- Of a run, the steps that executed an instruction are told at the level for tracing. -/
theorem traces_run (c : Console) (n : Nat) :
    Log.traces (c.run n).log.toList = (c.runEvents n).filterMap Event.record? := by
  induction n generalizing c with
  | zero => rfl
  | succ n ih =>
    cases hresult : c.step.result with
    | ok instr =>
      obtain ⟨w, hfetch, hlog⟩ := log_step_of_ok hresult
      have hrecord : Event.record? (.executed instr c.machine c.step.console.machine)
          = some (.executed w instr c.step.console.machine.registers
            c.step.console.machine.index c.step.console.machine.pc) := by
        simp only [Event.record?, show c.machine.fetch = .ok w from hfetch]
        rfl
      rw [run_succ_of_ok n hresult]
      simp only [runEvents, hresult, List.filterMap_cons, hrecord, ← ih, hlog, Log.traces,
        Array.toList_append, List.filter_append]
      rfl
    | error fault =>
      -- The step that fails is told, but not at this level, and is no event.
      obtain ⟨record, hlog, htells⟩ := log_step_of_error hresult
      rw [run_succ_of_error n hresult]
      simp [runEvents, hresult, hlog, Log.traces, htells.level]

/-- So it is for a call. -/
theorem traces_perform (c : Console) (call : Call) :
    Log.traces (c.perform call).log = (c.callEvents call).filterMap Event.record? := by
  cases call with
  | step =>
    have hrun : (c.run 1).log.toList = c.step.log := by
      rw [log_run]
      cases hresult : c.step.result <;> simp [stepsTaken, hresult, afterSteps, after]
    rw [callEvents, ← traces_run, hrun]
    rfl
  | runFrame n =>
    show Log.traces (c.runFrame n).log = _
    rw [callEvents, List.filterMap_append, ← traces_run, log_run, log_runFrame]
    split
    · exact (List.append_nil _).symm
    · exact (List.append_nil _).symm
  | load program entropy =>
    show Log.traces (c.load program entropy).log = _
    rw [log_load, callEvents]
    split <;> split <;> rfl
  | loadRom rom entropy =>
    show Log.traces (c.loadRom rom entropy).log = _
    rw [log_loadRom, callEvents]
    split <;> split <;> rfl
  | reset entropy =>
    show Log.traces (.resetting :: (load { c with program := [] } c.program entropy).log) = _
    rw [log_load, callEvents]
    split <;> split <;> rfl
  | fetch | tick | press | release | takeScreen => rfl

/-- Told at the level for tracing are the steps that executed an instruction, in their order. -/
theorem traces_told (c : Console) (calls : List Call) :
    Log.traces (c.told calls) = (c.events calls).filterMap Event.record? := by
  induction calls generalizing c with
  | nil => rfl
  | cons call calls ih =>
    rw [told, events, List.filterMap_append, ← ih, ← traces_perform]
    exact List.filter_append ..

/-- The log accounts for every step and load. Take any history of a new console. A step that
succeeds after it adds one record, which tells of the opcode that was fetched, the instruction and
the machine that it left. A step that fails adds one record, which tells where and why. A frame adds
the records of its steps: `n` at the level for tracing if it succeeds, and otherwise one for each
step that succeeded and then one at the level for debugging. A load that succeeds adds one line with
the length of the program, and one that fails none. A reset says that it begins, and then the same
of the program that the console holds. To create a console adds a line as well, and all other calls
add nothing. So the records of the whole history at the level for tracing are those of the steps in
it that executed an instruction, in their order. -/
theorem log_accounts_for_everything (config : Config) (entropy : Random.Key)
    (calls : List Call) :
    let new := ofConfig config entropy
    let c := new.after calls
    let created := (Log.Level.debug, "creating chip-8 with " ++ config.text)
    let loaded (size : Nat) := (Log.Level.debug, "loaded " ++ decimal size ++ " byte program")
    let stepLogs (n : Nat) := (List.range n).flatMap fun k => (c.afterSteps k).step.log
    ((∀ instr, c.step.result = .ok instr → ∃ w record, c.fetch = .ok w ∧
        c.step.log = [record] ∧ TellsExecution record w instr c.step.console.machine) ∧
      ∀ fault, c.step.result = .error fault → ∃ record,
        c.step.log = [record] ∧ TellsFailure record c.machine.pc fault) ∧
    (∀ n, (∀ touched, (c.runFrame n).result = .ok touched → c.StepsSucceed n ∧
        (c.runFrame n).log = stepLogs n ∧
        (c.runFrame n).log.map Record.level = List.replicate n .trace) ∧
      ∀ fault, (c.runFrame n).result = .error fault → ∃ k < n, c.StepsSucceed k ∧
        (c.afterSteps k).step.result = .error fault ∧ (c.runFrame n).log = stepLogs (k + 1) ∧
        (c.runFrame n).log.map Record.level = List.replicate k .trace ++ [.debug]) ∧
    (∀ entropy', (∀ program, (c.load program entropy').log.map Record.line
        = if (c.load program entropy').result.isOk then [loaded program.length] else []) ∧
      (∀ rom, (c.loadRom rom entropy').log.map Record.line
        = if (c.loadRom rom entropy').result.isOk
          then [loaded rom.chunks.flatten.length] else []) ∧
      (c.reset entropy').result = .ok () ∧
      (c.reset entropy').log.map Record.line
        = [(.debug, "resetting"), loaded c.program.length]) ∧
    ((create config entropy).log.map Record.line = [created] ∧
      ∀ program, (createWith config program entropy).log.map Record.line = created ::
        if (createWith config program entropy).result.isOk then [loaded program.length] else []) ∧
    ((∀ key, (c.press key).log = [] ∧ (c.release key).log = []) ∧
      ∀ call ∈ [Call.fetch, .tick, .takeScreen], (c.perform call).log = []) ∧
    Log.traces (new.told calls) = (new.events calls).filterMap Event.record? := by
  intro new c created loaded stepLogs
  refine ⟨⟨?_, fun fault h => log_step_of_error h⟩,
    fun n => ⟨fun touched h => log_runFrame_of_ok h, fun fault h => log_runFrame_of_error h⟩,
    fun entropy' => ⟨?_, ?_, ?_⟩, ⟨rfl, ?_⟩, ⟨fun key => ⟨rfl, rfl⟩, ?_⟩,
    new.traces_told calls⟩
  · intro instr h
    obtain ⟨w, hfetch, hlog⟩ := log_step_of_ok h
    exact ⟨w, _, hfetch, hlog, Log.tellsExecution_executed w instr _⟩
  · intro program
    rw [log_load]
    split <;> rfl
  · intro rom
    rw [log_loadRom]
    split <;> rfl
  · obtain ⟨hresult, hlog⟩ := log_reset config entropy calls entropy'
    exact ⟨hresult, by rw [hlog]; rfl⟩
  · intro program
    show (Record.created config :: (new.load program entropy).log).map Record.line
      = created :: if (new.load program entropy).result.isOk then [loaded program.length] else []
    rw [log_load]
    split <;> rfl
  · intro call hcall
    simp only [List.mem_cons, List.not_mem_nil, or_false] at hcall
    rcases hcall with rfl | rfl | rfl <;> rfl

/-- A history that loads one instruction and a word that stands for none. -/
def brokenCalls : List Call := [.load [0x61, 0x05, 0xFF, 0xFF], .press 0x4, .tick]

/-- The step tells of the instruction, and a frame of three steps adds a record for each step that
succeeded and one for the next step. -/
theorem log_accounts_for_everything_broken :
    let c := (ofConfig {} .zero).after brokenCalls
    (c.step.result = .ok (.load 1 5) ∧ ∃ w record, c.fetch = .ok w ∧ c.step.log = [record] ∧
      record.level = .trace ∧ Log.Carries record.message (hex 4 w.toNat) ∧
      Log.Carries record.message (Instruction.load 1 5).text ∧
      Log.Carries record.message
        " v[00, 05, 00, 00, 00, 00, 00, 00, 00, 00, 00, 00, 00, 00, 00, 00]") ∧
    ((c.runFrame 3).result = .error (.unknownOpcode 0xFFFF 0x202) ∧
      ∃ k < 3, c.StepsSucceed k ∧
        (c.runFrame 3).log.map Record.level = List.replicate k .trace ++ [.debug]) := by
  intro c
  have hstep : c.step.result = .ok (.load 1 5) := by decide +kernel
  have hframe : (c.runFrame 3).result = .error (.unknownOpcode 0xFFFF 0x202) := by decide +kernel
  obtain ⟨⟨hsucceeds, -⟩, hframes, -⟩ := log_accounts_for_everything {} .zero brokenCalls
  obtain ⟨k, hk, hran, -, -, hlevels⟩ := (hframes 3).2 _ hframe
  obtain ⟨w, record, hfetch, hlog, htells⟩ := hsucceeds _ hstep
  have hregisters := htells.registers
  rw [show " v" ++ Log.registersText
      ((ofConfig {} .zero).after brokenCalls).step.console.machine.registers
        = " v[00, 05, 00, 00, 00, 00, 00, 00, 00, 00, 00, 00, 00, 00, 00, 00]" by
      decide +kernel] at hregisters
  exact ⟨⟨hstep, w, record, hfetch, hlog, htells.level, htells.opcode, htells.instruction,
    hregisters⟩, hframe, k, hk, hran, hlevels⟩

end Console

end Chip8
