import Chip8.Numeral

/-!
# `Chip8.Config`: the choices that are open

Interpreters disagree on two points of the register operations, and a `Dialect` says
how both are settled. A `Config` adds the seed of the random bytes.
-/

set_option autoImplicit false

namespace Chip8

/-- Two points on which interpreters disagree. -/
structure Dialect where
  /-- The operations `or`, `and` and `xor` clear the flag. -/
  logicClearsFlag : Bool := false
  /-- A shift takes its operand from the second register, not from its target. -/
  shiftReadsSecond : Bool := false
  deriving DecidableEq

/-- What the host chooses when it creates a console. -/
structure Config where
  dialect : Dialect := {}
  /-- The seed of the random bytes. Without one they come from the entropy of the system. -/
  seed : Option UInt64 := none
  deriving DecidableEq

namespace Config

/-- The same configuration with another dialect. -/
def withDialect (config : Config) (dialect : Dialect) : Config := { config with dialect }

/-- The same configuration with a seed. -/
def withSeed (config : Config) (seed : UInt64) : Config := { config with seed := some seed }

end Config

/-! ### The written form -/

/-- A switch as the log writes it. -/
def Dialect.switch (isOn : Bool) : String := if isOn then "true" else "false"

/-- The dialect as the log writes it. -/
def Dialect.text (d : Dialect) : String :=
  "Quirks \x7b logic_resets_flag: " ++ switch d.logicClearsFlag
    ++ ", shift_uses_vy: " ++ switch d.shiftReadsSecond ++ " \x7d"

/-- The configuration as the log writes it. -/
def Config.text (config : Config) : String :=
  let seed := match config.seed with
    | some seed => "Some(" ++ Numeral.decimal seed.toNat ++ ")"
    | none => "None"
  "Config \x7b quirks: " ++ config.dialect.text ++ ", seed: " ++ seed ++ " \x7d"

end Chip8
