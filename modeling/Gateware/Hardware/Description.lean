import Gateware.Fingerprint.Digest

/-!
# Hardware descriptions

The result of generation: source text together with the language it is written in.
-/

namespace Gateware

/-- The languages of hardware descriptions. -/
inductive HardwareLanguage where
  | vhdl
  | verilog
deriving Repr, DecidableEq

namespace HardwareLanguage

/-- The name of a language. -/
def name : HardwareLanguage → String
  | vhdl => "VHDL"
  | verilog => "Verilog"

/-- The usual extension of source files. -/
def fileExtension : HardwareLanguage → String
  | vhdl => "vhd"
  | verilog => "v"

/-- The word for a language in JSON. -/
def keyword : HardwareLanguage → String
  | vhdl => "Vhdl"
  | verilog => "Verilog"

/-- The language with a keyword. -/
def ofKeyword (word : String) : Option HardwareLanguage :=
  [vhdl, verilog].find? (·.keyword == word)

end HardwareLanguage

/-- A generated hardware description. -/
structure Description where
  source : String
  language : HardwareLanguage
deriving Repr, DecidableEq

/-- The fingerprint of the source text. -/
def Description.fingerprint (d : Description) : Fingerprint := Fingerprint.ofText d.source

end Gateware
