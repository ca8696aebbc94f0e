import Gateware.Device.Measured
import Gateware.Device.Registry

/-!
# Known boards

The devices that are registered from the start: a development board, a family of accelerator cards
that share their delays, their clock and their memory settings, and a server node.
-/

namespace Gateware

/-- The accelerator cards. -/
inductive Card where
  | u50
  | u200
  | u250
  | u280
  | azureU250
deriving Repr, DecidableEq

namespace Card

/-- All cards, in order of registration. -/
def all : List Card := [u50, u200, u250, u280, azureU250]

/-- The name of a card as a device. -/
def deviceName : Card → String
  | u50 => "Alveo U50"
  | u200 => "Alveo U200"
  | u250 => "Alveo U250"
  | u280 => "Alveo U280"
  | azureU250 => "Azure Alveo U250"

/-- The platform that a card is built for. -/
def platform : Card → String
  | u50 => "xilinx_u50_gen3x16_xdma_201920_3"
  | u200 => "xilinx_u200_gen3x16_xdma_2_202110_1"
  | u250 => "xilinx_u250_gen3x16_xdma_4_1_202210_1"
  | u280 => "xilinx_u280_gen3x16_xdma_1_202211_1"
  | azureU250 => "xilinx_u250_gen3x16_xdma_shell_2_1"

/-- The family of the chip on a card. -/
def family : Card → String
  | u50 | u280 => "Virtex UltraScale+ HBM"
  | u200 | u250 | azureU250 => "Virtex UltraScale+"

/-- The memory of a card in bytes. -/
def memoryBytes : Card → Nat
  | u50 => 8 * gibibyte
  | u200 | u250 | azureU250 => 64 * gibibyte
  | u280 => 40 * gibibyte

/-- A card as a device.  Buffers are whole pages, and the header holds the four arguments of the
kernel. -/
def device (c : Card) : Device :=
  .withDefaults
    { name := c.deviceName
      family := c.family
      toolChain := "Vitis"
      clock := .ofMhz 300
      memory := c.memoryBytes
      channels := ["Vitis"]
      platforms := [c.platform] }
    Measured.ultraScalePlus 4096 4

end Card

namespace Board

/-- The development board.  It moves whole cells and needs no header. -/
def nexys : Device :=
  .withDefaults
    { name := "Nexys A7-100T"
      family := "Artix-7"
      toolChain := "Vivado"
      clock := .ofMhz 100
      memory := 128 * mebibyte
      channels := ["Serial", "Ethernet"]
      platforms := [] }
    Measured.artix7 4 0

/-- The server node.  Its shell moves sixteen bytes at a time. -/
def catapult : Device :=
  .withDefaults
    { name := "Catapult"
      family := "Arria 10"
      toolChain := "Quartus"
      clock := .ofMhz 150
      memory := 4 * gibibyte
      channels := ["Catapult"]
      platforms := [] }
    Measured.arria10 16 0

/-- All known boards, in order of registration. -/
def all : List Device := nexys :: Card.all.map Card.device ++ [catapult]

end Board

/-- The registry of all known boards. -/
def Registry.standard : Registry := ⟨Board.all⟩

end Gateware
