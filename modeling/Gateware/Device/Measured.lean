/-!
# Measured delays

The timing reports of the boards that are known without further ado, one measurement a line: the
operator, its operand type, and the delay in nanoseconds.
-/

namespace Gateware.Measured

/-- Artix-7 boards, after routing, in the slowest speed grade. -/
def artix7 : String := String.intercalate "\n"
  ["add unsigned8 1.412", "add signed8 1.438", "add unsigned16 1.967", "add signed16 1.993",
   "add unsigned32 3.104", "add signed32 3.129", "add unsigned64 5.611", "add signed64 5.652",
   "sub unsigned8 1.455", "sub signed8 1.471", "sub unsigned16 2.012", "sub signed16 2.040",
   "sub unsigned32 3.188", "sub signed32 3.201", "sub unsigned64 5.702", "sub signed64 5.739",
   "mul unsigned8 3.372", "mul signed8 3.418", "mul unsigned16 5.904", "mul signed16 5.947",
   "mul unsigned32 9.861", "mul signed32 9.934", "mul signed64 21.530", "div unsigned8 14.220",
   "div signed8 15.106", "div unsigned16 38.741", "div signed16 40.389",
   "div unsigned32 121.063", "div signed32 125.870", "mod unsigned16 39.215",
   "mod signed16 41.002", "mod unsigned32 122.417", "mod signed32 127.340",
   "and unsigned32 0.618", "or unsigned32 0.622", "xor unsigned32 0.637", "shl unsigned16 1.580",
   "shl unsigned32 1.903", "shl signed32 1.911", "shr unsigned16 1.597", "shr unsigned32 1.924",
   "shr signed32 2.046", "eq unsigned32 1.732", "eq signed32 1.732", "ne unsigned32 1.745",
   "ne signed32 1.745", "lt unsigned32 2.315", "lt signed32 2.388", "le unsigned32 2.341",
   "le signed32 2.402", "gt unsigned32 2.317", "gt signed32 2.391", "ge unsigned32 2.338",
   "ge signed32 2.405", "not unsigned32 0.421", "neg signed8 1.396", "neg signed32 3.067"]

/-- UltraScale+ cards, after synthesis of a kernel. -/
def ultraScalePlus : String := String.intercalate "\n"
  ["add unsigned8 0.588", "add signed8 0.601", "add unsigned16 0.804", "add signed16 0.815",
   "add unsigned32 1.237", "add signed32 1.249", "add unsigned64 2.102", "add signed64 2.117",
   "sub unsigned8 0.596", "sub signed8 0.610", "sub unsigned16 0.822", "sub signed16 0.829",
   "sub unsigned32 1.262", "sub signed32 1.270", "sub unsigned64 2.131", "sub signed64 2.148",
   "mul unsigned8 1.315", "mul signed8 1.342", "mul unsigned16 1.904", "mul signed16 1.931",
   "mul unsigned32 3.466", "mul signed32 3.502", "mul unsigned64 8.975", "mul signed64 9.048",
   "div unsigned8 5.870", "div signed8 6.214", "div unsigned16 15.338", "div signed16 16.021",
   "div unsigned32 47.912", "div signed32 49.688", "div signed64 171.350", "mod unsigned8 5.931",
   "mod signed8 6.305", "mod unsigned16 15.470", "mod signed16 16.224", "mod unsigned32 48.206",
   "mod signed32 50.117", "and unsigned32 0.263", "or unsigned32 0.266", "xor unsigned32 0.271",
   "shl unsigned32 0.742", "shl signed32 0.748", "shl unsigned64 0.903", "shr unsigned32 0.755",
   "shr signed32 0.801", "shr unsigned64 0.917", "eq unsigned32 0.694", "eq signed32 0.694",
   "ne unsigned32 0.701", "ne signed32 0.701", "lt unsigned32 0.912", "lt signed32 0.946",
   "le unsigned32 0.925", "le signed32 0.951", "gt unsigned32 0.914", "gt signed32 0.944",
   "ge unsigned32 0.927", "ge signed32 0.953", "not unsigned32 0.182", "neg signed32 1.215",
   "neg signed64 2.083"]

/-- Arria 10 nodes, in the slow corner. -/
def arria10 : String := String.intercalate "\n"
  ["add unsigned16 1.105", "add signed16 1.118", "add unsigned32 1.742", "add signed32 1.760",
   "add unsigned64 3.015", "add signed64 3.044", "sub unsigned16 1.121", "sub signed16 1.136",
   "sub unsigned32 1.768", "sub signed32 1.781", "sub signed64 3.082", "mul unsigned16 2.611",
   "mul signed16 2.654", "mul unsigned32 4.920", "mul signed32 4.987", "mul signed64 12.480",
   "div unsigned16 22.376", "div signed16 23.410", "div unsigned32 70.295",
   "div signed32 72.844", "mod unsigned32 70.931", "mod signed32 73.560", "and unsigned32 0.358",
   "or unsigned32 0.361", "xor unsigned32 0.369", "shl unsigned32 1.066", "shl signed32 1.071",
   "shr unsigned32 1.084", "shr signed32 1.142", "eq unsigned32 0.987", "eq signed32 0.987",
   "ne unsigned32 0.995", "ne signed32 0.995", "lt unsigned32 1.301", "lt signed32 1.347",
   "le unsigned32 1.318", "le signed32 1.352", "gt unsigned32 1.303", "gt signed32 1.344",
   "ge unsigned32 1.321", "ge signed32 1.355", "not unsigned32 0.244", "neg signed32 1.729"]

end Gateware.Measured
