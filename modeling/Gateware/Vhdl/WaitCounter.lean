/-!
# The wait counter

Every generated entity has a process that waits until its result is valid.  A start that is seen
while the process is idle makes it busy; after a fixed number of clock edges it signals the end for
one cycle and is idle again.

The process is a tree of actions, with two readings.  `Action.lines` is its VHDL text.
`Counter.step` is what it does at a clock edge: all conditions see the values from before the edge,
and of several assignments to a signal the last one counts.
-/

namespace Gateware.Vhdl

/-- The signals of one bit. -/
inductive Flag where
  | start
  | busy
  | done
deriving Repr, DecidableEq

/-- The name of a signal. -/
def Flag.name : Flag → String
  | start => "start"
  | busy => "busy"
  | done => "done"

/-- What a process can ask. -/
inductive Condition where
  /-- Whether a signal has a level. -/
  | level (flag : Flag) (high : Bool)
  /-- Whether nothing remains to be waited for. -/
  | exhausted
deriving Repr, DecidableEq

/-- What a process does at a clock edge. -/
inductive Action where
  /-- Nothing. -/
  | skip
  /-- Drives a signal. -/
  | drive (flag : Flag) (high : Bool)
  /-- Makes the counter start over. -/
  | load
  /-- Counts down. -/
  | countDown
  /-- One action after another. -/
  | sequence (first second : Action)
  /-- One of two actions. -/
  | choose (condition : Condition) (yes no : Action)
deriving Repr, DecidableEq

/-! ## As text -/

/-- The literal of a level. -/
def levelText (high : Bool) : String := if high then "'1'" else "'0'"

/-- A condition as text. -/
def Condition.text : Condition → String
  | level flag high => s!"{flag.name} = {levelText high}"
  | exhausted => "remaining = 0"

namespace Action

/-- A line moved to the right. -/
def shifted (line : String) : String := "    " ++ line

mutual

/-- The lines of an action. -/
def lines : Action → List String
  | skip => []
  | drive flag high => [s!"{flag.name} <= {levelText high};"]
  | load => ["remaining <= WAIT_CYCLES - 1;"]
  | countDown => ["remaining <= remaining - 1;"]
  | sequence first second => lines first ++ lines second
  | choose condition yes no =>
    s!"if {condition.text} then" :: ((lines yes).map shifted ++ alternative no)

/-- The lines after the first part of a choice: nothing, another choice, or the other part. -/
def alternative : Action → List String
  | skip => ["end if;"]
  | choose condition yes no =>
    s!"elsif {condition.text} then" :: ((lines yes).map shifted ++ alternative no)
  | drive flag high => ["else", shifted s!"{flag.name} <= {levelText high};", "end if;"]
  | load => ["else", shifted "remaining <= WAIT_CYCLES - 1;", "end if;"]
  | countDown => ["else", shifted "remaining <= remaining - 1;", "end if;"]
  | sequence first second => "else" :: ((lines first ++ lines second).map shifted ++ ["end if;"])

end

end Action

/-! ## At a clock edge -/

/-- The registers of a wait counter. -/
structure Counter where
  busy : Bool := false
  remaining : Nat := 0
  done : Bool := false
deriving Repr, DecidableEq

namespace Counter

/-- The level of a signal; `start` comes from outside. -/
def flag (c : Counter) (start : Bool) : Flag → Bool
  | .start => start
  | .busy => c.busy
  | .done => c.done

/-- Whether a condition holds. -/
def holds (c : Counter) (start : Bool) : Condition → Bool
  | .level flag high => c.flag start flag == high
  | .exhausted => c.remaining == 0

/-- The registers after an action, given those before the edge and those assigned so far. -/
def perform (wait : Nat) (before : Counter) (start : Bool) : Action → Counter → Counter
  | .skip, after => after
  | .drive .start _, after => after
  | .drive .busy high, after => { after with busy := high }
  | .drive .done high, after => { after with done := high }
  | .load, after => { after with remaining := wait - 1 }
  | .countDown, after => { after with remaining := before.remaining - 1 }
  | .sequence first second, after =>
    perform wait before start second (perform wait before start first after)
  | .choose condition yes no, after =>
    if before.holds start condition then perform wait before start yes after
    else perform wait before start no after

/-- What the wait counter does at every clock edge. -/
def action : Action :=
  .sequence (.drive .done false)
    (.choose (.level .busy false)
      (.choose (.level .start true) (.sequence (.drive .busy true) .load) .skip)
      (.choose .exhausted (.sequence (.drive .busy false) (.drive .done true)) .countDown))

/-- The registers after a clock edge at which `start` has the given level. -/
def step (wait : Nat) (c : Counter) (start : Bool) : Counter := perform wait c start action c

/-- The registers after a number of clock edges, from rest. -/
def run (wait : Nat) (starts : List Bool) : Counter := starts.foldl (step wait) {}

/-- The process as text. -/
def process : String :=
  String.intercalate "\n"
    (["process (clk)", "begin", "    if rising_edge(clk) then"] ++
      action.lines.map (fun line => Action.shifted (Action.shifted line)) ++
      ["    end if;", "end process;"])

/-- The declarations that the process needs, for a number of cycles to wait. -/
def declarations (wait : Nat) : List String :=
  [s!"constant WAIT_CYCLES : positive := {wait};",
    "signal remaining : natural range 0 to WAIT_CYCLES - 1 := 0;",
    "signal busy : std_logic := '0';"]

end Counter

end Gateware.Vhdl
