import DriveShell.Host.Stream
import DriveShell.Number.Decimal

/-!
# The load of a machine

A snapshot shows how busy a machine is: the share of its processor, its memory
and its processes.  The machine is made up.  Its processes are always the same
seven, and the other figures are drawn: the processor below a hundred, and the
used memory between an eighth and seven eighths of the total.

The drawing is split.  `Snapshot.ofDraws` makes a snapshot of two drawn numbers,
whatever drew them, and `Snapshot.read` draws them from a stream.
-/

namespace DriveShell

/-! ## Memory -/

/-- Physical memory in megabytes. -/
structure Memory where
  /-- All of it. -/
  total : Nat
  /-- What is in use. -/
  used : Nat
deriving DecidableEq

namespace Memory

/-- What is not in use. -/
def available (m : Memory) : Nat := m.total - m.used

/-- The used share of the total in percent, rounded at each of its three steps:
the figures, their quotient, and the product with a hundred. -/
def usedPercent (m : Memory) : Floating :=
  if m.total = 0 then .zero
  else
    let double := Format.double
    let share := double.nearest false ((double.ofInt m.used).size / (double.ofInt m.total).size)
    double.nearest false (share.size * 100)

/-- The width of the range that the used memory is drawn from. -/
def span (total : Nat) : Nat := max (total / 4 * 3) 1

end Memory

/-! ## Snapshots -/

/-- A process. -/
structure ProcessEntry where
  /-- Its number. -/
  id : Nat
  /-- The name of its image. -/
  name : Text
  /-- Its share of the processor in percent. -/
  cpu : Floating
  /-- Its memory in megabytes. -/
  memory : Floating
deriving DecidableEq

/-- How busy a machine is at one moment. -/
structure Snapshot where
  /-- The share of the processor in percent. -/
  cpu : Nat
  /-- The memory. -/
  memory : Memory
  /-- The processes. -/
  processes : List ProcessEntry
deriving DecidableEq

/-- A process whose figures are given in tenths. -/
def ProcessEntry.ofTenths (id : Nat) (name : Text) (cpu memory : Nat) : ProcessEntry :=
  ⟨id, name, Format.single.ofDecimal false cpu (-1), Format.single.ofDecimal false memory (-1)⟩

/-- The processes of every machine. -/
def processTable : List ProcessEntry :=
  [.ofTenths 1234 "explorer.exe" 21 452,
    .ofTenths 5678 "chrome.exe" 153 2348,
    .ofTenths 9012 "code.exe" 87 1564,
    .ofTenths 3456 "python.exe" 12 236,
    .ofTenths 7890 "node.exe" 45 672,
    .ofTenths 2468 "cmd.exe" 3 58,
    .ofTenths 1357 "notepad.exe" 1 82]

namespace Snapshot

/-- The snapshot of a machine with the given memory, from a number below
`Memory.span` and a number below a hundred. -/
def ofDraws (total usedDraw cpuDraw : Nat) : Snapshot :=
  { cpu := cpuDraw
    memory := { total := total, used := min (total / 8 + usedDraw) total }
    processes := processTable }

/-- The snapshot that a stream gives from an index on, and the index after it. -/
def read (words : Stream) (total index : Nat) : Snapshot × Nat :=
  let (usedDraw, index) := words.drawLong (Memory.span total) index
  let (cpuDraw, index) := words.drawShort 100 index
  (ofDraws total usedDraw cpuDraw, index)

/-- The index in a stream after a number of snapshots. -/
def indexAfter (words : Stream) (total : Nat) : Nat → Nat
  | 0 => 0
  | n + 1 => (read words total (indexAfter words total n)).2

/-- The first snapshots that a stream gives from an index on. -/
def readMany (words : Stream) (total index : Nat) : Nat → List Snapshot
  | 0 => []
  | n + 1 =>
    let (snapshot, index) := read words total index
    snapshot :: readMany words total index n

end Snapshot

end DriveShell
