import DriveShell.Calendar
import DriveShell.Failure
import DriveShell.Host.Load

/-!
# Hosts

A host is all that a command can learn from outside the shell: what its clock
reads and how busy the machine is.  Either may fail, and every call may answer
differently, so a host is a pair of functions of the number of the call.

A seeded host has a stopped clock and draws its load from the stream of the seed.
A scripted host has a stopped clock, which may be broken, and a list of answers
for its load, the last of which repeats.
-/

namespace DriveShell

/-- The answers of a host, by the number of the call. -/
structure Host where
  /-- What the clock reads. -/
  clock : Nat → Except Failure CivilTime
  /-- How busy the machine is. -/
  load : Nat → Except Failure Snapshot

namespace Host

/-- A host with a stopped clock that draws its load from the stream of a seed. -/
def seeded (seed : UInt64) (time : CivilTime) (totalMemory : Nat) : Host :=
  let words := Stream.ofSeed seed
  { clock := fun _ => .ok time
    load := fun n =>
      .ok (Snapshot.read words totalMemory (Snapshot.indexAfter words totalMemory n)).1 }

/-- A host with a stopped clock and a list of answers for its load.  The last
answer repeats, and `otherwise` stands in for an empty list. -/
def scripted (clock : Except Failure CivilTime) (loads : List (Except Failure Snapshot))
    (otherwise : Except Failure Snapshot) : Host where
  clock := fun _ => clock
  load := fun n => loads.getD (min n (loads.length - 1)) otherwise

/-- A host with its clock stopped at another time. -/
def atTime (host : Host) (time : CivilTime) : Host := { host with clock := fun _ => .ok time }

end Host

end DriveShell
