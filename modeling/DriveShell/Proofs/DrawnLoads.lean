import DriveShell.Host.Load
import DriveShell.Proofs.Words

/-!
# Drawn loads

The load of a machine is drawn by a generator, and all that is known of a generator is that a drawn
number is below its bound (`Generator`).  The drawing is done in words: megabytes have 64 bits and
the share of the processor has 8, each sum and product can fail, and there is no number to draw
below zero.

It never fails.  A quarter times three fits where the whole fits, the bound is at least one, and
an eighth and a drawn number make up no more than the whole (`eighth_add_le`).  So the used memory
is the sum itself and not the total that it is capped at.

The stream of a seed is such a generator, and what it draws in words is what `Snapshot.read` draws
(`snapshot_ofStream`).
-/

namespace DriveShell

/-! ## Generators -/

/-- A source of random numbers, with a state that goes from one number to the next. -/
structure Generator (State : Type) where
  /-- A number for a bound, and the state after it. -/
  draw {w : Nat} (bound : BitVec w) (state : State) : BitVec w × State
  /-- A number is below its bound. -/
  draw_lt {w : Nat} {bound : BitVec w} (h : 0#w < bound) (state : State) :
    (draw bound state).1 < bound

namespace Generator

variable {State : Type} {w : Nat}

/-- A number below a bound, if there are any. -/
def below? (g : Generator State) (bound : BitVec w) (state : State) : Option (BitVec w × State) :=
  if 0#w < bound then some (g.draw bound state) else none

theorem below?_of_pos (g : Generator State) {bound : BitVec w} (h : 0#w < bound) (state : State) :
    g.below? bound state = some (g.draw bound state) := if_pos h

end Generator

namespace Stream

theorem number_lt (words : Stream) (index count : Nat) :
    words.number index count < UInt32.size ^ count := by
  induction count generalizing index with
  | zero => exact Nat.one_pos
  | succ count ih =>
    have hword : (words index).toNat < UInt32.size := (words index).toNat_lt
    have hrest := ih (index + 1)
    rw [number, Nat.pow_succ']
    calc (words index).toNat + UInt32.size * words.number (index + 1) count
        < UInt32.size * (words.number (index + 1) count + 1) := by
          rw [Nat.mul_add, Nat.mul_one]
          omega
      _ ≤ UInt32.size * UInt32.size ^ count := Nat.mul_le_mul_left _ hrest

/-- A group of words scaled to a span is below it. -/
theorem drawFrom_lt (words : Stream) (count zone trials index : Nat) {span : Nat} (h : 0 < span) :
    (words.drawFrom count span zone trials index).1 < span := by
  induction trials generalizing index with
  | zero => exact h
  | succ trials ih =>
    rw [drawFrom]
    split
    next =>
      have hsize : 0 < UInt32.size ^ count := Nat.pow_pos (by decide)
      refine (Nat.div_lt_iff_lt_mul hsize).mpr ?_
      rw [Nat.mul_comm span]
      exact Nat.mul_lt_mul_of_pos_right (number_lt words index count) h
    next => exact ih _

/-- The number that a stream gives for a bound: narrow ones from single words, wide ones from
pairs. -/
def draw (words : Stream) (w bound index : Nat) : Nat × Nat :=
  if w ≤ 16 then words.drawShort bound index else words.drawLong bound index

theorem draw_lt (words : Stream) (w index : Nat) {bound : Nat} (h : 0 < bound) :
    (words.draw w bound index).1 < bound := by
  rw [draw]
  split
  next => exact drawFrom_lt words 1 _ _ _ h
  next => exact drawFrom_lt words 2 _ _ _ h

end Stream

/-- A stream with the index of its next word. -/
def Generator.ofStream (words : Stream) : Generator Nat where
  draw {w} bound index :=
    let (number, index) := words.draw w bound.toNat index
    (BitVec.ofNat w number, index)
  draw_lt {w bound} h index := by
    have hnumber := words.draw_lt w index (BitVec.lt_def.mp h)
    rw [BitVec.lt_def, BitVec.toNat_ofNat]
    exact Nat.lt_of_le_of_lt (Nat.mod_le _ _) hnumber

/-- A stream draws in words what it draws. -/
theorem Generator.toNat_draw_ofStream (words : Stream) {w : Nat} {bound : BitVec w}
    (h : 0#w < bound) (index : Nat) :
    (((ofStream words).draw bound index).1.toNat, ((ofStream words).draw bound index).2) =
      words.draw w bound.toNat index := by
  have hnumber := words.draw_lt w index (BitVec.lt_def.mp h)
  have hfits : (words.draw w bound.toNat index).1 < 2 ^ w :=
    Nat.lt_trans hnumber bound.isLt
  exact Prod.ext (Nat.mod_eq_of_lt hfits) rfl

/-! ## The load in words -/

namespace Machine

/-- The width of the range that the used memory is drawn from. -/
def span (total : BitVec 64) : Option (BitVec 64) :=
  (mul? (total / 4#64) 3#64).map (greater · 1#64)

/-- A snapshot of a machine with the given memory, and the state of the generator after it. -/
def snapshot {State : Type} (g : Generator State) (total : BitVec 64) (state : State) :
    Option (Snapshot × State) := do
  let span ← span total
  let (usedDraw, state) ← g.below? span state
  let sum ← add? (total / 8#64) usedDraw
  let (cpuDraw, state) ← g.below? 100#8 state
  return ({ cpu := cpuDraw.toNat
            memory := { total := total.toNat, used := (lesser sum total).toNat }
            processes := processTable }, state)

/-- The range for the used memory fits in a word and is not empty. -/
theorem exists_span (total : BitVec 64) :
    ∃ bound, span total = some bound ∧ bound.toNat = Memory.span total.toNat ∧ 0#64 < bound := by
  obtain ⟨triple, htriple⟩ : ∃ a : BitVec 64, a.toNat = total.toNat / 4 * 3 :=
    exists_toNat (by omega)
  have hmul : mul? (total / 4#64) 3#64 = some triple := by
    rw [mul?_eq_some, BitVec.toNat_udiv, htriple]
    rfl
  have hbound : (greater triple 1#64).toNat = Memory.span total.toNat := by
    rw [toNat_greater, htriple]
    rfl
  refine ⟨greater triple 1#64, by rw [span, hmul, Option.map_some], hbound, ?_⟩
  rw [BitVec.lt_def, hbound]
  exact Nat.le_max_right _ _

end Machine

namespace Memory

/-- An eighth of the memory and a number below the span are no more than the memory, and within
seven eighths of it. -/
theorem eighth_add_le {total draw : Nat} (h : draw < span total) :
    total / 8 + draw ≤ total ∧ 8 * (total / 8 + draw) ≤ 7 * total := by
  rw [span] at h
  omega

end Memory

namespace Machine

variable {State : Type}

/-- What is drawn for the used memory is below the span. -/
theorem draw_lt_span (g : Generator State) {total bound : BitVec 64}
    (hbound : bound.toNat = Memory.span total.toNat) (hpos : 0#64 < bound) (state : State) :
    (g.draw bound state).1.toNat < Memory.span total.toNat := by
  rw [← hbound]
  exact BitVec.lt_def.mp (g.draw_lt hpos state)

/-- No step of a drawing fails, and what comes out is the snapshot of the drawn numbers. -/
theorem exists_snapshot (g : Generator State) (total : BitVec 64) (state : State) :
    ∃ bound : BitVec 64, bound.toNat = Memory.span total.toNat ∧ 0#64 < bound ∧
      let (usedDraw, next) := g.draw bound state
      let (cpuDraw, later) := g.draw 100#8 next
      snapshot g total state =
        some (Snapshot.ofDraws total.toNat usedDraw.toNat cpuDraw.toNat, later) := by
  obtain ⟨bound, hspan, hbound, hpos⟩ := exists_span total
  have hhundred : 0#8 < 100#8 := by decide
  have hle := (Memory.eighth_add_le (draw_lt_span g hbound hpos state)).1
  obtain ⟨sum, hsum⟩ : ∃ a : BitVec 64,
      a.toNat = total.toNat / 8 + (g.draw bound state).1.toNat :=
    exists_toNat (Nat.lt_of_le_of_lt hle total.isLt)
  have hadd : add? (total / 8#64) (g.draw bound state).1 = some sum := by
    rw [add?_eq_some, BitVec.toNat_udiv, hsum]
    rfl
  refine ⟨bound, hbound, hpos, ?_⟩
  simp only [snapshot, hspan, g.below?_of_pos hpos, hadd, g.below?_of_pos hhundred,
    Option.bind_eq_bind, Option.bind_some, Option.pure_def, toNat_lesser, hsum, Snapshot.ofDraws]

/-- What a stream draws in words is what `Snapshot.read` draws. -/
theorem snapshot_ofStream (words : Stream) (total : BitVec 64) (index : Nat) :
    snapshot (.ofStream words) total index = some (Snapshot.read words total.toNat index) := by
  obtain ⟨bound, hbound, hpos, hsnapshot⟩ := exists_snapshot (.ofStream words) total index
  have hhundred : 0#8 < 100#8 := by decide
  have hused := Generator.toNat_draw_ofStream words hpos index
  have hcpu := Generator.toNat_draw_ofStream words hhundred
    ((Generator.ofStream words).draw bound index).2
  rw [Stream.draw, if_neg (by decide), hbound] at hused
  rw [Stream.draw, if_pos (by decide), show (100#8).toNat = 100 from rfl] at hcpu
  rw [Snapshot.read, ← hused]
  dsimp only
  rw [← hcpu]
  exact hsnapshot

/-- Whatever the memory and whatever the generator, a snapshot is drawn without a sum or a product
that is too large and without an empty range.  The used memory is an eighth of the total and the
drawn number, which the cap at the total leaves as it is.  It is at least the eighth and at most
seven eighths, with what is available it makes up the total, and the share of the processor is
below a hundred. -/
theorem drawn_load_fits (g : Generator State) (total : BitVec 64) (state : State) :
    ∃ (bound : BitVec 64) (result : Snapshot) (later : State),
      snapshot g total state = some (result, later) ∧
      bound.toNat = Memory.span total.toNat ∧
      result = .ofDraws total.toNat (g.draw bound state).1.toNat result.cpu ∧
      result.memory.used = total.toNat / 8 + (g.draw bound state).1.toNat ∧
      result.memory.total = total.toNat ∧
      total.toNat / 8 ≤ result.memory.used ∧
      8 * result.memory.used ≤ 7 * result.memory.total ∧
      result.memory.available + result.memory.used = result.memory.total ∧
      result.cpu < 100 := by
  obtain ⟨bound, hbound, hpos, hsnapshot⟩ := exists_snapshot g total state
  obtain ⟨hle, hseven⟩ := Memory.eighth_add_le (draw_lt_span g hbound hpos state)
  have hused : min (total.toNat / 8 + (g.draw bound state).1.toNat) total.toNat =
      total.toNat / 8 + (g.draw bound state).1.toNat := Nat.min_eq_left hle
  have hhundred : 0#8 < 100#8 := by decide
  have hcpu := BitVec.lt_def.mp (g.draw_lt hhundred (g.draw bound state).2)
  refine ⟨bound, _, _, hsnapshot, hbound, rfl, hused, rfl, ?_, ?_, ?_, hcpu⟩
  · simp only [Snapshot.ofDraws, hused]
    exact Nat.le_add_right _ _
  · simp only [Snapshot.ofDraws, hused]
    exact hseven
  · simp only [Snapshot.ofDraws, Memory.available, hused]
    exact Nat.sub_add_cancel hle

/-- All the memory that 64 bits count, drawn from the stream of a seed. -/
theorem drawn_load_fits_largest :
    ∃ (bound : BitVec 64) (result : Snapshot) (later : Nat),
      snapshot (.ofStream (Stream.ofSeed 1)) 18446744073709551615#64 0 = some (result, later) ∧
      bound.toNat = Memory.span (18446744073709551615#64).toNat ∧
      result = .ofDraws (18446744073709551615#64).toNat
        ((Generator.ofStream (Stream.ofSeed 1)).draw bound 0).1.toNat result.cpu ∧
      result.memory.used = (18446744073709551615#64).toNat / 8 +
        ((Generator.ofStream (Stream.ofSeed 1)).draw bound 0).1.toNat ∧
      result.memory.total = (18446744073709551615#64).toNat ∧
      (18446744073709551615#64).toNat / 8 ≤ result.memory.used ∧
      8 * result.memory.used ≤ 7 * result.memory.total ∧
      result.memory.available + result.memory.used = result.memory.total ∧
      result.cpu < 100 :=
  drawn_load_fits (.ofStream (Stream.ofSeed 1)) 18446744073709551615#64 0

end Machine

end DriveShell
