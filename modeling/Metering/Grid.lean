import Metering.Time.Window

/-!
# Grids of instants

A grid starts at an anchor and goes on by one interval after another, for as
long as the calendar lasts. Positions on it are counted in whole milliseconds
from the anchor.
-/

namespace Metering

/-- The instants an anchor and an interval give. -/
structure Grid where
  /-- The first instant of the grid. -/
  anchor : Instant
  /-- The span from each instant to the next. -/
  interval : Span
deriving DecidableEq, Repr

namespace Grid

/-- Milliseconds from the anchor to the latest grid instant at or before an offset. -/
def floorMillis (offset interval : Int) : Int := offset - offset.emod interval

/-- The latest instant of a grid at or before a time, none before the anchor or without an
interval of at least a millisecond. -/
def floor? (grid : Grid) (time : Instant) : Option Instant :=
  let interval := grid.interval.millis
  if time < grid.anchor ∨ interval ≤ 0 then
    none
  else
    let offset := (time.since grid.anchor).millis
    grid.anchor.shift? (.ofMillis (floorMillis offset interval))

/-- The next instant of a grid, if the calendar holds it. -/
def next? (grid : Grid) (time : Instant) : Option Instant := time.shift? grid.interval

/-- The earliest instant of a grid at or after a time. -/
def ceiling? (grid : Grid) (time : Instant) : Option Instant :=
  if time ≤ grid.anchor then
    some grid.anchor
  else
    match grid.floor? time with
    | some floor => if floor = time then some floor else grid.next? floor
    | none => none

/-- The earliest instant of a grid that a start admits. -/
def firstFrom? (grid : Grid) : Bound → Option Instant
  | .unbounded => some grid.anchor
  | .inclusive start => grid.ceiling? start
  | .exclusive start =>
    match grid.ceiling? start with
    | some first => if first = start then grid.next? first else some first
    | none => none

/-- Instants of a grid from one on, for as long as they are in a window, at most a number of
them. -/
def run (grid : Grid) (window : Window) : Nat → Instant → List Instant
  | 0, _ => []
  | count + 1, time =>
    if window.contains time then
      match grid.next? time with
      | some next => time :: run grid window count next
      | none => [time]
    else
      []

/-- The instants of a grid in a window, at most a number of them, earliest first. -/
def within (grid : Grid) (window : Window) (limit : Nat) : List Instant :=
  match grid.firstFrom? window.start with
  | some first => grid.run window limit first
  | none => []

end Grid

end Metering
