import OpenRecall.Foundation.IsoOrder
import OpenRecall.Model.StampedListings

/-!
# Datetimes and their texts

A datetime is in the years 1 to 9999 and less than a day off UTC, when it says how far off it is.
The stores write datetimes as ISO texts. Two that say it, or two that do not, have texts that
compare as their local clocks do, and then as their offsets are placed (`isoformat_lt_iff`).
-/

set_option autoImplicit false

namespace OpenRecall.Model.Datetimes

open Foundation Paging

instance (s : IsoTime.Stamp) : Decidable s.Valid :=
  decidable_of_iff (s.clock < 3652059 * IsoTime.dayUs ∧ s.offset.natAbs < IsoTime.dayUs)
    ⟨fun h => ⟨h.1, h.2⟩, fun h => ⟨h.clock, h.offset⟩⟩

/-! ## Datetimes with an offset -/

abbrev AwareTime := {s : IsoTime.Stamp // s.Valid}

namespace AwareTime

/-- `<=` of two datetimes with offsets compares their instants. -/
def isLE (a b : AwareTime) : Bool := instant a.1 ≤ instant b.1

def isoformat (t : AwareTime) : List Char := IsoTime.isoText t.1

/-- The inverse of `isoformat`. -/
def fromIsoformat (cs : List Char) : Option AwareTime := do
  let s ← IsoTime.readIso cs
  if h : s.Valid then some ⟨s, h⟩ else none

end AwareTime

/-! ## Datetimes with an offset or without -/

structure DateTime where
  stamp : PyStamp
  valid : IsoTime.Stamp.Valid ⟨stamp.clock, stamp.offset.getD 0⟩

/-- A datetime as `==` sees it. -/
structure Moment where
  aware : Bool
  utc : ℤ
  deriving DecidableEq

namespace DateTime

/-- SOURCE: reminders/store.py:46-47 -/
def asAware (value : DateTime) : AwareTime :=
  ⟨⟨value.stamp.clock, value.stamp.offset.getD 0⟩, value.valid⟩

def aware (d : DateTime) : Bool := d.stamp.offset.isSome

def moment (d : DateTime) : Moment := ⟨d.aware, d.stamp.utc⟩

def isoformat (d : DateTime) : List Char :=
  match d.stamp.offset with
  | some offset => IsoTime.isoText ⟨d.stamp.clock, offset⟩
  | none => IsoTime.clockText d.stamp.clock

/-- The place of the offset in the order of their texts. -/
def rank (d : DateTime) : ℤ := IsoTime.offsetRank (d.stamp.offset.getD 0)

/-- **The order of the texts of datetimes** that both have an offset, or both have none. -/
theorem isoformat_lt_iff {a b : DateTime} (h : a.aware = b.aware) :
    a.isoformat < b.isoformat ↔
      a.stamp.clock < b.stamp.clock ∨ a.stamp.clock = b.stamp.clock ∧ a.rank < b.rank := by
  obtain ⟨⟨clock, offset⟩, hvalid⟩ := a
  obtain ⟨⟨clock', offset'⟩, hvalid'⟩ := b
  cases offset with
  | none =>
    cases offset' with
    | none => simp [isoformat, rank, IsoTime.clockText_lt_iff hvalid.clock hvalid'.clock]
    | some o' => simp [aware] at h
  | some o =>
    cases offset' with
    | none => simp [aware] at h
    | some o' =>
      have horder := IsoTime.isoText_lt_iff hvalid hvalid'
      rw [IsoTime.offsetText_lt_iff_rank hvalid.offset hvalid'.offset] at horder
      exact horder

end DateTime

end OpenRecall.Model.Datetimes
