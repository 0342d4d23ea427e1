import DeviceEvents.Search
/-
  DeviceEvents.Store.Bucket — time cut into buckets of one width.

  Bucket `b` of width `w` holds the instants from millisecond `b · w` to before
  `(b + 1) · w`. A range is covered by the buckets from that of its start to that of its end.
  An open end is the present, an open start lies one width before the end, and a range that
  starts after its end is covered by the bucket of the end.
-/

namespace DeviceEvents

structure BucketScheme where
  /-- In milliseconds, between 1 and what 63 bits hold. -/
  width : Nat
  width_pos : 0 < width
  width_lt : width < 0x8000000000000000

namespace BucketScheme

/-- Of a width in nanoseconds; parts of a millisecond are dropped, and the result brought
into bounds. -/
def ofNanos (n : Nat) : BucketScheme :=
  ⟨max 1 (min (n / 1000000) (0x8000000000000000 - 1)), by omega, by omega⟩

def hourly : BucketScheme := ofNanos 3600000000000

def bucketOf (s : BucketScheme) (t : Instant) : Int := t.millis / s.width

/-- The oldest and the newest bucket that cover a range. -/
def span (s : BucketScheme) (r : DateRange) (now : Instant) : Int × Int :=
  let stop := r.stop.getD now
  let start := r.start.getD ((stop.minusMillis? s.width).getD stop)
  let newest := s.bucketOf stop
  (min (s.bucketOf start) newest, newest)

/-- How many buckets cover a range, as an unsigned number of 64 bits. -/
def count (s : BucketScheme) (r : DateRange) (now : Instant) : Nat :=
  let (oldest, newest) := s.span r now
  min ((newest - oldest).toNat + 1) (0x10000000000000000 - 1)

/-- The buckets that cover a range, newest first. -/
def covering (s : BucketScheme) (r : DateRange) (now : Instant) : List Int :=
  let (oldest, newest) := s.span r now
  (List.range ((newest - oldest).toNat + 1)).map fun (i : Nat) => newest - i

end BucketScheme
end DeviceEvents
