/-
  DeviceEvents.Instant.Basic — points in time, to the nanosecond.

  An instant is a second counted from 1970-01-01T00:00:00Z and nanoseconds in it. A leap
  second has no number of its own: it is the last second of a minute with nanoseconds from
  10^9 on. Instants lie in the years -262143 to 262142 and are ordered by second, then by
  nanosecond. The number of milliseconds of a leap second runs on into the next second.
-/

namespace DeviceEvents

structure Instant where
  second : Int
  nano : Nat
  inRange : -8334601228800 ≤ second ∧ second ≤ 8210266876799
  nano_lt : nano < 2000000000
  leap : 1000000000 ≤ nano → second % 60 = 59

namespace Instant

theorem ext {s t : Instant} (hs : s.second = t.second) (hn : s.nano = t.nano) : s = t := by
  cases s; cases t; cases hs; cases hn; rfl

instance : DecidableEq Instant := fun s t =>
  if h : s.second = t.second ∧ s.nano = t.nano then isTrue (ext h.1 h.2)
  else isFalse fun e => h (e ▸ ⟨rfl, rfl⟩)

instance : LT Instant := ⟨fun s t => s.second < t.second ∨ (s.second = t.second ∧ s.nano < t.nano)⟩

instance : LE Instant := ⟨fun s t => s.second < t.second ∨ (s.second = t.second ∧ s.nano ≤ t.nano)⟩

instance (s t : Instant) : Decidable (s < t) :=
  inferInstanceAs (Decidable (s.second < t.second ∨ (s.second = t.second ∧ s.nano < t.nano)))

instance (s t : Instant) : Decidable (s ≤ t) :=
  inferInstanceAs (Decidable (s.second < t.second ∨ (s.second = t.second ∧ s.nano ≤ t.nano)))

instance : Ord Instant := ⟨fun s t => (compare s.second t.second).then (compare s.nano t.nano)⟩

def epoch : Instant := ⟨0, 0, by decide, by decide, by decide⟩

instance : Inhabited Instant := ⟨epoch⟩

theorem lt_irrefl (s : Instant) : ¬s < s := by
  change ¬(_ ∨ _)
  omega

theorem lt_trans {s t u : Instant} (h : s < t) (h' : t < u) : s < u := by
  change _ ∨ _ at h h' ⊢
  omega

theorem lt_trichotomy (s t : Instant) : s < t ∨ s = t ∨ t < s := by
  rcases Int.lt_trichotomy s.second t.second with h | h | h
  · exact .inl (.inl h)
  · rcases Nat.lt_trichotomy s.nano t.nano with h' | h' | h'
    · exact .inl (.inr ⟨h, h'⟩)
    · exact .inr (.inl (ext h h'))
    · exact .inr (.inr (.inr ⟨h.symm, h'⟩))
  · exact .inr (.inr (.inl h))

theorem not_lt {s t : Instant} : ¬s < t ↔ t ≤ s := by
  change ¬(_ ∨ _) ↔ _ ∨ _
  omega

/-- The instant with these numbers, if there is one. -/
def of? (second : Int) (nano : Nat) : Option Instant :=
  if h : (-8334601228800 ≤ second ∧ second ≤ 8210266876799) ∧ nano < 2000000000 ∧
      (1000000000 ≤ nano → second % 60 = 59) then
    some ⟨second, nano, h.1, h.2.1, h.2.2⟩
  else none

def millis (t : Instant) : Int := t.second * 1000 + t.nano / 1000000

def ofMillis? (ms : Int) : Option Instant := of? (ms / 1000) ((ms % 1000).toNat * 1000000)

/-- Cut to whole milliseconds. -/
def truncate (t : Instant) : Instant := (ofMillis? t.millis).getD t

/-- The instant `ms` milliseconds before. Inside a leap second it is as long as any other;
from outside it takes no time. -/
def minusMillis? (t : Instant) (ms : Nat) : Option Instant :=
  let s := ms / 1000
  let n := ms % 1000 * 1000000
  if 1000000000 ≤ t.nano ∧ s = 0 then of? t.second (t.nano - n)
  else
    let (second, nano) : Int × Int :=
      if 1000000000 ≤ t.nano then (t.second + 1, t.nano - 1000000000) else (t.second, t.nano)
    let second := second - s
    let nano := nano - n
    if nano < 0 then of? (second - 1) (nano + 1000000000).toNat else of? second nano.toNat

end Instant
end DeviceEvents
