/-!
# Durations

A duration is a count of whole seconds with the nanoseconds beyond them, both
of fixed width, so there is a longest one. Arithmetic is done on the number of
nanoseconds as a natural number; `ofNanos` goes back and drops, as a narrowing
of fixed-width words does, what does not fit.
-/

namespace Reattempt

/-- Whole seconds and the nanoseconds beyond them. -/
structure Duration where
  secs : UInt64
  nanos : UInt32
  nanos_lt : nanos.toNat < 1000000000 := by decide
deriving DecidableEq

namespace Duration

def nanosPerSecond : Nat := 1000000000

def nanosPerMilli : Nat := 1000000

/-- The length in nanoseconds. -/
def toNanos (d : Duration) : Nat :=
  d.secs.toNat * nanosPerSecond + d.nanos.toNat

theorem remainder_lt (n : Nat) :
    (n % nanosPerSecond).toUInt32.toNat < 1000000000 := by
  have h : n % nanosPerSecond < 1000000000 := Nat.mod_lt _ (by decide)
  have h' : (n % nanosPerSecond).toUInt32.toNat = n % nanosPerSecond % 2 ^ 32 := rfl
  omega

/-- The duration of `n` nanoseconds, its seconds taken modulo the width of a word. -/
def ofNanos (n : Nat) : Duration :=
  ⟨(n / nanosPerSecond).toUInt64, (n % nanosPerSecond).toUInt32, remainder_lt n⟩

def zero : Duration := ⟨0, 0, by decide⟩

/-- The longest duration. -/
def longest : Duration := ⟨18446744073709551615, 999999999, by decide⟩

instance : Inhabited Duration := ⟨zero⟩

def isZero (d : Duration) : Bool := d.secs == 0 && d.nanos == 0

def ofSecs (s : UInt64) : Duration := ⟨s, 0, by decide⟩

/-- Every word of milliseconds is a duration. -/
def ofMillis (ms : UInt64) : Duration := ofNanos (ms.toNat * nanosPerMilli)

/-- Whole milliseconds, rounded down. -/
def wholeMillis (d : Duration) : Nat := d.toNanos / nanosPerMilli

/-- Whole milliseconds, rounded up: what a clock of milliseconds waits. -/
def ceilMillis (d : Duration) : Nat := (d.toNanos + (nanosPerMilli - 1)) / nanosPerMilli

theorem toNanos_zero : zero.toNanos = 0 := rfl

theorem toNanos_lt (d : Duration) : d.toNanos < UInt64.size * nanosPerSecond := by
  have hs : d.secs.toNat < UInt64.size := d.secs.toNat_lt
  have hn := d.nanos_lt
  unfold toNanos nanosPerSecond
  omega

theorem toNanos_longest : longest.toNanos = UInt64.size * nanosPerSecond - 1 := by decide

theorem toNanos_le_longest (d : Duration) : d.toNanos ≤ longest.toNanos := by
  have h := d.toNanos_lt
  rw [toNanos_longest]
  omega

/-- Nothing is dropped up to the longest duration. -/
theorem toNanos_ofNanos {n : Nat} (h : n ≤ longest.toNanos) : (ofNanos n).toNanos = n := by
  rw [toNanos_longest] at h
  have hs : (n / nanosPerSecond).toUInt64.toNat = n / nanosPerSecond % 2 ^ 64 := rfl
  have hn : (n % nanosPerSecond).toUInt32.toNat = n % nanosPerSecond % 2 ^ 32 := rfl
  simp only [toNanos, ofNanos, hs, hn]
  unfold nanosPerSecond UInt64.size at *
  omega

theorem toNat_secs (d : Duration) : d.secs.toNat = d.toNanos / nanosPerSecond := by
  have hn := d.nanos_lt
  unfold toNanos nanosPerSecond
  omega

theorem toNat_nanos (d : Duration) : d.nanos.toNat = d.toNanos % nanosPerSecond := by
  have hn := d.nanos_lt
  unfold toNanos nanosPerSecond
  omega

/-- No word of milliseconds is too long. -/
theorem toNanos_ofMillis (ms : UInt64) : (ofMillis ms).toNanos = ms.toNat * nanosPerMilli := by
  have h := ms.toNat_lt
  refine toNanos_ofNanos ?_
  rw [toNanos_longest]
  unfold nanosPerMilli nanosPerSecond UInt64.size
  omega

theorem wholeMillis_mul_le (d : Duration) : d.wholeMillis * nanosPerMilli ≤ d.toNanos :=
  Nat.div_mul_le_self _ _

theorem toNanos_inj {d e : Duration} (h : d.toNanos = e.toNanos) : d = e := by
  obtain ⟨ds, dn, hd⟩ := d
  obtain ⟨es, en, he⟩ := e
  simp only [toNanos, nanosPerSecond] at h
  have h₁ : ds.toNat = es.toNat := by omega
  have h₂ : dn.toNat = en.toNat := by omega
  obtain rfl := UInt64.toNat_inj.mp h₁
  obtain rfl := UInt32.toNat_inj.mp h₂
  rfl

theorem isZero_iff (d : Duration) : d.isZero = true ↔ d = .zero := by
  constructor
  · intro h
    obtain ⟨hs, hn⟩ : d.secs = 0 ∧ d.nanos = 0 := by simpa [isZero] using h
    obtain ⟨s, n, hd⟩ := d
    obtain rfl : s = 0 := hs
    obtain rfl : n = 0 := hn
    rfl
  · rintro rfl
    rfl

theorem toNanos_pos {d : Duration} (h : d ≠ .zero) : 0 < d.toNanos := by
  rcases Nat.eq_zero_or_pos d.toNanos with hd | hd
  · exact absurd (toNanos_inj (hd.trans toNanos_zero.symm)) h
  · exact hd

/-- What is sooner than a duration is sooner than a clock of milliseconds has counted it. -/
theorem lt_add_ceilMillis {t u : Nat} {d : Duration}
    (h : u * nanosPerMilli < t * nanosPerMilli + d.toNanos) : u < t + d.ceilMillis := by
  unfold ceilMillis nanosPerMilli at *
  omega

theorem ofNanos_toNanos (d : Duration) : ofNanos d.toNanos = d :=
  toNanos_inj (toNanos_ofNanos d.toNanos_le_longest)

end Duration

end Reattempt
