import Mathlib.Algebra.Ring.Int.Defs
import Mathlib.Algebra.Ring.Nat
import Mathlib.Order.Basic
import Mathlib.Tactic.Common

/-!
# Instants

The instants and the durations of the standard library on Linux: whole seconds and
nanoseconds below a second, the seconds signed in an instant and unsigned in a
duration, with 64 bits in either. There are instants that are so late that a duration
cannot be added to them; `checkedAdd` is the sum where it can (`isSome_checkedAdd_iff`).

Instants are ordered as the nanoseconds since the earliest of them (`le_iff_ticks`). A
clock that is looked at again and again, with a pause in between, reaches every one of
them (`Clock.reaches`).
-/

namespace Instants

/-- The nanoseconds of a second. -/
def nanosPerSec : ℕ := 1000000000

theorem nanosPerSec_pos : 0 < nanosPerSec := Nat.succ_pos _

/-- `std::time::Duration`. -/
structure Duration where
  secs : UInt64
  nanos : ℕ
  nanos_lt : nanos < nanosPerSec

/-- `std::time::Instant`. -/
structure Instant where
  secs : Int64
  nanos : ℕ
  nanos_lt : nanos < nanosPerSec

/-- `Duration::from_secs`. -/
def Duration.fromSecs (secs : UInt64) : Duration := ⟨secs, 0, nanosPerSec_pos⟩

/-- All of its nanoseconds. -/
def Duration.toNanos (d : Duration) : ℕ := d.secs.toNat * nanosPerSec + d.nanos

namespace Instant

/-- The nanoseconds since the earliest instant. -/
def ticks (t : Instant) : ℕ := (t.secs.toInt + 2 ^ 63).toNat * nanosPerSec + t.nanos

/-- The order: by the seconds, and then by the nanoseconds. -/
instance : LE Instant where
  le t u := t.secs.toInt < u.secs.toInt ∨ t.secs = u.secs ∧ t.nanos ≤ u.nanos

instance (t u : Instant) : Decidable (t ≤ u) :=
  inferInstanceAs (Decidable (t.secs.toInt < u.secs.toInt ∨ t.secs = u.secs ∧ t.nanos ≤ u.nanos))

/-- `i64::checked_add_unsigned`. -/
def checkedAddUnsigned (secs : Int64) (n : ℕ) : Option Int64 :=
  if secs.toInt + n < 2 ^ 63 then some (Int64.ofInt (secs.toInt + n)) else none

/-- `Instant::checked_add`: the nanoseconds may make another second. -/
def checkedAdd (t : Instant) (d : Duration) : Option Instant :=
  (checkedAddUnsigned t.secs d.secs.toNat).bind fun secs =>
    if h : t.nanos + d.nanos < nanosPerSec then some ⟨secs, t.nanos + d.nanos, h⟩
    else (checkedAddUnsigned secs 1).map fun secs =>
      ⟨secs, t.nanos + d.nanos - nanosPerSec, by
        have ht := t.nanos_lt
        have hd := d.nanos_lt
        omega⟩

/-- The latest instant. -/
def last : Instant := ⟨Int64.maxValue, nanosPerSec - 1, Nat.lt_succ_self _⟩

/-! ## The order -/

/-- There is no instant beyond these. -/
theorem ticks_lt (t : Instant) : t.ticks < 2 ^ 64 * nanosPerSec := by
  have hsecs := t.secs.toInt_lt
  have hnanos := t.nanos_lt
  unfold ticks nanosPerSec at *
  omega

/-- **Instants are ordered as their nanoseconds.** -/
theorem le_iff_ticks {t u : Instant} : t ≤ u ↔ t.ticks ≤ u.ticks := by
  show t.secs.toInt < u.secs.toInt ∨ t.secs = u.secs ∧ t.nanos ≤ u.nanos ↔ _
  rw [← Int64.toInt_inj]
  have ht := t.secs.le_toInt
  have hu := u.secs.le_toInt
  have htn := t.nanos_lt
  have hun := u.nanos_lt
  unfold ticks nanosPerSec at *
  omega

theorem le_last (t : Instant) : t ≤ last := by
  have hlast : last.ticks = 2 ^ 64 * nanosPerSec - 1 := by decide
  have ht := t.ticks_lt
  rw [le_iff_ticks, hlast]
  omega

/-! ## The sum -/

/-- The seconds, where there is room for them. -/
theorem checkedAddUnsigned_eq_some_iff {secs secs' : Int64} {n : ℕ} :
    checkedAddUnsigned secs n = some secs' ↔ secs'.toInt = secs.toInt + n := by
  unfold checkedAddUnsigned
  have hsecs := secs.le_toInt
  split
  case isTrue hlt =>
    have htoInt : (Int64.ofInt (secs.toInt + n)).toInt = secs.toInt + n :=
      Int64.toInt_ofInt_of_le (by omega) hlt
    rw [Option.some_inj]
    refine ⟨fun h => h ▸ htoInt, fun h => Int64.toInt_inj.mp (htoInt.trans h.symm)⟩
  case isFalse hlt =>
    refine ⟨fun h => absurd h.symm (Option.some_ne_none _), fun h => ?_⟩
    exact absurd (h ▸ secs'.toInt_lt) hlt

theorem exists_checkedAddUnsigned {secs : Int64} {n : ℕ} (h : secs.toInt + n < 2 ^ 63) :
    ∃ secs', checkedAddUnsigned secs n = some secs' ∧ secs'.toInt = secs.toInt + n := by
  have hsome : checkedAddUnsigned secs n = some (Int64.ofInt (secs.toInt + n)) := if_pos h
  exact ⟨_, hsome, checkedAddUnsigned_eq_some_iff.mp hsome⟩

/-- **The sum is the sum**, where there is one. -/
theorem ticks_checkedAdd {t u : Instant} {d : Duration} (h : t.checkedAdd d = some u) :
    u.ticks = t.ticks + d.toNanos := by
  have ht := t.secs.le_toInt
  obtain ⟨secs, hsecs, hu⟩ := Option.bind_eq_some_iff.mp h
  rw [checkedAddUnsigned_eq_some_iff] at hsecs
  split at hu
  case isTrue hnanos =>
    obtain rfl := Option.some.inj hu
    unfold ticks Duration.toNanos nanosPerSec
    dsimp only
    omega
  case isFalse hnanos =>
    -- the nanoseconds make another second
    obtain ⟨secs', hsecs', rfl⟩ := Option.map_eq_some_iff.mp hu
    rw [checkedAddUnsigned_eq_some_iff] at hsecs'
    unfold ticks Duration.toNanos nanosPerSec at *
    dsimp only
    omega

/-- **There is a sum** where it is an instant. -/
theorem isSome_checkedAdd_iff {t : Instant} {d : Duration} :
    (t.checkedAdd d).isSome = true ↔ t.ticks + d.toNanos < 2 ^ 64 * nanosPerSec := by
  constructor
  · intro h
    obtain ⟨u, hu⟩ := Option.isSome_iff_exists.mp h
    exact ticks_checkedAdd hu ▸ u.ticks_lt
  · intro h
    have ht := t.secs.le_toInt
    have hfits : t.secs.toInt + d.secs.toNat < 2 ^ 63 := by
      unfold ticks Duration.toNanos nanosPerSec at h
      omega
    obtain ⟨secs, hsecs, hsum⟩ := exists_checkedAddUnsigned hfits
    unfold checkedAdd
    rw [hsecs, Option.bind_some]
    split
    case isTrue hnanos => rfl
    case isFalse hnanos =>
      have hcarry : secs.toInt + (1 : ℕ) < 2 ^ 63 := by
        unfold ticks Duration.toNanos nanosPerSec at *
        omega
      obtain ⟨secs', hsecs', -⟩ := exists_checkedAddUnsigned hcarry
      rw [hsecs']
      rfl

/-- Of whole seconds, where the seconds are. -/
theorem isSome_checkedAdd_fromSecs_iff {t : Instant} {secs : UInt64} :
    (t.checkedAdd (.fromSecs secs)).isSome = true ↔ t.secs.toInt + secs.toNat < 2 ^ 63 := by
  have ht := t.secs.le_toInt
  have hnanos := t.nanos_lt
  rw [isSome_checkedAdd_iff]
  unfold ticks Duration.toNanos Duration.fromSecs nanosPerSec at *
  dsimp only
  omega

end Instant

/-! ## A clock -/

/-- A clock that is looked at again and again, with a pause in between. -/
structure Clock (pause : ℕ) where
  reading : ℕ → Instant
  /-- The pause is as long as it was meant to be, at least; after the latest instant
  there is no other. -/
  sleeps : ∀ k, (reading k).ticks + pause ≤ (reading (k + 1)).ticks ∨ Instant.last ≤ reading (k + 1)

/-- After so many pauses, or when time has come to its end. -/
theorem Clock.ticks_le {pause : ℕ} (c : Clock pause) (k : ℕ) :
    k * pause ≤ (c.reading k).ticks ∨ ∃ j, Instant.last ≤ c.reading j := by
  induction k with
  | zero => exact .inl ((Nat.zero_mul pause).symm ▸ Nat.zero_le _)
  | succ k ih =>
    obtain hk | hlast := ih
    · obtain hsleeps | hlast := c.sleeps k
      · left
        rw [Nat.succ_mul]
        exact (Nat.add_le_add_right hk pause).trans hsleeps
      · exact .inr ⟨k + 1, hlast⟩
    · exact .inr hlast

/-- **Every instant is reached.** -/
theorem Clock.reaches {pause : ℕ} (c : Clock pause) (hpause : 0 < pause) (t : Instant) :
    ∃ k, t ≤ c.reading k := by
  obtain hticks | ⟨k, hlast⟩ := c.ticks_le t.ticks
  · refine ⟨t.ticks, Instant.le_iff_ticks.mpr ?_⟩
    exact (Nat.le_mul_of_pos_right t.ticks hpause).trans hticks
  · refine ⟨k, Instant.le_iff_ticks.mpr ?_⟩
    exact (Instant.le_iff_ticks.mp t.le_last).trans (Instant.le_iff_ticks.mp hlast)

end Instants
