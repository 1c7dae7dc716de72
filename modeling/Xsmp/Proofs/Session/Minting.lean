import Mathlib.Data.List.Nodup
import Xsmp.Proofs.Session.Identifiers

/-!
# When a source repeats itself

An identifier has no marks between its parts, and the microseconds of its time take three to six
digits. Still its parts can be told apart: the seeds and the process number are the same in all
identifiers of a source, the sequence number has four digits, and ten digits are enough for the
seconds of the next centuries. So a source makes an identifier again only if its sequence number
has come round and the clock shows the same microsecond of the same second.
-/

namespace Xsmp

namespace Text

theorem decimal_injective (width : Nat) : Function.Injective (decimal width) := by
  intro n m h
  have hvalue := congrArg (Nat.ofDigitChars 10 · 0) h
  simpa only [ofDigitChars_decimal] using hvalue

end Text

namespace ClientIds

/-! ## What a clock shows -/

/-- The seconds since the epoch. Before the epoch there are none. -/
def seconds (now : Timestamp) : Nat := now.toNat / nanosPerSecond

/-- The microseconds since the last full second. -/
def micros (now : Timestamp) : Nat := now.toNat % nanosPerSecond / 1000

/-- So many seconds are written in ten digits. -/
def tenDigits : Nat := 10000000000

/-! ## One identifier after the other -/

/-- A source after some identifiers, where the clock shows `clock n` for the one after `n`
others. -/
def after (ids : ClientIds) (clock : Nat → Timestamp) : Nat → ClientIds
  | 0 => ids
  | n + 1 => ((ids.after clock n).mint (clock n)).2

/-- The identifier that a source makes after `n` others. -/
def nth (ids : ClientIds) (clock : Nat → Timestamp) (n : Nat) : String :=
  ((ids.after clock n).mint (clock n)).1

variable {ids other : ClientIds} {now later : Timestamp}

/-- Only the sequence number changes, and it wraps. -/
theorem after_eq (ids : ClientIds) (clock : Nat → Timestamp) (n : Nat) :
    (ids.after clock n).rand1 = ids.rand1 ∧ (ids.after clock n).rand2 = ids.rand2 ∧
      (ids.after clock n).pid = ids.pid ∧
      (ids.after clock n).sequence.val = (ids.sequence.val + n) % 10000 := by
  induction n with
  | zero => exact ⟨rfl, rfl, rfl, (Nat.mod_eq_of_lt ids.sequence.isLt).symm⟩
  | succ n ih =>
    obtain ⟨hrand1, hrand2, hpid, hsequence⟩ := ih
    have hnext : (ids.after clock (n + 1)).sequence.val =
        ((ids.after clock n).sequence.val + 1) % 10000 := rfl
    refine ⟨hrand1, hrand2, hpid, ?_⟩
    rw [hnext, hsequence]
    omega

/-- The parts of an identifier before and after the time are those of the source. -/
theorem text_eq (ids : ClientIds) (now : Timestamp) :
    ids.text now = ['1', '0'] ++ Text.hexadecimal 4 ids.rand1.toNat
      ++ Text.hexadecimal 4 ids.rand2.toNat ++ Text.decimal 10 (seconds now)
      ++ Text.decimal 3 (micros now) ++ Text.decimal 10 ids.pid.toNat
      ++ Text.decimal 4 ids.sequence := rfl

theorem length_seconds (h : seconds now < tenDigits) :
    (Text.decimal 10 (seconds now)).length = 10 :=
  Text.length_decimal ((Nat.length_toDigits_le_iff (by decide) (by decide)).mpr h)

/-- **The time and the sequence number can be read off an identifier.** -/
theorem mint_eq_iff (hrand1 : ids.rand1 = other.rand1) (hrand2 : ids.rand2 = other.rand2)
    (hpid : ids.pid = other.pid) (hnow : seconds now < tenDigits)
    (hlater : seconds later < tenDigits) :
    (ids.mint now).1 = (other.mint later).1 ↔
      ids.sequence = other.sequence ∧ seconds now = seconds later ∧ micros now = micros later := by
  constructor
  · intro h
    have hsequence := sequence_of_mint_eq h
    have htext : ids.text now = other.text later := String.ofList_inj.mp h
    -- what stands after the time is the same, so the times end at the same place
    rw [text_eq, text_eq, hrand1, hrand2, hpid, hsequence] at htext
    have htime := List.append_cancel_right (List.append_cancel_right htext)
    -- and the seconds end at the same place too
    have hlength : (Text.decimal 10 (seconds now)).length =
        (Text.decimal 10 (seconds later)).length := by
      rw [length_seconds hnow, length_seconds hlater]
    obtain ⟨hbefore, hmicros⟩ := List.append_inj htime (by simp only [List.length_append, hlength])
    have hseconds := List.append_cancel_left hbefore
    exact ⟨hsequence, Text.decimal_injective 10 hseconds, Text.decimal_injective 3 hmicros⟩
  · rintro ⟨hsequence, hseconds, hmicros⟩
    have htext : ids.text now = other.text later := by
      rw [text_eq, text_eq, hrand1, hrand2, hpid, hsequence, hseconds, hmicros]
    exact congrArg String.ofList htext

theorem sequence_after_iff (ids : ClientIds) (clock : Nat → Timestamp) (i j : Nat) :
    (ids.after clock i).sequence = (ids.after clock j).sequence ↔ i % 10000 = j % 10000 := by
  obtain ⟨-, -, -, hi⟩ := after_eq ids clock i
  obtain ⟨-, -, -, hj⟩ := after_eq ids clock j
  rw [Fin.ext_iff, hi, hj]
  omega

/-- **When a source makes an identifier twice.** It does if its sequence number has come round and
the clock shows the same microsecond again, and at no other time; until the sequence number comes
round no two identifiers are the same, whatever the clock shows. -/
theorem nth_eq_iff (ids : ClientIds) (clock : Nat → Timestamp) :
    (∀ i j, seconds (clock i) < tenDigits → seconds (clock j) < tenDigits →
      (ids.nth clock i = ids.nth clock j ↔
        i % 10000 = j % 10000 ∧ seconds (clock i) = seconds (clock j) ∧
          micros (clock i) = micros (clock j))) ∧
    ∀ first, ((List.range 10000).map fun n => ids.nth clock (first + n)).Nodup := by
  constructor
  · intro i j hi hj
    obtain ⟨hrand1, hrand2, hpid, -⟩ := after_eq ids clock i
    obtain ⟨hrand1', hrand2', hpid', -⟩ := after_eq ids clock j
    rw [nth, nth, mint_eq_iff (hrand1.trans hrand1'.symm) (hrand2.trans hrand2'.symm)
      (hpid.trans hpid'.symm) hi hj, sequence_after_iff]
  · intro first
    refine List.Nodup.map_on ?_ List.nodup_range
    intro i hi j hj h
    rw [List.mem_range] at hi hj
    have hround : (first + i) % 10000 = (first + j) % 10000 :=
      (sequence_after_iff ids clock _ _).mp (sequence_of_mint_eq h)
    omega

/-- A clock that shows a time before the epoch at first, is set, and then stands still. -/
def setForward (n : Nat) : Timestamp := if n = 0 then -5 else 1700000000 * nanosPerSecond + 5000

/-- The second identifier is made again ten thousand identifiers later. -/
theorem nth_eq_iff_round :
    seconds (setForward 1) < tenDigits ∧ seconds (setForward 10001) < tenDigits ∧
      (ofSeeds 0xdead 0xbeef 42).nth setForward 1 =
        (ofSeeds 0xdead 0xbeef 42).nth setForward 10001 := by
  have hfirst : seconds (setForward 1) < tenDigits := by decide
  have hsecond : seconds (setForward 10001) < tenDigits := by decide
  exact ⟨hfirst, hsecond, ((nth_eq_iff _ _).1 1 10001 hfirst hsecond).mpr
    ⟨rfl, rfl, rfl⟩⟩

end ClientIds

end Xsmp
