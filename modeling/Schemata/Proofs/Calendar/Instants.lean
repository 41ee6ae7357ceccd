/-
**Instants are small.**

The years of dates are bounded, so an instant in milliseconds is below `2 ^ 53` in size, offsets
from universal time included.

* `Read.Answers`: every answer of a read has a property, and how this is put together;
* `Calendar.Date.natAbs_dayNumber_le`: the day number of a date;
* `Calendar.readInstant?_small`: every instant that a text stands for is below `2 ^ 53` in size.
-/

import Mathlib
import Schemata.Calendar.Instant

namespace Schemata

/-! ### Answers of reads -/

namespace Read

variable {α β : Type}

/-- **Every answer of a read has a property.** -/
def Answers (read : Read α) (holds : α → Prop) : Prop :=
  ∀ text answer rest, read text = some (answer, rest) → holds answer

namespace Answers

variable {read : Read α} {next : α → Read β} {holds : α → Prop} {holdsNext : β → Prop}

/-- What is read next may rely on what has been read. -/
theorem bind (first : read.Answers holds)
    (later : ∀ answer, holds answer → (next answer).Answers holdsNext) :
    (read >>= next).Answers holdsNext := by
  intro text answer rest reads
  change (read text).bind _ = _ at reads
  obtain ⟨⟨middle, more⟩, firstReads, laterReads⟩ := Option.bind_eq_some_iff.mp reads
  exact later middle (first _ _ _ firstReads) _ _ _ laterReads

/-- What is read next need not rely on anything. -/
theorem after (later : ∀ answer, (next answer).Answers holdsNext) :
    (read >>= next).Answers holdsNext :=
  bind (show read.Answers fun _ => True from fun _ _ _ _ => trivial) fun answer _ => later answer

theorem pure {answer : α} (here : holds answer) : (Pure.pure answer : Read α).Answers holds := by
  rintro text _ rest ⟨⟩
  exact here

theorem refuse : (Read.refuse : Read α).Answers holds :=
  nofun

/-- What the whole of a text reads as. -/
theorem of_whole? (answers : read.Answers holds) {text : String} {answer : α}
    (whole : read.whole? text = some answer) : holds answer := by
  unfold whole? at whole
  split at whole
  · rename_i reads
    cases whole
    exact answers _ _ _ reads
  · cases whole

end Answers

end Read

/-! ### Digits -/

/-- The value of some digits is below the power of ten of their number. -/
theorem Numeral.digitsValue_lt {digits : List Char} (all : ∀ c ∈ digits, c.isDigit = true) :
    digitsValue digits < 10 ^ digits.length := by
  induction digits using List.reverseRecOn with
  | nil => decide
  | append_singleton digits last ih =>
      have small := ih fun c member => all c (List.mem_append_left _ member)
      have digit := all last (List.mem_append_right _ List.mem_cons_self)
      have most : last.toNat - '0'.toNat ≤ 9 := by
        rw [Char.isDigit, Bool.and_eq_true, decide_eq_true_eq, decide_eq_true_eq] at digit
        have bound : last.toNat ≤ 57 := digit.2
        have zero : '0'.toNat = 48 := rfl
        omega
      rw [digitsValue, List.foldl_append, ← digitsValue, List.length_append, List.length_singleton,
        Nat.pow_succ]
      show digitsValue digits * 10 + (last.toNat - '0'.toNat) < _
      omega

namespace Calendar

/-! ### Dates -/

theorem daysInMonth_le (year : Int) (month : Nat) : daysInMonth year month ≤ 31 := by
  unfold daysInMonth
  split_ifs <;> decide

theorem daysBeforeMonth_le (year : Int) (month : Nat) :
    daysBeforeMonth year month ≤ 31 * (month - 1) := by
  unfold daysBeforeMonth
  induction month - 1 with
  | zero => exact Nat.zero_le _
  | succ before ih =>
      rw [List.range_succ, List.foldl_append]
      have next := daysInMonth_le year (before + 1)
      show _ + daysInMonth year (before + 1) ≤ _
      omega

/-- **The day number of a date is bounded**, since its year is. -/
theorem Date.natAbs_dayNumber_le {date : Date} (valid : date.isValid = true) :
    date.dayNumber.natAbs ≤ 96500000 := by
  simp only [isValid, Bool.and_eq_true, decide_eq_true_eq] at valid
  obtain ⟨⟨⟨⟨⟨leastYear, mostYear⟩, leastMonth⟩, mostMonth⟩, leastDay⟩, mostDay⟩ := valid
  have months := daysBeforeMonth_le date.year date.month
  have days := daysInMonth_le date.year date.month
  unfold dayNumber daysBeforeYear
  omega

/-! ### Instants -/

theorem readFixedDate_answers : readFixedDate.Answers fun date => date.isValid = true := by
  refine .after fun year => .after fun _ => .after fun month => .after fun _ => .after fun day => ?_
  dsimp only
  split_ifs with valid
  · exact .pure valid
  · exact .refuse

theorem readMilliseconds_answers : readMilliseconds.Answers fun milliseconds =>
    milliseconds < 1000 := by
  refine .after fun point => ?_
  cases point with
  | false => exact .pure (by decide)
  | true =>
      have run : (Read.run Char.isDigit).Answers fun digits => ∀ c ∈ digits, c.isDigit = true := by
        rintro text _ _ ⟨⟩
        exact List.all_eq_true.mp List.all_takeWhile
      refine run.bind fun digits all => ?_
      split_ifs
      · exact .refuse
      · refine .pure ?_
        have taken : ∀ c ∈ (digits ++ List.replicate 3 '0').take 3, c.isDigit = true := by
          intro c member
          rcases List.mem_append.mp (List.mem_of_mem_take member) with digit | zero
          · exact all c digit
          · rw [List.eq_of_mem_replicate zero]
            rfl
        have small := Numeral.digitsValue_lt taken
        have length : ((digits ++ List.replicate 3 '0').take 3).length = 3 := by simp
        rwa [length] at small

theorem readOffset_answers : readOffset.Answers fun offset => offset.natAbs < 1440 := by
  refine .after fun sign => ?_
  split
  · exact .pure (by decide)
  · refine .after fun hours => .after fun _ => .after fun minutes => ?_
    split
    · exact .refuse
    · refine .pure ?_
      split_ifs <;> omega

/-- A timestamp is less than two days from the midnight of its date. -/
theorem readTimestamp_answers : readTimestamp.Answers fun instant => instant.natAbs < 2 ^ 53 := by
  refine readFixedDate_answers.bind fun date valid => .after fun _ => .after fun hour =>
    .after fun _ => .after fun minute => .after fun _ => .after fun second =>
      readMilliseconds_answers.bind fun milliseconds short =>
        readOffset_answers.bind fun offset near => ?_
  have days := date.natAbs_dayNumber_le valid
  split_ifs with inside
  · exact .pure (by omega)
  · exact .refuse

theorem readDay_answers : readDay.Answers fun instant => instant.natAbs < 2 ^ 53 := by
  refine .after fun _ => .after fun year => .after fun _ => .after fun _ => .after fun month =>
    .after fun _ => .after fun _ => .after fun day => ?_
  dsimp only
  split_ifs with valid
  · have days := Date.natAbs_dayNumber_le valid
    exact .pure (by omega)
  · exact .refuse

/-- **Every instant that a text stands for is below `2 ^ 53` in size.** -/
theorem readInstant?_small {text : String} {instant : Int}
    (reads : readInstant? text = some instant) :
    instant.natAbs < 2 ^ 53 := by
  unfold readInstant? at reads
  cases timestamp : readTimestamp.whole? text with
  | some other =>
      rw [timestamp] at reads
      cases reads
      exact readTimestamp_answers.of_whole? timestamp
  | none =>
      rw [timestamp] at reads
      exact readDay_answers.of_whole? reads

end Calendar

end Schemata
