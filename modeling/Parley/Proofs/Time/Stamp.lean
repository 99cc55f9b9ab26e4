import Parley.Proofs.Time.Rfc3339

/-!
# Time stamps are shown as what they are

A stamp is taken apart into seconds and nanoseconds without loss, whatever word it is.  From
then on it does not matter whether it is dated as it is or in parts: the same stamps have a
date, and the date and the time of day are the same.  They are those of the moment that the
stamp counts to, so that the moment can be read off what is written.
-/

namespace Parley
namespace Stamp

theorem isDated_iff (stamp : Int) :
    isDated stamp = true ↔ -8334601228800000 ≤ stamp ∧ stamp ≤ 8210266876799999 := by
  rw [isDated, Bool.and_eq_true, decide_eq_true_eq, decide_eq_true_eq]
  rfl

/-! ## Seconds and nanoseconds -/

namespace Instant

variable (word : Int64)

theorem toInt_seconds_ofStamp : (ofStamp word.toInt).seconds.toInt = word.toInt / 1000 := by
  have least := word.le_toInt
  have most := word.toInt_lt
  exact Int64.toInt_ofInt_of_le (by omega) (by omega)

theorem toInt_rest : (Int64.ofInt (word.toInt % 1000)).toInt = word.toInt % 1000 :=
  Int64.toInt_ofInt_of_le (by omega) (by omega)

/-- The product does not leave the words of 64 bits. -/
theorem toInt_rest_mul :
    (Int64.ofInt (word.toInt % 1000) * 1000000).toInt = word.toInt % 1000 * 1000000 := by
  have factor : (1000000 : Int64).toInt = 1000000 := rfl
  rw [Int64.toInt_mul, toInt_rest, factor]
  exact Int.bmod_eq_of_le (by omega) (by omega)

/-- The nanoseconds do not leave the words of 32 bits. -/
theorem toNat_nanoseconds_ofStamp :
    ((ofStamp word.toInt).nanoseconds.toNat : Int) = word.toInt % 1000 * 1000000 := by
  have product := toInt_rest_mul word
  have nonnegative : 0 ≤ Int64.ofInt (word.toInt % 1000) * 1000000 := by
    rw [Int64.le_iff_toInt_le, product]
    simp only [Int64.toInt_zero]
    omega
  rw [ofStamp, UInt64.toNat_toUInt32, Int64.toNat_toUInt64_of_le nonnegative,
    ← Int64.toNat_toInt, product]
  omega

/-- The seconds and the nanoseconds of a stamp are as they should be, and so is all that is
computed on the way to them. -/
structure IsExact (stamp : Int) : Prop where
  seconds : (ofStamp stamp).seconds.toInt = stamp / 1000
  rest : (Int64.ofInt (stamp % 1000)).toInt = stamp % 1000
  product : (Int64.ofInt (stamp % 1000) * 1000000).toInt = stamp % 1000 * 1000000
  nanoseconds : ((ofStamp stamp).nanoseconds.toNat : Int) = stamp % 1000 * 1000000
  nanoseconds_lt : (ofStamp stamp).nanoseconds.toNat < 1000000000

theorem isExact_toInt : IsExact word.toInt := by
  have nanoseconds := toNat_nanoseconds_ofStamp word
  exact ⟨toInt_seconds_ofStamp word, toInt_rest word, toInt_rest_mul word, nanoseconds, by omega⟩

/-- In whole seconds and nanoseconds a stamp has a date exactly when it has one in
milliseconds. -/
theorem isDated_ofStamp : (ofStamp word.toInt).isDated = Stamp.isDated word.toInt := by
  have seconds := toInt_seconds_ofStamp word
  have nanoseconds := toNat_nanoseconds_ofStamp word
  rw [Bool.eq_iff_iff, isDated_iff]
  unfold isDated firstSecond lastSecond secondLength
  simp only [Bool.and_eq_true, decide_eq_true_eq]
  omega

/-- It is the same date and the same time of day. -/
theorem toLocal_ofStamp : (ofStamp word.toInt).toLocal = Stamp.toLocal word.toInt := by
  have seconds := toInt_seconds_ofStamp word
  have nanoseconds := toNat_nanoseconds_ofStamp word
  have day : Int.fdiv (word.toInt + zoneOffset) dayLength =
      Int.fdiv (word.toInt / 1000 + zoneSeconds) daySeconds := by
    rw [Int.fdiv_eq_ediv_of_nonneg _ (by decide), Int.fdiv_eq_ediv_of_nonneg _ (by decide)]
    unfold zoneOffset zoneSeconds dayLength daySeconds
    omega
  generalize shifted : (Int.fmod (word.toInt / 1000 + zoneSeconds) daySeconds).toNat = second
  have inDay : (Int.fmod (word.toInt + zoneOffset) dayLength).toNat =
      second * 1000 + (word.toInt % 1000).toNat := by
    rw [← shifted, Int.fmod_eq_emod_of_nonneg _ (by decide),
      Int.fmod_eq_emod_of_nonneg _ (by decide)]
    unfold zoneOffset zoneSeconds dayLength daySeconds
    omega
  simp only [toLocal, Stamp.toLocal, seconds, shifted, day, inDay]
  congr 1
  all_goals omega

theorem toLocal?_ofStamp : (ofStamp word.toInt).toLocal? = Stamp.toLocal? word.toInt := by
  rw [toLocal?, Stamp.toLocal?, isDated_ofStamp, toLocal_ofStamp]

end Instant

/-! ## Date and time of day -/

/-- What is found for a stamp is a date of the calendar and a time of day. -/
theorem isValid_toLocal (stamp : Stamp) : (toLocal stamp).IsValid := by
  have inDay : (Int.fmod (stamp + zoneOffset) dayLength).toNat < 86400000 := by
    rw [Int.fmod_eq_emod_of_nonneg _ (by decide)]
    unfold dayLength
    omega
  refine ⟨(Calendar.ofDayNumber_spec _).1, ?_, ?_, ?_, ?_⟩
  all_goals
    simp only [toLocal]
    omega

/-- It is the date and the time of day in Japan when the stamp's milliseconds are over. -/
theorem nanoseconds_toLocal (stamp : Stamp) :
    Rfc3339.Reading.nanoseconds { moment := toLocal stamp, offset := zoneSeconds } =
      stamp * 1000000 := by
  have day := (Calendar.ofDayNumber_spec (Int.fdiv (stamp + zoneOffset) dayLength)).2
  simp only [Rfc3339.Reading.nanoseconds, toLocal, day]
  rw [Int.fmod_eq_emod_of_nonneg _ (by decide), Int.fdiv_eq_ediv_of_nonneg _ (by decide)]
  unfold zoneOffset zoneSeconds dayLength
  omega

theorem toLocal?_of_isDated {stamp : Stamp} (dated : isDated stamp = true) :
    toLocal? stamp = some (toLocal stamp) :=
  if_pos dated

theorem toLocal?_of_not_isDated {stamp : Stamp} (undated : isDated stamp ≠ true) :
    toLocal? stamp = none :=
  if_neg undated

/-! ## What is written -/

/-- Whatever word a stamp is, it is taken apart without loss, and its parts have a date and a
time of day exactly when it has them itself, and then the same.  For a stamp with a date what
is written is the date and time in Japan from which the stamp is read back, to the
nanosecond, and the time of day in it is what the clock shows.  Without a date, the first is
written for stamp 0 instead, and the clock shows dashes. -/
theorem times_are_rendered_faithfully (word : Int64) :
    let stamp : Stamp := word.toInt
    Instant.IsExact stamp ∧ (Instant.ofStamp stamp).toLocal? = toLocal? stamp ∧
    if -8334601228800000 ≤ word.toInt ∧ word.toInt ≤ 8210266876799999 then
      (toLocal? stamp).isSome = true ∧
      (∃ reading, Rfc3339.read? (rfc3339 stamp) = some reading ∧
        reading.offset = 9 * 3600 ∧ reading.nanoseconds = word.toInt * 1000000) ∧
      Rfc3339.clockPart (rfc3339 stamp) = clock stamp
    else
      toLocal? stamp = none ∧ rfc3339 stamp = "1970-01-01T09:00:00+09:00" ∧
      clock stamp = "--:--:--" := by
  intro stamp
  have alike := Instant.toLocal?_ofStamp word
  refine ⟨Instant.isExact_toInt word, alike, ?_⟩
  split
  case isTrue dated =>
    have found := toLocal?_of_isDated ((isDated_iff stamp).2 dated)
    have valid := isValid_toLocal stamp
    have document : rfc3339 stamp = (toLocal stamp).rfc3339 := by
      rw [rfc3339, alike, found]
    have terminal : clock stamp = (toLocal stamp).clockText := by
      rw [clock, found, Option.map_some, Option.getD_some]
    rw [document, terminal]
    exact ⟨by rw [found, Option.isSome_some],
      ⟨_, Rfc3339.read?_rfc3339 valid, rfl, nanoseconds_toLocal stamp⟩,
      Rfc3339.clockPart_rfc3339 valid⟩
  case isFalse undated =>
    have none := toLocal?_of_not_isDated fun dated => undated ((isDated_iff stamp).1 dated)
    refine ⟨none, ?document, ?terminal⟩
    case document =>
      rw [rfc3339, alike, none]
      rfl
    case terminal => rw [clock, none, Option.map_none, Option.getD_none]

/-- Before 1970, too, a fraction is what has passed of a second. -/
example : rfc3339 (-999) = "1970-01-01T08:59:59.001+09:00" := by rfl

end Stamp
end Parley
