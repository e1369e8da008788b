import AbiRecovery.Log.Timestamp

/-!
# Which times have a text

Within an era the years that begin in March have 365 days each, and one more every fourth year but the hundredth ones. So a
year begins where it begins, the first of January lies 306 days after the first of March, and the times that have a text
are all seconds of a range of years.
-/
namespace AbiRecovery.Log

/-- The days of an era before a year of it begins, in March. -/
def yearStart (year : Nat) : Nat := 365 * year + year / 4 - year / 100

/-- The year of a day of an era. -/
def yearOfEra (day : Nat) : Nat := (day - day / 1460 + day / 36524 - day / 146096) / 365

/-- The year of a day has begun, and the next one has not. -/
theorem le_yearOfEra_iff {day year : Nat} (inEra : day < 146097) (known : year < 400) :
    year ≤ yearOfEra day ↔ yearStart year ≤ day := by
  -- the hundredth years decide how many leap days a year comes after
  have century : year / 100 = 0 ∨ year / 100 = 1 ∨ year / 100 = 2 ∨ year / 100 = 3 := by omega
  unfold yearOfEra yearStart
  rw [Nat.le_div_iff_mul_le (by decide)]
  rcases century with first | second | third | fourth <;> omega

theorem yearOfEra_lt {day : Nat} (inEra : day < 146097) : yearOfEra day < 400 := by
  unfold yearOfEra
  rw [Nat.div_lt_iff_lt_mul (by decide)]
  omega

/-- Which month a day of a year that begins in March falls in: the last two come after the turn of the year. -/
theorem month_le_two_iff {day : Nat} (inYear : day < 366) :
    (if (5 * day + 2) / 153 < 10 then (5 * day + 2) / 153 + 3 else (5 * day + 2) / 153 - 9) ≤ 2 ↔ 306 ≤ day := by
  split <;> omega

/-- A day within its year. -/
theorem sub_yearStart_lt {day : Nat} (inEra : day < 146097) : day - yearStart (yearOfEra day) < 366 := by
  obtain last | inner : yearOfEra day = 399 ∨ yearOfEra day + 1 < 400 := by
    have bound := yearOfEra_lt inEra
    omega
  · rw [last]
    unfold yearStart
    omega
  · have next : day < yearStart (yearOfEra day + 1) :=
      Nat.lt_of_not_le fun begun => absurd ((le_yearOfEra_iff inEra inner).mpr begun) (Nat.not_succ_le_self _)
    unfold yearStart at next ⊢
    omega

/-- The year of the date of a day of an era. -/
theorem year_ofDays {days era : Int} {day : Nat} (inEra : day < 146097) (same : days + 719468 = 146097 * era + day) :
    (Date.ofDays days).year =
      if 306 ≤ day - yearStart (yearOfEra day) then (yearOfEra day : Int) + era * 400 + 1
      else (yearOfEra day : Int) + era * 400 := by
  have ownEra : (days + 719468).fdiv 146097 = era := by
    rw [same, Int.fdiv_eq_ediv_of_nonneg _ (by decide)]
    omega
  have ownDay : ((days + 719468).fmod 146097).toNat = day := by
    rw [same, Int.fmod_eq_emod_of_nonneg _ (by decide)]
    omega
  simp only [← month_le_two_iff (sub_yearStart_lt inEra)]
  subst ownEra ownDay
  rfl

/-- A year after the first of an era has come when its first of January has. -/
theorem lt_year_ofDays_iff (days era : Int) {year : Nat} (known : year < 400) :
    400 * era + year < (Date.ofDays days).year ↔ 146097 * era + yearStart year + 306 ≤ days + 719468 := by
  obtain ⟨own, day, same, inEra⟩ : ∃ own : Int, ∃ day : Nat, days + 719468 = 146097 * own + day ∧ day < 146097 :=
    ⟨(days + 719468) / 146097, ((days + 719468) % 146097).toNat, by omega, by omega⟩
  have begun := le_yearOfEra_iff inEra known
  have bound := yearOfEra_lt inEra
  have within := sub_yearStart_lt inEra
  have started : yearStart (yearOfEra day) ≤ day := (le_yearOfEra_iff inEra bound).mp (Nat.le_refl _)
  have early : yearStart year + 306 < 146097 := by
    unfold yearStart
    omega
  rw [year_ofDays inEra same]
  rcases Int.lt_trichotomy own era with before | same | after
  · split <;> omega
  · subst same
    rcases Nat.lt_trichotomy (yearOfEra day) year with earlier | same | later
    · have unbegun : day < yearStart year := Nat.lt_of_not_le fun found => absurd (begun.mpr found) (by omega)
      split <;> omega
    · subst same
      split <;> omega
    · have apart : yearStart year + 306 ≤ yearStart (yearOfEra day) := by
        unfold yearStart
        omega
      split <;> omega
  · split <;> omega

/-! ## Times with a text -/

/-- The first second that has a text: years before have no dates. -/
def firstSecond : Int := -67768040609740800

/-- The end of the seconds that have a text: years after have none. -/
def endSecond : Int := 67767976233532800

/-- A time that clocks of 64 bits hold and whose year has a text where the zone's clocks show it. -/
structure Zone.Tells (zone : Zone) (seconds : Int) : Prop where
  held : -0x8000000000000000 ≤ seconds ∧ seconds < 0x8000000000000000
  first : firstSecond ≤ zone.shown seconds
  last : zone.shown seconds < endSecond

theorem timeFault?_eq_none_iff (zone : Zone) (seconds : Int) :
    timeFault? seconds (Date.ofDays ((zone.shown seconds).fdiv 86400)).year = none ↔ zone.Tells seconds := by
  generalize known : zone.shown seconds = shown
  have first := lt_year_ofDays_iff (shown.fdiv 86400) (-5368705) (show 251 < 400 by decide)
  have last := lt_year_ofDays_iff (shown.fdiv 86400) 5368709 (show 47 < 400 by decide)
  rw [Int.fdiv_eq_ediv_of_nonneg _ (by decide)] at first last ⊢
  unfold yearStart at first last
  have bounds : zone.Tells seconds ↔ (-0x8000000000000000 ≤ seconds ∧ seconds < 0x8000000000000000) ∧
      firstSecond ≤ shown ∧ shown < endSecond := by
    subst known
    exact ⟨fun tells => ⟨tells.held, tells.first, tells.last⟩, fun ⟨held, first, last⟩ => ⟨held, first, last⟩⟩
  rw [bounds]
  unfold timeFault? firstSecond endSecond
  simp only [Bool.or_eq_true, decide_eq_true_eq]
  split
  next => exact iff_of_false nofun (by omega)
  split
  next => exact iff_of_false nofun (by omega)
  split
  next => exact iff_of_false nofun (by omega)
  next => exact iff_of_true rfl (by omega)

theorem timestamp_of_tells {zone : Zone} {seconds : Int} (tells : zone.Tells seconds) :
    ∃ time, timestamp zone seconds = .ok time := by
  unfold timestamp
  dsimp only
  rw [(timeFault?_eq_none_iff zone seconds).mpr tells]
  exact ⟨_, rfl⟩

theorem timestamp_of_not_tells {zone : Zone} {seconds : Int} (untold : ¬zone.Tells seconds) :
    ∃ fault, timestamp zone seconds = .error fault := by
  have some_fault := mt (timeFault?_eq_none_iff zone seconds).mp untold
  obtain ⟨fault, known⟩ := Option.ne_none_iff_exists'.mp some_fault
  unfold timestamp
  dsimp only
  rw [known]
  exact ⟨fault, rfl⟩

end AbiRecovery.Log
