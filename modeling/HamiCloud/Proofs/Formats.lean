import HamiCloud.Api.Crypto
import HamiCloud.Api.Formats

/-!
# What is written is read back

The texts of `datetime.isoformat` for every date of the years 1 to 9999 and every offset below a day, and the texts of
identifiers. With them the listings and the secrets have the formats of the deployed service.
-/

namespace HamiCloud.Proofs

open Library

/-! ### Numbers and signs -/

lemma guard_bind {α : Type} {p : Prop} [Decidable p] (h : p) (next : Unit → Option α) :
    (guard p >>= next) = next () := by
  rw [guard, if_pos h]
  rfl

lemma takeNumeral_append (width : Nat) {n : Nat} (h : n < 10 ^ width) (rest : List Char) :
    takeNumeral width (numeral 10 width n ++ rest) = some (n, rest) := by
  have hlength := length_numeral 10 width n
  have hle : width ≤ (numeral 10 width n ++ rest).length := by
    rw [List.length_append, hlength]
    exact Nat.le_add_right ..
  rw [takeNumeral, guard_bind hle, List.take_left' hlength, List.drop_left' hlength,
    readNumeral_of_lt (by decide) (by decide) h]
  rfl

lemma takeChar_cons (c : Char) (rest : List Char) : takeChar c (c :: rest) = some rest :=
  if_pos rfl

/-! ### Dates -/

lemma takeDate_append {date : Date} (hvalid : date.IsValid) (hyear : date.year < 10000) (rest : List Char) :
    takeDate (dateText date ++ rest) = some (date, rest) := by
  have hmonth : date.month < 10 ^ 2 := hvalid.2.2.1.trans_lt (by decide)
  have hday : date.day < 10 ^ 2 := (hvalid.2.2.2.2.trans (daysInMonth_le ..)).trans_lt (by decide)
  simp only [takeDate, dateText, List.append_assoc, List.cons_append, takeNumeral_append 4 hyear,
    takeNumeral_append 2 hmonth, takeNumeral_append 2 hday, takeChar_cons, Option.bind_eq_bind, Option.bind_some]
  exact guard_bind hvalid _

lemma takeFraction_append {micros : Nat} (h : micros < 1000000) (rest : List Char) (hrest : rest.head? ≠ some '.') :
    takeFraction (fractionText micros ++ rest) = some (micros, rest) := by
  rw [fractionText]
  split_ifs with hzero
  · rw [hzero, List.nil_append, takeFraction, if_neg hrest]
  · rw [takeFraction, List.cons_append, List.head?_cons, if_pos rfl]
    exact takeNumeral_append 6 h rest

lemma takeSeconds_append {micros : Nat} (h : micros < 60000000) (rest : List Char) (hrest : rest.head? ≠ some '.') :
    takeSeconds (secondsText micros ++ rest) = some (micros, rest) := by
  have hsecond : micros / 1000000 < 60 := by omega
  rw [takeSeconds, secondsText, List.cons_append, List.head?_cons, if_pos rfl, List.tail_cons, List.append_assoc,
    takeNumeral_append 2 (hsecond.trans (by decide)), Option.bind_eq_bind, Option.bind_some]
  refine (guard_bind hsecond _).trans ?_
  rw [takeFraction_append (Nat.mod_lt _ (by decide)) rest hrest, Option.bind_some]
  exact congrArg (fun n => some (n, rest)) (Nat.div_add_mod' micros 1000000)

/-- Hours and minutes, and seconds that are read from what follows. -/
lemma takeTime_append {micros : Nat} (h : micros < dayMicros) {text rest : List Char}
    (hseconds : takeSeconds text = some (micros % 60000000, rest)) :
    takeTime (minutesText micros ++ text) = some (micros, rest) := by
  rw [dayMicros] at h
  have hhour : micros / 3600000000 < 24 := by omega
  have hminute : micros / 60000000 % 60 < 60 := Nat.mod_lt _ (by decide)
  have hsum : micros / 3600000000 * 3600000000 + micros / 60000000 % 60 * 60000000 + micros % 60000000 = micros := by
    omega
  simp only [takeTime, minutesText, List.append_assoc, List.cons_append, takeChar_cons, Option.bind_eq_bind,
    takeNumeral_append 2 (hhour.trans (by decide)),
    takeNumeral_append 2 (hminute.trans (by decide)), Option.bind_some, hseconds]
  refine (guard_bind ⟨hhour, hminute⟩ _).trans ?_
  rw [hsum]
  rfl

lemma readOffset_elim {offset : Option Int} (h : ∀ o ∈ offset, o.natAbs < dayMicros) :
    readOffset (offset.elim [] offsetText) = some offset := by
  cases offset with
  | none => rfl
  | some o =>
    have hseconds : takeSeconds (if o.natAbs % 60000000 = 0 then [] else secondsText (o.natAbs % 60000000)) =
        some (o.natAbs % 60000000, []) := by
      split_ifs with hzero
      · rw [hzero]
        rfl
      · rw [← List.append_nil (secondsText _)]
        exact takeSeconds_append (Nat.mod_lt _ (by decide)) [] (by simp)
    have htime := takeTime_append (h o rfl) hseconds
    obtain ⟨sign, hsign, hproper, hvalue⟩ : ∃ sign, (if o < 0 then '-' else '+') = sign ∧
        (sign = '+' ∨ sign = '-') ∧ (if sign = '-' then -(o.natAbs : Int) else o.natAbs) = o := by
      split_ifs with hneg
      · exact ⟨'-', rfl, .inr rfl, by rw [if_pos rfl]; omega⟩
      · exact ⟨'+', rfl, .inl rfl, by rw [if_neg (by decide)]; omega⟩
    rw [Option.elim_some, offsetText, hsign, readOffset, htime]
    refine (guard_bind hproper _).trans ?_
    rw [Option.bind_eq_bind, Option.bind_some]
    exact (guard_bind rfl _).trans (congrArg (fun o => some (some o)) hvalue)

/-- A `datetime` of the years 1 to 9999 with an offset below a day. -/
structure ProperDateTime (dt : DateTime) : Prop where
  pos : 0 ≤ dt.wall + (epochDays * dayMicros : Nat)
  lt : dt.wall + (epochDays * dayMicros : Nat) < (daysBeforeYear 10000 * dayMicros : Nat)
  offset : ∀ offset ∈ dt.offset, offset.natAbs < dayMicros

theorem fromisoformat_isoformat {dt : DateTime} (h : ProperDateTime dt) : fromisoformat (isoformat dt) = some dt := by
  obtain ⟨moment, hmoment⟩ : ∃ moment : Nat, dt.wall + (epochDays * dayMicros : Nat) = moment :=
    Int.eq_ofNat_of_zero_le h.pos
  have hlt : moment < daysBeforeYear 10000 * dayMicros := Int.ofNat_lt.mp (hmoment ▸ h.lt)
  obtain ⟨hvalid, hdays⟩ := Date.ofDays_spec (moment / dayMicros)
  have hyear : (Date.ofDays (moment / dayMicros)).year ≤ 9999 :=
    Date.year_le_of_days (Nat.div_lt_of_lt_mul (by rwa [Nat.mul_comm] at hlt))
  have hoffset : (dt.offset.elim [] offsetText).head? ≠ some '.' := by
    cases dt.offset with
    | none => simp
    | some o => grind [offsetText]
  have htime := takeTime_append (Nat.mod_lt moment (by decide : 0 < dayMicros))
    (takeSeconds_append (Nat.mod_lt (moment % dayMicros) (by decide)) _ hoffset)
  simp only [fromisoformat, isoformat, hmoment, Int.toNat_natCast, String.toList_ofList,
    takeDate_append hvalid (Nat.lt_succ_of_le hyear), Option.bind_eq_bind, Option.bind_some, takeChar_cons, timeText,
    List.append_assoc, htime, readOffset_elim h.offset, hdays, Nat.div_add_mod']
  rw [← hmoment, Int.add_sub_cancel]
  rfl

example : isoformat (utcDateTime ⟨951827696000007, by decide⟩) = "2000-02-29T12:34:56.000007+00:00" := by
  decide +kernel

lemma isoformat_noBar (dt : DateTime) : '|' ∉ (isoformat dt).toList := by
  have hplain : ∀ width n, '|' ∉ numeral 10 width n := not_mem_numeral (by decide) (by decide) (by decide)
  have hfraction : ∀ micros, '|' ∉ fractionText micros := by
    intro micros
    unfold fractionText
    split_ifs <;> simp [hplain]
  have hoffset : '|' ∉ dt.offset.elim [] offsetText := by
    cases dt.offset with
    | none => simp
    | some o =>
      simp only [Option.elim_some, offsetText]
      split_ifs <;> simp [minutesText, secondsText, hplain, hfraction]
  simp [isoformat, dateText, timeText, minutesText, secondsText, hplain, hfraction, hoffset]

/-! ### Identifiers -/

lemma filter_uuidText (id : Uuid) : ∃ width, 32 ≤ width ∧ id < 16 ^ width ∧
    (uuidText id).toList.filter (· ≠ '-') = numeral 16 width id := by
  set first := max 8 (Nat.log 16 (id / 16 ^ 24) + 1) with hfirst
  have hplain : ∀ width n, (numeral 16 width n).filter (· ≠ '-') = numeral 16 width n := by
    intro width n
    refine List.filter_eq_self.mpr fun c hc => ?_
    rw [decide_eq_true_eq]
    rintro rfl
    exact not_mem_numeral (by decide) (by decide) (by decide) width n hc
  have hlt : id / 16 ^ 24 < 16 ^ first :=
    (Nat.lt_pow_succ_log_self (by decide) _).trans_le (Nat.pow_le_pow_right (by decide) (le_max_right ..))
  refine ⟨first + 24, by omega, ?_, ?_⟩
  · rw [Nat.pow_add]
    exact (Nat.div_lt_iff_lt_mul (by decide)).mp hlt
  · have hminus : ∀ text : List Char, ('-' :: text).filter (· ≠ '-') = text.filter (· ≠ '-') := fun _ => rfl
    simp only [uuidText, String.toList_ofList, List.filter_append, hminus, hplain]
    have h12 := numeral_append 16 4 12 id
    have h16 := numeral_append 16 4 16 id
    have h20 := numeral_append 16 4 20 id
    have h24 := numeral_append 16 first 24 id
    rw [h12, h16, h20, h24]

theorem parseUuid_uuidText (id : Uuid) : parseUuid (uuidText id) = some id := by
  obtain ⟨width, hwidth, hlt, hdigits⟩ := filter_uuidText id
  rw [parseUuid, hdigits, length_numeral, if_pos hwidth, readNumeral_of_lt (by decide) (by decide) hlt]

lemma uuidText_noColon (id : Uuid) : ':' ∉ (uuidText id).toList := by
  have hplain : ∀ width n, ':' ∉ numeral 16 width n := not_mem_numeral (by decide) (by decide) (by decide)
  simp [uuidText, hplain]

example : uuidText 0x1234 = "00000000-0000-0000-0000-000000001234" := by decide +kernel

/-! ### The formats of the service -/

lemma proper_utcDateTime (t : Instant) : ProperDateTime (utcDateTime t) := by
  have hend : yearTenThousand + epochDays * dayMicros = daysBeforeYear 10000 * dayMicros := by decide
  have hlt : t.val < yearTenThousand := t.isLt
  refine ⟨?_, ?_, ?_⟩
  · exact Int.natCast_nonneg (t.val + epochDays * dayMicros)
  · exact Int.ofNat_lt.mpr (hend ▸ Nat.add_lt_add_right hlt _)
  · rintro _ ⟨⟩
    decide

def pythonFormats : TextFormats where
  isoformat := isoformat
  fromisoformat := fromisoformat
  uuidText := uuidText
  parseUuid := parseUuid
  fromisoformat_isoformat t := fromisoformat_isoformat (proper_utcDateTime t)
  isoformat_noBar t := isoformat_noBar (utcDateTime t)
  parseUuid_uuidText := parseUuid_uuidText

def pythonUuid : UuidText where
  text := uuidText
  injective := by
    intro id id' h
    have hread := parseUuid_uuidText id
    rw [h, parseUuid_uuidText] at hread
    exact (Option.some.inj hread).symm
  noColon := uuidText_noColon

end HamiCloud.Proofs
