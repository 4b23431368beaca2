/-
# Moments written and read again

The usual format writes a moment in columns: year, month, day, hour, minute and second,
with marks between them. In the years of four digits every column is full, so the text
is one of the forms in which moments are read, and reading it gives the same date and
time of day (`DateTime.parseIso?_isoText`). And since the largest part stands first, texts
are in the order of the moments (`DateTime.isoText_lt`).

What the text does not say is the offset from universal time. A moment that was read
from it has none, and is taken to be in universal time; so it is counted by the same
seconds, and written by the same text again.

Key definitions: `DateTime.unplaced`, `DateTime.firstMoment`, `DateTime.lastMoment`.
Key theorems: `DateTime.parseIso?_isoText`, `DateTime.format?_usualFormat`,
`DateTime.isoText_lt`, `Filter.date_written_and_read`.
-/
import Mathlib.Data.List.TakeWhile
import Stencil.Filter.Builtin
import Stencil.Proofs.Columns
import Stencil.Proofs.Seconds

namespace Stencil

namespace Calendar

open Number

/-! ### Reading columns -/

/-- A date in columns is read as that date. -/
theorem parseDate?_isoText {d : Date} (proper : d.Valid) : parseDate? d.isoText = some d := by
  obtain ⟨year, month, day⟩ := proper.fits
  have first := takeDigits?_padded (w := 3) year
    ('-' :: (padded 2 d.month ++ '-' :: padded 2 d.day))
  have second := takeDigits?_padded (w := 1) month ('-' :: padded 2 d.day)
  have third := takeDigits?_padded (w := 1) day []
  rw [List.append_nil] at third
  obtain ⟨c, e, written, digit, -⟩ := exists_padded_two month
  have letter : c ≠ 'W' := Text.ne_of_isDigit digit rfl
  simp only [Date.isoText, List.append_assoc, List.cons_append]
  rw [written] at first second ⊢
  simp_all [parseDate?]

/-- A part of a time of day with a colon behind it. -/
theorem parseFields?_colon {r : ClockReading} {more field n : Nat} {c : Char} {text cs : List Char}
    (read : takeDigits? 2 text = some (n, ':' :: c :: cs)) :
    parseFields? r true (more + 1) field text =
      parseFields? (r.set field n) true more (field + 1) (c :: cs) := by
  simp [parseFields?, read]

/-- A time of day in columns is read as that time. -/
theorem parseClock?_columns {h m s : Nat} (hour : h < 100) (minute : m < 100) (second : s < 100) :
    parseClock? (padded 2 h ++ ':' :: (padded 2 m ++ ':' :: padded 2 s)) =
      some { hour := h, minute := m, second := s } := by
  have first := takeDigits?_padded (w := 1) hour (':' :: (padded 2 m ++ ':' :: padded 2 s))
  have middle := takeDigits?_padded (w := 1) minute (':' :: padded 2 s)
  have last := takeDigits?_padded (w := 1) second []
  obtain ⟨a, b, minutes, -, -⟩ := exists_padded_two minute
  obtain ⟨c, d, seconds, -, -⟩ := exists_padded_two second
  rw [List.append_nil] at last
  rw [minutes, seconds] at first middle
  rw [seconds] at last
  rw [parseClock?, minutes, seconds, parseFields?_colon first]
  show parseFields? _ true 2 1 ([a, b] ++ [':', c, d]) = _
  rw [parseFields?_colon middle]
  simp [parseFields?, last, ClockReading.set]

theorem bytesOf_of_ascii {cs : List Char} (ascii : ∀ c ∈ cs, c.toNat < 0x80) : bytesOf cs = cs := by
  have single (c : Char) (low : c.toNat < 0x80) :
      ((String.utf8EncodeChar c).map fun b => Char.ofNat b.toNat) = [c] := by
    have code : c.val.toNat ≤ 127 := Nat.le_of_lt_succ low
    have byte : (UInt8.ofNat c.val.toNat).toNat = c.toNat := by
      rw [UInt8.toNat_ofNat', Nat.mod_eq_of_lt (by omega)]
      rfl
    simp only [String.utf8EncodeChar, if_pos code, List.map_cons, List.map_nil, byte,
      Char.ofNat_toNat]
  induction cs with
  | nil => rfl
  | cons c cs ih =>
    rw [List.forall_mem_cons] at ascii
    have rest : bytesOf cs = cs := ih ascii.2
    unfold bytesOf at rest ⊢
    rw [List.flatMap_cons, single c ascii.1, rest]
    rfl

/-- A time of day alone has no offset. -/
theorem parseTime?_columns {h m s : Nat} (hour : h < 100) (minute : m < 100) (second : s < 100) :
    parseTime? (padded 2 h ++ ':' :: (padded 2 m ++ ':' :: padded 2 s)) =
      some ({ hour := h, minute := m, second := s }, none) := by
  have clock := parseClock?_columns hour minute second
  have marks : ∀ c ∈ padded 2 h ++ ':' :: (padded 2 m ++ ':' :: padded 2 s),
      (!(c = '+' || c = '-' || c = 'Z')) = true := by
    have digits (n : Nat) : ∀ c ∈ padded 2 n, (!(c = '+' || c = '-' || c = 'Z')) = true := by
      intro c member
      have digit := isDigit_of_mem_padded member
      have plus : c ≠ '+' := Text.ne_of_isDigit digit rfl
      have minus : c ≠ '-' := Text.ne_of_isDigit digit rfl
      have zulu : c ≠ 'Z' := Text.ne_of_isDigit digit rfl
      simp [plus, minus, zulu]
    simp only [List.forall_mem_append, List.forall_mem_cons]
    exact ⟨digits h, rfl, digits m, rfl, digits s⟩
  have whole := List.takeWhile_eq_self_iff.mpr marks
  unfold parseTime?
  simp only [whole, clock, List.drop_length, Option.bind_eq_bind, Option.bind_some]
  rfl

theorem length_isoText {d : Date} (proper : d.Valid) : d.isoText.length = 10 := by
  obtain ⟨year, month, day⟩ := proper.fits
  have years : (padded 4 d.year).length = 4 := length_padded year
  have months : (padded 2 d.month).length = 2 := length_padded month
  have days : (padded 2 d.day).length = 2 := length_padded day
  simp [Date.isoText, years, months, days]

theorem dateLength_isoText {d : Date} (proper : d.Valid) (mark : Char) (cs : List Char) :
    dateLength (d.isoText ++ mark :: cs) = 10 := by
  obtain ⟨year, month, day⟩ := proper.fits
  have length := length_isoText proper
  have long : (d.isoText ++ mark :: cs).length ≠ 7 := by
    rw [List.length_append, length]
    omega
  have front : (padded 4 d.year).length = 4 := length_padded year
  obtain ⟨c, e, written, digit, -⟩ := exists_padded_two month
  have letter : c ≠ 'W' := Text.ne_of_isDigit digit rfl
  have hyphen : (d.isoText ++ mark :: cs)[4]? = some '-' := by
    simp only [Date.isoText, List.append_assoc]
    rw [List.getElem?_append_right (by omega), front]
    rfl
  have next : (d.isoText ++ mark :: cs)[5]? = some c := by
    simp only [Date.isoText, List.append_assoc]
    rw [List.getElem?_append_right (by omega), front, written]
    rfl
  simp only [dateLength, if_neg long, hyphen, next]
  rw [if_pos trivial, if_neg (by simpa using letter)]

end Calendar

namespace DateTime

open Calendar Number

/-- A moment without its offset. -/
def unplaced (t : DateTime) : DateTime :=
  { t with offset := none }

theorem Whole.unplaced {t : DateTime} (whole : t.Whole) : t.unplaced.Whole :=
  ⟨whole.date, whole.hour, whole.minute, whole.second, whole.microsecond⟩

/-- A moment at a whole second in columns. -/
theorem isoText_unplaced {t : DateTime} (whole : t.Whole) (mark : Char) :
    t.unplaced.isoText mark = padded 4 t.date.year ++ '-' :: (padded 2 t.date.month ++ '-' ::
      (padded 2 t.date.day ++ mark :: (padded 2 t.hour ++ ':' ::
        (padded 2 t.minute ++ ':' :: padded 2 t.second)))) := by
  simp [isoText, unplaced, Date.isoText, fractionText, whole.microsecond]

/-- **A moment in columns is read as that moment, but for its offset.** -/
theorem parseIso?_isoText {t : DateTime} (whole : t.Whole) (mark : Char)
    (ascii : mark.toNat < 0x80) : parseIso? (t.unplaced.isoText mark) = some t.unplaced := by
  have columns := isoText_unplaced whole mark
  obtain ⟨date, hour, minute, second, micros⟩ := whole
  have text : t.unplaced.isoText mark = t.date.isoText ++ mark ::
      (padded 2 t.hour ++ ':' :: (padded 2 t.minute ++ ':' :: padded 2 t.second)) := by
    simp [columns, Date.isoText]
  have bytes : bytesOf (t.unplaced.isoText mark) = t.unplaced.isoText mark := by
    have digits (w n : Nat) : ∀ c ∈ padded w n, c.toNat < 0x80 := fun c member => by
      have range := Lexer.range_of_isDigit (isDigit_of_mem_padded member)
      omega
    refine bytesOf_of_ascii ?_
    rw [columns]
    simp only [List.forall_mem_append, List.forall_mem_cons]
    exact ⟨digits _ _, by decide, digits _ _, by decide, digits _ _, ascii, digits _ _, by decide,
      digits _ _, by decide, digits _ _⟩
  have length := length_isoText date
  have clock := parseTime?_columns (h := t.hour) (m := t.minute) (s := t.second) (by omega)
    (by omega) (by omega)
  have same : (⟨t.date, t.hour, t.minute, t.second, 0, none⟩ : DateTime) = t.unplaced := by
    rw [← micros]
    rfl
  have proper : t.unplaced.valid = true := by
    simp [valid, unplaced, Date.valid_iff.mpr date, hour, minute, second, micros]
  rw [parseIso?, bytes, text, parseBytes?]
  simp only [dateLength_isoText date, List.take_left' length, List.drop_left' length,
    parseDate?_isoText date]
  simp [widthFrom, ascii, clock, same, proper]

/-! ### Writing -/

/-- **In a year of four digits the usual format writes a moment in columns.** -/
theorem format?_usualFormat {t : DateTime} (whole : t.Whole) (year : 1000 ≤ t.date.year) :
    t.format? usualFormat = some (t.unplaced.isoText ' ') := by
  have full : ofNat t.date.year = padded 4 t.date.year := ofNat_eq_padded year whole.date.fits.1
  have letters : t.format? usualFormat = some (ofNat t.date.year ++ (['-'] ++
      (padded 2 t.date.month ++ (['-'] ++ (padded 2 t.date.day ++ ([' '] ++ (padded 2 t.hour ++
        ([':'] ++ (padded 2 t.minute ++ ([':'] ++ (padded 2 t.second ++ []))))))))))) := rfl
  rw [letters, full, isoText_unplaced whole]
  simp

/-- The count of seconds as a format. -/
theorem format?_seconds {t : DateTime} {seconds : Int} (count : t.epochSeconds? = some seconds) :
    t.format? ['U'] = some (ofInt seconds) := by
  rw [format?.eq_4, count, format?.eq_1]
  dsimp only
  rw [List.append_nil]

/-- **Texts in columns are in the order of the moments.** -/
theorem isoText_lt {a b : DateTime} (whole : a.Whole) (whole' : b.Whole) (mark : Char)
    (earlier : a.fields < b.fields) : a.unplaced.isoText mark < b.unplaced.isoText mark := by
  obtain ⟨year, month, day⟩ := whole'.date.fits
  have hour : b.hour < 100 := Nat.lt_trans whole'.hour (by decide)
  have minute : b.minute < 100 := Nat.lt_trans whole'.minute (by decide)
  have second : b.second < 100 := Nat.lt_trans whole'.second (by decide)
  have last : a.second < b.second → padded 2 a.second < padded 2 b.second := fun less => by
    simpa using padded_lt (w := 1) less second [] []
  rw [isoText_unplaced whole, isoText_unplaced whole']
  -- each column but the last has a mark behind it
  refine column_lt year ((fields_lt.mp earlier).imp_right fun rest => rest.imp_right ?_)
  refine fun rest => column_lt month (rest.imp_right fun rest => rest.imp_right ?_)
  refine fun rest => column_lt day (rest.imp_right fun rest => rest.imp_right ?_)
  refine fun rest => column_lt hour (rest.imp_right fun rest => rest.imp_right ?_)
  exact fun rest => column_lt minute (rest.imp_right fun rest => rest.imp_right last)

theorem text_lt {a b : DateTime} (whole : a.Whole) (whole' : b.Whole) (mark : Char)
    (earlier : a.clockSeconds < b.clockSeconds) :
    String.ofList (a.unplaced.isoText mark) < String.ofList (b.unplaced.isoText mark) := by
  rw [String.lt_iff, String.toList_ofList, String.toList_ofList]
  exact isoText_lt whole whole' mark (fields_lt_of_clockSeconds whole whole' earlier)

/-! ### The years of four digits -/

/-- The first second of the year 1000, universal time. -/
def firstMoment : DateTime :=
  ⟨⟨1000, 1, 1⟩, 0, 0, 0, 0, some 0⟩

/-- The last second of the year 9999, universal time. -/
def lastMoment : DateTime :=
  ⟨⟨9999, 12, 31⟩, 23, 59, 59, 0, some 0⟩

theorem clockSeconds_firstMoment : firstMoment.clockSeconds = -30610224000 := by
  decide

theorem clockSeconds_lastMoment : lastMoment.clockSeconds = 253402300799 := by
  decide

variable {t : Int} (first : firstMoment.clockSeconds ≤ t) (last : t ≤ lastMoment.clockSeconds)
include first last

/-- Each count of seconds in these years is that of a moment in a year of four digits. -/
theorem exists_moment : ∃ m, ofEpoch? t 0 = some m ∧ m.Whole ∧ m.offset = some 0 ∧
    m.clockSeconds = t ∧ 1000 ≤ m.date.year := by
  have low := clockSeconds_firstMoment ▸ first
  have high := clockSeconds_lastMoment ▸ last
  obtain ⟨m, made, whole, offset, count⟩ := ofEpoch?_spec
    (Int.le_trans (by decide) low) (Int.lt_of_le_of_lt high (by decide))
  refine ⟨m, made, whole, offset, count, Nat.le_of_not_lt fun before => ?_⟩
  have start : firstMoment.Whole :=
    ⟨Date.valid_iff.mp (by decide), by decide, by decide, by decide, rfl⟩
  have earlier := clockSeconds_lt whole start (fields_lt.mpr (.inl before))
  omega

/-- Such a moment is counted with its offset and without. -/
theorem epochSeconds?_moment {m : DateTime} (whole : m.Whole) (offset : m.offset = some 0)
    (count : m.clockSeconds = t) :
    m.epochSeconds? = some t ∧ m.unplaced.epochSeconds? = some t := by
  have low := clockSeconds_firstMoment ▸ first
  have high := clockSeconds_lastMoment ▸ last
  have few : m.clockSeconds.natAbs < twoTo 53 := by
    rw [count, show twoTo 53 = 9007199254740992 from rfl]
    omega
  have later : 1 < m.date.dayNumber := by
    have short := whole.secondOfDay_lt
    unfold clockSeconds epochDay at count
    omega
  rw [← count]
  exact ⟨epochSeconds?_of_universal offset whole.microsecond few,
    epochSeconds?_of_clock rfl whole.microsecond later few⟩

end DateTime

namespace Filter

open Calendar DateTime

variable (world : Surroundings)

/-- The filter writes the moment that a value stands for. -/
theorem date_of_toMoment? {v : Value} {m : DateTime} (read : v.toMoment? world.now = some m)
    (argument : Option String) :
    Filter.apply (builtins world) v ⟨"date", argument⟩ = m.write (argument.getD "").toList := by
  show Filter.date world v argument = _
  rw [Filter.date, read]

theorem date_usual {v : Value} {m : DateTime} (read : v.toMoment? world.now = some m)
    (whole : m.Whole) (year : 1000 ≤ m.date.year) :
    Filter.apply (builtins world) v ⟨"date", none⟩ =
      .ok (.str (String.ofList (m.unplaced.isoText ' '))) := by
  have written : m.format? (if "".toList.isEmpty then usualFormat else "".toList) =
      some (m.unplaced.isoText ' ') := format?_usualFormat whole year
  rw [date_of_toMoment? world read]
  show m.write "".toList = _
  rw [write, written]

theorem date_seconds {v : Value} {m : DateTime} (read : v.toMoment? world.now = some m)
    {seconds : Int} (count : m.epochSeconds? = some seconds) :
    Filter.apply (builtins world) v ⟨"date", some "U"⟩ =
      .ok (.str (String.ofList (Number.ofInt seconds))) := by
  have written : m.format? (if "U".toList.isEmpty then usualFormat else "U".toList) =
      some (Number.ofInt seconds) := format?_seconds count
  rw [date_of_toMoment? world read]
  show m.write "U".toList = _
  rw [write, written]

/-- A text in columns stands for the moment it was written from, but for its offset. -/
theorem toMoment?_isoText (now : DateTime) {m : DateTime} (whole : m.Whole) :
    (Value.str (String.ofList (m.unplaced.isoText ' '))).toMoment? now = some m.unplaced := by
  have read := parseIso?_isoText whole ' ' (by decide)
  have other : String.ofList (m.unplaced.isoText ' ') ≠ "now" := fun same => by
    have text : m.unplaced.isoText ' ' = "now".toList := by rw [← same, String.toList_ofList]
    have none : parseIso? "now".toList = none := by decide
    rw [text, none] at read
    cases read
  rw [Value.toMoment?, if_neg other, String.toList_ofList, read]

/-- **Dates survive being written and read.** Each count of seconds in the years from 1000 to 9999,
universal time, is that of a moment, and as such it is written again by the letter for the count. In
the usual format it is written as a text that stands for the same date and time of day, is counted
by the same seconds and is written as itself; and the texts of two counts are in the order of the
counts. -/
theorem date_written_and_read {t : Int} (first : firstMoment.clockSeconds ≤ t)
    (last : t ≤ lastMoment.clockSeconds) :
    ∃ (m : DateTime) (s : String), m.clockSeconds = t ∧ m.offset = some 0 ∧
      (Value.int t).toMoment? world.now = some m ∧
      (Value.str s).toMoment? world.now = some m.unplaced ∧
      Filter.apply (builtins world) (.int t) ⟨"date", some "U"⟩ =
        .ok (.str (String.ofList (Number.ofInt t))) ∧
      Filter.apply (builtins world) (.int t) ⟨"date", none⟩ = .ok (.str s) ∧
      Filter.apply (builtins world) (.str s) ⟨"date", some "U"⟩ =
        Filter.apply (builtins world) (.int t) ⟨"date", some "U"⟩ ∧
      Filter.apply (builtins world) (.str s) ⟨"date", none⟩ = .ok (.str s) ∧
      ∀ t' s', firstMoment.clockSeconds ≤ t' → t' ≤ lastMoment.clockSeconds →
        Filter.apply (builtins world) (.int t') ⟨"date", none⟩ = .ok (.str s') →
        (t ≤ t' ↔ s ≤ s') := by
  obtain ⟨m, made, whole, offset, count, year⟩ := exists_moment first last
  obtain ⟨placed, alone⟩ := epochSeconds?_moment first last whole offset count
  have read : (Value.int t).toMoment? world.now = some m := made
  have reread := toMoment?_isoText world.now whole
  have again := date_usual world reread whole.unplaced year
  refine ⟨m, String.ofList (m.unplaced.isoText ' '), count, offset, made, reread,
    date_seconds world read placed, date_usual world read whole year, ?_, again, ?_⟩
  · rw [date_seconds world reread alone, date_seconds world read placed]
  · intro t' s' first' last' written
    obtain ⟨m', made', whole', -, count', year'⟩ := exists_moment first' last'
    have read' : (Value.int t').toMoment? world.now = some m' := made'
    rw [date_usual world read' whole' year'] at written
    obtain rfl : String.ofList (m'.unplaced.isoText ' ') = s' :=
      Value.str.inj (Except.ok.inj written)
    constructor
    · intro le
      rcases Int.lt_or_eq_of_le le with less | same
      · exact Std.le_of_lt (text_lt whole whole' ' ' (by rwa [count, count']))
      · rw [same, made', Option.some.injEq] at made
        subst made
        exact String.le_refl _
    · intro le
      apply Int.le_of_not_gt
      intro less
      exact String.not_le.mpr (text_lt whole' whole ' ' (by rwa [count, count'])) le

theorem date_written_and_read_leap_day :
    firstMoment.clockSeconds ≤ 951868799 ∧ 951868799 ≤ lastMoment.clockSeconds ∧
      Filter.apply (builtins .still) (.int 951868799) ⟨"date", none⟩ =
        .ok (.str "2000-02-29 23:59:59") ∧
      Filter.apply (builtins .still) (.str "2000-02-29 23:59:59") ⟨"date", some "U"⟩ =
        .ok (.str "951868799") ∧
      Filter.apply (builtins .still) (.int (-1)) ⟨"date", none⟩ =
        .ok (.str "1969-12-31 23:59:59") ∧
      ((951868799 : Int) ≤ -1 ↔ "2000-02-29 23:59:59" ≤ "1969-12-31 23:59:59") := by
  have first : firstMoment.clockSeconds ≤ 951868799 := by decide
  have last : 951868799 ≤ lastMoment.clockSeconds := by decide
  have leap : Filter.apply (builtins .still) (.int 951868799) ⟨"date", none⟩ =
      .ok (.str "2000-02-29 23:59:59") := rfl
  have before : Filter.apply (builtins .still) (.int (-1)) ⟨"date", none⟩ =
      .ok (.str "1969-12-31 23:59:59") := rfl
  obtain ⟨m, s, -, -, -, -, count, written, again, -, order⟩ :=
    date_written_and_read .still first last
  obtain rfl : "2000-02-29 23:59:59" = s :=
    Value.str.inj (Except.ok.inj (leap.symm.trans written))
  exact ⟨first, last, leap, again.trans count, before,
    order (-1) _ (by decide) (by decide) before⟩

end Filter

end Stencil
