import MigrationBench.Time.Reader
import MigrationBench.Proofs.Text.Cuts
import MigrationBench.Proofs.Time.Instant

/-!
# Reading what is written

The reader of date-times takes many forms. The text of a date-time is one of them and is read back, and so are
the text with the letter for UTC and the two texts of a date alone.

* `Stamp.readClock?_clockChars`, `Stamp.readDate?_dateChars` — the parts of a text are read back.
* `Stamp.readChars?_chars` — so is the whole text, if the offset is told in seconds.
* `Stamp.IsMark` — the characters of a text, none of which is blank or a letter that is replaced.
* `Stamp.read?_render`, `Stamp.read?_zulu`, `Stamp.read?_renderDate`, `Stamp.read?_renderCompactDate` —
  **what is written is read back**; `Stamp.read?_append_blanks`: also between blanks.
-/

namespace MigrationBench

theorem Digits.not_mem_fixedDigits {c : Char} (hc : Digits.isDigit c = false) (width n : Nat) :
    c ∉ Digits.fixedDigits width n := by
  intro h
  have hall := List.all_eq_true.1 (Digits.all_isDigit_fixedDigits width n) c h
  rw [hc] at hall
  cases hall

theorem Digits.ne_digitChar {c : Char} (hc : Digits.isDigit c = false) (n : Nat) :
    Digits.digitChar n ≠ c := by
  rintro rfl
  rw [Digits.isDigit_digitChar] at hc
  cases hc

theorem Date.day_lt (d : Date) : d.day < 100 := by
  have hday := d.day_range
  have hlength : daysInMonth d.year d.month ≤ 31 := by
    unfold daysInMonth
    split
    · split <;> omega
    all_goals omega
  omega

namespace Stamp

open Digits

variable {d : Date} {c : Clock} {o : Offset} {s : Stamp} {values : List Nat} {left n micro : Nat}
  {colons : Option Bool} {rest : List Char}

/-! ### Times of day -/

/-- A field in front of a colon is read, and the next one follows. -/
theorem readFields?_colon (hcolons : colons.getD true = true) (hn : n < 100) (hrest : rest ≠ []) :
    readFields? (left + 1) colons values (fixedDigits 2 n ++ ':' :: rest)
      = readFields? left (some true) (values ++ [n]) rest := by
  have hread : readDigits? 2 (fixedDigits 2 n ++ ':' :: rest) = some (n, ':' :: rest) :=
    readDigits?_fixedDigits 2 n _ hn
  have hempty : rest.isEmpty = false := List.isEmpty_eq_false_iff.2 hrest
  rw [readFields?, hread]
  simp only [hempty, hcolons, Bool.false_and, Bool.false_eq_true, if_false, beq_self_eq_true, Bool.and_self,
    if_true]

theorem readFraction?_fixedDigits (hmicro : micro < 1000000) :
    readFraction? values (fixedDigits 6 micro) = some (clockFields values micro false) := by
  have hread : readDigits? 6 (fixedDigits 6 micro) = some (micro, []) := by
    have hwidth := readDigits?_fixedDigits 6 micro [] hmicro
    rwa [List.append_nil] at hwidth
  have hone : Nat.pow 10 (6 - 6) = 1 := rfl
  rw [readFraction?, length_fixedDigits, Nat.min_self, hread]
  simp only [hone, Nat.mul_one]
  rfl

/-- The last field is read, with the fraction behind it. -/
theorem readFields?_last (hn : n < 100) (hmicro : micro < 1000000) :
    readFields? (left + 1) (some true) values (fixedDigits 2 n ++ fractionChars micro)
      = some (clockFields (values ++ [n]) micro false) := by
  have hread : readDigits? 2 (fixedDigits 2 n ++ fractionChars micro) = some (n, fractionChars micro) :=
    readDigits?_fixedDigits 2 n _ hn
  rw [readFields?, hread]
  by_cases hzero : micro = 0
  · subst hzero
    rfl
  · have hempty : (fixedDigits 6 micro).isEmpty = false := rfl
    have hpoint : ('.' == ':') = false := by decide
    rw [fractionChars, if_neg hzero]
    simp only [hempty, hpoint, Bool.false_and, Bool.and_false, Bool.false_eq_true, if_false, beq_self_eq_true,
      Bool.true_or, if_true]
    exact readFraction?_fixedDigits hmicro

theorem readClock?_of_seconds {hour minute second : Nat} (hhour : hour < 100) (hminute : minute < 100)
    (hsecond : second < 100) (hmicro : micro < 1000000) :
    readClock? (fixedDigits 2 hour ++ ':' :: fixedDigits 2 minute ++ ':' :: fixedDigits 2 second ++
      fractionChars micro) = some ⟨hour, minute, second, micro, false⟩ := by
  rw [readClock?]
  simp only [List.append_assoc, List.cons_append]
  rw [readFields?_colon rfl hhour (by simp [fixedDigits]),
    readFields?_colon rfl hminute (by simp [fixedDigits]), readFields?_last hsecond hmicro]
  rfl

/-- **A time of day is read back.** -/
theorem readClock?_clockChars (c : Clock) :
    readClock? (clockChars c) = some ⟨c.hour, c.minute, c.second, c.micro, false⟩ := by
  have hhour := c.hour_lt
  have hminute := c.minute_lt
  have hsecond := c.second_lt
  exact readClock?_of_seconds (by omega) (by omega) (by omega) c.micro_lt

/-! ### Offsets -/

/-- The time of day that an offset is told by, without its sign. -/
def distance (o : Offset) : Clock :=
  Clock.ofMicros o.micros.natAbs

/-- The text of an offset behind its sign. -/
def distanceChars (o : Offset) : List Char :=
  let seconds := if (distance o).second = 0 ∧ (distance o).micro = 0 then []
    else ':' :: fixedDigits 2 (distance o).second
  fixedDigits 2 (distance o).hour ++ ':' :: fixedDigits 2 (distance o).minute ++ seconds ++
    fractionChars (distance o).micro

theorem offsetChars_eq (o : Offset) :
    offsetChars o = (if o.micros < 0 then '-' else '+') :: distanceChars o := rfl

theorem micros_distance (o : Offset) : (distance o).micros = o.micros.natAbs := by
  have hrange := o.range
  rw [distance, Clock.micros_ofMicros, Clock.dayMicros]
  exact Nat.mod_eq_of_lt (by omega)

theorem micro_distance (h : o.IsWhole) : (distance o).micro = 0 := by
  have hmicros := micros_distance o
  have hlt := (distance o).micro_lt
  rw [Offset.IsWhole] at h
  rw [Clock.micros] at hmicros
  omega

theorem readClock?_distanceChars (h : o.IsWhole) :
    readClock? (distanceChars o)
      = some ⟨(distance o).hour, (distance o).minute, (distance o).second, 0, false⟩ := by
  have hhour := (distance o).hour_lt
  have hminute := (distance o).minute_lt
  have hsecond := (distance o).second_lt
  rw [distanceChars, micro_distance h]
  by_cases hzero : (distance o).second = 0
  · -- the seconds are left out, and are read as zero
    have hfront : readFields? 2 (some true) [(distance o).hour]
      (fixedDigits 2 (distance o).minute ++ fractionChars 0)
        = some (clockFields ([(distance o).hour] ++ [(distance o).minute]) 0 false) :=
      readFields?_last (by omega) (by decide)
    rw [if_pos ⟨hzero, rfl⟩, hzero, readClock?]
    simp only [List.append_assoc, List.cons_append, List.nil_append]
    rw [readFields?_colon rfl (by omega) (by simp [fixedDigits])]
    exact hfront
  · rw [if_neg fun h => hzero h.1]
    exact readClock?_of_seconds (by omega) (by omega) (by omega) (by decide)

/-- **An offset of whole seconds is read back.** -/
theorem offsetOf?_distance (h : o.IsWhole) :
    offsetOf? ((if o.micros < 0 then '-' else '+') == '-')
      ⟨(distance o).hour, (distance o).minute, (distance o).second, 0, false⟩ = some o := by
  have hmicros := micros_distance o
  rw [Clock.micros, micro_distance h, Nat.add_zero] at hmicros
  have hof : Offset.of? o.micros = some o := by
    rw [Offset.of?, dif_pos o.range]
  rw [offsetOf?]
  by_cases hneg : o.micros < 0
  · have hsign : ((if o.micros < 0 then '-' else '+') == '-') = true := by
      rw [if_pos hneg]
      rfl
    have hnonzero : ((distance o).hour * 60 + (distance o).minute) * 60 + (distance o).second ≠ 0 := by omega
    have hwest : -(((((distance o).hour * 60 + (distance o).minute) * 60
        + (distance o).second) * 1000000 + 0 : Nat) : Int) = o.micros := by omega
    simp only [hsign, if_true, if_neg hnonzero, hwest, hof]
  · have hsign : ((if o.micros < 0 then '-' else '+') == '-') = false := by
      rw [if_neg hneg]
      rfl
    have heast : (if ((distance o).hour * 60 + (distance o).minute) * 60 + (distance o).second = 0
        then (0 : Int)
        else ((((distance o).hour * 60 + (distance o).minute) * 60
          + (distance o).second) * 1000000 + 0 : Nat)) = o.micros := by
      split <;> omega
    simp only [hsign, Bool.false_eq_true, if_false, heast, hof]

/-! ### Times with offsets -/

/-- The characters of a time of day are digits, colons and a point. -/
theorem mem_clockChars {a : Char} (h : a ∈ clockChars c) : isDigit a = true ∨ a = ':' ∨ a = '.' := by
  by_cases ha : isDigit a = true
  · exact .inl ha
  · have hnot : ∀ width n, a ∉ fixedDigits width n :=
      not_mem_fixedDigits (Bool.eq_false_iff.2 ha)
    rw [clockChars, fractionChars] at h
    split at h <;> simp [hnot] at h
    · exact .inr (.inl h)
    · rcases h with h | h
      · exact .inr (.inl h)
      · exact .inr (.inr h)

/-- Whether a character is no sign, as the reader of a time asks it. -/
theorem not_sign_of_mem_clockChars {a : Char} (h : a ∈ clockChars c) : (!(a == '+' || a == '-')) = true := by
  rcases mem_clockChars h with hdigit | rfl | rfl
  · have hplus : a ≠ '+' := by
      rintro rfl
      cases hdigit
    have hminus : a ≠ '-' := by
      rintro rfl
      cases hdigit
    simp [hplus, hminus]
  · rfl
  · rfl

/-- A time of day is cut off at the sign of an offset. -/
theorem takeWhile_clockChars (c : Clock) {sign : Char} (hsign : sign = '+' ∨ sign = '-') (zone : List Char) :
    (clockChars c ++ sign :: zone).takeWhile (fun a => !(a == '+' || a == '-')) = clockChars c := by
  have hstop : (sign :: zone).takeWhile (fun a => !(a == '+' || a == '-')) = [] := by
    rcases hsign with rfl | rfl <;> rfl
  rw [List.takeWhile_append_of_pos fun _ => not_sign_of_mem_clockChars, hstop, List.append_nil]

/-- **A time of day with an offset is read back.** -/
theorem readTime?_chars (c : Clock) {offset : Option Offset} (h : ∀ o, offset = some o → o.IsWhole) :
    readTime? (clockChars c ++ offset.elim [] offsetChars) = some (c, offset) := by
  rw [readTime?]
  cases offset with
  | none =>
    have hall : (clockChars c).takeWhile (fun a => !(a == '+' || a == '-')) = clockChars c :=
      List.takeWhile_eq_self_iff.2 fun _ => not_sign_of_mem_clockChars
    simp only [Option.elim_none, List.append_nil, hall, readClock?_clockChars, List.drop_length,
      Option.bind_eq_bind, Option.bind_some, Bool.false_eq_true, if_false, Clock.of?_fields]
  | some o =>
    have hwhole := h o rfl
    have hsign : (if o.micros < 0 then '-' else '+') = '+' ∨ (if o.micros < 0 then '-' else '+') = '-' := by
      split
      · exact .inr rfl
      · exact .inl rfl
    simp only [Option.elim_some, offsetChars_eq, takeWhile_clockChars c hsign, readClock?_clockChars,
      List.drop_left, readClock?_distanceChars hwhole, offsetOf?_distance hwhole, Option.bind_eq_bind,
      Option.bind_some, Bool.false_eq_true, if_false, Clock.of?_fields]

/-! ### Dates -/

/-- The text of a date without hyphens. -/
def compactDateChars (d : Date) : List Char :=
  fixedDigits 4 d.year ++ fixedDigits 2 d.month ++ fixedDigits 2 d.day

/-- A text with a hyphen in front, if hyphens are used. -/
def hyphened (hyphens : Bool) (cs : List Char) : List Char :=
  if hyphens then '-' :: cs else cs

theorem dropHyphen?_hyphened (hyphens : Bool) (cs : List Char) :
    dropHyphen? hyphens (hyphened hyphens cs) = some cs := by
  cases hyphens <;> rfl

theorem head?_hyphened (hyphens : Bool) (n : Nat) (rest : List Char) :
    ((hyphened hyphens (fixedDigits 2 n ++ rest)).head? == some '-') = hyphens := by
  cases hyphens with
  | true => rfl
  | false =>
    have hne : digitChar (n / 10) ≠ '-' := ne_digitChar rfl _
    rw [beq_eq_false_iff_ne]
    exact fun h => hne (Option.some.inj h)

/-- A date is read with hyphens and without. -/
theorem readDate?_hyphened (hyphens : Bool) (d : Date) :
    readDate? (fixedDigits 4 d.year ++
      hyphened hyphens (fixedDigits 2 d.month ++ hyphened hyphens (fixedDigits 2 d.day))) = some d := by
  have hyear : ∀ rest, readDigits? 4 (fixedDigits 4 d.year ++ rest) = some (d.year, rest) := by
    have hrange := d.year_range
    exact fun rest => readDigits?_fixedDigits 4 _ rest (Nat.lt_of_le_of_lt hrange.2 (by decide))
  have hmonth : ∀ rest, readDigits? 2 (fixedDigits 2 d.month ++ rest) = some (d.month, rest) := by
    have hrange := d.month_range
    exact fun rest => readDigits?_fixedDigits 2 _ rest (Nat.lt_of_le_of_lt hrange.2 (by decide))
  have hday : readDigits? 2 (fixedDigits 2 d.day) = some (d.day, []) := by
    have hread := readDigits?_fixedDigits 2 d.day [] d.day_lt
    rwa [List.append_nil] at hread
  rw [readDate?]
  simp only [hyear, Option.bind_eq_bind, Option.bind_some, head?_hyphened, dropHyphen?_hyphened]
  split
  · rename_i heq
    exact absurd (List.cons.inj heq).1 (ne_digitChar rfl _)
  · simp only [hmonth, hday, Option.bind_some, dropHyphen?_hyphened, List.isEmpty_nil, if_true,
      Date.of?_fields]

/-- **A date is read back.** -/
theorem readDate?_dateChars (d : Date) : readDate? (dateChars d) = some d := by
  have hread := readDate?_hyphened true d
  rwa [hyphened, if_pos rfl, hyphened, if_pos rfl, ← List.cons_append, ← List.append_assoc] at hread

theorem readDate?_compactDateChars (d : Date) : readDate? (compactDateChars d) = some d := by
  have hread := readDate?_hyphened false d
  rwa [hyphened, if_neg Bool.false_ne_true, hyphened, if_neg Bool.false_ne_true, ← List.append_assoc] at hread

theorem length_dateChars (d : Date) : (dateChars d).length = 10 := by
  simp only [dateChars, List.length_append, List.length_cons, length_fixedDigits]

theorem dateLength?_dateChars (d : Date) (rest : List Char) :
    dateLength? (dateChars d ++ rest) = some 10 := by
  have hlength : (dateChars d ++ rest).length = 10 + rest.length := by
    rw [List.length_append, length_dateChars]
  have hhyphen : (dateChars d ++ rest)[4]? = some '-' := rfl
  have hdigit : (dateChars d ++ rest)[5]? ≠ some 'W' := fun h => ne_digitChar rfl _ (Option.some.inj h)
  rw [dateLength?, hlength, if_neg (by omega), if_neg (by omega), if_pos hhyphen, if_neg hdigit]

theorem dateLength?_compactDateChars (d : Date) : dateLength? (compactDateChars d) = some 8 := by
  have hlength : (compactDateChars d).length = 8 := by
    simp only [compactDateChars, List.length_append, length_fixedDigits]
  have hhyphen : (compactDateChars d)[4]? ≠ some '-' := fun h => ne_digitChar rfl _ (Option.some.inj h)
  have hweek : (compactDateChars d)[4]? ≠ some 'W' := fun h => ne_digitChar rfl _ (Option.some.inj h)
  rw [dateLength?, hlength, if_neg (by omega), if_neg (by omega), if_neg hhyphen, if_neg hweek]

/-! ### Whole texts -/

/-- **A date-time is read back**, with any character between the date and the time. -/
theorem readChars?_chars (h : s.HasWholeOffset) (separator : Char) :
    readChars? (s.chars separator) = some s := by
  have hchars : s.chars separator
      = dateChars s.date ++ separator :: (clockChars s.clock ++ s.offset.elim [] offsetChars) := by
    rw [chars, List.append_assoc, List.cons_append]
  have htake : (dateChars s.date ++ separator :: (clockChars s.clock ++ s.offset.elim [] offsetChars)).take 10
      = dateChars s.date := List.take_left' (length_dateChars _)
  have hdrop : (dateChars s.date ++ separator :: (clockChars s.clock ++ s.offset.elim [] offsetChars)).drop 10
      = separator :: (clockChars s.clock ++ s.offset.elim [] offsetChars) :=
        List.drop_left' (length_dateChars _)
  rw [readChars?, hchars]
  simp only [dateLength?_dateChars, htake, hdrop, readDate?_dateChars, readTime?_chars s.clock h,
    Option.bind_eq_bind, Option.bind_some]

theorem readChars?_dateChars (d : Date) : readChars? (dateChars d) = some ⟨d, Clock.midnight, none⟩ := by
  have hsize := dateLength?_dateChars d []
  rw [List.append_nil] at hsize
  have htake : (dateChars d).take 10 = dateChars d := List.take_of_length_le (length_dateChars d).le
  have hdrop : (dateChars d).drop 10 = [] := List.drop_of_length_le (length_dateChars d).le
  rw [readChars?]
  simp only [hsize, htake, hdrop, readDate?_dateChars, Option.bind_eq_bind, Option.bind_some]

theorem readChars?_compactDateChars (d : Date) :
    readChars? (compactDateChars d) = some ⟨d, Clock.midnight, none⟩ := by
  have hlength : (compactDateChars d).length ≤ 8 := by
    simp only [compactDateChars, List.length_append, length_fixedDigits]
    omega
  rw [readChars?]
  simp only [dateLength?_compactDateChars, List.take_of_length_le hlength, List.drop_of_length_le hlength,
    readDate?_compactDateChars, Option.bind_eq_bind, Option.bind_some]

/-! ### Blanks and the letter for UTC -/

/-- A character of the text of a date-time: a digit or a mark. -/
def IsMark (a : Char) : Prop :=
  isDigit a = true ∨ a ∈ ['-', ':', '.', '+', 'T']

theorem IsMark.not_blank {a : Char} (h : IsMark a) : Text.isBlank a = false := by
  rcases h with hdigit | hmark
  · have hrange : 48 ≤ a.toNat ∧ a.toNat ≤ 57 := by
      rw [isDigit, Bool.and_eq_true, decide_eq_true_eq, decide_eq_true_eq] at hdigit
      exact hdigit
    simp only [Text.isBlank, Bool.or_eq_false_iff, Bool.and_eq_false_iff, decide_eq_false_iff_not,
      beq_eq_false_iff_ne]
    omega
  · simp only [List.mem_cons, List.not_mem_nil, or_false] at hmark
    rcases hmark with rfl | rfl | rfl | rfl | rfl <;> rfl

theorem IsMark.ne_zulu {a : Char} (h : IsMark a) : a ≠ 'Z' := by
  rintro rfl
  revert h
  unfold IsMark
  decide

theorem IsMark.of_mem_fixedDigits {a : Char} {width : Nat} (h : a ∈ fixedDigits width n) : IsMark a :=
  .inl (List.all_eq_true.1 (all_isDigit_fixedDigits width n) a h)

theorem isMark_of_mem_dateChars (d : Date) : ∀ a ∈ dateChars d, IsMark a := by
  have hyphen : IsMark '-' := .inr (by decide)
  simp only [dateChars, List.forall_mem_append, List.forall_mem_cons]
  exact ⟨⟨fun _ => .of_mem_fixedDigits, hyphen, fun _ => .of_mem_fixedDigits⟩, hyphen,
    fun _ => .of_mem_fixedDigits⟩

theorem isMark_of_mem_compactDateChars (d : Date) : ∀ a ∈ compactDateChars d, IsMark a := by
  simp only [compactDateChars, List.forall_mem_append]
  exact ⟨⟨fun _ => .of_mem_fixedDigits, fun _ => .of_mem_fixedDigits⟩, fun _ => .of_mem_fixedDigits⟩

theorem isMark_of_mem_fractionChars (micro : Nat) : ∀ a ∈ fractionChars micro, IsMark a := by
  rw [fractionChars]
  split
  · exact List.forall_mem_nil _
  · exact List.forall_mem_cons.2 ⟨.inr (by decide), fun _ => .of_mem_fixedDigits⟩

theorem isMark_of_mem_clockChars (c : Clock) : ∀ a ∈ clockChars c, IsMark a := by
  have hcolon : IsMark ':' := .inr (by decide)
  simp only [clockChars, List.forall_mem_append, List.forall_mem_cons]
  exact ⟨⟨⟨fun _ => .of_mem_fixedDigits, hcolon, fun _ => .of_mem_fixedDigits⟩, hcolon,
    fun _ => .of_mem_fixedDigits⟩, isMark_of_mem_fractionChars _⟩

theorem isMark_of_mem_offsetChars (o : Offset) : ∀ a ∈ offsetChars o, IsMark a := by
  have hcolon : IsMark ':' := .inr (by decide)
  have hsign : IsMark (if o.micros < 0 then '-' else '+') := by
    split
    · exact .inr (by decide)
    · exact .inr (by decide)
  simp only [offsetChars_eq, distanceChars, List.forall_mem_append, List.forall_mem_cons]
  refine ⟨hsign, ⟨⟨fun _ => .of_mem_fixedDigits, hcolon, fun _ => .of_mem_fixedDigits⟩, ?_⟩,
    isMark_of_mem_fractionChars _⟩
  split
  · exact List.forall_mem_nil _
  · exact List.forall_mem_cons.2 ⟨hcolon, fun _ => .of_mem_fixedDigits⟩

theorem isMark_of_mem_chars (s : Stamp) : ∀ a ∈ s.chars 'T', IsMark a := by
  simp only [chars, List.forall_mem_append, List.forall_mem_cons]
  refine ⟨⟨isMark_of_mem_dateChars _, .inr (by decide), isMark_of_mem_clockChars _⟩, ?_⟩
  cases s.offset with
  | none => exact List.forall_mem_nil _
  | some o => exact isMark_of_mem_offsetChars o

/-- The text of a date-time is one line. -/
theorem newline_not_mem_render (s : Stamp) : '\n' ∉ s.render.toList := by
  rw [render, String.toList_ofList]
  exact fun hmem => absurd (isMark_of_mem_chars s _ hmem).not_blank (by decide)

theorem spellZulu_of_marks {cs : List Char} (h : ∀ a ∈ cs, IsMark a) : spellZulu cs = cs := by
  induction cs with
  | nil => rfl
  | cons a cs ih =>
    obtain ⟨ha, hcs⟩ := List.forall_mem_cons.1 h
    rw [spellZulu, List.flatMap_cons, if_neg ha.ne_zulu, List.singleton_append]
    exact congrArg (a :: ·) (ih hcs)

theorem trimChars_of_not_blank {cs : List Char} (h : ∀ a ∈ cs, Text.isBlank a = false) :
    Text.trimChars cs = cs :=
  Text.trimChars_eq_self_iff.2
    ⟨fun a ha => h a (List.mem_of_mem_head? ha), fun a ha => h a (List.mem_of_getLast? ha)⟩

/-- A text of digits and marks is read as it is. -/
theorem read?_of_marks {cs : List Char} (h : ∀ a ∈ cs, IsMark a) :
    read? (String.ofList cs) = readChars? cs := by
  rw [read?, String.toList_ofList, trimChars_of_not_blank fun a ha => (h a ha).not_blank,
    spellZulu_of_marks h]

/-- **A date-time is read back.** -/
theorem read?_render (h : s.HasWholeOffset) : read? s.render = some s := by
  rw [render, read?_of_marks (isMark_of_mem_chars s), readChars?_chars h]

/-- Blanks in front of a text and behind it do not count. -/
theorem read?_append_blanks {front behind : String} (hfront : Text.isBlankText front = true)
    (hbehind : Text.isBlankText behind = true) (text : String) :
      read? (front ++ text ++ behind) = read? text := by
  rw [Text.isBlankText, List.all_eq_true] at hfront hbehind
  rw [read?, String.toList_append, String.toList_append, Text.trimChars_append_blanks hfront hbehind, read?]

/-- The text of a date-time in UTC ends with the offset of zero. -/
theorem chars_utc (h : s.offset = none) :
    { s with offset := some Offset.utc }.chars 'T' = s.chars 'T' ++ ['+', '0', '0', ':', '0', '0'] := by
  rw [chars, chars, h, Option.elim_none, List.append_nil]
  rfl

/-- **A date-time in UTC is read back** from the text with the letter for UTC. -/
theorem read?_zulu (h : s.offset = none) :
    read? (s.render ++ "Z") = some { s with offset := some Offset.utc } := by
  have hwhole : { s with offset := some Offset.utc }.HasWholeOffset := by
    intro o ho
    cases ho
    rfl
  have htext : (s.render ++ "Z").toList = s.chars 'T' ++ ['Z'] := by
    rw [String.toList_append, render, String.toList_ofList]
    rfl
  have hblank : ∀ a ∈ s.chars 'T' ++ ['Z'], Text.isBlank a = false := by
    intro a ha
    rcases List.mem_append.1 ha with hmark | hletter
    · exact (isMark_of_mem_chars s a hmark).not_blank
    · cases List.mem_singleton.1 hletter
      rfl
  have hspell : spellZulu (s.chars 'T' ++ ['Z']) = { s with offset := some Offset.utc }.chars 'T' := by
    rw [chars_utc h, spellZulu, List.flatMap_append]
    exact congrArg (· ++ _) (spellZulu_of_marks (isMark_of_mem_chars s))
  rw [read?, htext, trimChars_of_not_blank hblank, hspell, readChars?_chars hwhole]

/-- The text of a date without hyphens. -/
def renderCompactDate (d : Date) : String :=
  String.ofList (compactDateChars d)

/-- **A date is read back** as its first moment, without an offset. -/
theorem read?_renderDate (d : Date) : read? (renderDate d) = some ⟨d, Clock.midnight, none⟩ := by
  rw [renderDate, read?_of_marks (isMark_of_mem_dateChars d), readChars?_dateChars]

theorem read?_renderCompactDate (d : Date) :
    read? (renderCompactDate d) = some ⟨d, Clock.midnight, none⟩ := by
  rw [renderCompactDate, read?_of_marks (isMark_of_mem_compactDateChars d), readChars?_compactDateChars]

end Stamp

end MigrationBench
