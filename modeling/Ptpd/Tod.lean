import Ptpd.DateTime
import Ptpd.Nmea

/-! # Time of day (`bds.c`: `TOD_Analysis`)

    A buffer is searched for the tag of a time-of-day sentence, and each of its six
    fields by its comma. A field that is not there keeps what the variable held
    before.
-/

namespace Ptpd

open Calendar

/-! ## The functions -/

def XHTOD : List UInt8 := ['X', 'H', 'T', 'O', 'D'].map ascii

/-- The number behind the `cx`-th comma, if there is one. -/
def todField (p1 : List UInt8) (cx : UInt8) : Option (Option UInt32) := do
  let posx ← NMEA_Comma_Pos p1 cx 0
  if posx = 0xFF then return none
  else
    let temp ← NMEA_Str2num (p1.drop posx.toNat)
    return some (UInt32.ofInt temp.res)

/-- `*time` after the call. -/
def TOD_Analysis (time : DateTime) (buf : List UInt8) (len : UInt16) : Option DateTime := do
  match ← my_strstr buf XHTOD len.toNat with
  | none => return time
  | some p1 =>
    let year ← todField p1 1
    let month ← todField p1 2
    let day ← todField p1 3
    let hour ← todField p1 4
    let minute ← todField p1 5
    let second ← todField p1 6
    return {
      year := (year.map UInt32.toUInt16).getD time.year
      month := (month.map UInt32.toUInt8).getD time.month
      day := (day.map UInt32.toUInt8).getD time.day
      hour := (hour.map UInt32.toUInt8).getD time.hour
      minute := (minute.map UInt32.toUInt8).getD time.minute
      second := (second.map UInt32.toUInt8).getD time.second }

/-! ## Sentences -/

/-- A field of a sentence: one to four digits. -/
structure TodField where
  digits : List (Fin 10)
  length_range : 1 ≤ digits.length ∧ digits.length ≤ 4

namespace TodField

def value (f : TodField) : Nat := Decimal.value f.digits

def octets (f : TodField) : List UInt8 := Decimal.text f.digits

end TodField

/-- A complete sentence. -/
structure Tod where
  year : TodField
  month : TodField
  day : TodField
  hour : TodField
  minute : TodField
  second : TodField
  /-- What follows the last field. -/
  last : UInt8
  month_lt : month.value < 256
  day_lt : day.value < 256
  hour_lt : hour.value < 256
  minute_lt : minute.value < 256
  second_lt : second.value < 256
  terminated : IsTerminator last

namespace Tod

/-- Fields, each behind its comma. -/
def body (fs : List TodField) : List UInt8 := fs.flatMap fun f => ascii ',' :: f.octets

def fields (t : Tod) : List TodField := [t.year, t.month, t.day, t.hour, t.minute, t.second]

def octets (t : Tod) : List UInt8 := XHTOD ++ body t.fields ++ [t.last]

def dateTime (t : Tod) : DateTime where
  year := .ofNat t.year.value
  month := .ofNat t.month.value
  day := .ofNat t.day.value
  hour := .ofNat t.hour.value
  minute := .ofNat t.minute.value
  second := .ofNat t.second.value

end Tod

/-- The first tag of `line` is that of the sentence `t`, which ends within `n` octets. -/
structure Tod.AtFirstTag (t : Tod) (line pre post : List UInt8) (n : Nat) : Prop where
  at_tag : line = pre ++ (t.octets ++ post)
  first : ∀ k < pre.length, ¬ XHTOD <+: line.drop k
  within : pre.length + t.octets.length ≤ n

def Tod.Carried (t : Tod) (line : List UInt8) (n : Nat) : Prop :=
  ∃ pre post, t.AtFirstTag line pre post n

/-! ## The search -/

variable {s1 s2 : List UInt8}

theorem my_strstr_succ (s1 s2 : List UInt8) {l1 : Nat} (hl : s2.length ≤ l1 + 1)
    (hlen : s2.length ≤ s1.length) :
    my_strstr s1 s2 (l1 + 1) = if s2 <+: s1 then some (some s1) else my_strstr s1.tail s2 l1 := by
  rw [my_strstr, if_pos hl, if_neg (by omega)]
  by_cases h : s2 <+: s1
  · rw [if_pos (List.prefix_iff_eq_take.mp h).symm, if_pos h]
  · rw [if_neg fun heq => h (List.prefix_iff_eq_take.mpr heq.symm), if_neg h]

/-- The first occurrence within `l1` octets is found. -/
theorem my_strstr_found (hs2 : s2 ≠ []) (pre : List UInt8) {post : List UInt8} {l1 : Nat}
    (hl : pre.length + s2.length ≤ l1)
    (hfirst : ∀ k < pre.length, ¬ s2 <+: (pre ++ s2 ++ post).drop k) :
    my_strstr (pre ++ s2 ++ post) s2 l1 = some (some (s2 ++ post)) := by
  have hpos := List.length_pos_iff.mpr hs2
  induction pre generalizing l1 with
  | nil =>
    obtain ⟨l, rfl⟩ : ∃ l, l1 = l + 1 := ⟨l1 - 1, by omega⟩
    rw [List.length_nil, Nat.zero_add] at hl
    rw [List.nil_append, my_strstr_succ _ _ hl (by simp), if_pos (List.prefix_append s2 post)]
  | cons c pre ih =>
    rw [List.length_cons] at hl
    obtain ⟨l, rfl⟩ : ∃ l, l1 = l + 1 := ⟨l1 - 1, by omega⟩
    have hhead : ¬ s2 <+: c :: pre ++ s2 ++ post := hfirst 0 (by simp)
    rw [my_strstr_succ _ _ (by omega) (by simp; omega), if_neg hhead]
    exact ih (by omega) fun k hk => hfirst (k + 1) (by rw [List.length_cons]; omega)

/-- Without an occurrence the search leaves the octets that are there. -/
theorem my_strstr_none (hs2 : s2 ≠ []) {l1 : Nat} (hl : s1.length < l1)
    (hs1 : s2.length ≤ s1.length + 1) (hnone : ∀ k, ¬ s2 <+: s1.drop k) :
    my_strstr s1 s2 l1 = none := by
  have hpos := List.length_pos_iff.mpr hs2
  induction l1 generalizing s1 with
  | zero => omega
  | succ l ih =>
    by_cases hlen : s2.length ≤ s1.length
    · have htail : s1.tail.length = s1.length - 1 := List.length_tail
      have hhead : ¬ s2 <+: s1 := hnone 0
      rw [my_strstr_succ _ _ (by omega) hlen, if_neg hhead]
      apply ih (by omega) (by omega)
      intro k
      rw [← List.drop_one, List.drop_drop]
      exact hnone _
    · rw [my_strstr, if_pos (by omega), if_pos (by omega)]

/-! ## The commas -/

variable {buf : List UInt8} {cx pos : UInt8}

/-- Octets that are passed. -/
def Plain (c : UInt8) : Prop := ¬ (c = ascii '*' ∨ c < ascii ' ' ∨ c > ascii 'z')

instance : DecidablePred Plain := fun _ => inferInstanceAs (Decidable (¬ _))

theorem NMEA_Comma_Pos_zero : NMEA_Comma_Pos buf 0 pos = some pos := by
  cases buf <;> rfl

theorem NMEA_Comma_Pos_cons {c : UInt8} (hc : Plain c) (hcx : cx ≠ 0) :
    NMEA_Comma_Pos (c :: buf) cx pos =
      NMEA_Comma_Pos buf (if c = ascii ',' then cx - 1 else cx) (pos + 1) := by
  rw [NMEA_Comma_Pos, if_neg hcx, if_neg hc]

/-- Octets up to the next comma. -/
theorem NMEA_Comma_Pos_skip {xs : List UInt8} (hxs : ∀ c ∈ xs, Plain c ∧ c ≠ ascii ',')
    (hcx : cx ≠ 0) :
    NMEA_Comma_Pos (xs ++ buf) cx pos = NMEA_Comma_Pos buf cx (pos + .ofNat xs.length) := by
  induction xs generalizing pos with
  | nil =>
    have hzero : pos + UInt8.ofNat 0 = pos := UInt8.add_zero _
    rw [List.length_nil, hzero, List.nil_append]
  | cons c xs ih =>
    obtain ⟨hplain, hcomma⟩ := hxs c List.mem_cons_self
    rw [List.cons_append, NMEA_Comma_Pos_cons hplain hcx, if_neg hcomma,
      ih fun c' hc' => hxs c' (List.mem_cons_of_mem c hc'), List.length_cons, UInt8.ofNat_add,
      UInt8.add_assoc, UInt8.add_comm 1]
    rfl

/-- With too few commas the end is reached. -/
theorem NMEA_Comma_Pos_none (hplain : ∀ c ∈ buf, Plain c) (hcx : buf.count (ascii ',') < cx.toNat) :
    NMEA_Comma_Pos buf cx pos = none := by
  induction buf generalizing cx pos with
  | nil =>
    have hne : cx ≠ 0 := by
      rintro rfl
      exact absurd hcx (by decide)
    exact if_neg hne
  | cons c buf ih =>
    have hne : cx ≠ 0 := by
      rintro rfl
      exact absurd hcx (Nat.not_lt_zero _)
    have hone : (1 : UInt8).toNat = 1 := rfl
    have hpos : 1 ≤ cx.toNat := by omega
    have hpred : (cx - 1).toNat = cx.toNat - 1 := by
      rw [UInt8.toNat_sub_of_le, hone]
      rw [UInt8.le_iff_toNat_le, hone]
      exact hpos
    rw [NMEA_Comma_Pos_cons (hplain c List.mem_cons_self) hne]
    -- each comma takes one from what is still to come
    refine ih (fun c' hc' => hplain c' (List.mem_cons_of_mem c hc')) ?_
    by_cases hcomma : c = ascii ','
    · rw [hcomma, List.count_cons_self] at hcx
      rw [if_pos hcomma, hpred]
      omega
    · rw [List.count_cons_of_ne hcomma] at hcx
      rw [if_neg hcomma]
      exact hcx

/-! ## The fields of a sentence -/

namespace TodField

variable (f : TodField)

theorem plain : ∀ c ∈ f.octets, Plain c ∧ c ≠ ascii ',' := by
  intro c hc
  have hdigit : ∀ d, Plain (Decimal.octet d) ∧ Decimal.octet d ≠ ascii ',' := by decide
  obtain ⟨d, -, rfl⟩ := List.mem_map.mp hc
  exact hdigit d

theorem octets_length : 1 ≤ f.octets.length ∧ f.octets.length ≤ 4 := by
  unfold octets
  rw [Decimal.text_length]
  exact f.length_range

/-- A field without sign and fraction. -/
def toNmea : NmeaField := ⟨false, f.digits, none, f.length_range.2⟩

theorem Str2num {term : UInt8} (hterm : IsTerminator term) (rest : List UInt8) :
    NMEA_Str2num (f.octets ++ term :: rest) = some ⟨f.value, 0⟩ := by
  have hread := f.toNmea.Str2num_octets rest hterm nofun
  have hoctets : f.toNmea.octets = f.octets := List.append_nil _
  have hnumber : (if f.toNmea.minus then -1 else (1 : Int)) *
      (Decimal.value f.toNmea.ints * 10 ^ f.toNmea.read +
        Decimal.value (f.toNmea.digits.take f.toNmea.read) : Nat) = f.value := by
    show 1 * ((f.value * 1 + 0 : Nat) : Int) = f.value
    omega
  rw [hoctets, hnumber] at hread
  exact hread

end TodField

namespace Tod

theorem body_cons (f : TodField) (fs : List TodField) :
    body (f :: fs) = ascii ',' :: f.octets ++ body fs := rfl

theorem body_append (fs gs : List TodField) : body (fs ++ gs) = body fs ++ body gs :=
  List.flatMap_append

theorem body_length (fs : List TodField) : (body fs).length ≤ 5 * fs.length := by
  induction fs with
  | nil => exact le_rfl
  | cons f fs ih =>
    obtain ⟨-, hlength⟩ := f.octets_length
    rw [body_cons, List.length_append, List.length_cons, List.length_cons]
    omega

/-- The comma behind so many fields. -/
theorem comma_pos {xs rest : List UInt8} (hxs : ∀ c ∈ xs, Plain c ∧ c ≠ ascii ',')
    (fs : List TodField) (hfs : fs.length < 255) (pos : UInt8) :
    NMEA_Comma_Pos (xs ++ body fs ++ ascii ',' :: rest) (.ofNat (fs.length + 1)) pos =
      some (pos + .ofNat (xs.length + (body fs).length + 1)) := by
  have hcomma : Plain (ascii ',') := by decide
  induction fs generalizing xs pos with
  | nil =>
    show NMEA_Comma_Pos (xs ++ [] ++ ascii ',' :: rest) 1 pos = _
    rw [List.append_nil, NMEA_Comma_Pos_skip hxs (by decide), NMEA_Comma_Pos_cons hcomma (by decide),
      if_pos rfl]
    show NMEA_Comma_Pos rest 0 _ = some (pos + .ofNat (xs.length + 0 + 1))
    rw [NMEA_Comma_Pos_zero, Nat.add_zero, UInt8.ofNat_add, UInt8.add_assoc]
    rfl
  | cons f fs ih =>
    rw [List.length_cons] at hfs ⊢
    have hcx : UInt8.ofNat (fs.length + 1 + 1) ≠ 0 := by
      intro hzero
      have htoNat := congrArg UInt8.toNat hzero
      rw [UInt8.toNat_ofNat_of_lt' (show fs.length + 1 + 1 < 256 by omega)] at htoNat
      exact absurd htoNat (Nat.succ_ne_zero _)
    have hpred : UInt8.ofNat (fs.length + 1 + 1) - 1 = .ofNat (fs.length + 1) := by
      rw [UInt8.ofNat_add (fs.length + 1)]
      exact UInt8.add_sub_cancel _ _
    -- the first comma stands behind `xs`, and the field behind it takes the place of `xs`
    have hsplit : xs ++ body (f :: fs) ++ ascii ',' :: rest =
        xs ++ ascii ',' :: (f.octets ++ body fs ++ ascii ',' :: rest) := by
      rw [body_cons]
      simp only [List.append_assoc, List.cons_append]
    rw [hsplit, NMEA_Comma_Pos_skip hxs hcx, NMEA_Comma_Pos_cons hcomma hcx, if_pos rfl, hpred,
      ih f.plain (by omega)]
    have hlength : xs.length + (body (f :: fs)).length + 1 =
        xs.length + 1 + (f.octets.length + (body fs).length + 1) := by
      rw [body_cons, List.length_append, List.length_cons]
      omega
    rw [hlength, UInt8.ofNat_add (xs.length + 1), UInt8.ofNat_add xs.length]
    simp only [UInt8.add_assoc]
    rfl

/-- The number of a field is read. -/
theorem todField_eq {xs : List UInt8} (hxs : ∀ c ∈ xs, Plain c ∧ c ≠ ascii ',')
    {fs : List TodField} (hlength : xs.length + 5 * fs.length < 250) (f : TodField) {term : UInt8}
    (hterm : IsTerminator term) (rest : List UInt8) :
    todField (xs ++ body fs ++ ascii ',' :: (f.octets ++ term :: rest)) (.ofNat (fs.length + 1)) =
      some (some (.ofNat f.value)) := by
  have hbody := body_length fs
  have hpos : (UInt8.ofNat (xs.length + (body fs).length + 1)).toNat =
      xs.length + (body fs).length + 1 :=
    UInt8.toNat_ofNat_of_lt' (show xs.length + (body fs).length + 1 < 256 by omega)
  -- 0xFF stands for a comma that is not there
  have hne : UInt8.ofNat (xs.length + (body fs).length + 1) ≠ 0xFF := by
    intro heq
    have h255 : (0xFF : UInt8).toNat = 255 := rfl
    rw [heq] at hpos
    omega
  have hdrop : (xs ++ body fs ++ ascii ',' :: (f.octets ++ term :: rest)).drop
      (xs.length + (body fs).length + 1) = f.octets ++ term :: rest := by
    rw [List.append_cons]
    exact List.drop_left' (by simp only [List.length_append, List.length_singleton])
  unfold todField
  rw [comma_pos hxs fs (by omega), UInt8.zero_add]
  simp only [Option.bind_eq_bind, Option.bind_some]
  rw [if_neg hne, hpos, hdrop, f.Str2num hterm]
  simp only [Option.bind_some, Option.pure_def]
  rw [ofInt_natCast]

theorem XHTOD_plain : ∀ c ∈ XHTOD, Plain c ∧ c ≠ ascii ',' := by
  have hall : XHTOD.all (fun c => decide (Plain c ∧ c ≠ ascii ',')) = true := by decide
  intro c hc
  exact of_decide_eq_true (List.all_eq_true.mp hall c hc)

section Fields

variable (t : Tod)

/-- Each field of a sentence is read. -/
theorem field_eq (before after : List TodField) {f : TodField} (h : t.fields = before ++ f :: after)
    (post : List UInt8) :
    todField (t.octets ++ post) (.ofNat (before.length + 1)) = some (some (.ofNat f.value)) := by
  have hcount : before.length < 6 := by
    have hlength := congrArg List.length h
    rw [List.length_append, List.length_cons] at hlength
    have hsix : t.fields.length = 6 := rfl
    omega
  have hxs : XHTOD.length = 5 := rfl
  have hread := @todField_eq XHTOD XHTOD_plain before (by omega) f
  have hbody : body (f :: after) = ascii ',' :: f.octets ++ body after := rfl
  unfold octets
  rw [h, body_append, hbody]
  match after with
  | [] =>
    have hone := hread t.terminated post
    simpa only [body, List.flatMap_nil, List.append_assoc, List.cons_append, List.nil_append,
      List.append_nil] using hone
  | g :: after =>
    have hone := hread (.inl rfl) (g.octets ++ body after ++ [t.last] ++ post)
    simpa only [body_cons, List.append_assoc, List.cons_append, List.nil_append] using hone

/-- A sentence that is found is read, whatever the variable held. -/
theorem analysis_found (time : DateTime) {buf post : List UInt8} {len : UInt16}
    (h : my_strstr buf XHTOD len.toNat = some (some (t.octets ++ post))) :
    TOD_Analysis time buf len = some t.dateTime := by
  have hyear : todField (t.octets ++ post) 1 = _ := t.field_eq [] _ rfl post
  have hmonth : todField (t.octets ++ post) 2 = _ := t.field_eq [t.year] _ rfl post
  have hday : todField (t.octets ++ post) 3 = _ := t.field_eq [t.year, t.month] _ rfl post
  have hhour : todField (t.octets ++ post) 4 = _ := t.field_eq [t.year, t.month, t.day] _ rfl post
  have hminute : todField (t.octets ++ post) 5 = _ :=
    t.field_eq [t.year, t.month, t.day, t.hour] _ rfl post
  have hsecond : todField (t.octets ++ post) 6 = _ :=
    t.field_eq [t.year, t.month, t.day, t.hour, t.minute] _ rfl post
  unfold TOD_Analysis
  rw [h]
  simp only [Option.bind_eq_bind, Option.bind_some]
  rw [hyear, hmonth, hday, hhour, hminute, hsecond]
  simp only [Option.bind_some, Option.pure_def, Option.map_some, Option.getD_some,
    UInt32.toUInt16_ofNat', UInt32.toUInt8_ofNat']
  rfl

end Fields

/-! ## Sentences that are cut off -/

theorem body_plain (fs : List TodField) : ∀ c ∈ body fs, Plain c := by
  intro c hc
  obtain ⟨f, -, hcf⟩ := List.mem_flatMap.mp hc
  rcases List.mem_cons.mp hcf with rfl | hdigit
  · decide
  · exact (f.plain c hdigit).1

theorem body_count (fs : List TodField) : (body fs).count (ascii ',') = fs.length := by
  induction fs with
  | nil => rfl
  | cons f fs ih =>
    have hnone : f.octets.count (ascii ',') = 0 :=
      List.count_eq_zero.mpr fun hmem => (f.plain _ hmem).2 rfl
    rw [body_cons, List.count_append, List.count_cons_self, hnone, ih, List.length_cons]
    omega

/-- Digits without a terminator are read to the end. -/
theorem Str2num_digits (ds : List (Fin 10)) : NMEA_Str2num (Decimal.text ds) = none := by
  have hcount : ∀ (ds : List (Fin 10)) (signed : Bool) (s : NmeaCount),
      countDigits (Decimal.text ds) signed s = none := by
    intro ds
    induction ds with
    | nil => exact fun _ _ => rfl
    | cons d ds ih =>
      intro signed s
      show countDigits (Decimal.octet d :: Decimal.text ds) signed s = none
      rw [countDigits_digit]
      exact ih _ _
  unfold NMEA_Str2num
  rw [hcount]
  rfl

/-- The tag and the five fields before the last one. -/
def front (t : Tod) : List UInt8 := XHTOD ++ body [t.year, t.month, t.day, t.hour, t.minute]

theorem octets_front (t : Tod) :
    t.octets = t.front ++ (ascii ',' :: t.second.octets ++ [t.last]) := by
  show XHTOD ++ body ([t.year, t.month, t.day, t.hour, t.minute] ++ [t.second]) ++ [t.last] = _
  rw [body_append]
  simp only [front, body, List.flatMap_cons, List.flatMap_nil, List.append_nil, List.append_assoc]

/-- Some comma is missing. -/
theorem todField_front_cut (t : Tod) (n : Nat) : todField (t.front.take n) 6 = none := by
  have hplain : ∀ c ∈ t.front.take n, Plain c := by
    intro c hc
    rcases List.mem_append.mp (List.mem_of_mem_take hc) with htag | hbody
    · exact (XHTOD_plain c htag).1
    · exact body_plain _ c hbody
  have hcount : (t.front.take n).count (ascii ',') < (6 : UInt8).toNat := by
    have hle := List.Sublist.count_le (ascii ',') (List.take_sublist n t.front)
    have hall : t.front.count (ascii ',') = 5 := by
      unfold front
      rw [List.count_append, body_count]
      rfl
    have hsix : (6 : UInt8).toNat = 6 := rfl
    omega
  unfold todField
  rw [NMEA_Comma_Pos_none hplain hcount]
  rfl

/-- The last comma is there, and nothing but digits behind it. -/
theorem todField_digits_cut (t : Tod) (j : Nat) :
    todField (t.front ++ ascii ',' :: Decimal.text (t.second.digits.take j)) 6 = none := by
  let before := [t.year, t.month, t.day, t.hour, t.minute]
  have hbody := body_length before
  have hxs : XHTOD.length = 5 := rfl
  have hfive : before.length = 5 := rfl
  have hfront : t.front.length = XHTOD.length + (body before).length := List.length_append
  have hpos : (UInt8.ofNat (XHTOD.length + (body before).length + 1)).toNat = t.front.length + 1 := by
    rw [UInt8.toNat_ofNat_of_lt' (show XHTOD.length + (body before).length + 1 < 256 by omega), hfront]
  -- 0xFF stands for a comma that is not there
  have hne : UInt8.ofNat (XHTOD.length + (body before).length + 1) ≠ 0xFF := by
    intro heq
    have h255 : (0xFF : UInt8).toNat = 255 := rfl
    rw [heq] at hpos
    omega
  have hcomma : NMEA_Comma_Pos (t.front ++ ascii ',' :: Decimal.text (t.second.digits.take j)) 6 0 =
      some (0 + .ofNat (XHTOD.length + (body before).length + 1)) :=
    comma_pos XHTOD_plain before (by omega) 0
  have hdrop : (t.front ++ ascii ',' :: Decimal.text (t.second.digits.take j)).drop
      (t.front.length + 1) = Decimal.text (t.second.digits.take j) := by
    rw [List.append_cons]
    exact List.drop_left' (by simp only [List.length_append, List.length_singleton])
  unfold todField
  rw [hcomma, UInt8.zero_add]
  simp only [Option.bind_eq_bind, Option.bind_some]
  rw [if_neg hne, hpos, hdrop, Str2num_digits]
  rfl

/-- The last field of a sentence that is cut off is read to the end. -/
theorem todField_cut (t : Tod) {n : Nat} (hn : n < t.octets.length) :
    todField (t.octets.take n) 6 = none := by
  have hlength : t.octets.length = t.front.length + (t.second.octets.length + 1) + 1 := by
    rw [t.octets_front]
    simp only [List.length_append, List.length_cons, List.length_nil]
    omega
  rw [t.octets_front, List.take_append]
  by_cases hhead : n ≤ t.front.length
  · rw [Nat.sub_eq_zero_of_le hhead, List.take_zero, List.append_nil]
    exact todField_front_cut t n
  · obtain ⟨j, hj⟩ : ∃ j, n - t.front.length = j + 1 := ⟨n - t.front.length - 1, by omega⟩
    have htake : (ascii ',' :: t.second.octets ++ [t.last]).take (j + 1) =
        ascii ',' :: Decimal.text (t.second.digits.take j) := by
      rw [List.cons_append, List.take_succ_cons, List.take_append_of_le_length (by omega)]
      show ascii ',' :: (Decimal.text t.second.digits).take j = _
      unfold Decimal.text
      rw [List.map_take]
    rw [List.take_of_length_le (by omega), hj, htake]
    exact todField_digits_cut t j

/-! ## A sentence in a buffer -/

variable {t : Tod} {line pre post : List UInt8} {n : Nat}

theorem octets_length (t : Tod) : 5 < t.octets.length := by
  unfold octets
  rw [List.length_append, List.length_append]
  have htag : XHTOD.length = 5 := rfl
  have hlast : [t.last].length = 1 := rfl
  omega

theorem tag_front (t : Tod) (post : List UInt8) :
    t.octets ++ post = XHTOD ++ (body t.fields ++ [t.last] ++ post) := by
  unfold octets
  simp only [List.append_assoc]

/-- The sentence is found in the octets that follow it as well. -/
theorem AtFirstTag.found (h : t.AtFirstTag line pre post n) {len : UInt16}
    (hlen : pre.length + 5 ≤ len.toNat) :
    my_strstr line XHTOD len.toNat = some (some (t.octets ++ post)) := by
  obtain ⟨rfl, hfirst, -⟩ := h
  rw [tag_front] at hfirst ⊢
  rw [← List.append_assoc] at hfirst ⊢
  exact my_strstr_found (by decide) pre hlen hfirst

end Tod

/-- **Time of day, parsed after print.** Every field is the number that is written. -/
theorem TOD_Analysis_printed (t : Tod) (pre post : List UInt8) (len : UInt16) (time : DateTime)
    (hlen : pre.length + XHTOD.length ≤ len.toNat)
    (hfirst : ∀ k < pre.length, ¬ XHTOD <+: (pre ++ (t.octets ++ post)).drop k) :
    ∃ p, TOD_Analysis time (pre ++ (t.octets ++ post)) len = some p ∧
      p.year.toNat = t.year.value ∧ p.month.toNat = t.month.value ∧ p.day.toNat = t.day.value ∧
      p.hour.toNat = t.hour.value ∧ p.minute.toNat = t.minute.value ∧
      p.second.toNat = t.second.value := by
  have hat : t.AtFirstTag (pre ++ (t.octets ++ post)) pre post (pre.length + t.octets.length) :=
    ⟨rfl, hfirst, le_rfl⟩
  have hyear : t.year.value < 65536 := by
    have hlt := Decimal.value_lt t.year.digits
    have hpow : 10 ^ t.year.digits.length ≤ 10 ^ 4 :=
      Nat.pow_le_pow_right (by decide) t.year.length_range.2
    exact Nat.lt_of_lt_of_le hlt (hpow.trans (by decide))
  exact ⟨t.dateTime, t.analysis_found time (hat.found hlen), UInt16.toNat_ofNat_of_lt' hyear,
    UInt8.toNat_ofNat_of_lt' t.month_lt, UInt8.toNat_ofNat_of_lt' t.day_lt,
    UInt8.toNat_ofNat_of_lt' t.hour_lt, UInt8.toNat_ofNat_of_lt' t.minute_lt,
    UInt8.toNat_ofNat_of_lt' t.second_lt⟩

/-- A field of two digits. -/
def twoDigits (a b : Fin 10) : TodField := ⟨[a, b], by decide +revert⟩

/-- The sentence of 2018-08-08 12:00:05. -/
def noonSentence : Tod where
  year := ⟨[2, 0, 1, 8], by decide⟩
  month := twoDigits 0 8
  day := twoDigits 0 8
  hour := twoDigits 1 2
  minute := twoDigits 0 0
  second := twoDigits 0 5
  last := ascii '*'
  month_lt := by decide
  day_lt := by decide
  hour_lt := by decide
  minute_lt := by decide
  second_lt := by decide
  terminated := by decide

theorem TOD_Analysis_printed_noon :
    ∃ p, TOD_Analysis default ([ascii '$'] ++ (noonSentence.octets ++ [])) 40 = some p ∧
      p.year.toNat = 2018 ∧ p.month.toNat = 8 ∧ p.day.toNat = 8 ∧ p.hour.toNat = 12 ∧
      p.minute.toNat = 0 ∧ p.second.toNat = 5 :=
  TOD_Analysis_printed noonSentence [ascii '$'] [] 40 default (by decide) (by decide)

end Ptpd
