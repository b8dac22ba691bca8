import Ptpd.Adjust
import Ptpd.Tod

/-! # Time from USART1 (`cmd_handle.c`: `cmd_handle_usart1`)

    A line that is received becomes the time of an NTP master, whether or not it
    carries a time-of-day sentence. Of a long line only the first half of the
    buffer is copied.
-/

namespace Ptpd

open Calendar

/-! ## The functions -/

/-- `systime` after the call. `tmpTime` is what the variable holds when the function begins. -/
def cmd_handle_usart1 (portState : PortState) (PTP_MODE : PtpMode) (str : List UInt8) (len : UInt16)
    (tmpTime : DateTime) (systime : UInt32) : Option UInt32 := do
  let p := str.take 512
  let tmpTime ← TOD_Analysis tmpTime p len
  if portState = .PTP_MASTER ∧ PTP_MODE = .emNTPMaster then return tmpTime.mktime
  else return systime

def USART_RECEIVE_MAX : Nat := 1024

/-- A received line in the buffer that the callback is given. -/
def lineBuffer (line : List UInt8) : List UInt8 :=
  line ++ List.replicate (USART_RECEIVE_MAX - line.length) 0

namespace Tod

/-! ## Lines -/

variable {t : Tod} {line pre post : List UInt8} {n : Nat}

/-- Octets behind the sentence do not matter. -/
theorem AtFirstTag.append (h : t.AtFirstTag line pre post n) (more : List UInt8) :
    t.AtFirstTag (line ++ more) pre (post ++ more) n := by
  refine ⟨by rw [h.at_tag]; simp only [List.append_assoc], fun k hk htag => ?_, h.within⟩
  have hoctets := t.octets_length
  have hline : line.length = pre.length + (t.octets.length + post.length) := by
    rw [h.at_tag, List.length_append, List.length_append]
  have hdrop : (line ++ more).drop k = line.drop k ++ more := List.drop_append_of_le_length (by omega)
  rw [hdrop] at htag
  refine h.first k hk (List.prefix_of_prefix_length_le htag (List.prefix_append _ _) ?_)
  have htagLength : XHTOD.length = 5 := rfl
  rw [List.length_drop]
  omega

/-- What is cut off behind the sentence does not matter either. -/
theorem AtFirstTag.take (h : t.AtFirstTag line pre post n) :
    t.AtFirstTag (line.take n) pre (post.take (n - pre.length - t.octets.length)) n := by
  have hwithin := h.within
  refine ⟨?_, fun k hk htag => ?_, hwithin⟩
  · rw [h.at_tag, List.take_append, List.take_of_length_le (by omega), List.take_append,
      List.take_of_length_le (show t.octets.length ≤ n - pre.length by omega)]
  · rw [List.drop_take] at htag
    exact h.first k hk (htag.trans (List.take_prefix _ _))

end Tod

/-- The first half of the buffer. -/
theorem lineBuffer_take {line : List UInt8} {n : Nat} (hn : n ≤ USART_RECEIVE_MAX) :
    (lineBuffer line).take n = line.take n ++ List.replicate (n - line.length) 0 := by
  unfold lineBuffer
  rw [List.take_append, List.take_replicate]
  congr 2
  omega

section Usart1

variable {line : List UInt8} {t : Tod}

/-- The sentence is read if it ends within the half of the buffer that is copied. -/
theorem Tod.Carried.analysis (hline : line.length < USART_RECEIVE_MAX) (h : t.Carried line 512)
    (tmpTime : DateTime) :
    TOD_Analysis tmpTime ((lineBuffer line).take 512) (.ofNat line.length) = some t.dateTime := by
  obtain ⟨pre, post, hat⟩ := h
  have hoctets := t.octets_length
  have hlen : (UInt16.ofNat line.length).toNat = line.length :=
    UInt16.toNat_ofNat_of_lt' (show line.length < 65536 from Nat.lt_trans hline (by decide))
  have hlength : line.length = pre.length + (t.octets.length + post.length) := by
    rw [hat.at_tag, List.length_append, List.length_append]
  rw [lineBuffer_take (by decide)]
  exact t.analysis_found tmpTime ((hat.take.append _).found (by omega))

/-- A sentence that the copied half cuts off makes the search or the last field leave it. -/
theorem Tod.AtFirstTag.analysis_cut {pre post : List UInt8} (hline : line.length < USART_RECEIVE_MAX)
    (h : t.AtFirstTag line pre post line.length) (hcut : 512 < pre.length + t.octets.length)
    (tmpTime : DateTime) :
    TOD_Analysis tmpTime ((lineBuffer line).take 512) (.ofNat line.length) = none := by
  have hoctets := t.octets_length
  have hlen : (UInt16.ofNat line.length).toNat = line.length :=
    UInt16.toNat_ofNat_of_lt' (show line.length < 65536 from Nat.lt_trans hline (by decide))
  have hwithin := h.within
  have htagLength : XHTOD.length = 5 := rfl
  have htake : (lineBuffer line).take 512 = line.take 512 := by
    rw [lineBuffer_take (by decide), Nat.sub_eq_zero_of_le (by omega), List.replicate_zero,
      List.append_nil]
  have hfirst : ∀ k < pre.length, ¬ XHTOD <+: (line.take 512).drop k := by
    intro k hk htag
    rw [List.drop_take] at htag
    exact h.first k hk (htag.trans (List.take_prefix _ _))
  rw [htake]
  unfold TOD_Analysis
  -- either the tag is copied and the fields are cut, or the tag itself is cut
  by_cases hpre : pre.length + 5 ≤ 512
  · have hsplit : line.take 512 = pre ++ t.octets.take (512 - pre.length) := by
      rw [h.at_tag, List.take_append, List.take_of_length_le (by omega),
        List.take_append_of_le_length (by omega)]
    have htag : t.octets.take (512 - pre.length) =
        XHTOD ++ (body t.fields ++ [t.last]).take (512 - pre.length - 5) := by
      unfold octets
      rw [List.append_assoc, List.take_append, List.take_of_length_le (by omega), htagLength]
    have hfound : my_strstr (line.take 512) XHTOD line.length =
        some (some (t.octets.take (512 - pre.length))) := by
      rw [hsplit, htag] at hfirst ⊢
      rw [← List.append_assoc] at hfirst ⊢
      exact my_strstr_found (by decide) pre (by omega) hfirst
    rw [hlen, hfound]
    simp only [Option.bind_eq_bind, Option.bind_some]
    rw [todField_cut t (by omega)]
    simp only [Option.bind_none, Option.bind_fun_none]
  · have hlength : (line.take 512).length = 512 := by
      rw [List.length_take]
      omega
    have hnone : my_strstr (line.take 512) XHTOD line.length = none := by
      apply my_strstr_none (by decide) (by omega) (by omega)
      intro k htag
      by_cases hk : k < pre.length
      · exact hfirst k hk htag
      · have hle := htag.length_le
        rw [List.length_drop] at hle
        omega
    rw [hlen, hnone]
    rfl

/-- What a master of NTP time makes of a line. -/
def usart1Line (line : List UInt8) (tmpTime : DateTime) (systime : UInt32) : Option UInt32 :=
  cmd_handle_usart1 .PTP_MASTER .emNTPMaster (lineBuffer line) (.ofNat line.length) tmpTime systime

theorem usart1Line_eq (line : List UInt8) (tmpTime : DateTime) (systime : UInt32) :
    usart1Line line tmpTime systime =
      (TOD_Analysis tmpTime ((lineBuffer line).take 512) (.ofNat line.length)).map DateTime.mktime := by
  unfold usart1Line cmd_handle_usart1
  dsimp only
  cases TOD_Analysis tmpTime ((lineBuffer line).take 512) (.ofNat line.length) <;> rfl

/-- Whatever the variable held before, the time is set by a complete sentence only. -/
structure SetBySentence (line : List UInt8) : Prop where
  complete : ∀ t : Tod, t.Carried line line.length →
    ∀ tmpTime systime, usart1Line line tmpTime systime = some t.dateTime.mktime
  other : (∀ t : Tod, ¬ t.Carried line line.length) →
    ∀ tmpTime systime, usart1Line line tmpTime systime = some systime

/-- **Lines set the time by their sentence** exactly if the first tag begins a complete one,
    in the part that is copied. -/
theorem usart1_set_iff (line : List UInt8) (hline : line.length < USART_RECEIVE_MAX) :
    SetBySentence line ↔ ∃ t : Tod, t.Carried line 512 := by
  constructor
  · intro h
    by_contra hcut
    by_cases hsome : ∃ t : Tod, t.Carried line line.length
    · obtain ⟨t, pre, post, hat⟩ := hsome
      -- the sentence leaves the copied part
      have hlong : 512 < pre.length + t.octets.length := by
        by_contra hshort
        exact hcut ⟨t, pre, post, hat.at_tag, hat.first, not_lt.mp hshort⟩
      have hset := h.complete t ⟨pre, post, hat⟩ default 0
      rw [usart1Line_eq, hat.analysis_cut hline hlong] at hset
      exact absurd hset.symm (Option.some_ne_none _)
    · -- the result does not depend on the time before
      have hnone : ∀ t : Tod, ¬ t.Carried line line.length := fun t ht => hsome ⟨t, ht⟩
      have hzero := h.other hnone default 0
      have hone := h.other hnone default 1
      rw [usart1Line_eq] at hzero hone
      exact absurd (hzero.symm.trans hone) (by decide)
  · rintro ⟨t, hcarried⟩
    obtain ⟨pre, post, hat⟩ := hcarried
    have hwhole : t.Carried line line.length := by
      refine ⟨pre, post, hat.at_tag, hat.first, ?_⟩
      rw [hat.at_tag, List.length_append, List.length_append]
      omega
    refine ⟨fun t' ht' tmpTime systime => ?_, fun hnone => absurd hwhole (hnone t)⟩
    -- two sentences at the first tag are the same
    obtain ⟨pre', post', hat'⟩ := ht'
    have hsame : t'.dateTime = t.dateTime := by
      have hlen : ∀ m : Nat, m < 65536 → (UInt16.ofNat m).toNat = m :=
        fun m => UInt16.toNat_ofNat_of_lt'
      have hmax : USART_RECEIVE_MAX = 1024 := rfl
      have hoctets := t.octets_length
      have hoctets' := t'.octets_length
      have hlength : line.length = pre.length + (t.octets.length + post.length) := by
        rw [hat.at_tag, List.length_append, List.length_append]
      have hwithin' := hat'.within
      have hread := t.analysis_found default (hat.found (by
        rw [hlen _ (show line.length < 65536 by omega)]
        omega))
      have hread' := t'.analysis_found default (hat'.found (by
        rw [hlen _ (show line.length < 65536 by omega)]
        omega))
      exact Option.some.inj (hread'.symm.trans hread)
    rw [usart1Line_eq, Tod.Carried.analysis hline ⟨pre, post, hat⟩, hsame]
    rfl

/-- `$`, the sentence, and the end of the line. -/
def noonLine : List UInt8 := [ascii '$'] ++ (noonSentence.octets ++ [13, 10])

theorem noonLine_carried : noonSentence.Carried noonLine 512 :=
  ⟨[ascii '$'], [13, 10], rfl, by decide, by decide⟩

theorem usart1_set_noon : SetBySentence noonLine :=
  (usart1_set_iff noonLine (by decide)).mpr ⟨noonSentence, noonLine_carried⟩

/-- A line break alone sets the time to what the variable held. -/
theorem usart1_set_garbage :
    ¬ ∀ line : List UInt8, line.length < USART_RECEIVE_MAX → SetBySentence line := by
  intro h
  have hnone : ∀ t : Tod, ¬ t.Carried [10] [(10 : UInt8)].length := by
    rintro t ⟨pre, post, hat⟩
    have hoctets := t.octets_length
    have hwithin := hat.within
    rw [List.length_singleton] at hwithin
    omega
  have hzero := (h [10] (by decide)).other hnone default 0
  have hone := (h [10] (by decide)).other hnone default 1
  rw [usart1Line_eq] at hzero hone
  exact absurd (hzero.symm.trans hone) (by decide)

/-! ## The time that is set -/

/-- The sentence of a date and time. -/
structure Tod.Of (s : Tod) (t : Moment) : Prop where
  year : s.year.value = t.year
  month : s.month.value = t.month
  day : s.day.value = t.day
  hour : s.hour.value = t.hour
  minute : s.minute.value = t.minute
  second : s.second.value = t.second

theorem Tod.Of.dateTime {s : Tod} {t : Moment} (h : s.Of t) : s.dateTime = .of t := by
  unfold Tod.dateTime DateTime.of
  rw [h.year, h.month, h.day, h.hour, h.minute, h.second]

/-- **`mktime` is exact** as long as 32 bits can count the seconds, and so is the time that a
    sentence sets. -/
theorem mktime_exact (t : Moment) (hyear : 1970 ≤ t.year) (hlast : t ≤ lastMoment) :
    (mktime (.ofNat t.year) t.month (.ofNat t.day) (.ofNat t.hour) (.ofNat t.minute)
      (.ofNat t.second)).toNat = t.seconds 1970 ∧
    (∀ u : Moment, u ≤ lastMoment → t < u →
      mktime (.ofNat t.year) t.month (.ofNat t.day) (.ofNat t.hour) (.ofNat t.minute)
        (.ofNat t.second) <
        mktime (.ofNat u.year) u.month (.ofNat u.day) (.ofNat u.hour) (.ofNat u.minute)
          (.ofNat u.second)) ∧
    ∀ (line : List UInt8) (s : Tod), line.length < USART_RECEIVE_MAX → s.Carried line 512 → s.Of t →
      ∀ tmpTime systime,
        (usart1Line line tmpTime systime).map UInt32.toNat = some (t.seconds 1970) := by
  have hexact : ∀ u : Moment, 1970 ≤ u.year → u ≤ lastMoment →
      (mktime (.ofNat u.year) u.month (.ofNat u.day) (.ofNat u.hour) (.ofNat u.minute)
        (.ofNat u.second)).toNat = u.seconds 1970 := by
    intro u hu hu'
    have hle := year_le_of_le_last hu'
    rw [mktime_moment hu (by omega)]
    exact UInt32.toNat_ofNat_of_lt' (seconds_lt_of_le_last hu hu')
  have hle := year_le_of_le_last hlast
  refine ⟨hexact t hyear hlast, fun u hu htu => ?_, fun line s hline hcarried hs tmpTime systime => ?_⟩
  · -- a later moment is of no earlier year, so it is exact as well
    have hlater : t.year ≤ u.year := by
      rcases htu with hlt | ⟨heq, -⟩
      · exact Nat.le_of_lt hlt
      · exact Nat.le_of_eq heq
    rw [UInt32.lt_iff_toNat_lt, hexact t hyear hlast, hexact u (by omega) hu]
    exact Moment.seconds_lt_of_lt hyear htu
  · rw [usart1Line_eq, hcarried.analysis hline, hs.dateTime, Option.map_some,
      DateTime.mktime_of hyear (by omega), Option.map_some,
      UInt32.toNat_ofNat_of_lt' (seconds_lt_of_le_last hyear hlast)]

end Usart1

/-- Five seconds past noon. -/
def noonMoment : Moment := { summerNoon with second := 5, second_lt := by decide }

theorem mktime_exact_noon :
    (mktime 2018 8 8 12 0 5).toNat = noonMoment.seconds 1970 ∧
      mktime 2018 8 8 12 0 5 < mktime 2106 2 7 6 28 15 ∧
      (usart1Line noonLine default 0).map UInt32.toNat = some (noonMoment.seconds 1970) :=
  have hexact := mktime_exact noonMoment (by decide) (by decide)
  ⟨hexact.1, hexact.2.1 lastMoment (by decide) (by decide),
    hexact.2.2 noonLine noonSentence (by decide) noonLine_carried
      ⟨by decide, by decide, by decide, by decide, by decide, by decide⟩ default 0⟩

end Ptpd
