import Rch.Kit.Csv
import Rch.Proofs.AuditQueries

/-!
# The exported file reads back

Whatever people typed, commas, quotes and line ends among it, a reader of
comma-separated records finds the header and the events, field for field, and no
text of theirs in the place of a formula. The first cell is the hospital's clock
at the event, and cells are in the order of the seconds they stand for.
-/

namespace Rch.AuditLog

open Kit

def csvSigns : Records.Signs Char := ⟨',', '"', '\r', '\n'⟩

/-! ## A field and a record -/

theorem needsQuotes_eq (text : List Char) : needsQuotes text = csvSigns.needsQuotes text := by
  unfold needsQuotes Records.Signs.needsQuotes
  refine congrArg text.any (funext fun c => ?_)
  change decide (c ∈ ['"', ',', '\r', '\n']) =
    (decide (c = '"') || decide (c = ',') || decide (c = '\r') || decide (c = '\n'))
  simp only [List.mem_cons, List.not_mem_nil, or_false, Bool.decide_or, Bool.or_assoc]

theorem quoteField_eq (text : List Char) : quoteField text = csvSigns.writeField text := by
  unfold quoteField Records.Signs.writeField
  rw [needsQuotes_eq]
  rfl

theorem writeField_plain {text : List Char} (h : csvSigns.needsQuotes text = false) :
    csvSigns.writeField text = text := by
  unfold Records.Signs.writeField
  rw [h]
  rfl

theorem plain_of_digit {c : Char} (h : c.isDigit = true ∨ c = '-') :
    c ≠ '"' ∧ c ≠ ',' ∧ c ≠ '\r' ∧ c ≠ '\n' := by
  refine ⟨?_, ?_, ?_, ?_⟩ <;>
  · rintro rfl
    revert h
    decide

/-- A printed number has no sign of the file's in it. -/
theorem needsQuotes_number (n : ℤ) : csvSigns.needsQuotes (toString n).toList = false := by
  have hnat : ∀ m : ℕ, ∀ c ∈ (toString m).toList, c.isDigit = true := by
    intro m c hc
    have hdigits : (toString m).toList = Nat.toDigits 10 m := Nat.toList_repr
    rw [hdigits] at hc
    exact Nat.isDigit_of_mem_toDigits (by decide) (by decide) hc
  rw [Records.plain_iff]
  intro c hc
  refine plain_of_digit ?_
  cases n with
  | ofNat m => exact .inl (hnat m c hc)
  | negSucc m =>
      have hprinted : (toString (Int.negSucc m)).toList = '-' :: (toString (m + 1)).toList := by
        change ("-" ++ toString (m + 1)).toList = _
        rw [String.toList_append]
        rfl
      rw [hprinted] at hc
      rcases List.mem_cons.1 hc with rfl | hc
      · exact .inr rfl
      · exact .inl (hnat _ c hc)

/-- A cell is its content, quoted where it has to be. -/
theorem csvCell_eq (v : CsvValue) : csvCell v = csvSigns.writeField v.content.toList := by
  cases v with
  | number n => exact (writeField_plain (needsQuotes_number n)).symm
  | text s => exact quoteField_eq _

theorem csvLine_eq (values : List CsvValue) : csvLine (values.map csvCell) =
    csvSigns.writeRecord (values.map fun v => v.content.toList) := by
  unfold csvLine Records.Signs.writeRecord
  rw [List.map_map]
  exact congrArg (fun cells => [','].intercalate cells ++ ['\r', '\n'])
    (List.map_congr_left fun v _ => csvCell_eq v)

/-- The header has no sign to quote. -/
theorem csvLine_header : csvLine (CSV_HEADER.map String.toList) =
    csvSigns.writeRecord (CSV_HEADER.map String.toList) := by
  decide +kernel

def contents (r : AuditRow) : List String := (rowValues r).map CsvValue.content

theorem toList_auditCsv (rows : List AuditRow) : (auditCsv rows).toList =
    csvSigns.write ((CSV_HEADER :: rows.map contents).map fun cells =>
      cells.map String.toList) := by
  unfold auditCsv Records.Signs.write
  rw [String.toList_ofList, List.map_cons, List.map_cons, csvLine_header, List.map_map,
    List.map_map]
  have hrows : rows.map (fun r => csvLine ((rowValues r).map csvCell)) =
      rows.map ((csvSigns.writeRecord ∘ fun cells => cells.map String.toList) ∘ contents) := by
    refine List.map_congr_left fun r _ => ?_
    rw [csvLine_eq, Function.comp_apply, Function.comp_apply, contents, List.map_map]
    rfl
  rw [hrows]

theorem apart_csvSigns : csvSigns.Apart := ⟨by decide, by decide, by decide⟩

theorem read_auditCsv (rows : List AuditRow) : csvSigns.read (auditCsv rows).toList =
    (CSV_HEADER :: rows.map contents).map fun cells => cells.map String.toList := by
  rw [toList_auditCsv]
  refine Records.read_write apart_csvSigns fun record hrecord => ?_
  obtain ⟨cells, hcells, rfl⟩ := List.mem_map.1 hrecord
  rcases List.mem_cons.1 hcells with rfl | hcells
  · exact List.cons_ne_nil _ _
  · obtain ⟨r, -, rfl⟩ := List.mem_map.1 hcells
    exact List.cons_ne_nil _ _

/-! ## No formula -/

/-- What comes before a text is an apostrophe, or nothing, and it starts no formula. -/
theorem disarm_safe (s : String) : (disarm s).toList.head?.any startsFormula = false ∧
    (disarm s = s ∨ s.toList.head?.any startsFormula = true ∧ disarm s = "'" ++ s) := by
  unfold disarm
  cases h : s.toList.head?.any startsFormula with
  | false => exact ⟨h, .inl rfl⟩
  | true =>
      refine ⟨?_, .inr ⟨rfl, rfl⟩⟩
      rw [if_pos rfl, String.toList_append]
      rfl

/-! ## The clock -/

/-- The instant is in a year that is written with four digits, in the hospital too. -/
structure Dated (t : Instant) : Prop where
  nonneg : 0 ≤ (civil (t / DAY_MS)).1
  below : (civil (t / DAY_MS)).1 < 10000
  early : 1000 ≤ (civil (istDay t)).1
  late : (civil (istDay t)).1 < 10000

/-- The hospital's clock at an instant, to the second. -/
def hospitalTime (t : Instant) : String :=
  let ms := ((t + 19800000) % DAY_MS).toNat
  istDate t ++ " " ++ Decimal.pad 2 (ms / 3600000) ++ ":" ++ Decimal.pad 2 (ms / 60000 % 60)
    ++ ":" ++ Decimal.pad 2 (ms / 1000 % 60)

theorem readDigits_pad {w n : ℕ} (hw : 0 < w) (h : n < 10 ^ w) :
    readDigits (Decimal.pad w n).toList = some n := by
  have hne : (Decimal.pad w n).toList ≠ [] := fun hnil => by
    have hlen := Calendar.length_pad hw h
    rw [hnil, List.length_nil] at hlen
    omega
  unfold readDigits
  rw [if_pos ⟨hne, List.all_eq_true.2 fun _ => Decimal.isDigit_pad⟩, Decimal.ofDigitChars_pad]

theorem readInstant_cut {s : String} {date h₁ h₂ m₁ m₂ s₁ s₂ z₁ z₂ z₃}
    {day : ℤ × ℕ × ℕ} {hour minute second ms : ℕ}
    (hs : s.toList = date ++
      ['T', h₁, h₂, ':', m₁, m₂, ':', s₁, s₂, '.', z₁, z₂, z₃, 'Z'])
    (hlen : date.length = 10)
    (hday : Calendar.readStamp (String.ofList date) = some day)
    (hhour : readDigits [h₁, h₂] = some hour)
    (hminute : readDigits [m₁, m₂] = some minute)
    (hsecond : readDigits [s₁, s₂] = some second)
    (hms : readDigits [z₁, z₂, z₃] = some ms) :
    readInstant s = some (Calendar.dayOf day.1 day.2.1 day.2.2 * DAY_MS
      + (hour * 3600000 + minute * 60000 + second * 1000 + ms : ℕ)) := by
  have hget : ∀ (k : ℕ) (l : List Char), (date ++ l)[10 + k]? = l[k]? := by
    intro k l
    rw [List.getElem?_append_right (by omega), hlen, Nat.add_sub_cancel_left]
  have hdrop : ∀ (k : ℕ) (l : List Char), (date ++ l).drop (10 + k) = l.drop k := by
    intro k l
    rw [List.drop_append, List.drop_eq_nil_of_le (by omega), hlen, Nat.add_sub_cancel_left,
      List.nil_append]
  unfold readInstant
  rw [hs]
  dsimp only
  rw [guard_pos ⟨by rw [List.length_append, hlen]; rfl, hget 0 _, hget 3 _, hget 6 _,
    hget 9 _, hget 13 _⟩, List.take_left' hlen, hdrop 1, hdrop 4, hdrop 7, hdrop 10]
  simp only [List.drop_succ_cons, List.drop_zero, List.take_succ_cons, List.take_zero, hday,
    hhour, hminute, hsecond, hms, Option.bind_eq_bind, Option.bind_some, Option.pure_def]

theorem readInstant_isoInstant {t : Instant} (h : Dated t) :
    readInstant (isoInstant t) = some t := by
  have hdate := Calendar.readStamp_stamp (fits_civil h.nonneg h.below)
  have hlen := (Calendar.readStamp_some hdate).1
  obtain ⟨ms, hms⟩ := Int.eq_ofNat_of_zero_le (Int.emod_nonneg t (b := DAY_MS) (by decide))
  have hlt : ms < 86400000 := by
    have hlt : (ms : ℤ) < DAY_MS := hms ▸ Int.emod_lt_of_pos t (by decide)
    exact Int.ofNat_lt.1 hlt
  have hhour : ms / 3600000 < 10 ^ 2 := by omega
  have hminute : ms / 60000 % 60 < 10 ^ 2 := by omega
  have hsecond : ms / 1000 % 60 < 10 ^ 2 := by omega
  have hrest : ms % 1000 < 10 ^ 3 := by omega
  have hreadH := readDigits_pad (by decide) hhour
  have hreadM := readDigits_pad (by decide) hminute
  have hreadS := readDigits_pad (by decide) hsecond
  have hreadR := readDigits_pad (by decide) hrest
  have hlenH := Calendar.length_pad (by decide) hhour
  have hlenM := Calendar.length_pad (by decide) hminute
  have hlenS := Calendar.length_pad (by decide) hsecond
  have hlenR := Calendar.length_pad (by decide) hrest
  have hlist : (isoInstant t).toList =
      (Calendar.stamp (Calendar.civil (t / DAY_MS))).toList ++
        ('T' :: ((Decimal.pad 2 (ms / 3600000)).toList ++
          (':' :: ((Decimal.pad 2 (ms / 60000 % 60)).toList ++
            (':' :: ((Decimal.pad 2 (ms / 1000 % 60)).toList ++
              ('.' :: ((Decimal.pad 3 (ms % 1000)).toList ++ ['Z'])))))))) := by
    unfold isoInstant
    dsimp only
    have hT : ("T" : String).toList = ['T'] := rfl
    have hcolon : (":" : String).toList = [':'] := rfl
    have hdot : ("." : String).toList = ['.'] := rfl
    have hZ : ("Z" : String).toList = ['Z'] := rfl
    rw [hms, Int.toNat_natCast, civil_eq]
    simp only [String.toList_append, List.append_assoc, hT, hcolon, hdot, hZ,
      List.cons_append, List.nil_append]
  generalize (Decimal.pad 2 (ms / 3600000)).toList = lh at *
  generalize (Decimal.pad 2 (ms / 60000 % 60)).toList = lm at *
  generalize (Decimal.pad 2 (ms / 1000 % 60)).toList = ls at *
  generalize (Decimal.pad 3 (ms % 1000)).toList = lr at *
  obtain ⟨c₁, c₂, rfl⟩ := List.length_eq_two.1 hlenH
  obtain ⟨c₃, c₄, rfl⟩ := List.length_eq_two.1 hlenM
  obtain ⟨c₅, c₆, rfl⟩ := List.length_eq_two.1 hlenS
  obtain ⟨c₇, c₈, c₉, rfl⟩ := List.length_eq_three.1 hlenR
  rw [readInstant_cut hlist hlen (by rw [String.ofList_toList]; exact hdate) hreadH hreadM
    hreadS hreadR, Calendar.dayOf_civil]
  have hparts : ms / 3600000 * 3600000 + ms / 60000 % 60 * 60000 + ms / 1000 % 60 * 1000
      + ms % 1000 = ms := by omega
  rw [hparts, ← hms, Int.ediv_mul_add_emod]

theorem fromWireStamp_isoInstant {t : Instant} (h : Dated t) :
    fromWireStamp (isoInstant t) = hospitalTime t := by
  unfold fromWireStamp hospitalTime
  rw [readInstant_isoInstant h]
  dsimp only
  rw [istDayOf_eq h.early h.late]

/-- Hours, minutes and seconds of two days are in the order of the seconds. -/
theorem clock_lt_iff {t t' day day' : ℤ} {ms ms' : ℕ}
    (h : t + 19800000 = day * 86400000 + ms) (h' : t' + 19800000 = day' * 86400000 + ms')
    (hms : ms < 86400000) (hms' : ms' < 86400000) :
    (day < day' ∨ day = day' ∧ (ms / 3600000 < ms' / 3600000 ∨
      ms / 3600000 = ms' / 3600000 ∧ (ms / 60000 % 60 < ms' / 60000 % 60 ∨
        ms / 60000 % 60 = ms' / 60000 % 60 ∧ ms / 1000 % 60 < ms' / 1000 % 60))) ↔
      t / 1000 < t' / 1000 := by
  have hsecond : t / 1000 = day * 86400 + (ms / 1000 : ℕ) - 19800 := by omega
  have hsecond' : t' / 1000 = day' * 86400 + (ms' / 1000 : ℕ) - 19800 := by omega
  have hparts : ∀ n : ℕ, n / 3600000 = n / 1000 / 3600 ∧ n / 60000 = n / 1000 / 60 :=
    fun n => by omega
  have hday : ms / 1000 < 86400 := by omega
  have hday' : ms' / 1000 < 86400 := by omega
  rw [hsecond, hsecond', (hparts ms).1, (hparts ms').1, (hparts ms).2, (hparts ms').2]
  generalize ms / 1000 = second at *
  generalize ms' / 1000 = second' at *
  clear * - hday hday'
  omega

theorem hospitalTime_lt_iff {t t' : Instant} (h : Dated t) (h' : Dated t') :
    hospitalTime t < hospitalTime t' ↔ t / 1000 < t' / 1000 := by
  have hnonneg : 0 ≤ (Calendar.civil (istDay t)).1 := le_trans (by decide) h.early
  have hnonneg' : 0 ≤ (Calendar.civil (istDay t')).1 := le_trans (by decide) h'.early
  have hfits := fits_civil hnonneg h.late
  have hfits' := fits_civil hnonneg' h'.late
  have hlen := (Calendar.readStamp_some (Calendar.readStamp_stamp hfits)).1
  have hlen' := (Calendar.readStamp_some (Calendar.readStamp_stamp hfits')).1
  have hdays := Calendar.stamp_lt_iff hfits hfits'
  rw [Calendar.civil_before_iff, String.lt_iff] at hdays
  have hsame : (Calendar.stamp (Calendar.civil (istDay t))).toList =
      (Calendar.stamp (Calendar.civil (istDay t'))).toList ↔ istDay t = istDay t' := by
    rw [String.toList_inj]
    exact ⟨fun heq => Calendar.civil_injective (Calendar.stamp_injective hfits hfits' heq),
      fun heq => by rw [heq]⟩
  have hbound : ∀ u : ℤ, ((u + 19800000) % DAY_MS).toNat < 86400000 := fun u => by
    have hlt : (u + 19800000) % 86400000 < 86400000 := Int.emod_lt_of_pos _ (by decide)
    change ((u + 19800000) % 86400000).toNat < 86400000
    omega
  have hlist : ∀ u : Instant, (hospitalTime u).toList =
      (Calendar.stamp (Calendar.civil (istDay u))).toList ++ (' ' ::
        ((Decimal.pad 2 (((u + 19800000) % DAY_MS).toNat / 3600000)).toList ++ (':' ::
          ((Decimal.pad 2 (((u + 19800000) % DAY_MS).toNat / 60000 % 60)).toList ++ (':' ::
            (Decimal.pad 2 (((u + 19800000) % DAY_MS).toNat / 1000 % 60)).toList))))) := by
    intro u
    unfold hospitalTime
    dsimp only
    have hblank : (" " : String).toList = [' '] := rfl
    have hcolon : (":" : String).toList = [':'] := rfl
    rw [istDate_eq]
    simp only [String.toList_append, List.append_assoc, hblank, hcolon, List.cons_append,
      List.nil_append]
  have hblank : ∀ {l l' : List Char}, ' ' :: l < ' ' :: l' ↔ l < l' := fun {l l'} => by
    rw [List.cons_lt_cons_iff]
    exact ⟨fun h => h.elim (fun h => absurd h (lt_irrefl _)) And.right,
      fun h => .inr ⟨rfl, h⟩⟩
  have hms := hbound t
  have hms' := hbound t'
  have hwhole : ∀ u : ℤ, u + 19800000 =
      istDay u * 86400000 + (((u + 19800000) % DAY_MS).toNat : ℤ) := fun u => by
    change u + 19800000 = (u + 19800000) / 86400000 * 86400000
      + (((u + 19800000) % 86400000).toNat : ℤ)
    omega
  have ht := hwhole t
  have ht' := hwhole t'
  rw [String.lt_iff, hlist, hlist, Calendar.append_lt_append (hlen.trans hlen'.symm), hdays,
    hsame, hblank]
  generalize ((t + 19800000) % DAY_MS).toNat = ms at *
  generalize ((t' + 19800000) % DAY_MS).toNat = ms' at *
  generalize istDay t = day at *
  generalize istDay t' = day' at *
  have hsixty : ∀ n : ℕ, n % 60 < 10 ^ 2 := fun n => by omega
  have hhour : ms / 3600000 < 10 ^ 2 := by omega
  have hhour' : ms' / 3600000 < 10 ^ 2 := by omega
  rw [Calendar.pad_cons_lt_iff (by decide) hhour hhour',
    Calendar.pad_cons_lt_iff (by decide) (hsixty _) (hsixty _),
    Calendar.pad_lt_iff (by decide) (hsixty _) (hsixty _)]
  exact clock_lt_iff ht ht' hms hms'

/-- A clock starts no formula. -/
theorem disarm_hospitalTime {t : Instant} (h : Dated t) :
    disarm (hospitalTime t) = hospitalTime t := by
  have hlate := h.late
  have hyear : (civil (istDay t)).1.toNat < 10 ^ 4 := by omega
  have hlen := Calendar.length_pad (by decide) hyear
  have hdigit : ∀ c ∈ (Decimal.pad 4 (civil (istDay t)).1.toNat).toList, c.isDigit = true :=
    fun _ => Decimal.isDigit_pad
  obtain ⟨c, l, hcons⟩ := List.exists_cons_of_ne_nil
    (l := (Decimal.pad 4 (civil (istDay t)).1.toNat).toList) (fun hnil => by
      rw [hnil, List.length_nil] at hlen
      omega)
  have hhead : (hospitalTime t).toList.head? = some c := by
    unfold hospitalTime istDate
    simp only [String.toList_append, hcons, List.cons_append, List.head?_cons]
  have hplain : startsFormula c = false := by
    have hc := hdigit c (by rw [hcons]; exact List.mem_cons_self)
    unfold startsFormula
    rw [decide_eq_false_iff_not]
    intro hmem
    simp only [List.mem_cons, List.not_mem_nil, or_false] at hmem
    rcases hmem with rfl | rfl | rfl | rfl | rfl | rfl <;> exact absurd hc (by decide)
  unfold disarm
  rw [hhead, Option.any_some, hplain]
  rfl

def recordOf (e : StoredEvent) : List String :=
  let label := auditLabelOf e.event.action e.event.outcome
  [hospitalTime e.at_, disarm e.event.actor.emp, disarm e.event.actor.name,
    disarm e.event.actor.role, disarm e.event.actor.loc,
    disarm ((label.2.map AUDIT_GROUPS).getD ""), disarm label.1, disarm e.event.target,
    disarm (AUDIT_OUTCOME_LABEL e.event.outcome), toString (e.event.status : ℤ),
    disarm e.event.message, disarm e.event.ip, disarm e.event.requestId]

theorem contents_toRow {e : StoredEvent} (h : Dated e.at_) :
    contents (toRow e) = recordOf e := by
  have htime : disarm (fromWireStamp (toRow e).at_) = hospitalTime e.at_ :=
    (congrArg disarm (fromWireStamp_isoInstant h)).trans (disarm_hospitalTime h)
  unfold contents rowValues recordOf
  simp only [List.map_cons, List.map_nil, CsvValue.content, htime]
  rfl

/-- The exported file reads back event by event, starts no formula, and sorts by its clock. -/
theorem audit_csv_reads_back {events : List StoredEvent} (h : ∀ e ∈ events, Dated e.at_) :
    csvSigns.read (auditCsv (events.map toRow)).toList =
      (CSV_HEADER :: events.map recordOf).map (fun cells => cells.map String.toList) ∧
    (∀ s, (disarm s).toList.head?.any startsFormula = false ∧ (disarm s = s ∨
      s.toList.head?.any startsFormula = true ∧ disarm s = "'" ++ s)) ∧
    ∀ e ∈ events, ∀ e' ∈ events,
      hospitalTime e.at_ < hospitalTime e'.at_ ↔ e.at_ / 1000 < e'.at_ / 1000 := by
  refine ⟨?_, disarm_safe, fun e he e' he' => hospitalTime_lt_iff (h e he) (h e' he')⟩
  have hrows : (events.map toRow).map contents = events.map recordOf := by
    rw [List.map_map]
    exact List.map_congr_left fun e he => contents_toRow (h e he)
  rw [read_auditCsv, hrows]

def quotedEvent : StoredEvent :=
  ⟨7, 1789200000123, ⟨"", "", ⟨none, "C-1", "Rao, \"A\"", "", "rest"⟩, "pay", "", "=1+1", "",
    "", .done, 200, "a\r\nb", none, .null, .null, .null, [], "", ""⟩⟩

/-- A comma, quotes, a line end and a formula in one row. -/
theorem audit_csv_reads_back_quoted :
    csvSigns.read (auditCsv [toRow quotedEvent]).toList =
      [CSV_HEADER, recordOf quotedEvent].map fun cells => cells.map String.toList := by
  have hdated : ∀ e ∈ [quotedEvent], Dated e.at_ := by
    intro e he
    rw [List.mem_singleton.1 he]
    exact ⟨by decide +kernel, by decide +kernel, by decide +kernel, by decide +kernel⟩
  exact (audit_csv_reads_back hdated).1

end Rch.AuditLog
