import Rch.Domain.NextNumbers
import Rch.Machine.Numbering

/-!
# No two documents carry one number

A printed number says what it is: its letters are the series', and the digits
after its last separator read back as the counter, zeros in front and all. The
date in between plays no part, so neither the width of a counter nor a year of
five digits can make two numbers meet.

A receipt's number keeps only two digits of its order's year. Over the orders
of one century those two are the year.
-/

namespace Rch

open Kit

/-! ## What a printed number says -/

def IdKind.letters : IdKind → List Char
  | .req => "REQ".toList
  | .tkt => "TKT".toList
  | .bill => "CF".toList
  | .prq => "PRQ".toList
  | .po => "PO".toList
  | .prd => "PRD".toList
  | .batch => "BAT".toList
  | .vendor => "VN".toList
  | .contract => "RC".toList
  | .support => "SUP".toList
  | .productReq => "NPR".toList
  | .shopAsk => "ASK".toList
  | .adj => "ADJ".toList
  | .adjReq => "ADJREQ".toList
  | .priceList => "PL".toList
  | .settlement => "STL".toList
  | .zReport => "Z".toList
  | .shift => "SH".toList
  | .role => "ROLE".toList
  | .qrOrder => "QO".toList
  | .qrCode => "QR".toList
  | .wastage => "WST".toList

theorem letters_injective : Function.Injective IdKind.letters := by
  intro k k' h
  cases k <;> cases k' <;> first | rfl | (revert h; decide)

theorem formatId_letters (kind : IdKind) (n : ℕ) (t : Instant) :
    (formatId kind n t).toList.takeWhile Char.isUpper = kind.letters := by
  cases kind <;> simp [formatId, IdKind.letters]

def counterOf (s : List Char) : ℕ :=
  Nat.ofDigitChars 10 (s.reverse.takeWhile Char.isDigit).reverse 0

/-- A text that ends in a separator, some zeros and a number's digits. -/
def EndsIn (n : ℕ) (s : List Char) : Prop :=
  ∃ front c z, c.isDigit = false ∧
    s = front ++ c :: (List.replicate z '0' ++ Nat.toDigits 10 n)

theorem EndsIn.counter {n : ℕ} {s : List Char} (h : EndsIn n s) :
    counterOf s = n := by
  obtain ⟨front, c, z, hc, rfl⟩ := h
  have hdigits : ∀ d ∈ List.replicate z '0' ++ Nat.toDigits 10 n,
      d.isDigit = true := by
    intro d hd
    rcases List.mem_append.1 hd with hd | hd
    · rw [List.eq_of_mem_replicate hd]
      decide
    · exact Nat.isDigit_of_mem_toDigits (by decide) (by decide) hd
  have htake : ((front ++ c :: (List.replicate z '0' ++
        Nat.toDigits 10 n)).reverse.takeWhile Char.isDigit).reverse =
      List.replicate z '0' ++ Nat.toDigits 10 n := by
    rw [List.reverse_append, List.reverse_cons, List.append_assoc,
      List.takeWhile_append_of_pos fun d hd => hdigits d (List.mem_reverse.1 hd),
      List.singleton_append, List.takeWhile_cons_of_neg (by simp [hc]),
      List.append_nil, List.reverse_reverse]
  rw [counterOf, htake, Nat.ofDigitChars_append,
    Nat.ofDigitChars_replicate_zero, Nat.mul_zero]
  exact Nat.ofDigitChars_ten_toDigits

theorem EndsIn.digits {s : String} (front : List Char) (c : Char) (z : ℕ)
    (hc : c.isDigit = false)
    (hs : s.toList = front ++ c :: List.replicate z '0') (n : ℕ) :
    EndsIn n (s ++ toString n).toList := by
  refine ⟨front, c, z, hc, ?_⟩
  have hdigits : (toString n).toList = Nat.toDigits 10 n := Nat.toList_repr
  rw [String.toList_append, hs, hdigits, List.append_assoc, List.cons_append]

theorem EndsIn.pad {s : String} (front : List Char) (c : Char)
    (hc : c.isDigit = false) (hs : s.toList = front ++ [c]) (w n : ℕ) :
    EndsIn n (s ++ Decimal.pad w n).toList := by
  refine ⟨front, c, w - (toString n).length, hc, ?_⟩
  rw [String.toList_append, hs, Decimal.toList_pad, List.append_assoc,
    List.singleton_append]

theorem formatId_endsIn : ∀ (kind : IdKind) (n : ℕ) (t : Instant),
    EndsIn n (formatId kind n t).toList
  | .req, n, t => .digits ("REQ-" ++ year t).toList '-' 1 (by decide) (by simp) n
  | .tkt, n, _ => .digits "TKT".toList '-' 1 (by decide) (by simp) n
  | .bill, n, _ => .digits "CF".toList '/' 0 (by decide) (by simp) n
  | .prq, n, t => .digits ("PRQ-" ++ year t).toList '-' 1 (by decide) (by simp) n
  | .po, n, t => .digits ("PO-" ++ year t).toList '-' 1 (by decide) (by simp) n
  | .prd, n, t => .digits ("PRD-" ++ year t).toList '-' 1 (by decide) (by simp) n
  | .batch, n, t => .pad ("BAT-" ++ ymd t).toList '-' (by decide) (by simp) _ n
  | .vendor, n, _ => .pad "VN".toList '-' (by decide) (by simp) _ n
  | .contract, n, _ => .digits "RC".toList '-' 0 (by decide) (by simp) n
  | .support, n, _ => .digits "SUP".toList '-' 2 (by decide) (by simp) n
  | .productReq, n, _ => .digits "NPR".toList '-' 2 (by decide) (by simp) n
  | .shopAsk, n, _ => .digits "ASK".toList '-' 1 (by decide) (by simp) n
  | .adj, n, t => .pad ("ADJ-" ++ year t).toList '-' (by decide) (by simp) _ n
  | .adjReq, n, t => .digits ("ADJREQ-" ++ year t).toList '-' 1 (by decide) (by simp) n
  | .priceList, n, _ => .pad "PL".toList '-' (by decide) (by simp) _ n
  | .settlement, n, t => .pad ("STL-" ++ year t).toList '-' (by decide) (by simp) _ n
  | .zReport, n, t => .pad ("Z-" ++ year t).toList '-' (by decide) (by simp) _ n
  | .shift, n, t => .pad ("SH-" ++ year t).toList '-' (by decide) (by simp) _ n
  | .role, n, _ => .pad "ROLE".toList '-' (by decide) (by simp) _ n
  | .qrOrder, n, t => .pad ("QO-" ++ year t).toList '-' (by decide) (by simp) _ n
  | .qrCode, n, _ => .pad "QR".toList '-' (by decide) (by simp) _ n
  | .wastage, n, t => .pad ("WST-" ++ year t).toList '-' (by decide) (by simp) _ n

/-- What was printed says which series it is of, and which number. -/
theorem formatId_injective {k k' : IdKind} {n n' : ℕ} {t t' : Instant}
    (h : formatId k n t = formatId k' n' t') : k = k' ∧ n = n' := by
  constructor
  · apply letters_injective
    rw [← formatId_letters k n t, h, formatId_letters]
  · rw [← (formatId_endsIn k n t).counter, h, (formatId_endsIn ..).counter]

/-! ## Receipts -/

theorem dash_notMem {ds : List Char} (h : ∀ c ∈ ds, c.isDigit = true) :
    '-' ∉ ds := by
  intro hdash
  exact absurd (h _ hdash) (by decide)

theorem isDigit_toDigits {n : ℕ} {c : Char} (h : c ∈ Nat.toDigits 10 n) :
    c.isDigit = true :=
  Nat.isDigit_of_mem_toDigits (by decide) (by decide) h

theorem ymd_eq (t : Instant) : ymd t =
    toString (calendarYear (civil (istDay t)).1) ++
      Decimal.pad 2 (civil (istDay t)).2.1 ++
      Decimal.pad 2 (civil (istDay t)).2.2 := rfl

theorem isDigit_ymd {t : Instant} {c : Char} (h : c ∈ (ymd t).toList) :
    c.isDigit = true := by
  have hyear (y : ℕ) : (toString y).toList = Nat.toDigits 10 y :=
    Nat.toList_repr
  rw [ymd_eq, String.toList_append, String.toList_append, hyear, List.mem_append,
    List.mem_append] at h
  rcases h with (h | h) | h
  · exact isDigit_toDigits h
  · exact Decimal.isDigit_pad h
  · exact Decimal.isDigit_pad h

theorem isDigit_year {t : Instant} {c : Char} (h : c ∈ (year t).toList) :
    c.isDigit = true := by
  rw [year, String.toList_ofList] at h
  exact isDigit_ymd (List.mem_of_mem_take h)

theorem length_pad (w n : ℕ) : w ≤ (Decimal.pad w n).toList.length := by
  have hlen : (toString n).length = (Nat.toDigits 10 n).length := by
    rw [← String.length_toList]
    exact congrArg _ Nat.toList_repr
  rw [Decimal.toList_pad, List.length_append, List.length_replicate, hlen]
  omega

theorem length_year (t : Instant) : (year t).toList.length = 4 := by
  have hmonth := length_pad 2 (civil (istDay t)).2.1
  have hday := length_pad 2 (civil (istDay t)).2.2
  rw [year, String.toList_ofList, List.length_take, ymd_eq,
    String.toList_append, String.toList_append, List.length_append,
    List.length_append]
  omega

/-- What an order's number gives its receipts: two digits of the year, and
the order's own. -/
def receiptTail (n : ℕ) (t : Instant) : List Char :=
  (year t).toList.drop 2 ++ '0' :: Nat.toDigits 10 n

theorem isDigit_zero_toDigits {n : ℕ} {c : Char}
    (h : c ∈ '0' :: Nat.toDigits 10 n) : c.isDigit = true := by
  rcases List.mem_cons.1 h with rfl | h
  · decide
  · exact isDigit_toDigits h

theorem dash_notMem_receiptTail (n : ℕ) (t : Instant) :
    '-' ∉ receiptTail n t := by
  refine dash_notMem fun c hc => ?_
  rcases List.mem_append.1 hc with hc | hc
  · exact isDigit_year (List.mem_of_mem_drop hc)
  · exact isDigit_zero_toDigits hc

theorem splitOn_formatId_po (n : ℕ) (t : Instant) :
    (formatId .po n t).toList.splitOn '-' =
      ["PO".toList, (year t).toList, '0' :: Nat.toDigits 10 n] := by
  have hshape : (formatId .po n t).toList = "PO".toList ++ '-' ::
      ((year t).toList ++ '-' :: '0' :: Nat.toDigits 10 n) := by
    simp [formatId]
  rw [hshape, List.splitOn_append_cons_self_of_not_mem (by decide),
    List.splitOn_append_cons_self_of_not_mem
      (dash_notMem fun _ => isDigit_year),
    List.splitOn_eq_singleton (dash_notMem fun _ => isDigit_zero_toDigits)]

theorem splitOn_grnId (n i : ℕ) (t : Instant) :
    (grnId (formatId .po n t) i).toList.splitOn '-' =
      ["GRN".toList, receiptTail n t, (Decimal.pad 2 i).toList] := by
  have hshape : (grnId (formatId .po n t) i).toList = "GRN".toList ++ '-' ::
      (receiptTail n t ++ '-' :: (Decimal.pad 2 i).toList) := by
    simp [grnId, splitOn_formatId_po, receiptTail]
  rw [hshape, List.splitOn_append_cons_self_of_not_mem (by decide),
    List.splitOn_append_cons_self_of_not_mem (dash_notMem_receiptTail n t),
    List.splitOn_eq_singleton (dash_notMem fun _ => Decimal.isDigit_pad)]

/-- The century an order's number is dated in: its year but for the last two
digits. -/
def century (t : Instant) : List Char := (year t).toList.take 2

theorem receiptTail_injective {n n' : ℕ} {t t' : Instant}
    (hc : century t = century t') (h : receiptTail n t = receiptTail n' t') :
    year t = year t' ∧ n = n' := by
  have hlen : ((year t).toList.drop 2).length =
      ((year t').toList.drop 2).length := by
    rw [List.length_drop, List.length_drop, length_year, length_year]
  obtain ⟨hyear, hdigits⟩ := List.append_inj h hlen
  constructor
  · apply String.toList_injective
    calc (year t).toList
        = century t ++ (year t).toList.drop 2 := (List.take_append_drop ..).symm
      _ = century t' ++ (year t').toList.drop 2 := by rw [hc, hyear]
      _ = (year t').toList := List.take_append_drop ..
  · have hval := congrArg (fun ds => Nat.ofDigitChars 10 ds 0)
      (List.cons.inj hdigits).2
    simpa only [Nat.ofDigitChars_ten_toDigits] using hval

/-- Over the orders of one century a receipt names its order and its
instalment. -/
theorem grnId_formatId_injective {n n' i i' : ℕ} {t t' : Instant}
    (hc : century t = century t')
    (h : grnId (formatId .po n t) i = grnId (formatId .po n' t') i') :
    formatId .po n t = formatId .po n' t' ∧ i = i' := by
  have hparts : ["GRN".toList, receiptTail n t, (Decimal.pad 2 i).toList] =
      ["GRN".toList, receiptTail n' t', (Decimal.pad 2 i').toList] := by
    rw [← splitOn_grnId, h, splitOn_grnId]
  simp only [List.cons.injEq, true_and, and_true] at hparts
  obtain ⟨hyear, hn⟩ := receiptTail_injective hc hparts.1
  constructor
  · simp only [formatId, hyear, hn]
  · exact Decimal.pad_injective 2 (String.toList_injective hparts.2)

theorem century_of_calendar {t t' : Instant}
    (h : 1000 ≤ (civil (istDay t)).1) (h' : 1000 ≤ (civil (istDay t')).1)
    (hc : (civil (istDay t)).1 / 100 = (civil (istDay t')).1 / 100) :
    century t = century t' := by
  have hdigits (m : ℕ) (hm : 1000 ≤ m) :
      (Nat.toDigits 10 m).take 2 = (Nat.toDigits 10 (m / 100)).take 2 := by
    have hten := Nat.toDigits_append_toDigits (b := 10) (n := m / 10)
      (d := m % 10) (by decide) (by omega) (by omega)
    have hhundred := Nat.toDigits_append_toDigits (b := 10) (n := m / 100)
      (d := m / 10 % 10) (by decide) (by omega) (by omega)
    rw [show 10 * (m / 10) + m % 10 = m from by omega] at hten
    rw [show 10 * (m / 100) + m / 10 % 10 = m / 10 from by omega] at hhundred
    have hlen : 2 ≤ (Nat.toDigits 10 (m / 100)).length := by
      by_contra hlen
      have := (Nat.length_toDigits_le_iff (b := 10) (n := m / 100) (k := 1)
        (by decide) (by decide)).1 (by omega)
      omega
    rw [← hten, ← hhundred, List.append_assoc, List.take_append_of_le_length hlen]
  have hcentury (t : Instant) (h : 1000 ≤ (civil (istDay t)).1) :
      century t =
        (Nat.toDigits 10 ((civil (istDay t)).1.toNat / 100)).take 2 := by
    have hyear : calendarYear (civil (istDay t)).1 =
        (civil (istDay t)).1.toNat := if_neg (by omega)
    have hprinted (y : ℕ) : (toString y).toList = Nat.toDigits 10 y :=
      Nat.toList_repr
    have hlen : 2 ≤ (Nat.toDigits 10 (civil (istDay t)).1.toNat).length := by
      by_contra hlen
      have := (Nat.length_toDigits_le_iff (b := 10)
        (n := (civil (istDay t)).1.toNat) (k := 1)
        (by decide) (by decide)).1 (by omega)
      omega
    rw [century, year, String.toList_ofList, List.take_take, ymd_eq, hyear,
      String.toList_append, String.toList_append, hprinted, List.append_assoc,
      ← hdigits _ (by omega)]
    exact List.take_append_of_le_length hlen
  have htoNat : (civil (istDay t)).1.toNat / 100 =
      (civil (istDay t')).1.toNat / 100 := by omega
  rw [hcentury t h, hcentury t' h', htoNat]

/-! ## One past the highest -/

/-- While every number seen has a double, the highest seen is the highest. -/
theorem see_foldl : ∀ (existing : List String) (m w : ℕ), m < 2 ^ 53 →
    (∀ n ∈ numbersIn "RC" existing, n < 2 ^ 53) →
    ∃ m' w', existing.foldl EmpSeen.see ⟨.finite m, w⟩ = ⟨.finite m', w'⟩ ∧
      m' < 2 ^ 53 ∧ m ≤ m' ∧ ∀ n ∈ numbersIn "RC" existing, n ≤ m' := by
  intro existing
  induction existing with
  | nil =>
      intro m w hm _
      exact ⟨m, w, rfl, hm, Nat.le_refl m, by simp [numbersIn]⟩
  | cons e existing ih =>
      intro m w hm hlow
      cases he : digitsAfter "RC" e with
      | none =>
          rw [numbersIn_none he] at hlow ⊢
          rw [List.foldl_cons, EmpSeen.see, he]
          exact ih m w hm hlow
      | some ds =>
          rw [numbersIn_some he] at hlow ⊢
          obtain ⟨hds, hlow⟩ := List.forall_mem_cons.1 hlow
          have hread : Whole.ofDigits ds =
              .finite (Nat.ofDigitChars 10 ds 0) :=
            Whole.ofNat_of_le (Nat.le_of_lt hds)
          rw [List.foldl_cons, EmpSeen.see, he]
          dsimp only
          rw [hread, Whole.max]
          obtain ⟨m', w', hfold, hm', hle, hall⟩ :=
            ih (Nat.max m (Nat.ofDigitChars 10 ds 0)) (Nat.max w ds.length)
              (Nat.max_lt.2 ⟨hm, hds⟩) hlow
          refine ⟨m', w', hfold, hm', ?_, List.forall_mem_cons.2 ⟨?_, hall⟩⟩
          · exact Nat.le_trans (Nat.le_max_left ..) hle
          · exact Nat.le_trans (Nat.le_max_right ..) hle

theorem nextEmpNo_fresh {existing : List String}
    (h : ∀ n ∈ numbersIn "RC" existing, n < 2 ^ 53) :
    nextEmpNo existing ∉ existing := by
  obtain ⟨m, w, hfold, hm, -, hall⟩ :=
    see_foldl existing 0 4 (by decide) h
  have hnext : nextEmpNo existing = "RC-" ++ Decimal.pad w (m + 1) := by
    rw [nextEmpNo, hfold, Whole.add, Whole.ofNat_of_le hm,
      Whole.text_of_le hm, padStart_toString]
  have hne : (Decimal.pad w (m + 1)).toList ≠ [] := by
    rw [Decimal.toList_pad]
    exact List.append_ne_nil_of_right_ne_nil _ Nat.toDigits_ne_nil
  have hshape : digitsAfter "RC" (nextEmpNo existing) =
      some (Decimal.pad w (m + 1)).toList := by
    refine digitsAfter_of ?_ hne
      (List.all_eq_true.2 fun _ => Decimal.isDigit_pad)
    rw [hnext, String.toList_append]
    rfl
  intro hmem
  have hle := hall _ (mem_numbersIn hmem hshape)
  rw [Decimal.ofDigitChars_pad] at hle
  omega

theorem nextCode_foldl (front : String) : ∀ (existing : List String) (k : ℕ),
    k ≤ 2 ^ 53 → (∀ n ∈ numbersIn front existing, n < 2 ^ 53) →
    ∃ k', existing.foldl (nextCode front) (.finite k) = .finite k' ∧
      k' ≤ 2 ^ 53 ∧ k ≤ k' ∧ ∀ n ∈ numbersIn front existing, n < k' := by
  intro existing
  induction existing with
  | nil =>
      intro k hk _
      exact ⟨k, rfl, hk, Nat.le_refl k, by simp [numbersIn]⟩
  | cons e existing ih =>
      intro k hk hlow
      cases he : digitsAfter front e with
      | none =>
          rw [numbersIn_none he] at hlow ⊢
          rw [List.foldl_cons, nextCode, he]
          exact ih k hk hlow
      | some ds =>
          rw [numbersIn_some he] at hlow ⊢
          obtain ⟨hds, hlow⟩ := List.forall_mem_cons.1 hlow
          have hread : (Whole.ofDigits ds).add 1 =
              .finite (Nat.ofDigitChars 10 ds 0 + 1) := by
            rw [Whole.ofDigits, Whole.ofNat_of_le (Nat.le_of_lt hds), Whole.add,
              Whole.ofNat_of_le hds]
          rw [List.foldl_cons, nextCode, he]
          dsimp only
          rw [hread, Whole.max]
          obtain ⟨k', hfold, hk', hle, hall⟩ :=
            ih (Nat.max k (Nat.ofDigitChars 10 ds 0 + 1))
              (Nat.max_le.2 ⟨hk, hds⟩) hlow
          refine ⟨k', hfold, hk', ?_, List.forall_mem_cons.2 ⟨?_, hall⟩⟩
          · exact Nat.le_trans (Nat.le_max_left ..) hle
          · exact Nat.le_trans (Nat.le_max_right ..) hle

theorem nextItemCode_fresh {type : ItemType} {existing : List String}
    (h : ∀ n ∈ numbersIn (itemCodePrefix type) existing, n < 2 ^ 53) :
    nextItemCode type existing ∉ existing := by
  have hfirst : (itemCodeSeries type).2 ≤ 2 ^ 53 := by cases type <;> decide
  obtain ⟨k, hfold, hk, -, hall⟩ :=
    nextCode_foldl (itemCodePrefix type) existing _ hfirst h
  have hdigits : (toString k).toList = Nat.toDigits 10 k := Nat.toList_repr
  have hnext : nextItemCode type existing =
      itemCodePrefix type ++ "-" ++ toString k := by
    rw [← Whole.text_of_le hk, ← hfold]
    rfl
  have hshape : digitsAfter (itemCodePrefix type) (nextItemCode type existing) =
      some (Nat.toDigits 10 k) := by
    refine digitsAfter_of ?_ Nat.toDigits_ne_nil
      (List.all_eq_true.2 fun _ => isDigit_toDigits)
    rw [hnext, String.toList_append, String.toList_append, hdigits,
      List.append_assoc]
    rfl
  intro hmem
  have hlt := hall _ (mem_numbersIn hmem hshape)
  rw [Nat.ofDigitChars_ten_toDigits] at hlt
  omega

/-! ## What the committed transactions drew -/

def Holds (x : Tx Numbers IdKind Unit) (k : IdKind) : Prop :=
  (⟨k, .noKeyUpdate⟩ : Lock IdKind) ∈ x.held

instance (x : Tx Numbers IdKind Unit) (k : IdKind) : Decidable (Holds x k) :=
  inferInstanceAs (Decidable (_ ∈ _))

/-- What an open transaction has drawn: from series it holds, each number past
the committed counter and before its own. -/
def Drawing (s : Numbers) (x : Tx Numbers IdKind Unit) : Prop :=
  ∃ (next : IdKind → ℕ) (drawn : List Drawn),
    (∀ s', x.write s' =
      { next := fun k => if Holds x k then next k else s'.next k
        printed := s'.printed ++ drawn.map Drawn.id }) ∧
    (∀ k, Holds x k → s.next k ≤ next k) ∧
    (∀ d ∈ drawn, Holds x d.kind ∧ s.next d.kind ≤ d.n ∧
      d.n < next d.kind) ∧
    (drawn.map fun d => (d.kind, d.n)).Nodup

/-- The numbers that stand are apart, each behind its series' counter. -/
structure Apart (s : Numbers) : Prop where
  nodup : s.printed.Nodup
  behind : ∀ id ∈ s.printed, ∃ k n t, id = formatId k n t ∧ n < s.next k

/-- No commit leaves a counter whose last number a double cannot hold. -/
def InDoubles (w : World Numbers IdKind Unit) :
    TxEvent (IdKind × Instant) Unit → Prop
  | .commit i => ∀ x, w.tx i = some x →
      ∀ k, (x.write w.committed).next k ≤ 2 ^ 53 + 1
  | _ => True

theorem Drawing.fresh (s : Numbers) : Drawing s (.fresh ()) := by
  refine ⟨s.next, [], fun s' => ?_, ?_, List.forall_mem_nil _, List.nodup_nil⟩
  · rw [List.map_nil, List.append_nil]
    rfl
  · intro k _
    exact Nat.le_refl _

/-- One more number is past every one the transaction has of its series. -/
theorem Drawing.draw {s : Numbers} {x : Tx Numbers IdKind Unit}
    {c : IdKind × Instant} {st : Stmt Numbers IdKind Unit} (hx : Drawing s x)
    (h : allocateNumber c (x.write s) = some st) : Drawing s (x.after st) := by
  obtain ⟨next, drawn, hwrite, hnext, hdrawn, hnodup⟩ := hx
  obtain ⟨k, t⟩ := c
  unfold allocateNumber at h
  split at h
  case isFalse => cases h
  cases h
  have hholds (j : IdKind) :
      Holds (x.after ⟨[⟨k, .noKeyUpdate⟩],
        Numbers.draw ⟨k, (x.write s).next k, t⟩, ()⟩) j ↔ j = k ∨ Holds x j := by
    simp [Holds, Tx.after]
  generalize hn : (x.write s).next k = n at hholds ⊢
  have hseen : n = if Holds x k then next k else s.next k := by
    rw [← hn, hwrite]
  have hpast : ∀ d ∈ drawn, d.kind = k → d.n < n := by
    intro d hd hk
    obtain ⟨hheld, -, hlt⟩ := hdrawn d hd
    rw [hk] at hheld hlt
    rwa [hseen, if_pos hheld]
  have hle : s.next k ≤ n := by
    rw [hseen]
    split
    · next hheld => exact hnext k hheld
    · exact Nat.le_refl _
  refine ⟨fun j => if j = k then n + 1 else next j, drawn ++ [⟨k, n, t⟩],
    fun s' => ?_, fun j hj => ?_, fun d hd => ?_, ?_⟩
  · change Numbers.draw ⟨k, n, t⟩ (x.write s') = _
    rw [hwrite, Numbers.draw, List.map_append, List.append_assoc]
    congr 1
    funext j
    by_cases hjk : j = k
    · simp [hholds, hjk]
    · simp [hholds, hjk]
  · change s.next j ≤ if j = k then n + 1 else next j
    by_cases hjk : j = k
    · rw [if_pos hjk, hjk]
      omega
    · rw [if_neg hjk]
      exact hnext j (((hholds j).1 hj).resolve_left hjk)
  · rcases List.mem_append.1 hd with hd | hd
    · obtain ⟨hheld, hlow, hlt⟩ := hdrawn d hd
      refine ⟨(hholds _).2 (.inr hheld), hlow, ?_⟩
      change d.n < if d.kind = k then n + 1 else next d.kind
      by_cases hk : d.kind = k
      · rw [if_pos hk]
        have := hpast d hd hk
        omega
      · rwa [if_neg hk]
    · obtain rfl := List.mem_singleton.1 hd
      refine ⟨(hholds _).2 (.inl rfl), hle, ?_⟩
      change n < if k = k then n + 1 else next k
      rw [if_pos rfl]
      exact Nat.lt_succ_self n
  · rw [List.map_append, List.nodup_append]
    refine ⟨hnodup, List.nodup_singleton _, fun p hp q hq hpq => ?_⟩
    obtain ⟨d, hd, rfl⟩ := List.mem_map.1 hp
    obtain rfl := List.mem_singleton.1 hq
    have hlt := hpast d hd (Prod.mk.inj hpq).1
    have heq : d.n = n := (Prod.mk.inj hpq).2
    omega

/-- Below `2 ^ 53` a drawing prints its own counter. -/
theorem Drawn.id_eq {d : Drawn} (h : d.n ≤ 2 ^ 53) :
    d.id = formatId d.kind d.n d.at_ := by
  have hround : nearest d.n = d.n := by
    have := Whole.ofNat_of_le h
    unfold Whole.ofNat at this
    split at this
    · exact Whole.finite.inj this
    · cases this
  rw [Drawn.id, hround, Whole.shown_of_le h]

theorem Apart.commit {s : Numbers} {x : Tx Numbers IdKind Unit} (hs : Apart s)
    (hx : Drawing s x) (hlow : ∀ k, (x.write s).next k ≤ 2 ^ 53 + 1) :
    Apart (x.write s) := by
  obtain ⟨next, drawn, hwrite, hnext, hdrawn, hnodup⟩ := hx
  have hcounter (k : IdKind) : (x.write s).next k =
      if Holds x k then next k else s.next k := by rw [hwrite]
  have hprinted : ∀ d ∈ drawn, d.id = formatId d.kind d.n d.at_ := by
    intro d hd
    obtain ⟨hheld, -, hlt⟩ := hdrawn d hd
    have hle := hlow d.kind
    rw [hcounter, if_pos hheld] at hle
    exact Drawn.id_eq (by omega)
  constructor
  · rw [hwrite, List.nodup_append]
    refine ⟨hs.nodup, ?_, ?_⟩
    · refine List.Nodup.map_on ?_ (List.Nodup.of_map _ hnodup)
      intro d hd d' hd' h
      rw [hprinted d hd, hprinted d' hd'] at h
      exact List.inj_on_of_nodup_map hnodup hd hd'
        (Prod.ext (formatId_injective h).1 (formatId_injective h).2)
    · intro id hid id' hid' h
      obtain ⟨k, n, t, rfl, hn⟩ := hs.behind id hid
      obtain ⟨d, hd, rfl⟩ := List.mem_map.1 hid'
      obtain ⟨-, hle, -⟩ := hdrawn d hd
      rw [hprinted d hd] at h
      obtain ⟨rfl, rfl⟩ := formatId_injective h
      omega
  · intro id hid
    rw [hwrite] at hid
    rcases List.mem_append.1 hid with hid | hid
    · obtain ⟨k, n, t, hid, hn⟩ := hs.behind id hid
      refine ⟨k, n, t, hid, ?_⟩
      rw [hcounter]
      split
      · next hheld => exact Nat.lt_of_lt_of_le hn (hnext k hheld)
      · exact hn
    · obtain ⟨d, hd, rfl⟩ := List.mem_map.1 hid
      obtain ⟨hheld, -, hlt⟩ := hdrawn d hd
      refine ⟨d.kind, d.n, d.at_, hprinted d hd, ?_⟩
      rwa [hcounter, if_pos hheld]

/-- Another transaction's commit moves no counter this one holds. -/
theorem Drawing.stable {s : Numbers} {x y : Tx Numbers IdKind Unit}
    (hx : Drawing s x) (hy : Drawing s y) (hapart : clash x.held y.held = false) :
    Drawing (x.write s) y := by
  obtain ⟨next, drawn, hwrite, -⟩ := hx
  have hstill {k : IdKind} (hk : Holds y k) : (x.write s).next k = s.next k := by
    rw [hwrite]
    refine if_neg fun hheld => ?_
    rw [clash_of_mem hheld hk (by decide)] at hapart
    cases hapart
  obtain ⟨next', drawn', hwrite', hnext', hdrawn', hnodup'⟩ := hy
  refine ⟨next', drawn', hwrite', fun k hk => ?_, fun d hd => ?_, hnodup'⟩
  · rw [hstill hk]
    exact hnext' k hk
  · obtain ⟨hheld, hle, hlt⟩ := hdrawn' d hd
    refine ⟨hheld, ?_, hlt⟩
    rwa [hstill hheld]

theorem numbering_kept : numbering.Kept InDoubles Apart Drawing where
  init s h := by
    constructor
    · rw [h.2]
      exact List.nodup_nil
    · rw [h.2]
      exact List.forall_mem_nil _
  begins s _ _ _ := Drawing.fresh s
  runs _ _ _ _ _ _ _ _ hx hst := hx.draw hst
  commits _ _ x hC hx hs hdraw _ := hs.commit hdraw (hC x hx)
  stable _ _ _ _ _ _ _ _ _ _ hx hy _ hapart := hx.stable hy hapart

/-! ## Every number once -/

/-- What stands on paper is apart, as long as no counter passes what a double
holds. A receipt's number is its order's and its instalment's alone. A next
employee number or item code is new whatever else the list holds, exactly
while the numbers of its shape stay where doubles are exact. -/
theorem numbers_apart (w : World Numbers IdKind Unit) (N : ℕ)
    (type : ItemType) :
    (numbering.machine.ReachVia InDoubles w → w.committed.printed.Nodup) ∧
    (∀ k k' n n' t t', formatId k n t = formatId k' n' t' →
      k = k' ∧ n = n') ∧
    (∀ n n' i i' t t', century t = century t' →
      grnId (formatId .po n t) i = grnId (formatId .po n' t') i' →
      formatId .po n t = formatId .po n' t' ∧ i = i') ∧
    ((∀ existing, (∀ n ∈ numbersIn "RC" existing, n < N) →
      nextEmpNo existing ∉ existing) ↔ N ≤ 2 ^ 53) ∧
    ((∀ existing,
      (∀ n ∈ numbersIn (itemCodePrefix type) existing, n < N) →
      nextItemCode type existing ∉ existing) ↔ N ≤ 2 ^ 53) := by
  refine ⟨fun hr => ?_, fun k k' n n' t t' => formatId_injective,
    fun n n' i i' t t' => grnId_formatId_injective, ⟨fun h => ?_,
    fun hN existing h => ?_⟩, ⟨fun h => ?_, fun hN existing h => ?_⟩⟩
  · exact (numbering_kept.safe hr).inv.nodup
  · by_contra hN
    refine h ["RC-9007199254740992"] ?_ (by decide +kernel)
    have hone : numbersIn "RC" ["RC-9007199254740992"] = [2 ^ 53] := by
      decide +kernel
    rw [hone, List.forall_mem_singleton]
    omega
  · exact nextEmpNo_fresh fun n hn => Nat.lt_of_lt_of_le (h n hn) hN
  · by_contra hN
    refine h [itemCodePrefix type ++ "-9007199254740992"] ?_
      (by cases type <;> decide +kernel)
    have hone : numbersIn (itemCodePrefix type)
        [itemCodePrefix type ++ "-9007199254740992"] = [2 ^ 53] := by
      cases type <;> decide +kernel
    rw [hone, List.forall_mem_singleton]
    omega
  · exact nextItemCode_fresh fun n hn => Nat.lt_of_lt_of_le (h n hn) hN

/-- The highest number a double can still count past is given again, and so
is the counter after it. -/
theorem highest_given_again :
    nextEmpNo ["RC-0001", "RC-9007199254740992"] ∈
      ["RC-0001", "RC-9007199254740992"] ∧
    nextItemCode .RAW ["RM-1001", "RM-9007199254740992"] ∈
      ["RM-1001", "RM-9007199254740992"] ∧
    Drawn.id ⟨.tkt, 2 ^ 53, 0⟩ = Drawn.id ⟨.tkt, 2 ^ 53 + 1, 0⟩ := by
  decide +kernel

/-! A ticket's number drawn and rolled back, and drawn again. -/

def ticketNumbers : Numbers := ⟨sequenceStart, []⟩

def ticketDraws : List (TxEvent (IdKind × Instant) Unit) :=
  [.begin_ (), .run 0 (.tkt, 0), .abort 0, .begin_ (), .run 1 (.tkt, 0),
    .run 1 (.req, 0), .commit 1, .begin_ (), .run 2 (.tkt, 0), .commit 2]

def IdKind.all : List IdKind :=
  [.req, .tkt, .bill, .prq, .po, .prd, .batch, .vendor, .contract, .support,
    .productReq, .shopAsk, .adj, .zReport, .adjReq, .priceList, .settlement,
    .shift, .role, .qrOrder, .qrCode, .wastage]

def smallCounters (w : World Numbers IdKind Unit) :
    TxEvent (IdKind × Instant) Unit → Bool
  | .commit i => (w.tx i).all fun x =>
      IdKind.all.all fun k =>
        decide ((x.write w.committed).next k ≤ 2 ^ 53 + 1)
  | _ => true

theorem smallCounters_sound (w : World Numbers IdKind Unit)
    (e : TxEvent (IdKind × Instant) Unit) (h : smallCounters w e = true) :
    InDoubles w e := by
  cases e with
  | commit i =>
      intro x hx k
      have hmem : k ∈ IdKind.all := by cases k <;> decide
      rw [smallCounters, hx, Option.all_some, List.all_eq_true] at h
      exact of_decide_eq_true (h k hmem)
  | begin_ | run | abort => trivial

theorem numbers_apart_tickets :
    (∃ w, numbering.machine.ReachVia InDoubles w ∧
      w.committed.printed = ["TKT-0441", "REQ-1970-0913", "TKT-0442"] ∧
      w.committed.printed.Nodup) ∧
    formatId .tkt 441 0 ≠ formatId .req 441 0 ∧
    grnId (formatId .po 143 0) 1 ≠ grnId (formatId .po 143 0) 2 ∧
    nextEmpNo ["RC-0001", "SYS-QR"] ∉ ["RC-0001", "SYS-QR"] ∧
    nextItemCode .RAW ["RM-1001", "milk"] ∉ ["RM-1001", "milk"] := by
  obtain ⟨-, hkinds, hgrn, hemp, -⟩ := numbers_apart ⟨ticketNumbers, []⟩ 2 .RAW
  refine ⟨?_, fun h => ?_, fun h => ?_, ?_, ?_⟩
  · have hany : (numbering.machine.runVia smallCounters ⟨ticketNumbers, []⟩
        ticketDraws).any (fun w => decide (w.committed.printed =
          ["TKT-0441", "REQ-1970-0913", "TKT-0442"])) = true := by
      decide +kernel
    obtain ⟨w, hw, hprinted⟩ := (Option.any_eq_true _ _).1 hany
    have hstart : ∀ k, 0 < ticketNumbers.next k := by
      intro k
      cases k <;> decide
    have hreach : numbering.machine.ReachVia InDoubles w :=
      Machine.reachVia_runVia smallCounters_sound
        (.init ⟨⟨hstart, rfl⟩, rfl⟩) hw
    exact ⟨w, hreach, of_decide_eq_true hprinted,
      (numbers_apart w 2 .RAW).1 hreach⟩
  · exact absurd (hkinds _ _ _ _ _ _ h).1 (by decide)
  · exact absurd (hgrn _ _ _ _ _ _ rfl h).2 (by decide)
  · exact hemp.2 (by decide) _ (by decide +kernel)
  · obtain ⟨-, -, -, -, hcode⟩ := numbers_apart ⟨ticketNumbers, []⟩ 1002 .RAW
    exact hcode.2 (by decide) _ (by decide +kernel)

end Rch
