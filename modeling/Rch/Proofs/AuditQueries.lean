import Rch.Audit.Log
import Rch.Screen.AuditTab

/-!
# What a query of the audit log finds

Every filter narrows, and they narrow together. An area finds the events whose
label is printed under it. A search finds its text, whatever signs it has in it,
in the target, the sentence, the name or the employee number, in any case.
-/

namespace Rch.AuditLog

open Kit

/-- Folding case makes no other character a pattern's sign. -/
def KeepsSigns (lower : Char → Char) : Prop :=
  ∀ c, (lower c = likeSigns.escape ↔ c = likeSigns.escape) ∧
    (lower c = likeSigns.many ↔ c = likeSigns.many) ∧
    (lower c = likeSigns.one ↔ c = likeSigns.one)

/-- The text occurs in the field, whatever the case of either. -/
def Occurs (env : LogEnv) (text field : String) : Prop :=
  text.toList.map env.lower <:+: field.toList.map env.lower

variable {env : LogEnv}

theorem searchFinds_iff (hlower : KeepsSigns env.lower) (text field : String) :
    searchFinds env text field = true ↔ Occurs env text field :=
  Like.ilike_quote (by decide) hlower text.toList field.toList

theorem labels_nodup : (AUDIT_LABELS.map Prod.fst).Nodup := by decide +kernel

theorem mem_actionsInGroup {action : String} {group : AuditGroup} {outcome : AuditOutcome} :
    action ∈ actionsInGroup group ↔ (auditLabelOf action outcome).2 = some group := by
  have hlabel : (auditLabelOf action outcome).2 =
      (AUDIT_LABELS.lookup action).map AuditLabel.group := by
    unfold auditLabelOf
    cases AUDIT_LABELS.lookup action <;> rfl
  rw [hlabel, Option.map_eq_some_iff, actionsInGroup, List.mem_map]
  constructor
  · rintro ⟨⟨a, l⟩, hmem, rfl⟩
    obtain ⟨hl, hg⟩ := List.mem_filter.1 hmem
    exact ⟨l, Table.mem_lookup labels_nodup hl, of_decide_eq_true hg⟩
  · rintro ⟨l, hl, hg⟩
    exact ⟨(action, l), List.mem_filter.2 ⟨Table.lookup_mem hl, decide_eq_true hg⟩, rfl⟩

theorem wantedActions_all {group : Option AuditGroup} {action : Option String}
    {name : String} : (wantedActions group action).all (fun l => decide (name ∈ l)) = true ↔
      (∀ g, group = some g → name ∈ actionsInGroup g) ∧
      (∀ a, action = some a → a ≠ "" → name = a) := by
  have hsaid : (∀ a, action = some a → a ≠ "" → name = a) ↔
      ∀ a, action.filter (fun a => decide (a ≠ "")) = some a → name = a := by
    simp only [Option.filter_eq_some_iff, decide_eq_true_eq, and_imp]
  rw [hsaid]
  unfold wantedActions
  cases action.filter fun a => decide (a ≠ "") with
  | none =>
      cases group with
      | none => simp
      | some g => simp
  | some a =>
      cases group with
      | none => simp
      | some g =>
          simp only [Option.all_some, decide_eq_true_eq, List.mem_filter,
            Option.some.injEq, forall_eq']

theorem all_iff {α : Type} {o : Option α} {p : α → Bool} :
    o.all p = true ↔ ∀ a, o = some a → p a = true := by
  cases o <;> simp

/-- What a query finds, filter by filter. -/
theorem audit_matching (hlower : KeepsSigns env.lower) {now : Instant} {q : AuditQuery}
    {f : AuditFilter} (hf : toFilter now q = .ok f) (e : StoredEvent) :
    matching env f e = true ↔
      (f.fromAt ≤ e.at_ ∧ e.at_ < f.toAt) ∧
      (∀ a, q.actor = some a → e.event.actor.id = some a) ∧
      (∀ r, q.role = some r → e.event.actor.role = r) ∧
      (∀ l, q.loc = some l → e.event.actor.loc = l ∨ e.event.targetLoc = l) ∧
      (∀ g, q.group = some g →
        (auditLabelOf e.event.action e.event.outcome).2 = some g) ∧
      (∀ a, q.action = some a → a ≠ "" → e.event.action = a) ∧
      (∀ o, q.outcome = some o → e.event.outcome = o) ∧
      (∀ raw, q.q = some raw → trim raw ≠ "" →
        Occurs env (trim raw) e.event.target ∨ Occurs env (trim raw) e.event.message ∨
        Occurs env (trim raw) e.event.actor.name ∨
        Occurs env (trim raw) e.event.actor.emp) := by
  simp only [toFilter, bind_ok, assertValid_ok, exists_const, pure_ok] at hf
  obtain ⟨fromAt, -, toStart, -, -, rfl⟩ := hf
  have htext : ((q.q.map trim).filter fun text => decide (text ≠ "")).all (fun text =>
      [e.event.target, e.event.message, e.event.actor.name, e.event.actor.emp].any
        (searchFinds env text)) = true ↔
      ∀ raw, q.q = some raw → trim raw ≠ "" →
        Occurs env (trim raw) e.event.target ∨ Occurs env (trim raw) e.event.message ∨
        Occurs env (trim raw) e.event.actor.name ∨
        Occurs env (trim raw) e.event.actor.emp := by
    rw [all_iff]
    constructor
    · intro h raw hraw hne
      have hfound := h (trim raw) (Option.filter_eq_some_iff.2
        ⟨by rw [hraw]; rfl, decide_eq_true hne⟩)
      simpa only [List.any_cons, List.any_nil, Bool.or_false, Bool.or_eq_true,
        searchFinds_iff hlower] using hfound
    · intro h text htext
      obtain ⟨hmap, hne⟩ := Option.filter_eq_some_iff.1 htext
      obtain ⟨raw, hraw, rfl⟩ := Option.map_eq_some_iff.1 hmap
      simpa only [List.any_cons, List.any_nil, Bool.or_false, Bool.or_eq_true,
        searchFinds_iff hlower] using h raw hraw (of_decide_eq_true hne)
  have harea : ∀ g, e.event.action ∈ actionsInGroup g ↔
      (auditLabelOf e.event.action e.event.outcome).2 = some g :=
    fun g => mem_actionsInGroup
  unfold matching
  simp only [Bool.and_eq_true, decide_eq_true_eq, htext, wantedActions_all, and_assoc]
  simp only [all_iff, decide_eq_true_eq, Bool.or_eq_true, harea]

/-- Folding the letters `A` to `Z` keeps the signs. -/
theorem keepsSigns_toLower : KeepsSigns Char.toLower := by
  have hsign : ∀ {s : Char}, s.toNat < 97 → (s.toNat < 65 ∨ 90 < s.toNat) →
      ∀ c : Char, c.toLower = s ↔ c = s := by
    intro s hs hletter c
    unfold Char.toLower
    split
    · next hupper =>
        have hlow : 65 ≤ c.toNat := UInt32.le_iff_toNat_le.1 hupper.1
        have hhigh : c.toNat ≤ 90 := UInt32.le_iff_toNat_le.1 hupper.2
        have hfold : (c.val + ('a'.val - 'A'.val)).toNat = c.toNat + 32 := by
          rw [UInt32.toNat_add]
          exact Nat.mod_eq_of_lt (by change c.toNat + 32 < 2 ^ 32; omega)
        constructor
        · intro h
          have hnat := congrArg Char.toNat h
          change (c.val + ('a'.val - 'A'.val)).toNat = s.toNat at hnat
          omega
        · intro h
          rw [h] at hlow hhigh
          omega
    · exact Iff.rfl
  exact fun c => ⟨hsign (by decide) (by decide) c, hsign (by decide) (by decide) c,
    hsign (by decide) (by decide) c⟩

def asciiEnv : LogEnv := ⟨Char.toLower, fun _ => ""⟩

def searchQuery : AuditQuery :=
  ⟨none, none, none, none, none, some .sales, none, none, some " 5% ", none, none⟩

def discounted : StoredEvent :=
  ⟨1, 1767225600000, ⟨"", "", ⟨none, "", "", "", ""⟩, "pay", "", "", "", "", .done, 200,
    "5% off", none, .null, .null, .null, [], "", ""⟩⟩

/-- A search for a sign finds the sign. -/
theorem audit_matching_percent : ∃ f, toFilter 1767225600000 searchQuery = .ok f ∧
    matching asciiEnv f discounted = true ∧
    (auditLabelOf "pay" .done).2 = some AuditGroup.sales := by
  have hany : (toFilter 1767225600000 searchQuery).toOption.any (fun f =>
      matching asciiEnv f discounted) = true := by decide +kernel
  obtain ⟨f, hf, hmatch⟩ := (Option.any_eq_true _ _).1 hany
  have hf := toOption_eq_some.1 hf
  have hfound := (audit_matching keepsSigns_toLower hf discounted).1 hmatch
  exact ⟨f, hf, hmatch, hfound.2.2.2.2.1 .sales rfl⟩

/-!
## The days a period covers

A day goes over the wire as it is written, and comes back as the instant the
hospital's midnight falls on. What lies between the bounds the log is asked for
is exactly what happened on the days asked for, first and last included, and for
a period that ends today those are so many days up to the hospital's own today.

A day is written with four digits of year, so the statements are about the years
that have them.
-/

theorem civil_eq : civil = Calendar.civil := rfl

theorem istDate_eq (t : Instant) : istDate t = Calendar.stamp (Calendar.civil (istDay t)) :=
  rfl

/-- The instant is in a year the calendar writes with four digits. -/
def Written (t : Instant) : Prop :=
  0 ≤ (civil (istDay t)).1 ∧ (civil (istDay t)).1 < 10000

theorem fits_civil {day : ℤ} (h : 0 ≤ (Calendar.civil day).1)
    (h' : (Calendar.civil day).1 < 10000) : Calendar.Fits (Calendar.civil day) := by
  obtain ⟨-, hm, -, hd⟩ := Calendar.civil_bounds day
  exact ⟨h, h', by omega, by omega⟩

def midnight (day : ℤ) : Instant := day * DAY_MS - 19800000

theorem istDay_midnight (day : ℤ) : istDay (midnight day) = day := by
  unfold istDay midnight DAY_MS
  omega

theorem midnight_le {day t : ℤ} : midnight day ≤ t ↔ day ≤ istDay t := by
  change day * 86400000 - 19800000 ≤ t ↔ day ≤ (t + 19800000) / 86400000
  omega

theorem lt_midnight {day t : ℤ} : t < midnight (day + 1) ↔ istDay t ≤ day := by
  change t < (day + 1) * 86400000 - 19800000 ↔ (t + 19800000) / 86400000 ≤ day
  omega

/-! ## A written day and its midnight -/

/-- A number is printed in four digits where it has that many. -/
theorem length_year {y : ℕ} : (toString y).length = 4 ↔ 1000 ≤ y ∧ y < 10000 := by
  have hdigits : (toString y).length = (Nat.toDigits 10 y).length := by
    rw [← String.length_toList]
    exact congrArg List.length Nat.toList_repr
  have hfour : (Nat.toDigits 10 y).length ≤ 4 ↔ y < 10 ^ 4 :=
    Nat.length_toDigits_le_iff (by decide) (by decide)
  have hthree : (Nat.toDigits 10 y).length ≤ 3 ↔ y < 10 ^ 3 :=
    Nat.length_toDigits_le_iff (by decide) (by decide)
  rw [hdigits]
  omega

theorem toString_year {y : ℕ} (h : 1000 ≤ y ∧ y < 10000) :
    toString y = Decimal.pad 4 y := by
  have hlen := length_year.2 h
  unfold Decimal.pad
  dsimp only
  rw [hlen]
  rfl

theorem istDayOf_eq {t : Instant} (h : 1000 ≤ (civil (istDay t)).1)
    (h' : (civil (istDay t)).1 < 10000) : istDayOf t = istDate t := by
  have hyear : calendarYear (civil (istDay t)).1 = (civil (istDay t)).1.toNat :=
    if_neg (by omega)
  unfold istDayOf
  dsimp only
  rw [hyear, toString_year (by omega)]
  rfl

theorem guard_pos {p : Prop} [Decidable p] (h : p) :
    (guard p : Option Unit) = some () := if_pos h

theorem istDayStart_stamp {day : ℤ} (h : 1000 ≤ (civil day).1)
    (h' : (civil day).1 < 10000) :
    istDayStart (Calendar.stamp (civil day)) = some (midnight day) := by
  obtain ⟨hm, hm', hd, hd'⟩ := Calendar.civil_bounds day
  have hnonneg : 0 ≤ (Calendar.civil day).1 := le_trans (by decide) h
  have hread := Calendar.readStamp_stamp (fits_civil hnonneg h')
  have hback : istDayOf (midnight day) = Calendar.stamp (civil day) := by
    rw [istDayOf_eq (by rwa [istDay_midnight]) (by rwa [istDay_midnight]), istDate_eq,
      istDay_midnight]
    rfl
  have hday : Calendar.dayOf (Calendar.civil day).1 (Calendar.civil day).2.1
      (Calendar.civil day).2.2 * DAY_MS - 19800000 = midnight day := by
    rw [Calendar.dayOf_civil]
    rfl
  unfold istDayStart
  rw [civil_eq] at hback ⊢
  rw [hread]
  simp only [Option.bind_eq_bind, Option.bind_some, hday, hback, if_true]
  rw [guard_pos ⟨hm, hm', hd, hd'⟩]
  rfl

/-- Whatever is read as a midnight is a written day's of the calendar. -/
theorem istDayStart_some {s : String} {t : Instant} (h : istDayStart s = some t) :
    ∃ day, t = midnight day ∧ 1000 ≤ (civil day).1 ∧ (civil day).1 < 10000 ∧
      s = Calendar.stamp (civil day) := by
  simp only [istDayStart, Option.bind_eq_bind, Option.bind_eq_some_iff] at h
  obtain ⟨date, hread, u, hguard, h⟩ := h
  split at h
  · next hback =>
      cases h
      obtain ⟨hlen, hyear⟩ := Calendar.readStamp_some hread
      have hguard : 1 ≤ date.2.1 ∧ date.2.1 ≤ 12 ∧ 1 ≤ date.2.2 ∧ date.2.2 ≤ 31 := by
        by_contra hno
        rw [show (guard _ : Option Unit) = none from if_neg hno] at hguard
        cases hguard
      have hnonneg := Calendar.civil_year_nonneg
        (Calendar.dayOf_bound hyear hguard.1 hguard.2.2.1)
      generalize Calendar.dayOf date.1 date.2.1 date.2.2 = day at *
      have hday : istDay (day * DAY_MS - 19800000) = day := istDay_midnight day
      obtain ⟨hm, hm', hd, hd'⟩ := Calendar.civil_bounds day
      -- ten characters leave four for the year
      have hfour : (toString (calendarYear (civil day).1)).length = 4 := by
        have hdash : ("-" : String).toList.length = 1 := rfl
        rw [← hback] at hlen
        unfold istDayOf at hlen
        dsimp only at hlen
        rw [hday, String.toList_append, String.toList_append, String.toList_append,
          String.toList_append, List.length_append, List.length_append, List.length_append,
          List.length_append, hdash, civil_eq,
          Calendar.length_pad (by decide) (show (Calendar.civil day).2.1 < 10 ^ 2 by omega),
          Calendar.length_pad (by decide) (show (Calendar.civil day).2.2 < 10 ^ 2 by omega),
          String.length_toList] at hlen
        rw [civil_eq]
        omega
      have hbounds := length_year.1 hfour
      have hpos : 0 < (civil day).1 := by
        rcases lt_or_eq_of_le hnonneg with hlt | heq
        · exact hlt
        · have hone : calendarYear (civil day).1 = 1 := by
            rw [civil_eq, ← heq]
            rfl
          omega
      have hsame : calendarYear (civil day).1 = (civil day).1.toNat := if_neg (by omega)
      rw [hsame] at hbounds
      have hlow : 1000 ≤ (civil day).1 := by omega
      have hhigh : (civil day).1 < 10000 := by omega
      refine ⟨day, rfl, hlow, hhigh, ?_⟩
      rw [← hback, istDayOf_eq (by rwa [hday]) (by rwa [hday]), istDate_eq, hday]
      rfl
  · cases h

/-! ## The bounds -/

/-- The log's bounds are the midnights of the days they were asked for by. -/
theorem bounds {f : TabFilter} {days : String × String} {before limit : Option ℕ}
    {now : Instant} {F : AuditFilter}
    (h : toFilter now (queryOver f days before limit) = .ok F) :
    ∃ toStart, istDayStart days.1 = some F.fromAt ∧ istDayStart days.2 = some toStart ∧
      F.toAt = nextIstDay toStart := by
  simp only [toFilter, queryOver, Option.getD_some, bind_ok, assertValid_ok, exists_const,
    pure_ok] at h
  obtain ⟨fromAt, hfrom, toStart, hto, -, rfl⟩ := h
  exact ⟨toStart, someOr_ok.1 hfrom, someOr_ok.1 hto, rfl⟩

/-- What lies between the bounds is what happened on the days, as they are
written. -/
theorem between_days {f : TabFilter} {days : String × String} {before limit : Option ℕ}
    {now t : Instant} {F : AuditFilter}
    (h : toFilter now (queryOver f days before limit) = .ok F) (ht : Written t) :
    (F.fromAt ≤ t ∧ t < F.toAt) ↔ days.1 ≤ istDate t ∧ istDate t ≤ days.2 := by
  obtain ⟨toStart, hfrom, hto, hend⟩ := bounds h
  obtain ⟨first, hfirst, hlow, hhigh, hwritten⟩ := istDayStart_some hfrom
  obtain ⟨last, hlast, hlow', hhigh', hwritten'⟩ := istDayStart_some hto
  have hnext : F.toAt = midnight (last + 1) := by
    rw [hend, hlast]
    unfold nextIstDay midnight
    ring
  have hfits := fits_civil ht.1 ht.2
  have hfits₁ : Calendar.Fits (Calendar.civil first) :=
    fits_civil (le_trans (by decide) hlow) hhigh
  have hfits₂ : Calendar.Fits (Calendar.civil last) :=
    fits_civil (le_trans (by decide) hlow') hhigh'
  rw [hfirst, hnext, midnight_le, lt_midnight, hwritten, hwritten', istDate_eq, civil_eq,
    Calendar.stamp_civil_le hfits₁ hfits, Calendar.stamp_civil_le hfits hfits₂]

/-! ## A period that ends today -/

/-- How many days before today a period starts, where it ends today. -/
def AuditPeriod.back : AuditPeriod → Option ℕ
  | .today => some 0
  | .week => some 6
  | .month => some 29
  | .custom => none

theorem civil_year_mono {day day' : ℤ} (h : day ≤ day') :
    (civil day).1 ≤ (civil day').1 := by
  rcases lt_or_eq_of_le h with hlt | rfl
  · have hbefore := Calendar.civil_before hlt
    unfold Calendar.Before at hbefore
    rw [civil_eq]
    omega
  · exact le_refl _

theorem daysBefore_stamp {day : ℤ} (n : ℕ) (h : 0 ≤ (civil day).1)
    (h' : (civil day).1 < 10000) :
    daysBefore (Calendar.stamp (civil day)) n =
      some (Calendar.stamp (civil (day - n))) := by
  have hread := Calendar.readStamp_stamp (fits_civil h h')
  have hday : istDay (day * DAY_MS - 19800000 - n * DAY_MS) = day - n := by
    unfold istDay DAY_MS
    omega
  rw [daysBefore, civil_eq, hread, Option.map_some, Calendar.dayOf_civil, istDate_eq, hday]

theorem range_back {f : TabFilter} {now : Instant} {n : ℕ}
    (hback : f.period.back = some n) (h : 0 ≤ (civil (istDay now)).1)
    (h' : (civil (istDay now)).1 < 10000) :
    f.range now = some (Calendar.stamp (civil (istDay now - n)),
      Calendar.stamp (civil (istDay now))) := by
  have htoday : istDate now = Calendar.stamp (civil (istDay now)) := istDate_eq now
  unfold TabFilter.range auditDayRange
  dsimp only
  rw [htoday]
  cases hp : f.period with
  | today =>
      rw [hp] at hback
      cases hback
      simp
  | week =>
      rw [hp] at hback
      cases hback
      rw [daysBefore_stamp 6 h h']
      rfl
  | month =>
      rw [hp] at hback
      cases hback
      rw [daysBefore_stamp 29 h h']
      rfl
  | custom =>
      rw [hp] at hback
      cases hback

theorem toFilter_accepts (f : TabFilter) (before limit : Option ℕ) (now : Instant)
    (days : String × String) {first last : Instant} (hfrom : istDayStart days.1 = some first)
    (hto : istDayStart days.2 = some last) (hle : first ≤ last) :
    ∃ F, toFilter now (queryOver f days before limit) = .ok F ∧ F.fromAt = first ∧
      F.toAt = nextIstDay last := by
  have hstart : dayStart days.1 = .ok first := someOr_ok.2 hfrom
  have hend : dayStart days.2 = .ok last := someOr_ok.2 hto
  cases hres : toFilter now (queryOver f days before limit) with
  | ok F =>
      obtain ⟨toStart, hfirst, hlast, hat⟩ := bounds hres
      cases hfrom.symm.trans hfirst
      cases hto.symm.trans hlast
      exact ⟨F, rfl, rfl, hat⟩
  | error e =>
      have hin : assertValid (first ≤ last) ("The period cannot start on " ++ days.1
          ++ ", after it ends on " ++ days.2 ++ ".") = .ok () := assertValid_ok.2 hle
      simp only [toFilter, queryOver, Option.getD_some, bind_error, pure_error, hstart, hend,
        Except.ok.injEq, reduceCtorEq, false_or, exists_eq_left', hin, and_false,
        exists_const] at hres

/-- The tab's period and the log's bounds: a period that ends today is accepted,
and is the days up to the hospital's own today, and any other is the days it
says, first and last included. -/
theorem audit_period {f : TabFilter} {before limit : Option ℕ} {now now' : Instant}
    (hlow : 1000 ≤ (civil (istDay now - 29)).1) (hhigh : (civil (istDay now)).1 < 10000) :
    (∀ n, f.period.back = some n → ∃ days F, f.range now = some days ∧
      toFilter now' (queryOver f days before limit) = .ok F ∧
      ∀ t : Instant, (F.fromAt ≤ t ∧ t < F.toAt) ↔
        istDay now - n ≤ istDay t ∧ istDay t ≤ istDay now) ∧
    (∀ days F, f.range now = some days →
      toFilter now' (queryOver f days before limit) = .ok F →
      ∀ t, Written t →
        ((F.fromAt ≤ t ∧ t < F.toAt) ↔ days.1 ≤ istDate t ∧ istDate t ≤ days.2)) := by
  refine ⟨fun n hback => ?_, fun days F _ hF t ht => between_days hF ht⟩
  have hn : n ≤ 29 := by
    cases hp : f.period <;> rw [hp] at hback <;> cases hback <;> decide
  have hfirst : 1000 ≤ (civil (istDay now - n)).1 :=
    hlow.trans (civil_year_mono (by omega))
  have hlast : 1000 ≤ (civil (istDay now)).1 :=
    hfirst.trans (civil_year_mono (by omega))
  have hhigh' : (civil (istDay now - n)).1 < 10000 :=
    (civil_year_mono (by omega)).trans_lt hhigh
  have hrange := range_back hback (le_trans (by decide) hlast) hhigh
  have hfrom := istDayStart_stamp hfirst hhigh'
  have hto := istDayStart_stamp hlast hhigh
  have hle : midnight (istDay now - n) ≤ midnight (istDay now) := by
    rw [midnight_le, istDay_midnight]
    omega
  obtain ⟨F, hF, hat, hend⟩ := toFilter_accepts f before limit now'
    (Calendar.stamp (civil (istDay now - n)), Calendar.stamp (civil (istDay now)))
    hfrom hto hle
  refine ⟨_, F, hrange, hF, fun t => ?_⟩
  have hnext : nextIstDay (midnight (istDay now)) = midnight (istDay now + 1) := by
    unfold nextIstDay midnight
    ring
  rw [hat, hend, hnext, midnight_le, lt_midnight]

/-- The week that ends on the first of January 2026. -/
theorem audit_period_week : ∃ days F,
    ({ initialFilter with period := .week } : TabFilter).range 1767225600000 = some days ∧
    toFilter 0 (queryOver { initialFilter with period := .week } days none none) = .ok F ∧
    ∀ t : Instant, (F.fromAt ≤ t ∧ t < F.toAt) ↔
      istDay 1767225600000 - (6 : ℕ) ≤ istDay t ∧ istDay t ≤ istDay 1767225600000 :=
  (audit_period (by decide +kernel) (by decide +kernel)).1 6 rfl

end Rch.AuditLog
