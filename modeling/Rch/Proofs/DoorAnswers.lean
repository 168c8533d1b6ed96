import Rch.Domain.Doors

/-!
# A door's answer is honest and monotone

A refusal names something the caller could still be given: an edit beside the
view they hold, or an action beside its screen. Giving it is again a set the desk
may hold, and it meets that very need, so the door opens.

Permissions only ever open doors. They could still narrow one, since the first
need met decides the scope and more permissions meet an earlier need; but on
every route of the manifest the hospital-wide needs come first.
-/

namespace Rch

/-! ## More permissions -/

def Level.le : Option Level → Option Level → Bool
  | none, _ => true
  | some .view, l => l.isSome
  | some .edit, l => decide (l = some .edit)

/-- Every feature at least as high, and every action. -/
structure Permissions.Le (perms perms' : Permissions) : Prop where
  f : ∀ f, Level.le (perms.f f) (perms'.f f) = true
  a : ∀ a ∈ perms.a, a ∈ perms'.a

theorem Level.le_refl (l : Option Level) : Level.le l l = true := by
  cases l with
  | none => rfl
  | some l => cases l <;> rfl

section More

variable {perms perms' : Permissions}

theorem Permissions.Le.can (h : perms.Le perms') {f : Feature} {l : Level}
    (hf : can perms f l = true) : Rch.can perms' f l = true := by
  have hle := h.f f
  unfold Rch.can at hf ⊢
  cases hheld : perms.f f with
  | none => rw [hheld] at hf; cases hf
  | some held =>
      rw [hheld] at hf hle
      cases hheld' : perms'.f f with
      | none =>
          rw [hheld'] at hle
          cases held <;> cases hle
      | some held' =>
          rw [hheld'] at hle
          -- an edit held is still an edit, and anything held is a view
          cases held with
          | edit =>
              rw [Option.some.inj (of_decide_eq_true hle)]
              exact hf
          | view =>
              cases l with
              | edit => cases hf
              | view => rfl

theorem Permissions.Le.holds (h : perms.Le perms') {a : Action}
    (ha : holds perms a = true) : Rch.holds perms' a = true :=
  decide_eq_true (h.a a (of_decide_eq_true ha))

theorem Permissions.Le.met (h : perms.Le perms') {n : Need}
    (hn : n.met perms = true) : n.met perms' = true := by
  cases n with
  | feature f l => exact h.can hn
  | action a => exact h.holds hn

end More

/-! ## What fits a desk -/

section Desk

variable {desk : Role} {perms : Permissions}

theorem mem_features (f : Feature) : f ∈ features := by
  cases f <;> decide

theorem featureRefusal_none {f : Feature} :
    featureRefusal desk perms f = none ↔
      ∀ l, perms.f f = some l → grantable desk f l = true := by
  unfold featureRefusal
  cases perms.f f with
  | none => simp
  | some l => simp

theorem actionRefusal_none {a : Action} :
    actionRefusal desk perms a = none ↔
      ((ACTIONS a).desks.all fun desks => decide (desk ∈ desks)) = true ∧
        ((ACTIONS a).parent.all fun f => can perms f .view) = true := by
  unfold actionRefusal
  cases (ACTIONS a).desks with
  | none => cases (ACTIONS a).parent <;> simp
  | some desks =>
      by_cases hdesk : desk ∈ desks
      · cases (ACTIONS a).parent <;> simp [hdesk]
      · simp [hdesk]

theorem grantRefusal_none :
    grantRefusal desk perms = none ↔
      (∀ f l, perms.f f = some l → grantable desk f l = true) ∧
        ∀ a ∈ perms.a, actionRefusal desk perms a = none := by
  unfold grantRefusal
  rw [Option.or_eq_none_iff, List.findSome?_eq_none_iff, List.findSome?_eq_none_iff]
  constructor
  · rintro ⟨hf, ha⟩
    exact ⟨fun f => featureRefusal_none.1 (hf f (mem_features f)), ha⟩
  · rintro ⟨hf, ha⟩
    exact ⟨fun f _ => featureRefusal_none.2 (hf f), ha⟩

theorem Permissions.Le.actionRefusal {perms' : Permissions} (h : perms.Le perms')
    {a : Action} (ha : actionRefusal desk perms a = none) :
    Rch.actionRefusal desk perms' a = none := by
  rw [actionRefusal_none] at ha ⊢
  refine ⟨ha.1, ?_⟩
  cases hp : (ACTIONS a).parent with
  | none => rfl
  | some f =>
      rw [hp] at ha
      exact h.can ha.2

end Desk

/-! ## Giving what was asked for -/

def Permissions.give (perms : Permissions) : Need → Permissions
  | .feature f l => { perms with f := Function.update perms.f f (some l) }
  | .action a => { perms with a := a :: perms.a }

theorem give_feature (perms : Permissions) (f : Feature) (l : Level) :
    (perms.give (.feature f l)).f = Function.update perms.f f (some l) := rfl

section Give

variable {desk : Role} {perms : Permissions} {n : Need}

theorem ask_feature {f : Feature} {l : Level}
    (h : (Need.ask desk perms (.feature f l)).isSome = true) :
    can perms f .view = true ∧ grantable desk f l = true := by
  rw [Need.ask] at h
  by_cases hc : (can perms f .view && grantable desk f l) = true
  · rwa [Bool.and_eq_true] at hc
  · rw [if_neg hc] at h
    cases h

theorem ask_action {a : Action}
    (h : (Need.ask desk perms (.action a)).isSome = true) :
    ((ACTIONS a).parent.any fun f => can perms f .view) = true ∧
      actionGrantable desk a = true := by
  rw [Need.ask] at h
  by_cases hc : ((ACTIONS a).parent.any (fun f => can perms f .view) &&
      actionGrantable desk a) = true
  · rwa [Bool.and_eq_true] at hc
  · rw [if_neg hc] at h
    cases h

theorem met_give (perms : Permissions) (n : Need) : n.met (perms.give n) = true := by
  cases n with
  | feature f l =>
      rw [Need.met, can, give_feature, Function.update_self]
      cases l <;> rfl
  | action a => exact decide_eq_true List.mem_cons_self

theorem le_give (hn : n.met perms = false)
    (hask : (n.ask desk perms).isSome = true) : perms.Le (perms.give n) := by
  cases n with
  | action a => exact ⟨fun f => Level.le_refl _, fun b hb => List.mem_cons_of_mem a hb⟩
  | feature f l =>
      refine ⟨fun g => ?_, fun a ha => ha⟩
      rw [give_feature]
      by_cases hg : g = f
      · -- held at view, and asked for at edit
        subst hg
        have hview := (ask_feature hask).1
        rw [Need.met, can] at hn
        rw [can] at hview
        rw [Function.update_self]
        cases hheld : perms.f g with
        | none => rfl
        | some held =>
            rw [hheld] at hn hview
            cases held with
            | view => rfl
            | edit => cases l <;> cases hn
      · rw [Function.update_of_ne hg]
        exact Level.le_refl _

theorem give_fits (hfit : grantRefusal desk perms = none)
    (hn : n.met perms = false) (hask : (n.ask desk perms).isSome = true) :
    grantRefusal desk (perms.give n) = none := by
  have hle := le_give hn hask
  rw [grantRefusal_none] at hfit ⊢
  cases n with
  | feature f l =>
      refine ⟨fun g lg hg => ?_, fun a ha => hle.actionRefusal (hfit.2 a ha)⟩
      rw [give_feature] at hg
      by_cases hgf : g = f
      · subst hgf
        rw [Function.update_self] at hg
        rw [← Option.some.inj hg]
        exact (ask_feature hask).2
      · rw [Function.update_of_ne hgf] at hg
        exact hfit.1 g lg hg
  | action a =>
      refine ⟨hfit.1, fun b hb => ?_⟩
      rcases List.mem_cons.1 hb with rfl | hb
      · obtain ⟨hparent, hgrant⟩ := ask_action hask
        unfold actionGrantable at hgrant
        rw [Bool.and_eq_true] at hgrant
        rw [actionRefusal_none]
        constructor
        · cases hd : (ACTIONS b).desks with
          | none => rfl
          | some desks =>
              rw [hd] at hgrant
              exact hgrant.1
        · cases hp : (ACTIONS b).parent with
          | none => rfl
          | some f =>
              rw [hp] at hparent
              exact hle.can hparent
      · exact hle.actionRefusal (hfit.2 b hb)

theorem nodup_give (hn : n.met perms = false) (h : perms.a.Nodup) :
    (perms.give n).a.Nodup := by
  cases n with
  | feature f l => exact h
  | action a => exact List.nodup_cons.2 ⟨of_decide_eq_false hn, h⟩

end Give

/-! ## The walk over the needs -/

section Needs

variable {desk : Role} {perms perms' : Permissions}

/-- Refused, and not because there is nothing here: some need was not met that
could be. -/
theorem admitsNeeds_forbidden {needs : List Need} {refusal : Option String}
    {m : String} (h : admitsNeeds desk perms refusal needs = .refused 403 m) :
    refusal.isSome = true ∨ ∃ n ∈ needs, n.met perms = false ∧
      (n.ask desk perms).isSome = true := by
  induction needs generalizing refusal with
  | nil =>
      cases refusal with
      | some r => exact .inl rfl
      | none => exact absurd h (by unfold admitsNeeds NOTHING; simp)
  | cons n needs ih =>
      rw [admitsNeeds] at h
      split at h
      · cases h
      · next hn =>
          rw [Bool.not_eq_true] at hn
          rcases ih h with hr | ⟨n', hmem, hmet, hask⟩
          · rw [Option.isSome_or, Bool.or_eq_true] at hr
            rcases hr with hr | hr
            · exact .inl hr
            · exact .inr ⟨n, List.mem_cons_self, hn, hr⟩
          · exact .inr ⟨n', List.mem_cons_of_mem _ hmem, hmet, hask⟩

theorem admitsNeeds_ok {needs : List Need} {refusal : Option String} :
    (∃ wide, admitsNeeds desk perms refusal needs = .ok wide) ↔
      ∃ n ∈ needs, n.met perms = true := by
  induction needs generalizing refusal with
  | nil =>
      constructor
      · rintro ⟨wide, h⟩
        cases refusal <;> cases h
      · rintro ⟨n, hn, -⟩
        cases hn
  | cons n needs ih =>
      rw [admitsNeeds]
      cases hn : n.met perms with
      | true =>
          rw [if_pos rfl]
          exact ⟨fun _ => ⟨n, List.mem_cons_self, hn⟩, fun _ => ⟨_, rfl⟩⟩
      | false =>
          rw [if_neg (by decide), ih]
          constructor
          · rintro ⟨n', hmem, hmet⟩
            exact ⟨n', List.mem_cons_of_mem _ hmem, hmet⟩
          · rintro ⟨n', hmem, hmet⟩
            rcases List.mem_cons.1 hmem with rfl | hmem
            · rw [hn] at hmet
              cases hmet
            · exact ⟨n', hmem, hmet⟩

/-- No hospital-wide need stands behind a local one. -/
def wideFirst : List Need → Bool
  | [] => true
  | n :: needs => (n.wide || needs.all fun n => !n.wide) && wideFirst needs

theorem admitsNeeds_local {needs : List Need} {refusal : Option String}
    (hlocal : (needs.all fun n => !n.wide) = true)
    (h : admitsNeeds desk perms refusal needs = .ok true) :
    holds perms .all_outlets = true := by
  induction needs generalizing refusal with
  | nil => cases refusal <;> cases h
  | cons n needs ih =>
      rw [List.all_cons, Bool.and_eq_true, Bool.not_eq_true'] at hlocal
      rw [admitsNeeds] at h
      split at h
      · rw [hlocal.1, Bool.false_or] at h
        exact Admitted.ok.inj h
      · exact ih hlocal.2 h

/-- With the wide needs first, more permissions keep the scope wide. -/
theorem admitsNeeds_wide (hle : perms.Le perms') {needs : List Need}
    {refusal refusal' : Option String} (hfirst : wideFirst needs = true)
    (h : admitsNeeds desk perms refusal needs = .ok true) :
    admitsNeeds desk perms' refusal' needs = .ok true := by
  induction needs generalizing refusal refusal' with
  | nil => cases refusal <;> cases h
  | cons n needs ih =>
      rw [wideFirst, Bool.and_eq_true] at hfirst
      rw [admitsNeeds]
      cases hwide : n.wide with
      | false =>
          -- everything from here on is local, so the caller has every outlet
          have hlocal : ((n :: needs).all fun n => !n.wide) = true := by
            rw [hwide, Bool.false_or] at hfirst
            rw [List.all_cons, hwide, hfirst.1]
            rfl
          have hall := hle.holds (admitsNeeds_local hlocal h)
          rw [hall, Bool.or_true]
          have hok := (@admitsNeeds_ok desk perms _ _).1 ⟨true, h⟩
          cases hn : n.met perms' with
          | true => rfl
          | false =>
              rw [if_neg (by decide)]
              rw [admitsNeeds] at h
              split at h
              · next hmet =>
                  rw [hle.met hmet] at hn
                  cases hn
              · exact ih hfirst.2 h
      | true =>
          cases hn : n.met perms' with
          | true => rfl
          | false =>
              rw [if_neg (by decide)]
              rw [admitsNeeds] at h
              split at h
              · next hmet =>
                  rw [hle.met hmet] at hn
                  cases hn
              · exact ih hfirst.2 h

end Needs

/-! ## The doors -/

def Access.wideFirst : Access → Bool
  | .needs parts => Rch.wideFirst parts
  | _ => true

theorem routes_wideFirst :
    ∀ route ∈ Contract.routes, route.2.wideFirst = true := by
  decide +kernel

section Answers

variable {access : Access} {desk : Role} {perms perms' : Permissions}

theorem admits_forbidden {m : String} (hfit : grantRefusal desk perms = none)
    (h : admits access desk perms = .refused 403 m) :
    ∃ perms', perms.Le perms' ∧ grantRefusal desk perms' = none ∧
      (perms.a.Nodup → perms'.a.Nodup) ∧
      ∃ wide, admits access desk perms' = .ok wide := by
  cases access with
  | public_ => cases h
  | any_ => cases h
  | admin => exact absurd h (by simp [admits, NOTHING])
  | desk desks =>
      rw [admits] at h
      split at h
      · cases h
      · exact absurd h (by simp [NOTHING])
  | needs parts =>
      rcases admitsNeeds_forbidden h with hr | ⟨n, hmem, hn, hask⟩
      · cases hr
      · exact ⟨perms.give n, le_give hn hask, give_fits hfit hn hask,
          nodup_give hn, admitsNeeds_ok.2 ⟨n, hmem, met_give perms n⟩⟩

theorem admits_more (hle : perms.Le perms') {wide : Bool}
    (h : admits access desk perms = .ok wide) :
    ∃ wide', admits access desk perms' = .ok wide' := by
  cases access with
  | public_ => exact ⟨_, rfl⟩
  | any_ => exact ⟨_, rfl⟩
  | admin => cases h
  | desk desks =>
      rw [admits] at h ⊢
      split at h
      · next hdesk =>
          rw [if_pos hdesk]
          exact ⟨_, rfl⟩
      · cases h
  | needs parts =>
      obtain ⟨n, hmem, hn⟩ := admitsNeeds_ok.1 ⟨wide, h⟩
      exact admitsNeeds_ok.2 ⟨n, hmem, hle.met hn⟩

theorem admits_wide (hle : perms.Le perms') (hfirst : access.wideFirst = true)
    (h : admits access desk perms = .ok true) :
    admits access desk perms' = .ok true := by
  cases access with
  | public_ => exact congrArg Admitted.ok (hle.holds (Admitted.ok.inj h))
  | any_ => exact congrArg Admitted.ok (hle.holds (Admitted.ok.inj h))
  | admin => cases h
  | desk desks =>
      rw [admits] at h ⊢
      split at h
      · next hdesk =>
          rw [if_pos hdesk]
          exact congrArg Admitted.ok (hle.holds (Admitted.ok.inj h))
      · cases h
  | needs parts => exact admitsNeeds_wide hle hfirst h

end Answers

/-- Told what to ask for, a caller can be given it and is then let in; more
permissions never shut a door, and on the routes there are they never narrow
one. -/
theorem doors_are_honest :
    (∀ access desk perms m, grantRefusal desk perms = none →
      admits access desk perms = .refused 403 m →
      ∃ perms', perms.Le perms' ∧ grantRefusal desk perms' = none ∧
        (perms.a.Nodup → perms'.a.Nodup) ∧
        ∃ wide, admits access desk perms' = .ok wide) ∧
      (∀ access desk perms perms' wide, grantRefusal desk perms = none →
        grantRefusal desk perms' = none → perms.Le perms' →
        admits access desk perms = .ok wide →
        ∃ wide', admits access desk perms' = .ok wide') ∧
      ∀ route ∈ Contract.routes, ∀ desk perms perms', perms.Le perms' →
        admits route.2 desk perms = .ok true →
        admits route.2 desk perms' = .ok true :=
  ⟨fun _ _ _ _ => admits_forbidden,
    fun _ _ _ _ _ _ _ hle => admits_more hle,
    fun route hroute _ _ _ hle => admits_wide hle (routes_wideFirst route hroute)⟩

/-- A manager who sees the bills, and one who may void them besides. -/
def billsSeen : Permissions where
  f f := if f = .billing then some .view else none
  a := []

theorem doors_are_honest_void :
    ∃ perms', billsSeen.Le perms' ∧ grantRefusal .manager perms' = none ∧
      (billsSeen.a.Nodup → perms'.a.Nodup) ∧
      ∃ wide, admits (Contract.act .void_bill) .manager perms' = .ok wide :=
  doors_are_honest.1 _ _ billsSeen (ACTIONS .void_bill).refusal (by decide)
    (by decide)

end Rch
